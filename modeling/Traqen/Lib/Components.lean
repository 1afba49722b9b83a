-- The component of a vertex, walked with a stack: a vertex that is popped for the first time joins
-- the component, and its neighbours go on the stack. Where neighbours are mutual, the vertices fall
-- into components that are disjoint or the same.
import Mathlib

namespace Js.Components

variable {α : Type*} [DecidableEq α] (next : α → List α)

/-- The loop over the stack, whose top comes first, with fuel for every pop. -/
def walk : Nat → List α → List α → Option (List α)
  | _, [], component => some component
  | 0, _ :: _, _ => none
  | n + 1, x :: pending, component =>
    if x ∈ component then walk n pending component
    else walk n ((next x).reverse ++ pending) (component ++ [x])

/-- What is still to be pushed: the neighbours of the vertices outside of the component. -/
def unpushed (vertices component : List α) : Nat :=
  ((vertices.filter fun x => x ∉ component).map fun x => (next x).length).sum

/-- Fuel for the walk from one vertex: every neighbour of every vertex is popped once. -/
def componentOf (vertices : List α) (x : α) : List α :=
  (walk next (1 + (vertices.map fun v => (next v).length).sum) [x] []).getD []

theorem unpushed_cons (v : α) (vs component : List α) :
    unpushed next (v :: vs) component =
      (if v ∈ component then 0 else (next v).length) + unpushed next vs component := by
  unfold unpushed
  by_cases hv : v ∈ component
  · simp [hv]
  · simp [hv]

theorem unpushed_mono (vs component : List α) (x : α) :
    unpushed next vs (component ++ [x]) ≤ unpushed next vs component := by
  induction vs with
  | nil => exact Nat.le_refl _
  | cons v vs ih =>
    rw [unpushed_cons, unpushed_cons]
    apply Nat.add_le_add _ ih
    by_cases hv : v ∈ component
    · simp [hv]
    · rw [if_neg hv]
      split
      · exact Nat.zero_le _
      · exact Nat.le_refl _

/-- A vertex that joins has its neighbours pushed, and never again. -/
theorem unpushed_join {vertices component : List α} {x : α} (hx : x ∈ vertices)
    (hnew : x ∉ component) :
    unpushed next vertices (component ++ [x]) + (next x).length ≤
      unpushed next vertices component := by
  induction vertices with
  | nil => cases hx
  | cons v vs ih =>
    rw [unpushed_cons, unpushed_cons]
    by_cases hvx : v = x
    · have hrest := unpushed_mono next vs component x
      rw [hvx, if_neg hnew, if_pos (List.mem_append_right _ (List.mem_singleton_self x))]
      omega
    · have hrest := ih ((List.mem_cons.mp hx).resolve_left (Ne.symm hvx))
      have hsame : v ∈ component ++ [x] ↔ v ∈ component := by simp [hvx]
      by_cases hv : v ∈ component
      · rw [if_pos hv, if_pos (hsame.mpr hv)]
        omega
      · rw [if_neg hv, if_neg (fun h => hv (hsame.mp h))]
        omega

theorem walk_ends {vertices : List α} (hnext : ∀ x, ∀ y ∈ next x, y ∈ vertices) (n : Nat)
    (pending component : List α) (hpending : ∀ x ∈ pending, x ∈ vertices)
    (h : pending.length + unpushed next vertices component ≤ n) :
    ∃ r, walk next n pending component = some r := by
  induction n generalizing pending component with
  | zero =>
    cases pending with
    | nil => exact ⟨component, rfl⟩
    | cons x pending => simp at h
  | succ n ih =>
    cases pending with
    | nil => exact ⟨component, rfl⟩
    | cons x pending =>
      have hrest : ∀ y ∈ pending, y ∈ vertices := fun y hy =>
        hpending y (List.mem_cons_of_mem x hy)
      rw [List.length_cons] at h
      unfold walk
      by_cases hx : x ∈ component
      · rw [if_pos hx]
        exact ih pending component hrest (by omega)
      · rw [if_neg hx]
        have hjoin := unpushed_join next (hpending x List.mem_cons_self) hx
        apply ih
        · intro y hy
          rcases List.mem_append.mp hy with hy | hy
          · exact hnext x y (List.mem_reverse.mp hy)
          · exact hrest y hy
        · rw [List.length_append, List.length_reverse]
          omega

/-- `y` is a neighbour of `x`. -/
def Neighbour (x y : α) : Prop := y ∈ next x

/-- The neighbours of the component are in it or on the stack, and both are reached. -/
structure Walked (start : α) (pending component : List α) : Prop where
  nodup : component.Nodup
  started : start ∈ component ∨ start ∈ pending
  closed : ∀ x ∈ component, ∀ y ∈ next x, y ∈ component ∨ y ∈ pending
  reached : ∀ x, x ∈ component ∨ x ∈ pending → Relation.ReflTransGen (Neighbour next) start x

variable {next} {start : α} {pending component : List α}

omit [DecidableEq α] in
theorem walked_skip {x : α} (h : Walked next start (x :: pending) component)
    (hx : x ∈ component) : Walked next start pending component where
  nodup := h.nodup
  started := by
    rcases h.started with hs | hs
    · exact Or.inl hs
    · rcases List.mem_cons.mp hs with rfl | hs
      · exact Or.inl hx
      · exact Or.inr hs
  closed y hy z hz := by
    rcases h.closed y hy z hz with hz | hz
    · exact Or.inl hz
    · rcases List.mem_cons.mp hz with rfl | hz
      · exact Or.inl hx
      · exact Or.inr hz
  reached y hy := h.reached y (hy.imp id (List.mem_cons_of_mem x))

omit [DecidableEq α] in
theorem walked_join {x : α} (h : Walked next start (x :: pending) component)
    (hx : x ∉ component) :
    Walked next start ((next x).reverse ++ pending) (component ++ [x]) where
  nodup := by
    rw [List.nodup_append]
    refine ⟨h.nodup, by simp, fun y hy z hz => ?_⟩
    rw [List.mem_singleton.mp hz]
    exact fun heq => hx (heq ▸ hy)
  started := by
    rcases h.started with hs | hs
    · exact Or.inl (List.mem_append_left _ hs)
    · rcases List.mem_cons.mp hs with rfl | hs
      · exact Or.inl (List.mem_append_right _ (List.mem_singleton_self _))
      · exact Or.inr (List.mem_append_right _ hs)
  closed y hy z hz := by
    rcases List.mem_append.mp hy with hy | hy
    · rcases h.closed y hy z hz with hz | hz
      · exact Or.inl (List.mem_append_left _ hz)
      · rcases List.mem_cons.mp hz with rfl | hz
        · exact Or.inl (List.mem_append_right _ (List.mem_singleton_self _))
        · exact Or.inr (List.mem_append_right _ hz)
    · rw [List.mem_singleton.mp hy] at hz
      exact Or.inr (List.mem_append_left _ (List.mem_reverse.mpr hz))
  reached y hy := by
    have hreach : Relation.ReflTransGen (Neighbour next) start x :=
      h.reached x (Or.inr List.mem_cons_self)
    rcases hy with hy | hy
    · rcases List.mem_append.mp hy with hy | hy
      · exact h.reached y (Or.inl hy)
      · rw [List.mem_singleton.mp hy]
        exact hreach
    · rcases List.mem_append.mp hy with hy | hy
      · exact hreach.tail (List.mem_reverse.mp hy)
      · exact h.reached y (Or.inr (List.mem_cons_of_mem x hy))

theorem walk_walked {n : Nat} {r : List α} (h : Walked next start pending component)
    (hr : walk next n pending component = some r) : Walked next start [] r := by
  induction n generalizing pending component with
  | zero =>
    cases pending with
    | nil =>
      cases hr
      exact h
    | cons x pending => cases hr
  | succ n ih =>
    cases pending with
    | nil =>
      cases hr
      exact h
    | cons x pending =>
      unfold walk at hr
      by_cases hx : x ∈ component
      · rw [if_pos hx] at hr
        exact ih (walked_skip h hx) hr
      · rw [if_neg hx] at hr
        exact ih (walked_join h hx) hr

section Component

variable {vertices : List α} (hnext : ∀ x, ∀ y ∈ next x, y ∈ vertices)

include hnext

theorem componentOf_walked {x : α} (hx : x ∈ vertices) :
    Walked next x [] (componentOf next vertices x) := by
  have hfuel : [x].length + unpushed next vertices [] ≤
      1 + (vertices.map fun v => (next v).length).sum := by
    simp [unpushed]
  obtain ⟨r, hr⟩ := walk_ends next hnext _ [x] []
    (fun y hy => by rw [List.mem_singleton.mp hy]; exact hx) hfuel
  have hstart : Walked next x [x] [] := by
    refine ⟨List.nodup_nil, Or.inr (List.mem_singleton_self x), fun y hy => absurd hy
      List.not_mem_nil, fun y hy => ?_⟩
    rcases hy with hy | hy
    · cases hy
    · rw [List.mem_singleton.mp hy]
  unfold componentOf
  rw [hr]
  exact walk_walked hstart hr

/-- The component of a vertex is all that it reaches. -/
theorem mem_componentOf {x : α} (hx : x ∈ vertices) {y : α} :
    y ∈ componentOf next vertices x ↔ Relation.ReflTransGen (Neighbour next) x y := by
  have hwalked := componentOf_walked hnext hx
  constructor
  · exact fun hy => hwalked.reached y (Or.inl hy)
  · intro hreach
    induction hreach with
    | refl => exact hwalked.started.resolve_right List.not_mem_nil
    | tail _ hstep ih => exact (hwalked.closed _ ih _ hstep).resolve_right List.not_mem_nil

theorem nodup_componentOf {x : α} (hx : x ∈ vertices) :
    (componentOf next vertices x).Nodup :=
  (componentOf_walked hnext hx).nodup

/-- Where neighbours are mutual, a member of a component has the same component. -/
theorem perm_componentOf (hmutual : ∀ x y, y ∈ next x → x ∈ next y) {x y : α} (hx : x ∈ vertices)
    (hy : y ∈ vertices) (hmem : y ∈ componentOf next vertices x) :
    (componentOf next vertices x).Perm (componentOf next vertices y) := by
  have hsymm : Std.Symm (Relation.ReflTransGen (Neighbour next)) := by
    have : Std.Symm (Neighbour next) := ⟨hmutual⟩
    infer_instance
  have hreach := (mem_componentOf hnext hx).mp hmem
  rw [List.perm_ext_iff_of_nodup (nodup_componentOf hnext hx) (nodup_componentOf hnext hy)]
  intro z
  rw [mem_componentOf hnext hx, mem_componentOf hnext hy]
  exact ⟨(hsymm.symm _ _ hreach).trans, hreach.trans⟩

end Component

end Js.Components
