-- Depth-first search with a stack of frames, and the order in which it finishes the vertices. A
-- vertex that leads to a later one, through vertices before that one, can be reached back from it.
import Mathlib
import Traqen.Lib.Components

namespace Js.FinishingOrder

open Relation (ReflTransGen TransGen)

variable {α : Type*} [DecidableEq α] (next : α → List α)

/-- The loop over the frames, whose top comes first: a vertex and how many of its neighbours were
taken. With fuel for every turn. -/
def walk : Nat → List (α × Nat) → List α × List α → Option (List α × List α)
  | _, [], s => some s
  | 0, _ :: _, _ => none
  | fuel + 1, (id, taken) :: frames, (visited, order) =>
    match (next id)[taken]? with
    | some b =>
      if b ∈ visited then walk fuel ((id, taken + 1) :: frames) (visited, order)
      else walk fuel ((b, 0) :: (id, taken + 1) :: frames) (visited ++ [b], order)
    | none => walk fuel frames (visited, order ++ [id])

/-- The loop over the roots. -/
def orderFrom (fuel : Nat) : List α → List α × List α → Option (List α × List α)
  | [], s => some s
  | root :: roots, (visited, order) =>
    if root ∈ visited then orderFrom fuel roots (visited, order)
    else (walk next fuel [(root, 0)] (visited ++ [root], order)).bind (orderFrom fuel roots)

/-- The turns that a search of all the vertices takes. -/
def turns (vertices : List α) : Nat := (vertices.map fun v => (next v).length + 1).sum

/-! ## Termination -/

/-- What is left to do for the frames. -/
def pending (frames : List (α × Nat)) : Nat :=
  (frames.map fun f => (next f.1).length - f.2 + 1).sum

/-- What is left to do for the vertices that were not visited: the vertex and its neighbours. -/
def unvisited (vertices visited : List α) : Nat :=
  Components.unpushed (fun v => v :: next v) vertices visited

variable {next} {vertices visited order : List α} {frames : List (α × Nat)}

/-- Enough fuel for what is left. -/
theorem walk_ends (hnext : ∀ x ∈ vertices, ∀ y ∈ next x, y ∈ vertices) (fuel : Nat)
    (hframes : ∀ f ∈ frames, f.1 ∈ vertices)
    (h : pending next frames + unvisited next vertices visited ≤ fuel) :
    ∃ s, walk next fuel frames (visited, order) = some s := by
  induction fuel generalizing frames visited order with
  | zero =>
    cases frames with
    | nil => exact ⟨_, rfl⟩
    | cons f frames => simp [pending] at h
  | succ fuel ih =>
    rcases frames with - | ⟨⟨id, taken⟩, frames⟩
    · exact ⟨_, rfl⟩
    · have hid := hframes (id, taken) List.mem_cons_self
      have hrest : ∀ f ∈ frames, f.1 ∈ vertices := fun f hf => hframes f (List.mem_cons_of_mem _ hf)
      have hagain : ∀ f ∈ (id, taken + 1) :: frames, f.1 ∈ vertices := by
        intro f hf
        rcases List.mem_cons.mp hf with rfl | hf
        · exact hid
        · exact hrest f hf
      unfold walk
      simp only [pending, List.map_cons, List.sum_cons] at h
      cases htaken : (next id)[taken]? with
      | none =>
        apply ih hrest
        unfold pending
        omega
      | some b =>
        obtain ⟨hlt, heq⟩ := List.getElem?_eq_some_iff.mp htaken
        have hb : b ∈ next id := heq ▸ List.getElem_mem hlt
        dsimp only
        split
        · apply ih hagain
          simp only [pending, List.map_cons, List.sum_cons]
          omega
        · next hnew =>
          have hvisit := Components.unpushed_join (fun v => v :: next v) (hnext id hid b hb) hnew
          rw [List.length_cons] at hvisit
          unfold unvisited at h
          apply ih
          · intro f hf
            rcases List.mem_cons.mp hf with rfl | hf
            · exact hnext id hid b hb
            · exact hagain f hf
          · simp only [pending, unvisited, List.map_cons, List.sum_cons]
            omega

/-! ## The order -/

/-- `b` is a neighbour of `a`. -/
def Follows (next : α → List α) (a b : α) : Prop := b ∈ next a

/-- A step from one of the vertices. -/
def Through (next : α → List α) (inside : List α) (a b : α) : Prop := a ∈ inside ∧ Follows next a b

/-- A list of vertices as a search finishes them: from each there is a way back to the vertices that
lead to it through those before it. -/
inductive Finishing (next : α → List α) : List α → Prop
  | nil : Finishing next []
  | snoc {order : List α} {a : α} (before : Finishing next order)
      (back : ∀ x, TransGen (Through next order) x a → ReflTransGen (Follows next) a x) :
      Finishing next (order ++ [a])

omit [DecidableEq α] in
theorem Finishing.back {rest : List α} {a : α} (h : Finishing next (order ++ a :: rest)) {x : α}
    (hx : TransGen (Through next order) x a) : ReflTransGen (Follows next) a x := by
  induction rest using List.reverseRecOn with
  | nil =>
    generalize hlist : order ++ [a] = list at h
    cases h with
    | nil => simp at hlist
    | snoc before back =>
      obtain ⟨rfl, hlast⟩ := List.append_inj' hlist rfl
      obtain rfl := List.singleton_inj.mp hlast
      exact back x hx
  | append_singleton rest b ih =>
    generalize hlist : order ++ a :: (rest ++ [b]) = list at h
    cases h with
    | nil => simp at hlist
    | @snoc front last before back =>
      have hsplit : (order ++ a :: rest) ++ [b] = front ++ [last] := by simpa using hlist
      obtain ⟨rfl, -⟩ := List.append_inj' hsplit rfl
      exact ih before

omit [DecidableEq α] in
/-- A way through one vertex more passes it or does not. -/
theorem through_snoc {a b x : α} (h : TransGen (Through next (order ++ [a])) x b) :
    TransGen (Through next order) x b ∨ x = a ∨ TransGen (Through next order) x a := by
  induction h using TransGen.head_induction_on with
  | single hstep =>
    obtain ⟨hmem, hfollows⟩ := hstep
    rcases List.mem_append.mp hmem with hmem | hmem
    · exact Or.inl (.single ⟨hmem, hfollows⟩)
    · exact Or.inr (Or.inl (List.mem_singleton.mp hmem))
  | head hstep _ ih =>
    obtain ⟨hmem, hfollows⟩ := hstep
    rcases List.mem_append.mp hmem with hmem | hmem
    · rcases ih with ih | ih | ih
      · exact Or.inl (.head ⟨hmem, hfollows⟩ ih)
      · exact Or.inr (Or.inr (.single ⟨hmem, ih ▸ hfollows⟩))
      · exact Or.inr (Or.inr (.head ⟨hmem, hfollows⟩ ih))
    · exact Or.inr (Or.inl (List.mem_singleton.mp hmem))

/-- What the search holds between two turns. -/
structure Searched (next : α → List α) (vertices : List α) (frames : List (α × Nat))
    (visited order : List α) : Prop where
  finishing : Finishing next order
  within : visited ⊆ vertices
  covered : ∀ x, x ∈ visited ↔ x ∈ order ∨ ∃ f ∈ frames, f.1 = x
  closed : ∀ x ∈ order, ∀ y ∈ next x, y ∈ visited
  taken : ∀ f ∈ frames, ∀ y ∈ (next f.1).take f.2, y ∈ visited
  chain : frames.Pairwise fun upper lower => ReflTransGen (Follows next) lower.1 upper.1
  back : ∀ f ∈ frames, ∀ x, TransGen (Through next order) x f.1 →
    ReflTransGen (Follows next) f.1 x

variable {id b : α} {taken : Nat}

omit [DecidableEq α] in
theorem mem_take_succ {xs : List α} {n : Nat} {b y : α} (h : xs[n]? = some b) :
    y ∈ xs.take (n + 1) ↔ y ∈ xs.take n ∨ y = b := by
  rw [List.take_add_one, h, List.mem_append]
  simp

variable (h : Searched next vertices ((id, taken) :: frames) visited order)
include h

omit [DecidableEq α] in
/-- A neighbour that was visited before. -/
theorem Searched.skip (hb : (next id)[taken]? = some b) (hvisited : b ∈ visited) :
    Searched next vertices ((id, taken + 1) :: frames) visited order where
  finishing := h.finishing
  within := h.within
  covered x := by
    rw [h.covered x]
    simp
  closed := h.closed
  taken f hf y hy := by
    rcases List.mem_cons.mp hf with rfl | hf
    · rcases (mem_take_succ hb).mp hy with hy | rfl
      · exact h.taken (id, taken) List.mem_cons_self y hy
      · exact hvisited
    · exact h.taken f (List.mem_cons_of_mem _ hf) y hy
  chain := by
    obtain ⟨htop, hrest⟩ := List.pairwise_cons.mp h.chain
    exact List.pairwise_cons.mpr ⟨htop, hrest⟩
  back f hf := by
    rcases List.mem_cons.mp hf with rfl | hf
    · exact h.back (id, taken) List.mem_cons_self
    · exact h.back f (List.mem_cons_of_mem _ hf)

omit [DecidableEq α] in
/-- A neighbour that was not. -/
theorem Searched.push
    (hb : (next id)[taken]? = some b) (hnew : b ∉ visited) (hvertex : b ∈ vertices) :
    Searched next vertices ((b, 0) :: (id, taken + 1) :: frames) (visited ++ [b]) order where
  finishing := h.finishing
  within := List.append_subset.mpr ⟨h.within, by simpa using hvertex⟩
  covered x := by
    rw [List.mem_append, h.covered x, List.mem_singleton]
    simp only [List.mem_cons, exists_eq_or_imp]
    constructor
    · rintro ((hx | hx) | rfl)
      · exact Or.inl hx
      · exact Or.inr (Or.inr hx)
      · exact Or.inr (Or.inl rfl)
    · rintro (hx | rfl | hx)
      · exact Or.inl (Or.inl hx)
      · exact Or.inr rfl
      · exact Or.inl (Or.inr hx)
  closed x hx y hy := List.mem_append_left _ (h.closed x hx y hy)
  taken f hf y hy := by
    rcases List.mem_cons.mp hf with rfl | hf
    · simp at hy
    · rcases List.mem_cons.mp hf with rfl | hf
      · rcases (mem_take_succ hb).mp hy with hy | rfl
        · exact List.mem_append_left _ (h.taken (id, taken) List.mem_cons_self y hy)
        · exact List.mem_append_right _ (List.mem_singleton_self y)
      · exact List.mem_append_left _ (h.taken f (List.mem_cons_of_mem _ hf) y hy)
  chain := by
    obtain ⟨htop, hrest⟩ := List.pairwise_cons.mp h.chain
    have hstep : Follows next id b := List.mem_of_getElem? hb
    refine List.pairwise_cons.mpr ⟨fun f hf => ?_, List.pairwise_cons.mpr ⟨htop, hrest⟩⟩
    rcases List.mem_cons.mp hf with rfl | hf
    · exact .single hstep
    · exact (htop f hf).tail hstep
  back f hf := by
    rcases List.mem_cons.mp hf with rfl | hf
    · -- the neighbours of what is finished were visited
      intro x hx
      obtain ⟨y, -, hy, hstep⟩ := TransGen.tail'_iff.mp hx
      exact absurd (h.closed y hy b hstep) hnew
    · rcases List.mem_cons.mp hf with rfl | hf
      · exact h.back (id, taken) List.mem_cons_self
      · exact h.back f (List.mem_cons_of_mem _ hf)

omit [DecidableEq α] in
/-- The top is finished. -/
theorem Searched.pop
    (hlast : (next id)[taken]? = none) : Searched next vertices frames visited (order ++ [id]) where
  finishing := h.finishing.snoc (h.back (id, taken) List.mem_cons_self)
  within := h.within
  covered x := by
    rw [h.covered x, List.mem_append, List.mem_singleton]
    simp only [List.mem_cons, exists_eq_or_imp, or_assoc, eq_comm]
  closed x hx y hy := by
    rcases List.mem_append.mp hx with hx | hx
    · exact h.closed x hx y hy
    · obtain rfl := List.mem_singleton.mp hx
      have hall := h.taken (x, taken) List.mem_cons_self y
      rw [List.take_of_length_le (List.getElem?_eq_none_iff.mp hlast)] at hall
      exact hall hy
  taken f hf := h.taken f (List.mem_cons_of_mem _ hf)
  chain := (List.pairwise_cons.mp h.chain).2
  back f hf x hx := by
    have hchain := (List.pairwise_cons.mp h.chain).1 f hf
    rcases through_snoc hx with hx | rfl | hx
    · exact h.back f (List.mem_cons_of_mem _ hf) x hx
    · exact hchain
    · exact hchain.trans (h.back (id, taken) List.mem_cons_self x hx)

omit h

/-- The whole walk. -/
theorem walk_searched (hnext : ∀ x ∈ vertices, ∀ y ∈ next x, y ∈ vertices) {fuel : Nat}
    {s : List α × List α} (h : Searched next vertices frames visited order)
    (hwalk : walk next fuel frames (visited, order) = some s) :
    Searched next vertices [] s.1 s.2 ∧ visited ⊆ s.1 := by
  induction fuel generalizing frames visited order with
  | zero =>
    cases frames with
    | nil =>
      cases hwalk
      exact ⟨h, List.Subset.refl _⟩
    | cons f frames => cases hwalk
  | succ fuel ih =>
    rcases frames with - | ⟨⟨id, taken⟩, frames⟩
    · cases hwalk
      exact ⟨h, List.Subset.refl _⟩
    · unfold walk at hwalk
      cases htaken : (next id)[taken]? with
      | none =>
        rw [htaken] at hwalk
        exact ih (h.pop htaken) hwalk
      | some b =>
        rw [htaken] at hwalk
        dsimp only at hwalk
        split at hwalk
        · next hvisited => exact ih (h.skip htaken hvisited) hwalk
        · next hnew =>
          have hid : id ∈ vertices :=
            h.within ((h.covered id).mpr (Or.inr ⟨_, List.mem_cons_self, rfl⟩))
          have hb := hnext id hid b (List.mem_of_getElem? htaken)
          obtain ⟨hs, hsub⟩ := ih (h.push htaken hnew hb) hwalk
          exact ⟨hs, List.Subset.trans (List.subset_append_left _ _) hsub⟩

omit [DecidableEq α] in
theorem searched_nil : Searched next vertices [] [] [] := by
  refine ⟨.nil, List.nil_subset _, ?_, ?_, ?_, .nil, ?_⟩ <;> simp

omit [DecidableEq α] in
/-- A new root. -/
theorem Searched.root (h : Searched next vertices [] visited order) (hnew : b ∉ visited)
    (hvertex : b ∈ vertices) : Searched next vertices [(b, 0)] (visited ++ [b]) order where
  finishing := h.finishing
  within := List.append_subset.mpr ⟨h.within, by simpa using hvertex⟩
  covered x := by
    rw [List.mem_append, h.covered x, List.mem_singleton]
    simp [eq_comm]
  closed x hx y hy := List.mem_append_left _ (h.closed x hx y hy)
  taken f hf y hy := by
    rw [List.mem_singleton.mp hf] at hy
    simp at hy
  chain := List.pairwise_singleton _ _
  back f hf x hx := by
    obtain ⟨y, -, hy, hstep⟩ := TransGen.tail'_iff.mp hx
    rw [List.mem_singleton.mp hf] at hstep
    exact absurd (h.closed y hy b hstep) hnew

/-- All the roots. -/
theorem orderFrom_searched (hnext : ∀ x ∈ vertices, ∀ y ∈ next x, y ∈ vertices) {fuel : Nat}
    {roots : List α} (hroots : roots ⊆ vertices) {s : List α × List α}
    (h : Searched next vertices [] visited order)
    (horder : orderFrom next fuel roots (visited, order) = some s) :
    Searched next vertices [] s.1 s.2 ∧ visited ⊆ s.1 ∧ roots ⊆ s.1 := by
  induction roots generalizing visited order with
  | nil =>
    cases horder
    exact ⟨h, List.Subset.refl _, List.nil_subset _⟩
  | cons root roots ih =>
    obtain ⟨hvertex, hrest⟩ := List.cons_subset.mp hroots
    unfold orderFrom at horder
    split at horder
    · next hvisited =>
      obtain ⟨hs, hsub, hmembers⟩ := ih hrest h horder
      exact ⟨hs, hsub, List.cons_subset.mpr ⟨hsub hvisited, hmembers⟩⟩
    · next hnew =>
      obtain ⟨⟨visited', order'⟩, hwalk, horder⟩ := Option.bind_eq_some_iff.mp horder
      obtain ⟨hwalked, hmore⟩ := walk_searched hnext (h.root hnew hvertex) hwalk
      obtain ⟨hs, hsub, hmembers⟩ := ih hrest hwalked horder
      have hroot : root ∈ visited' := hmore (List.mem_append_right _ (List.mem_singleton_self root))
      refine ⟨hs, ?_, List.cons_subset.mpr ⟨hsub hroot, hmembers⟩⟩
      exact List.Subset.trans (List.subset_append_left _ _) (List.Subset.trans hmore hsub)

theorem unvisited_le (vertices visited : List α) :
    unvisited next vertices visited ≤ turns next vertices := by
  unfold unvisited turns Components.unpushed
  exact List.Sublist.sum_le_sum ((List.filter_sublist).map _) (fun _ _ => Nat.zero_le _)

/-- The search of the vertices ends. -/
theorem orderFrom_ends (hnext : ∀ x ∈ vertices, ∀ y ∈ next x, y ∈ vertices) {roots : List α}
    (hroots : roots ⊆ vertices) {fuel : Nat} (hfuel : turns next vertices ≤ fuel)
    (s : List α × List α) : ∃ s', orderFrom next fuel roots s = some s' := by
  induction roots generalizing s with
  | nil => exact ⟨s, rfl⟩
  | cons root roots ih =>
    obtain ⟨hroot, hrest⟩ := List.cons_subset.mp hroots
    obtain ⟨visited, order⟩ := s
    unfold orderFrom
    split
    · exact ih hrest _
    · next hnew =>
      have hvisit := Components.unpushed_join (fun v => v :: next v) hroot hnew
      rw [List.length_cons] at hvisit
      have hbound : unvisited next vertices visited ≤ turns next vertices :=
        unvisited_le vertices visited
      have hfirst : ∀ f ∈ [(root, 0)], f.1 ∈ vertices := by
        intro f hf
        rw [List.mem_singleton.mp hf]
        exact hroot
      have hleft :
          pending next [(root, 0)] + unvisited next vertices (visited ++ [root]) ≤ fuel := by
        simp only [pending, unvisited, List.map_cons, List.map_nil, List.sum_cons, List.sum_nil,
          Nat.sub_zero] at hvisit hbound ⊢
        omega
      obtain ⟨s', hwalk⟩ : ∃ s', walk next fuel [(root, 0)] (visited ++ [root], order) = some s' :=
        walk_ends hnext fuel hfirst hleft
      rw [hwalk]
      exact ih hrest s'

end Js.FinishingOrder
