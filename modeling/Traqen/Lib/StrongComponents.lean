-- Strong components by two searches: one along the edges for the order in which the vertices are
-- finished, one against the edges from the last finished to the first. What the second search finds
-- from a vertex is its component.
import Traqen.Lib.FinishingOrder
import Traqen.Lib.OrderedMap

namespace Js.StrongComponents

open FinishingOrder (Follows Finishing Through)
open Relation (ReflTransGen TransGen)

variable {α : Type*} [DecidableEq α] (next prev : α → List α)

def Known (component : List (α × Nat)) (x : α) : Prop := ∃ e ∈ component, e.1 = x

instance (component : List (α × Nat)) (x : α) : Decidable (Known component x) :=
  inferInstanceAs (Decidable (∃ e ∈ component, e.1 = x))

/-- The loop over what leads to a vertex: a new one gets the index and goes onto the stack. -/
def spread (index : Nat) : List (α × Nat) × List α → List α → List (α × Nat) × List α
  | s, [] => s
  | (component, stack), x :: xs =>
    if Known component x then spread index (component, stack) xs
    else spread index (component ++ [(x, index)], x :: stack) xs

/-- The loop over the stack, with fuel for every pop. -/
def fill (index : Nat) : Nat → List (α × Nat) × List α → Option (List (α × Nat))
  | _, (component, []) => some component
  | 0, (_, _ :: _) => none
  | fuel + 1, (component, x :: stack) =>
    fill index fuel (spread index (component, stack) (prev x))

/-- The loop over the vertices, from the last finished to the first, with the indices so far. -/
def mark (fuel : Nat) : List α → List (α × Nat) × Nat → Option (List (α × Nat))
  | [], (component, _) => some component
  | root :: roots, (component, index) =>
    if Known component root then mark fuel roots (component, index)
    else (fill prev (index + 1) fuel (component ++ [(root, index + 1)], [root])).bind
      fun component => mark fuel roots (component, index + 1)

/-- The indices of the components. -/
def components (vertices : List α) : Option (List (α × Nat)) :=
  (FinishingOrder.orderFrom next (FinishingOrder.turns next vertices) vertices ([], [])).bind
    fun s => mark prev vertices.length s.2.reverse ([], 0)

/-! ## One search against the edges -/

/-- In one component: each leads to the other. -/
def Mutual (next : α → List α) (a b : α) : Prop :=
  ReflTransGen (Follows next) a b ∧ ReflTransGen (Follows next) b a

variable {next prev} {component old : List (α × Nat)} {stack vertices fresh : List α}
  {index fuel : Nat} {root : α}

omit [DecidableEq α] in
theorem Mutual.symm {a b : α} (h : Mutual next a b) : Mutual next b a := ⟨h.2, h.1⟩

omit [DecidableEq α] in
theorem Mutual.trans {a b c : α} (h : Mutual next a b) (h' : Mutual next b c) :
    Mutual next a c :=
  ⟨h.1.trans h'.1, h'.2.trans h.2⟩

/-- What one round adds: each of the vertices that is not known yet, once. -/
theorem spread_spec (index : Nat) (component : List (α × Nat)) (stack xs : List α) :
    ∃ fresh : List α, spread index (component, stack) xs =
        (component ++ fresh.map (fun x => (x, index)), fresh.reverse ++ stack) ∧
      (∀ x ∈ fresh, x ∈ xs ∧ ¬ Known component x) ∧ fresh.Nodup ∧
      ∀ x ∈ xs, Known component x ∨ x ∈ fresh := by
  induction xs generalizing component stack with
  | nil => exact ⟨[], by simp [spread], by simp, List.nodup_nil, by simp⟩
  | cons x xs ih =>
    unfold spread
    by_cases hx : Known component x
    · rw [if_pos hx]
      obtain ⟨fresh, heq, hnew, hnodup, hall⟩ := ih component stack
      refine ⟨fresh, heq, fun y hy => ⟨List.mem_cons_of_mem x (hnew y hy).1, (hnew y hy).2⟩, hnodup,
        fun y hy => ?_⟩
      rcases List.mem_cons.mp hy with rfl | hy
      · exact Or.inl hx
      · exact hall y hy
    · rw [if_neg hx]
      obtain ⟨fresh, heq, hnew, hnodup, hall⟩ := ih (component ++ [(x, index)]) (x :: stack)
      have hknown : ∀ y, Known (component ++ [(x, index)]) y ↔ Known component y ∨ y = x := by
        intro y
        simp [Known, or_and_right, exists_or, eq_comm]
      refine ⟨x :: fresh, ?_, ?_, ?_, ?_⟩
      · rw [heq]
        simp
      · intro y hy
        rcases List.mem_cons.mp hy with rfl | hy
        · exact ⟨List.mem_cons_self, hx⟩
        · obtain ⟨hmem, hnone⟩ := hnew y hy
          exact ⟨List.mem_cons_of_mem x hmem, fun h => hnone ((hknown y).mpr (Or.inl h))⟩
      · refine List.nodup_cons.mpr ⟨fun h => ?_, hnodup⟩
        exact (hnew x h).2 ((hknown x).mpr (Or.inr rfl))
      · intro y hy
        rcases List.mem_cons.mp hy with rfl | hy
        · exact Or.inr List.mem_cons_self
        · rcases hall y hy with h | h
          · rcases (hknown y).mp h with h | rfl
            · exact Or.inl h
            · exact Or.inr List.mem_cons_self
          · exact Or.inr (List.mem_cons_of_mem x h)

/-- A step from a vertex that is not known and is not the root. -/
def Aside (next : α → List α) (old : List (α × Nat)) (root a b : α) : Prop :=
  (¬ Known old a ∧ a ≠ root) ∧ Follows next a b

/-- What the search against the edges holds between two turns: the vertices that are new lead to the
root aside of what was known. -/
structure Filling (next prev : α → List α) (old : List (α × Nat)) (root : α) (index : Nat)
    (component : List (α × Nat)) (stack fresh : List α) : Prop where
  marked : component = old ++ fresh.map fun x => (x, index)
  rooted : root ∈ fresh
  new : ∀ x ∈ fresh, ¬ Known old x
  nodup : fresh.Nodup
  leads : ∀ x ∈ fresh, ReflTransGen (Aside next old root) x root
  waiting : ∀ x ∈ stack, x ∈ fresh
  closed : ∀ x ∈ fresh, x ∈ stack ∨ ∀ y ∈ prev x, Known old y ∨ y ∈ fresh

omit [DecidableEq α] in
theorem known_marked {x : α} :
    Known (old ++ fresh.map fun x => (x, index)) x ↔ Known old x ∨ x ∈ fresh := by
  simp [Known, or_and_right, exists_or]

/-- One vertex is followed back. -/
theorem Filling.step {x : α} (hprev : ∀ x y, y ∈ prev x ↔ x ∈ next y)
    (h : Filling next prev old root index component (x :: stack) fresh) :
    ∃ more : List α, Filling next prev old root index (spread index (component, stack) (prev x)).1
        (spread index (component, stack) (prev x)).2 (fresh ++ more) ∧
      (spread index (component, stack) (prev x)).2.length = stack.length + more.length ∧
      ∀ y ∈ more, y ∈ prev x := by
  obtain ⟨more, heq, hnew, hnodup, hall⟩ := spread_spec index component stack (prev x)
  have hx : x ∈ fresh := h.waiting x List.mem_cons_self
  have hunknown : ∀ y ∈ more, ¬ Known old y ∧ y ∉ fresh := by
    intro y hy
    have hnone := (hnew y hy).2
    rw [h.marked, known_marked] at hnone
    exact not_or.mp hnone
  refine ⟨more, ⟨?_, ?_, ?_, ?_, ?_, ?_, ?_⟩, ?_, fun y hy => (hnew y hy).1⟩
  · rw [heq, h.marked]
    simp
  · exact List.mem_append_left _ h.rooted
  · intro y hy
    rcases List.mem_append.mp hy with hy | hy
    · exact h.new y hy
    · exact (hunknown y hy).1
  · refine List.nodup_append.mpr ⟨h.nodup, hnodup, ?_⟩
    rintro y hy z hz rfl
    exact (hunknown y hz).2 hy
  · intro y hy
    rcases List.mem_append.mp hy with hy | hy
    · exact h.leads y hy
    · obtain ⟨hold, hfresh⟩ := hunknown y hy
      have hroot : y ≠ root := by
        rintro rfl
        exact hfresh h.rooted
      exact .head ⟨⟨hold, hroot⟩, (hprev x y).mp (hnew y hy).1⟩ (h.leads x hx)
  · intro y hy
    rw [heq] at hy
    rcases List.mem_append.mp hy with hy | hy
    · exact List.mem_append_right _ (List.mem_reverse.mp hy)
    · exact List.mem_append_left _ (h.waiting y (List.mem_cons_of_mem x hy))
  · intro y hy
    rw [heq]
    rcases List.mem_append.mp hy with hy | hy
    · rcases h.closed y hy with hstack | hclosed
      · rcases List.mem_cons.mp hstack with rfl | hstack
        · refine Or.inr fun z hz => ?_
          rcases hall z hz with hknown | hmore
          · rw [h.marked, known_marked] at hknown
            exact hknown.imp_right fun hz => List.mem_append_left _ hz
          · exact Or.inr (List.mem_append_right _ hmore)
        · exact Or.inl (List.mem_append_right _ hstack)
      · exact Or.inr fun z hz => (hclosed z hz).imp_right fun hz => List.mem_append_left _ hz
    · exact Or.inl (List.mem_append_left _ (List.mem_reverse.mpr hy))
  · rw [heq, List.length_append, List.length_reverse, Nat.add_comm]

/-- The search ends with fuel for every vertex, in what it holds with an empty stack. -/
theorem fill_spec (hprev : ∀ x y, y ∈ prev x ↔ x ∈ next y)
    (hvertices : ∀ x ∈ vertices, ∀ y ∈ prev x, y ∈ vertices) (fuel : Nat)
    (h : Filling next prev old root index component stack fresh) (hsub : fresh ⊆ vertices)
    (hfuel : stack.length + (vertices.length - fresh.length) ≤ fuel) :
    ∃ fresh' : List α, fill prev index fuel (component, stack) =
        some (old ++ fresh'.map fun x => (x, index)) ∧
      Filling next prev old root index (old ++ fresh'.map fun x => (x, index)) [] fresh' := by
  induction fuel generalizing component stack fresh with
  | zero =>
    cases stack with
    | nil => exact ⟨fresh, by rw [h.marked]; rfl, h.marked ▸ h⟩
    | cons x stack => simp at hfuel
  | succ fuel ih =>
    cases stack with
    | nil => exact ⟨fresh, by rw [h.marked]; rfl, h.marked ▸ h⟩
    | cons x stack =>
      obtain ⟨more, hstep, hlength, hmore⟩ := h.step hprev
      have hx : x ∈ vertices := hsub (h.waiting x List.mem_cons_self)
      have hsub' : fresh ++ more ⊆ vertices := by
        intro y hy
        rcases List.mem_append.mp hy with hy | hy
        · exact hsub hy
        · exact hvertices x hx y (hmore y hy)
      have hbound : (fresh ++ more).length ≤ vertices.length :=
        (hstep.nodup.subperm hsub').length_le
      unfold fill
      apply ih hstep hsub'
      rw [List.length_append] at hbound ⊢
      rw [hlength]
      rw [List.length_cons] at hfuel
      omega

/-! ## All of them -/

/-- What the vertices done so far make of the indices. -/
structure Marked (next : α → List α) (done : List α) (component : List (α × Nat)) (index : Nat) :
    Prop where
  covered : ∀ x ∈ done, Known component x
  bounded : ∀ e ∈ component, e.2 ≤ index
  keyed : OrderedMap.Keyed component
  alike : ∀ e ∈ component, ∀ y, Mutual next e.1 y → (y, e.2) ∈ component
  apart : ∀ e ∈ component, ∀ e' ∈ component, e.2 = e'.2 → Mutual next e.1 e'.1

omit [DecidableEq α] in
theorem marked_nil : Marked next [] [] 0 := by
  constructor <;> simp [OrderedMap.Keyed]

variable {before done : List α}

omit [DecidableEq α] in
theorem Marked.known_alike (h : Marked next done component index) {x y : α}
    (hx : Known component x) (hmutual : Mutual next x y) : Known component y := by
  obtain ⟨e, he, rfl⟩ := hx
  exact ⟨_, h.alike e he y hmutual, rfl⟩

omit [DecidableEq α] in
/-- What is found from a vertex whose later vertices are done is its component. -/
theorem mem_found (hprev : ∀ x y, y ∈ prev x ↔ x ∈ next y)
    (horder : Finishing next (before ++ root :: done))
    (hall : ∀ x y, Follows next x y → x ∈ before ++ root :: done)
    (hold : Marked next done old index) (hroot : ¬ Known old root)
    (h : Filling next prev old root (index + 1) component [] fresh) {x : α} :
    x ∈ fresh ↔ Mutual next root x := by
  constructor
  · intro hx
    have hleads := h.leads x hx
    have haside : ∀ a b, Aside next old root a b → Through next before a b := by
      rintro a b ⟨⟨hunknown, hne⟩, hfollows⟩
      refine ⟨?_, hfollows⟩
      rcases List.mem_append.mp (hall a b hfollows) with ha | ha
      · exact ha
      · rcases List.mem_cons.mp ha with ha | ha
        · exact absurd ha hne
        · exact absurd (hold.covered a ha) hunknown
    have hto : ReflTransGen (Follows next) x root :=
      ReflTransGen.mono (fun a b hab => hab.2) x root hleads
    have hthrough : ReflTransGen (Through next before) x root :=
      ReflTransGen.mono haside x root hleads
    refine ⟨?_, hto⟩
    rcases Relation.reflTransGen_iff_eq_or_transGen.mp hthrough with rfl | htrans
    · exact .refl
    · exact horder.back htrans
  · rintro ⟨hfrom, hto⟩
    -- along the way back to the root every vertex is of the component, so it is new
    induction hto using Relation.ReflTransGen.head_induction_on with
    | refl => exact h.rooted
    | head hstep hrest ih =>
      have hnext := ih (hfrom.tail hstep)
      rcases h.closed _ hnext with hnone | hclosed
      · cases hnone
      · rcases hclosed _ ((hprev _ _).mpr hstep) with hknown | hfresh
        · exact absurd (hold.known_alike hknown ⟨hrest.head hstep, hfrom⟩) hroot
        · exact hfresh

omit [DecidableEq α] in
/-- The vertices that are found join with an index of their own. -/
theorem Marked.join (hprev : ∀ x y, y ∈ prev x ↔ x ∈ next y)
    (horder : Finishing next (before ++ root :: done))
    (hall : ∀ x y, Follows next x y → x ∈ before ++ root :: done)
    (hold : Marked next done old index) (hroot : ¬ Known old root)
    (h : Filling next prev old root (index + 1) component [] fresh) :
    Marked next (root :: done) (old ++ fresh.map fun x => (x, index + 1)) (index + 1) := by
  have hfound : ∀ {x}, x ∈ fresh ↔ Mutual next root x := mem_found hprev horder hall hold hroot h
  have hentry : ∀ {e}, e ∈ old ++ fresh.map (fun x => (x, index + 1)) ↔
      e ∈ old ∨ Mutual next root e.1 ∧ e.2 = index + 1 := by
    intro e
    rw [List.mem_append, List.mem_map]
    refine or_congr_right ⟨?_, ?_⟩
    · rintro ⟨x, hx, rfl⟩
      exact ⟨hfound.mp hx, rfl⟩
    · rintro ⟨hmutual, hindex⟩
      exact ⟨e.1, hfound.mpr hmutual, by rw [← hindex]⟩
  refine ⟨?_, ?_, ?_, ?_, ?_⟩
  · intro x hx
    rw [known_marked]
    rcases List.mem_cons.mp hx with rfl | hx
    · exact Or.inr h.rooted
    · exact Or.inl (hold.covered x hx)
  · intro e he
    rcases hentry.mp he with he | ⟨-, he⟩
    · exact (hold.bounded e he).trans (Nat.le_succ index)
    · exact he.le
  · unfold OrderedMap.Keyed
    rw [List.map_append, List.map_map]
    refine List.nodup_append.mpr ⟨hold.keyed, ?_, ?_⟩
    · have hsame : ((fun e : α × Nat => e.1) ∘ fun x => (x, index + 1)) = id := rfl
      rw [hsame, List.map_id]
      exact h.nodup
    · rintro x hx y hy rfl
      obtain ⟨e, he, rfl⟩ := List.mem_map.mp hx
      obtain ⟨y, hy, heq⟩ := List.mem_map.mp hy
      exact h.new y hy ⟨e, he, heq.symm⟩
  · intro e he y hy
    rcases hentry.mp he with he | ⟨hmutual, hindex⟩
    · exact hentry.mpr (Or.inl (hold.alike e he y hy))
    · exact hentry.mpr (Or.inr ⟨hmutual.trans hy, hindex⟩)
  · intro e he e' he' heq
    rcases hentry.mp he with he | ⟨hmutual, hindex⟩
    · rcases hentry.mp he' with he' | ⟨hmutual', hindex'⟩
      · exact hold.apart e he e' he' heq
      · have hbound := hold.bounded e he
        omega
    · rcases hentry.mp he' with he' | ⟨hmutual', hindex'⟩
      · have hbound := hold.bounded e' he'
        omega
      · exact hmutual.symm.trans hmutual'

omit [DecidableEq α] in
/-- A vertex that was found before. -/
theorem Marked.pass (h : Marked next done component index)
    (hroot : Known component root) : Marked next (root :: done) component index :=
  { h with
    covered := fun x hx => by
      rcases List.mem_cons.mp hx with rfl | hx
      · exact hroot
      · exact h.covered x hx }

/-- The loop over the vertices, in the order of their finishing turned round. -/
theorem mark_spec (hprev : ∀ x y, y ∈ prev x ↔ x ∈ next y)
    (hdomain : ∀ x y, y ∈ next x → x ∈ vertices)
    (horder : Finishing next (before ++ done)) (hsame : ∀ x, x ∈ before ++ done ↔ x ∈ vertices)
    (h : Marked next done component index) :
    ∃ component' index', mark prev vertices.length before.reverse (component, index) =
        some component' ∧ Marked next (before ++ done) component' index' := by
  induction before using List.reverseRecOn generalizing done component index with
  | nil => exact ⟨component, index, rfl, h⟩
  | append_singleton before root ih =>
    rw [List.append_assoc, List.singleton_append] at horder hsame ⊢
    rw [List.reverse_append, List.reverse_singleton, List.singleton_append]
    unfold mark
    by_cases hroot : Known component root
    · rw [if_pos hroot]
      exact ih horder hsame (h.pass hroot)
    · rw [if_neg hroot]
      have hstart : Filling next prev component root (index + 1)
          (component ++ [(root, index + 1)]) [root] [root] := by
        constructor <;> simp [hroot, Relation.ReflTransGen.refl]
      have hrooted : root ∈ vertices := (hsame root).mp (by simp)
      obtain ⟨fresh, hfill, hfilled⟩ := fill_spec hprev
        (fun x _ y hy => hdomain y x ((hprev x y).mp hy)) vertices.length hstart
        (by simpa using hrooted) (by
          have hpos : 0 < vertices.length := List.length_pos_of_mem hrooted
          simp only [List.length_singleton]
          omega)
      rw [hfill, Option.bind_some]
      exact ih horder hsame (h.join hprev horder
        (fun x y hxy => (hsame x).mpr (hdomain x y hxy)) hroot hfilled)

/-- Each vertex has an index, and two vertices have one index exactly where each leads to the
other. -/
theorem components_spec (next prev : α → List α) (vertices : List α)
    (hprev : ∀ x y, y ∈ prev x ↔ x ∈ next y)
    (hdomain : ∀ x y, y ∈ next x → x ∈ vertices ∧ y ∈ vertices) :
    ∃ component, components next prev vertices = some component ∧
      (∀ x ∈ vertices, ∃ i, OrderedMap.get? component x = some i) ∧
      ∀ x ∈ vertices, ∀ y ∈ vertices,
        (OrderedMap.get? component x = OrderedMap.get? component y ↔ Mutual next x y) := by
  have hnext : ∀ x ∈ vertices, ∀ y ∈ next x, y ∈ vertices := fun x _ y hy => (hdomain x y hy).2
  obtain ⟨⟨visited, order⟩, hsearch⟩ := FinishingOrder.orderFrom_ends hnext
    (List.Subset.refl vertices) (Nat.le_refl (FinishingOrder.turns next vertices)) ([], [])
  obtain ⟨hsearched, -, hroots⟩ := FinishingOrder.orderFrom_searched hnext
    (List.Subset.refl vertices) FinishingOrder.searched_nil hsearch
  have hsame : ∀ x, x ∈ order ++ [] ↔ x ∈ vertices := by
    intro x
    have hcovered := hsearched.covered x
    simp only [List.not_mem_nil, false_and, exists_false, or_false] at hcovered
    rw [List.append_nil, ← hcovered]
    exact ⟨fun hx => hsearched.within hx, fun hx => hroots hx⟩
  have hfinishing : Finishing next (order ++ []) := by
    rw [List.append_nil]
    exact hsearched.finishing
  obtain ⟨component, index, hmark, hmarked⟩ := mark_spec hprev (fun x y hy => (hdomain x y hy).1)
    hfinishing hsame marked_nil
  have hknown : ∀ x ∈ vertices, ∃ i, (x, i) ∈ component ∧
      OrderedMap.get? component x = some i := by
    intro x hx
    obtain ⟨⟨y, i⟩, he, rfl⟩ := hmarked.covered x ((hsame x).mpr hx)
    exact ⟨i, he, OrderedMap.get?_of_mem hmarked.keyed he⟩
  refine ⟨component, ?_, ?_, ?_⟩
  · unfold components
    rw [hsearch]
    exact hmark
  · intro x hx
    obtain ⟨i, -, hget⟩ := hknown x hx
    exact ⟨i, hget⟩
  · intro x hx y hy
    obtain ⟨i, hi, hgetx⟩ := hknown x hx
    obtain ⟨j, hj, hgety⟩ := hknown y hy
    rw [hgetx, hgety, Option.some.injEq]
    constructor
    · rintro rfl
      exact hmarked.apart _ hi _ hj rfl
    · intro hmutual
      have hentry := OrderedMap.get?_of_mem hmarked.keyed (hmarked.alike _ hi y hmutual)
      rw [hgety] at hentry
      exact (Option.some.inj hentry).symm

end Js.StrongComponents
