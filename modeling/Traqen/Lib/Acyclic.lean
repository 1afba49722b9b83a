-- Two ways to see that a graph has no cycle: a visit in depth, which knows the nodes it is in the
-- middle of and those it is done with, and a climb along the one edge that each node has. What
-- either gets through has no infinite descent.
import Mathlib.Data.List.Perm.Subperm
import Mathlib.Order.WellFounded

namespace Js.Acyclic

variable {α : Type*} [DecidableEq α]

/-- Why a visit or a climb ends early. -/
inductive Stop where
  | cycle
  | fuel
  deriving DecidableEq

/-! ## The visit in depth -/

variable {domain done visited xs : List α}

section Visit

variable (next : α → List α)

/-- The visit of a node inside the visits of others, with fuel for the depth. -/
def visit : Nat → List α → List α → α → Except Stop (List α)
  | 0, _, _, _ => .error .fuel
  | n + 1, visiting, visited, x =>
    if x ∈ visited then .ok visited
    else if x ∈ visiting then .error .cycle
    else do
      let done ← (next x).foldlM (visit n (x :: visiting)) visited
      return done ++ [x]

/-- The visit of each of the nodes. -/
def visitAll (fuel : Nat) (xs : List α) : Except Stop (List α) :=
  xs.foldlM (visit next fuel []) []

/-- `y` comes right after `x`. -/
def After (y x : α) : Prop := y ∈ next x

/-- No infinite descent starts at any of the nodes. -/
def Grounded (xs : List α) : Prop := ∀ x ∈ xs, Acc (After next) x

variable {next}

omit [DecidableEq α] in
/-- A step that keeps the nodes grounded and takes its own node in, along a list. -/
theorem foldlM_grounded {step : List α → α → Except Stop (List α)}
    (hstep : ∀ {visited x done}, Grounded next visited → step visited x = .ok done →
      Grounded next done ∧ visited ⊆ done ∧ x ∈ done)
    (hvisited : Grounded next visited)
    (h : xs.foldlM step visited = .ok done) :
    Grounded next done ∧ visited ⊆ done ∧ xs ⊆ done := by
  induction xs generalizing visited with
  | nil =>
    cases h
    exact ⟨hvisited, List.Subset.refl _, List.nil_subset _⟩
  | cons x xs ih =>
    rw [List.foldlM_cons] at h
    cases hx : step visited x with
    | error e =>
      rw [hx] at h
      cases h
    | ok middle =>
      rw [hx] at h
      obtain ⟨hmiddle, hsub, hmem⟩ := hstep hvisited hx
      obtain ⟨hdone, hrest, hxs⟩ := ih hmiddle h
      exact ⟨hdone, List.Subset.trans hsub hrest, List.cons_subset.mpr ⟨hrest hmem, hxs⟩⟩

/-- A visit that gets through adds grounded nodes, its own among them. -/
theorem visit_grounded (n : Nat) {visiting : List α} {x : α}
    (hvisited : Grounded next visited) (h : visit next n visiting visited x = .ok done) :
    Grounded next done ∧ visited ⊆ done ∧ x ∈ done := by
  induction n generalizing visiting visited x done with
  | zero => cases h
  | succ n ih =>
    rw [visit] at h
    split_ifs at h with hseen hopen
    · cases h
      exact ⟨hvisited, List.Subset.refl _, hseen⟩
    · cases hfold : (next x).foldlM (visit next n (x :: visiting)) visited with
      | error e =>
        rw [hfold] at h
        cases h
      | ok middle =>
        rw [hfold] at h
        cases h
        obtain ⟨hmiddle, hsub, hnext⟩ := foldlM_grounded (fun h h' => ih h h') hvisited hfold
        have hx : Acc (After next) x := ⟨x, fun y hy => hmiddle y (hnext hy)⟩
        refine ⟨?_, List.subset_append_of_subset_left _ hsub, by simp⟩
        intro y hy
        rcases List.mem_append.mp hy with hy | hy
        · exact hmiddle y hy
        · rw [List.mem_singleton.mp hy]
          exact hx

theorem visitAll_grounded {fuel : Nat} (h : visitAll next fuel xs = .ok done) :
    Grounded next xs := by
  have hnil : Grounded next [] := fun x hx => nomatch hx
  obtain ⟨hdone, -, hsub⟩ := foldlM_grounded (fun h h' => visit_grounded fuel h h') hnil h
  exact fun x hx => hdone x (hsub hx)

omit [DecidableEq α] in
theorem not_self {r : α → α → Prop} {x : α} (hx : Acc r x) : ¬ r x x := by
  induction hx with
  | intro x _ ih => exact fun h => ih x h h

omit [DecidableEq α] in
theorem foldlM_ne {stop : Stop} {step : List α → α → Except Stop (List α)}
    (hstep : ∀ visited, ∀ x ∈ xs, step visited x ≠ .error stop) (visited : List α) :
    xs.foldlM step visited ≠ .error stop := by
  induction xs generalizing visited with
  | nil => exact nofun
  | cons x xs ih =>
    rw [List.foldlM_cons]
    cases hx : step visited x with
    | error e =>
      intro h
      exact hstep visited x List.mem_cons_self (hx.trans h)
    | ok middle => exact ih (fun v y hy => hstep v y (List.mem_cons_of_mem x hy)) middle

omit [DecidableEq α] in
theorem bind_ne {stop : Stop} {f : List α → List α} {r : Except Stop (List α)}
    (h : r ≠ .error stop) : (do return f (← r)) ≠ .error stop := by
  cases r with
  | error e => exact h
  | ok done => exact nofun

/-- The nodes that a visit is in the middle of are all different, so the domain bounds them. -/
theorem visit_fuel (hnext : ∀ x ∈ domain, next x ⊆ domain) (n : Nat)
    {visiting : List α} {x : α} (hx : x ∈ domain) (hopen : visiting ⊆ domain)
    (hnodup : visiting.Nodup) (hfuel : domain.length < visiting.length + n) :
    visit next n visiting visited x ≠ .error .fuel := by
  induction n generalizing visiting visited x with
  | zero =>
    have hle : visiting.length ≤ domain.length := (hnodup.subperm hopen).length_le
    omega
  | succ n ih =>
    rw [visit]
    split_ifs with hseen hin
    · exact nofun
    · exact nofun
    · apply bind_ne (foldlM_ne _ visited)
      intro v y hy
      apply ih (hnext x hx hy) (List.cons_subset.mpr ⟨hx, hopen⟩)
        (List.nodup_cons.mpr ⟨hin, hnodup⟩)
      rw [List.length_cons]
      omega

/-- A grounded node comes after each node that its visit is in the middle of, so it is none. -/
theorem visit_not_cycle (n : Nat) {visiting : List α} {x : α} (hx : Acc (After next) x)
    (hopen : ∀ v ∈ visiting, Relation.TransGen (After next) x v) :
    visit next n visiting visited x ≠ .error .cycle := by
  induction n generalizing visiting visited x with
  | zero => exact nofun
  | succ n ih =>
    rw [visit]
    split_ifs with hseen hin
    · exact nofun
    · exact absurd (hopen x hin) (not_self hx.transGen)
    · apply bind_ne (foldlM_ne _ visited)
      intro v y hy
      apply ih (hx.inv hy)
      intro w hw
      rcases List.mem_cons.mp hw with rfl | hw
      · exact .single hy
      · exact .head hy (hopen w hw)

/-- The visits get through exactly where no infinite descent starts. -/
theorem visitAll_stops (hnext : ∀ x ∈ domain, next x ⊆ domain) (hxs : xs ⊆ domain) :
    (Grounded next xs ∧ ∃ done, visitAll next (domain.length + 1) xs = .ok done) ∨
      (¬ Grounded next xs ∧ visitAll next (domain.length + 1) xs = .error .cycle) := by
  cases h : visitAll next (domain.length + 1) xs with
  | ok done => exact Or.inl ⟨visitAll_grounded h, done, rfl⟩
  | error e =>
    cases e with
    | cycle =>
      refine Or.inr ⟨fun hxs => foldlM_ne (fun v x hx => ?_) [] h, rfl⟩
      exact visit_not_cycle _ (hxs x hx) nofun
    | fuel =>
      refine absurd h (foldlM_ne (fun v x hx => ?_) [])
      exact visit_fuel hnext _ (hxs hx) (List.nil_subset _) List.nodup_nil (by simp)

end Visit

/-! ## The climb -/

section Climb

variable (parent : α → Option α)

/-- The climb to a node that was climbed before or has no parent, with the nodes on the way. -/
def climb (visited : List α) : Nat → List α → Option α → Except Stop (List α)
  | _, chain, none => .ok chain
  | n, chain, some x =>
    if x ∈ visited then .ok chain
    else if x ∈ chain then .error .cycle
    else
      match n with
      | 0 => .error .fuel
      | n + 1 => climb visited n (chain ++ [x]) (parent x)

/-- The climb from each of the nodes. -/
def climbAll (fuel : Nat) (xs : List α) : Except Stop (List α) :=
  xs.foldlM (fun visited x => do
    let chain ← climb parent visited fuel [] (some x)
    return visited ++ chain) []

/-- The one node after another. -/
def only (x : α) : List α := (parent x).toList

variable {parent}

/-- A climb that gets through adds grounded nodes to its chain, and starts at one. -/
theorem climb_grounded (hvisited : Grounded (only parent) visited) (n : Nat)
    {chain : List α} {start : Option α} (h : climb parent visited n chain start = .ok done) :
    (∀ x ∈ start, Acc (After (only parent)) x ∧ (x ∈ visited ∨ x ∈ done)) ∧ chain ⊆ done ∧
      ∀ x ∈ done, x ∈ chain ∨ Acc (After (only parent)) x := by
  induction n generalizing chain start with
  | zero =>
    cases start with
    | none =>
      cases h
      exact ⟨nofun, List.Subset.refl _, fun x hx => Or.inl hx⟩
    | some x =>
      rw [climb] at h
      split_ifs at h with hseen hin
      cases h
      refine ⟨?_, List.Subset.refl _, fun x hx => Or.inl hx⟩
      rintro y ⟨⟩
      exact ⟨hvisited _ hseen, Or.inl hseen⟩
  | succ n ih =>
    cases start with
    | none =>
      cases h
      exact ⟨nofun, List.Subset.refl _, fun x hx => Or.inl hx⟩
    | some x =>
      rw [climb] at h
      split_ifs at h with hseen hin
      · cases h
        refine ⟨?_, List.Subset.refl _, fun x hx => Or.inl hx⟩
        rintro y ⟨⟩
        exact ⟨hvisited _ hseen, Or.inl hseen⟩
      · obtain ⟨hstart, hsub, hdone⟩ := ih h
        have hx : Acc (After (only parent)) x := by
          refine ⟨x, fun y hy => (hstart y ?_).1⟩
          simpa [After, only] using hy
        have hmem : x ∈ done := hsub (by simp)
        refine ⟨?_, fun y hy => hsub (List.mem_append_left _ hy), ?_⟩
        · rintro y ⟨⟩
          exact ⟨hx, Or.inr hmem⟩
        · intro y hy
          rcases hdone y hy with hchain | hacc
          · rcases List.mem_append.mp hchain with hchain | hlast
            · exact Or.inl hchain
            · rw [List.mem_singleton.mp hlast]
              exact Or.inr hx
          · exact Or.inr hacc

theorem climbAll_grounded {fuel : Nat} (h : climbAll parent fuel xs = .ok done) :
    Grounded (only parent) xs := by
  have hnil : Grounded (only parent) [] := fun x hx => nomatch hx
  obtain ⟨hdone, -, hsub⟩ := foldlM_grounded (fun {visited x middle} hvisited hstep => by
    cases hclimb : climb parent visited fuel [] (some x) with
    | error e =>
      rw [hclimb] at hstep
      cases hstep
    | ok chain =>
      rw [hclimb] at hstep
      cases hstep
      obtain ⟨hstart, -, hchain⟩ := climb_grounded hvisited fuel hclimb
      refine ⟨?_, List.subset_append_left _ _, List.mem_append.mpr (hstart x rfl).2⟩
      intro y hy
      rcases List.mem_append.mp hy with hy | hy
      · exact hvisited y hy
      · exact (hchain y hy).resolve_left List.not_mem_nil) hnil h
  exact fun x hx => hdone x (hsub hx)

theorem climb_fuel (hparent : ∀ x ∈ domain, ∀ y ∈ parent x, y ∈ domain)
    (visited : List α) (n : Nat) {chain : List α} {start : Option α}
    (hstart : ∀ x ∈ start, x ∈ domain) (hchain : chain ⊆ domain) (hnodup : chain.Nodup)
    (hfuel : domain.length ≤ chain.length + n) :
    climb parent visited n chain start ≠ .error .fuel := by
  fun_induction climb parent visited n chain start with
  | case1 | case2 | case3 => exact nofun
  | case4 chain x hseen hin =>
    have hsub : x :: chain ⊆ domain := List.cons_subset.mpr ⟨hstart x rfl, hchain⟩
    have hle := ((List.nodup_cons.mpr ⟨hin, hnodup⟩).subperm hsub).length_le
    rw [List.length_cons] at hle
    omega
  | case5 chain x hseen hin n ih =>
    apply ih (hparent x (hstart x rfl))
    · exact List.append_subset.mpr ⟨hchain, by simpa using hstart x rfl⟩
    · refine List.nodup_append.mpr ⟨hnodup, by simp, ?_⟩
      rintro y hy z hz rfl
      exact hin (List.mem_singleton.mp hz ▸ hy)
    · rw [List.length_append, List.length_singleton]
      omega

/-- A grounded node comes after each node of the chain below it, so it is none of them. -/
theorem climb_not_cycle (n : Nat) {chain : List α} {start : Option α}
    (hstart : ∀ x ∈ start, Acc (After (only parent)) x ∧
      ∀ c ∈ chain, Relation.TransGen (After (only parent)) x c) :
    climb parent visited n chain start ≠ .error .cycle := by
  fun_induction climb parent visited n chain start with
  | case1 | case2 | case4 => exact nofun
  | case3 n chain x hseen hin =>
    obtain ⟨hx, hchain⟩ := hstart x rfl
    exact absurd (hchain x hin) (not_self hx.transGen)
  | case5 chain x hseen hin n ih =>
    obtain ⟨hx, hchain⟩ := hstart x rfl
    apply ih
    intro y hy
    have hafter : After (only parent) y x := by simpa [After, only] using hy
    refine ⟨hx.inv hafter, fun c hc => ?_⟩
    rcases List.mem_append.mp hc with hc | hc
    · exact .head hafter (hchain c hc)
    · rw [List.mem_singleton.mp hc]
      exact .single hafter

/-- The climbs get through exactly where no infinite descent starts. -/
theorem climbAll_stops (hparent : ∀ x ∈ domain, ∀ y ∈ parent x, y ∈ domain) (hxs : xs ⊆ domain) :
    (Grounded (only parent) xs ∧ ∃ done, climbAll parent domain.length xs = .ok done) ∨
      (¬ Grounded (only parent) xs ∧ climbAll parent domain.length xs = .error .cycle) := by
  cases h : climbAll parent domain.length xs with
  | ok done => exact Or.inl ⟨climbAll_grounded h, done, rfl⟩
  | error e =>
    cases e with
    | cycle =>
      refine Or.inr ⟨fun hxs => foldlM_ne (fun v x hx => bind_ne ?_) [] h, rfl⟩
      exact climb_not_cycle _ (by simpa using hxs x hx)
    | fuel =>
      refine absurd h (foldlM_ne (fun v x hx => bind_ne ?_) [])
      exact climb_fuel hparent v _ (by simpa using hxs hx) (List.nil_subset _) List.nodup_nil
        (by simp)

end Climb

end Js.Acyclic
