-- What a worklist collects: a set that grows by what follows its members, with a queue of the
-- members whose followers are still to be added. The set it ends with is everything that can be
-- reached from the seeds.
import Mathlib.Data.List.Perm.Subperm
import Mathlib.Logic.Relation

namespace Js.Worklist

variable {α : Type*} [DecidableEq α] (next : α → List α)

/-- The loop over the followers: a new one goes into the set and to the end of the queue. -/
def enqueue : List α × List α → List α → List α × List α
  | s, [] => s
  | (seen, pending), x :: xs =>
    if x ∈ seen then enqueue (seen, pending) xs else enqueue (seen ++ [x], pending ++ [x]) xs

/-- The loop over the queue, with fuel for every member it can take. -/
def collect : Nat → List α × List α → Option (List α)
  | _, (seen, []) => some seen
  | 0, (_, _ :: _) => none
  | n + 1, (seen, x :: pending) => collect n (enqueue (seen, pending) (next x))

/-- The loop over a stack, which takes the last member first. -/
def collectLast : Nat → List α × List α → Option (List α)
  | n, (seen, pending) =>
    match n, pending.reverse with
    | _, [] => some seen
    | 0, _ :: _ => none
    | n + 1, x :: rest => collectLast n (enqueue (seen, rest.reverse) (next x))

/-- What one round adds: followers only, each of them, and none twice. -/
theorem enqueue_spec (seen pending xs : List α) : ∃ fresh,
    enqueue (seen, pending) xs = (seen ++ fresh, pending ++ fresh) ∧
      (∀ x ∈ fresh, x ∈ xs) ∧ (∀ x ∈ fresh, x ∉ seen) ∧ fresh.Nodup ∧
      ∀ x ∈ xs, x ∈ seen ++ fresh := by
  induction xs generalizing seen pending with
  | nil => exact ⟨[], by simp [enqueue], by simp, by simp, List.nodup_nil, by simp⟩
  | cons x xs ih =>
    unfold enqueue
    by_cases hx : x ∈ seen
    · rw [if_pos hx]
      obtain ⟨fresh, heq, hsub, hnew, hnodup, hall⟩ := ih seen pending
      refine ⟨fresh, heq, fun y hy => List.mem_cons_of_mem x (hsub y hy), hnew, hnodup, ?_⟩
      intro y hy
      rcases List.mem_cons.mp hy with rfl | hy
      · exact List.mem_append_left _ hx
      · exact hall y hy
    · rw [if_neg hx]
      obtain ⟨fresh, heq, hsub, hnew, hnodup, hall⟩ := ih (seen ++ [x]) (pending ++ [x])
      refine ⟨x :: fresh, ?_, ?_, ?_, ?_, ?_⟩
      · rw [heq]
        simp
      · intro y hy
        rcases List.mem_cons.mp hy with rfl | hy
        · exact List.mem_cons_self
        · exact List.mem_cons_of_mem x (hsub y hy)
      · intro y hy
        rcases List.mem_cons.mp hy with rfl | hy
        · exact hx
        · exact fun hseen => hnew y hy (List.mem_append_left _ hseen)
      · refine List.nodup_cons.mpr ⟨fun hfresh => ?_, hnodup⟩
        exact hnew x hfresh (List.mem_append_right _ (List.mem_singleton_self x))
      · intro y hy
        rcases List.mem_cons.mp hy with rfl | hy
        · simp
        · simpa using hall y hy

/-- What the domain holds and the set does not. -/
def missing (domain seen : List α) : Nat := (domain.filter fun x => x ∉ seen).length

variable {domain r : List α}

theorem missing_append {seen fresh : List α} (hsub : ∀ x ∈ fresh, x ∈ domain)
    (hnew : ∀ x ∈ fresh, x ∉ seen) (hnodup : fresh.Nodup) :
    missing domain (seen ++ fresh) + fresh.length ≤ missing domain seen := by
  have hfresh : fresh.length ≤ (domain.filter fun x => x ∈ fresh ∧ x ∉ seen).length := by
    have hsubset : fresh ⊆ domain.filter fun x => x ∈ fresh ∧ x ∉ seen := by
      intro x hx
      exact List.mem_filter.mpr ⟨hsub x hx, decide_eq_true ⟨hx, hnew x hx⟩⟩
    exact (hnodup.subperm hsubset).length_le
  unfold missing
  have hsplit : (domain.filter fun x => x ∉ seen ++ fresh).length +
      (domain.filter fun x => x ∈ fresh ∧ x ∉ seen).length =
      (domain.filter fun x => x ∉ seen).length := by
    clear hsub hfresh
    induction domain with
    | nil => rfl
    | cons y ys ih =>
      by_cases hseen : y ∈ seen
      · simpa [List.filter_cons, hseen] using ih
      · by_cases hy : y ∈ fresh
        · simp only [List.filter_cons, List.mem_append, hseen, hy, false_or, not_true_eq_false,
            decide_false, Bool.false_eq_true, if_false, not_false_eq_true, and_self, decide_true,
            if_true, List.length_cons] at ih ⊢
          omega
        · simp only [List.filter_cons, List.mem_append, hseen, hy, false_or, not_false_eq_true,
            decide_true, if_true, false_and, decide_false, Bool.false_eq_true, if_false,
            List.length_cons] at ih ⊢
          omega
  omega

/-- Fuel for the queue and for all that can still come into the set is enough. -/
theorem collect_ends (hnext : ∀ x, ∀ y ∈ next x, y ∈ domain) (n : Nat)
    (seen pending : List α) (h : pending.length + missing domain seen ≤ n) :
    ∃ r, collect next n (seen, pending) = some r := by
  induction n generalizing seen pending with
  | zero =>
    cases pending with
    | nil => exact ⟨seen, rfl⟩
    | cons x pending => simp at h
  | succ n ih =>
    cases pending with
    | nil => exact ⟨seen, rfl⟩
    | cons x pending =>
      obtain ⟨fresh, heq, hsub, hnew, hnodup, _⟩ := enqueue_spec seen pending (next x)
      have hless := missing_append (fun y hy => hnext x y (hsub y hy)) hnew hnodup
      simp only [collect, heq]
      apply ih
      rw [List.length_cons] at h
      rw [List.length_append]
      omega

/-- `y` follows `x`. -/
def Follows (x y : α) : Prop := y ∈ next x

/-- The queue is in the set, and what follows the rest of the set is in it too. -/
structure Frontier (seeds : List α) (seen pending : List α) : Prop where
  covered : ∀ x ∈ seeds, x ∈ seen
  waiting : ∀ x ∈ pending, x ∈ seen
  closed : ∀ x ∈ seen, x ∈ pending ∨ ∀ y ∈ next x, y ∈ seen
  reached : ∀ x ∈ seen, ∃ s ∈ seeds, Relation.ReflTransGen (Follows next) s x

variable {next} {seeds seen pending : List α}

omit [DecidableEq α] in
theorem frontier_seeds : Frontier next seeds seeds seeds where
  covered _ hx := hx
  waiting _ hx := hx
  closed _ hx := Or.inl hx
  reached x hx := ⟨x, hx, Relation.ReflTransGen.refl⟩

omit [DecidableEq α] in
theorem frontier_step {x : α} (h : Frontier next seeds seen (x :: pending)) {fresh : List α}
    (hsub : ∀ y ∈ fresh, y ∈ next x) (hall : ∀ y ∈ next x, y ∈ seen ++ fresh) :
    Frontier next seeds (seen ++ fresh) (pending ++ fresh) := by
  refine ⟨?_, ?_, ?_, ?_⟩
  · intro y hy
    exact List.mem_append_left _ (h.covered y hy)
  · intro y hy
    rcases List.mem_append.mp hy with hy | hy
    · exact List.mem_append_left _ (h.waiting y (List.mem_cons_of_mem x hy))
    · exact List.mem_append_right _ hy
  · intro y hy
    rcases List.mem_append.mp hy with hy | hy
    · rcases h.closed y hy with hpending | hclosed
      · rcases List.mem_cons.mp hpending with rfl | hpending
        · exact Or.inr hall
        · exact Or.inl (List.mem_append_left _ hpending)
      · exact Or.inr fun z hz => List.mem_append_left _ (hclosed z hz)
    · exact Or.inl (List.mem_append_right _ hy)
  · intro y hy
    rcases List.mem_append.mp hy with hy | hy
    · exact h.reached y hy
    · obtain ⟨s, hs, hreach⟩ := h.reached x (h.waiting x List.mem_cons_self)
      exact ⟨s, hs, hreach.tail (hsub y hy)⟩

theorem collect_frontier {n : Nat} (h : Frontier next seeds seen pending)
    (hr : collect next n (seen, pending) = some r) : Frontier next seeds r [] := by
  induction n generalizing seen pending with
  | zero =>
    cases pending with
    | nil => cases hr; exact h
    | cons x pending => cases hr
  | succ n ih =>
    cases pending with
    | nil => cases hr; exact h
    | cons x pending =>
      obtain ⟨fresh, heq, hsub, _, _, hall⟩ := enqueue_spec seen pending (next x)
      simp only [collect, heq] at hr
      exact ih (frontier_step h hsub hall) hr

omit [DecidableEq α] in
/-- A set that a loop ends with is everything that can be reached from the seeds. -/
theorem Frontier.mem_iff (h : Frontier next seeds r []) {y : α} :
    y ∈ r ↔ ∃ s ∈ seeds, Relation.ReflTransGen (Follows next) s y := by
  constructor
  · exact h.reached y
  · rintro ⟨s, hs, hreach⟩
    induction hreach with
    | refl => exact h.covered s hs
    | tail _ hstep ih =>
      rcases h.closed _ ih with hnil | hclosed
      · cases hnil
      · exact hclosed _ hstep

/-- The set is everything that can be reached from the seeds. -/
theorem mem_collect {n : Nat} (hr : collect next n (seeds, seeds) = some r) {y : α} :
    y ∈ r ↔ ∃ s ∈ seeds, Relation.ReflTransGen (Follows next) s y :=
  (collect_frontier frontier_seeds hr).mem_iff

/-! ## A stack -/

omit [DecidableEq α] in
theorem frontier_perm {pending' : List α} (h : Frontier next seeds seen pending)
    (hperm : pending.Perm pending') : Frontier next seeds seen pending' where
  covered := h.covered
  waiting x hx := h.waiting x (hperm.mem_iff.mpr hx)
  closed x hx := (h.closed x hx).imp_left hperm.mem_iff.mp
  reached := h.reached

omit [DecidableEq α] in
theorem perm_of_reverse {x : α} {rest : List α} (h : pending.reverse = x :: rest) :
    pending.Perm (x :: rest.reverse) := by
  rw [← List.reverse_reverse pending, h, List.reverse_cons]
  exact List.perm_append_singleton x rest.reverse

theorem collectLast_ends (hnext : ∀ x, ∀ y ∈ next x, y ∈ domain) (n : Nat)
    (seen pending : List α) (h : pending.length + missing domain seen ≤ n) :
    ∃ r, collectLast next n (seen, pending) = some r := by
  induction n generalizing seen pending with
  | zero =>
    cases pending with
    | nil => exact ⟨seen, rfl⟩
    | cons x pending => simp at h
  | succ n ih =>
    unfold collectLast
    cases hlast : pending.reverse with
    | nil => exact ⟨seen, rfl⟩
    | cons x rest =>
      obtain ⟨fresh, heq, hsub, hnew, hnodup, _⟩ := enqueue_spec seen rest.reverse (next x)
      have hless := missing_append (fun y hy => hnext x y (hsub y hy)) hnew hnodup
      dsimp only
      rw [heq]
      apply ih
      have hlength := (perm_of_reverse hlast).length_eq
      rw [List.length_cons] at hlength
      rw [List.length_append]
      omega

theorem collectLast_frontier {n : Nat} (h : Frontier next seeds seen pending)
    (hr : collectLast next n (seen, pending) = some r) : Frontier next seeds r [] := by
  induction n generalizing seen pending with
  | zero =>
    cases pending with
    | nil => cases hr; exact h
    | cons x pending =>
      unfold collectLast at hr
      cases hlast : (x :: pending).reverse with
      | nil => simp at hlast
      | cons y rest => rw [hlast] at hr; cases hr
  | succ n ih =>
    unfold collectLast at hr
    cases hlast : pending.reverse with
    | nil =>
      rw [hlast] at hr
      cases hr
      rwa [List.reverse_eq_nil_iff.mp hlast] at h
    | cons x rest =>
      obtain ⟨fresh, heq, hsub, _, _, hall⟩ := enqueue_spec seen rest.reverse (next x)
      rw [hlast] at hr
      dsimp only at hr
      rw [heq] at hr
      exact ih (frontier_step (frontier_perm h (perm_of_reverse hlast)) hsub hall) hr

end Js.Worklist
