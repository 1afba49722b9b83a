-- Runs of a step machine. A step function says what one labelled step does to
-- a state, and none when the label is not enabled there. A schedule is a list of
-- labels, so a law for every schedule is a law for every interleaving.
import Mathlib.Data.List.Basic

namespace Machine

variable {σ α : Type*}

/-- The state that a schedule leads to. -/
def run (step : σ → α → Option σ) : σ → List α → Option σ
  | s, [] => some s
  | s, a :: as => (step s a).bind fun t => run step t as

/-- Every step of the schedule is taken where the condition holds. -/
def Along (step : σ → α → Option σ) (c : σ → α → Prop) : σ → List α → Prop
  | _, [] => True
  | s, a :: as => c s a ∧ match step s a with
    | some t => Along step c t as
    | none => True

/-- The machine with a history: each step adds what it shows to the list. -/
def watch {β : Type*} (step : σ → α → Option σ) (shows : σ → α → σ → List β) :
    σ × List β → α → Option (σ × List β)
  | (s, seen), a => (step s a).map fun t => (t, seen ++ shows s a t)

/-- The machine that only takes the steps that meet the condition. -/
def guarded (step : σ → α → Option σ) (c : σ → α → Bool) (s : σ) (a : α) : Option σ :=
  if c s a then step s a else none

instance decidableAlong (step : σ → α → Option σ) (c : σ → α → Prop)
    [∀ s a, Decidable (c s a)] : ∀ s as, Decidable (Along step c s as)
  | _, [] => isTrue trivial
  | s, a :: as => by
    unfold Along
    cases step s a with
    | none => exact inferInstance
    | some t => exact @instDecidableAnd _ _ _ (decidableAlong step c t as)

variable {step : σ → α → Option σ} {c : σ → α → Prop}

theorem run_cons_some {s t : σ} {a : α} {as : List α} (h : run step s (a :: as) = some t) :
    ∃ u, step s a = some u ∧ run step u as = some t := by
  rw [run] at h
  exact Option.bind_eq_some_iff.mp h

theorem along_cons_some {s u : σ} {a : α} {as : List α} (h : Along step c s (a :: as))
    (hu : step s a = some u) : c s a ∧ Along step c u as := by
  rw [Along, hu] at h
  exact h

theorem along_of_forall {as : List α} (h : ∀ a ∈ as, ∀ s, c s a) (s : σ) :
    Along step c s as := by
  induction as generalizing s with
  | nil => exact trivial
  | cons a as ih =>
    refine ⟨h a List.mem_cons_self s, ?_⟩
    cases step s a with
    | none => exact trivial
    | some t => exact ih (fun b hb => h b (List.mem_cons_of_mem _ hb)) t

theorem run_append {s t : σ} {as bs : List α} (h : run step s as = some t) :
    run step s (as ++ bs) = run step t bs := by
  induction as generalizing s with
  | nil => rw [run] at h; cases h; rfl
  | cons a as ih =>
    obtain ⟨u, hu, hr⟩ := run_cons_some h
    rw [List.cons_append, run, hu]
    exact ih hr

theorem along_append {s t : σ} {as bs : List α} (h : run step s as = some t)
    (hc : Along step c s (as ++ bs)) : Along step c s as ∧ Along step c t bs := by
  induction as generalizing s with
  | nil => rw [run] at h; cases h; exact ⟨trivial, hc⟩
  | cons a as ih =>
    obtain ⟨u, hu, hr⟩ := run_cons_some h
    obtain ⟨hca, hcr⟩ := along_cons_some hc hu
    obtain ⟨h1, h2⟩ := ih hr hcr
    rw [Along, hu]
    exact ⟨⟨hca, h1⟩, h2⟩

theorem watch_some {β : Type*} {shows : σ → α → σ → List β} {s t : σ} {a : α}
    {seen seen' : List β} (h : watch step shows (s, seen) a = some (t, seen')) :
    step s a = some t ∧ seen' = seen ++ shows s a t := by
  obtain ⟨u, hu, heq⟩ := Option.map_eq_some_iff.mp h
  cases heq
  exact ⟨hu, rfl⟩

/-- A run of the guarded machine is a run all of whose steps meet the condition. -/
theorem run_guarded {c : σ → α → Bool} {s t : σ} {as : List α}
    (h : run (guarded step c) s as = some t) :
    run step s as = some t ∧ Along step (fun s a => c s a = true) s as := by
  induction as generalizing s with
  | nil => exact ⟨h, trivial⟩
  | cons a as ih =>
    obtain ⟨u, hu, hr⟩ := run_cons_some h
    unfold guarded at hu
    split at hu
    · rename_i hca
      obtain ⟨hrun, halong⟩ := ih hr
      refine ⟨?_, hca, ?_⟩
      · rw [run, hu]
        exact hrun
      · rw [hu]
        exact halong
    · cases hu

/-- The invariant rule: what every step keeps, every run keeps. -/
theorem run_keeps {Inv : σ → Prop} (hstep : ∀ s a t, Inv s → step s a = some t → Inv t)
    {s t : σ} {as : List α} (h : run step s as = some t) (hs : Inv s) : Inv t := by
  induction as generalizing s with
  | nil => rw [run] at h; cases h; exact hs
  | cons a as ih =>
    obtain ⟨u, hu, hr⟩ := run_cons_some h
    exact ih hr (hstep s a u hs hu)

/-- The invariant rule for the runs whose steps all meet a condition. -/
theorem run_keeps_along {Inv : σ → Prop}
    (hstep : ∀ s a t, Inv s → c s a → step s a = some t → Inv t)
    {s t : σ} {as : List α} (h : run step s as = some t) (hc : Along step c s as) (hs : Inv s) :
    Inv t := by
  induction as generalizing s with
  | nil => rw [run] at h; cases h; exact hs
  | cons a as ih =>
    obtain ⟨u, hu, hr⟩ := run_cons_some h
    obtain ⟨hca, hcr⟩ := along_cons_some hc hu
    exact ih hr hcr (hstep s a u hs hca hu)

/-- When a step outside the condition breaks the invariant for good, a run ends in the
invariant exactly when all of its steps met the condition. -/
theorem run_keeps_iff_along {Inv Good : σ → Prop}
    (hinv : ∀ s a t, Inv s → step s a = some t → Inv t)
    (hkeep : ∀ s a t, Inv s → Good s → c s a → step s a = some t → Good t)
    (hbreak : ∀ s a t, Inv s → Good s → ¬ c s a → step s a = some t → ¬ Good t)
    (hstay : ∀ s a t, Inv s → ¬ Good s → step s a = some t → ¬ Good t)
    {s t : σ} {as : List α} (h : run step s as = some t) (hi : Inv s) (hs : Good s) :
    Good t ↔ Along step c s as := by
  induction as generalizing s with
  | nil => rw [run] at h; cases h; simp [Along, hs]
  | cons a as ih =>
    obtain ⟨u, hu, hr⟩ := run_cons_some h
    have hiu := hinv s a u hi hu
    rw [Along, hu]
    by_cases hca : c s a
    · simp only [hca, true_and]
      exact ih hr hiu (hkeep s a u hi hs hca hu)
    · simp only [hca, false_and, iff_false]
      have hbad : ∀ x b y, Inv x ∧ ¬ Good x → step x b = some y → Inv y ∧ ¬ Good y :=
        fun x b y hx hy => ⟨hinv x b y hx.1 hy, hstay x b y hx.1 hx.2 hy⟩
      exact (run_keeps hbad hr ⟨hiu, hbreak s a u hi hs hca hu⟩).2

/-- Two conditions that agree wherever the invariant holds hold along the same runs. -/
theorem along_congr {d : σ → α → Prop} {Inv : σ → Prop}
    (hinv : ∀ s a t, Inv s → step s a = some t → Inv t) (hiff : ∀ s a, Inv s → (c s a ↔ d s a))
    (as : List α) {s : σ} (hs : Inv s) : Along step c s as ↔ Along step d s as := by
  induction as generalizing s with
  | nil => exact Iff.rfl
  | cons a as ih =>
    unfold Along
    rw [hiff s a hs]
    cases h : step s a with
    | none => exact Iff.rfl
    | some t =>
      dsimp only
      rw [ih (hinv s a t hs h)]

end Machine
