-- Generators: computations that hand out values on the way. What is handed out does not change
-- what the computation ends with.
import Traqen.Lib.Throwing

namespace Yielding

open Throwing

variable {ρ σ ε α β : Type}

/-- A generator that is run to its end: the values, what it ends with, and the state then. -/
def Gen (ρ σ ε α : Type) : Type := σ → List ρ × Except ε α × σ

/-- A part without `yield`. -/
def quiet (x : Proc σ ε α) : Gen ρ σ ε α := fun s => ([], x s)

/-- `yield p`. -/
def hand (p : ρ) : Gen ρ σ ε Unit := fun s => ([p], .ok (), s)

def handAll (ps : List ρ) : Gen ρ σ ε Unit := fun s => (ps, .ok (), s)

def andGo (x : Gen ρ σ ε α) (f : α → Gen ρ σ ε β) : Gen ρ σ ε β := fun s =>
  match x s with
  | (ps, .ok a, t) => (ps ++ (f a t).1, (f a t).2)
  | (ps, .error e, t) => (ps, .error e, t)

/-- `try { x } finally { yield p }`. -/
def ensuring (x : Gen ρ σ ε α) (p : ρ) : Gen ρ σ ε α := fun s => ((x s).1 ++ [p], (x s).2)

/-- `try` around a part without `yield`: the way on, and the one behind an error that is caught. -/
def guarded (x : Proc σ ε α) (go : α → Gen ρ σ ε β) (caught : ε → Option (Gen ρ σ ε β)) :
    Gen ρ σ ε β := fun s =>
  match x s with
  | (.ok a, t) => go a t
  | (.error e, t) => ((caught e).getD (quiet (lift (.error e)))) t

/-- The computation without its values. -/
def result (x : Gen ρ σ ε α) : Proc σ ε α := fun s => (x s).2

instance : Monad (Gen ρ σ ε) where
  pure a := quiet (ret a)
  bind := andGo

@[simp] theorem result_quiet (x : Proc σ ε α) : result (quiet x : Gen ρ σ ε α) = x := rfl

@[simp] theorem result_hand (p : ρ) : result (hand p : Gen ρ σ ε Unit) = ret () := rfl

@[simp] theorem result_handAll (ps : List ρ) : result (handAll ps : Gen ρ σ ε Unit) = ret () := rfl

@[simp] theorem result_ensuring (x : Gen ρ σ ε α) (p : ρ) : result (ensuring x p) = result x := rfl

@[simp] theorem result_andGo (x : Gen ρ σ ε α) (f : α → Gen ρ σ ε β) :
    result (andGo x f) = andThen (result x) fun a => result (f a) := by
  funext s
  simp only [result, andThen, andGo]
  rcases x s with ⟨ps, _ | a, t⟩
  · rfl
  · rfl

/-! ## The values on the way -/

variable {g : α → Gen ρ σ ε β} {x : Gen ρ σ ε α}

theorem values_of_ok {s t : σ} {a : α}
    (h : (x s).2 = (.ok a, t)) : (andGo x g s).1 = (x s).1 ++ (g a t).1 := by
  unfold andGo
  rcases hx : x s with ⟨ps, r⟩
  rw [hx] at h
  cases h
  rfl

theorem values_of_error {s t : σ} {e : ε}
    (h : (x s).2 = (.error e, t)) : (andGo x g s).1 = (x s).1 := by
  unfold andGo
  rcases hx : x s with ⟨ps, r⟩
  rw [hx] at h
  cases h
  rfl

variable {κ : Type} {f : ρ → κ}

/-- What the values show comes in the order of a script, up to its end when the computation ends
well. -/
def Scripted (f : ρ → κ) (x : Gen ρ σ ε α) (script : List κ) : Prop :=
  ∀ s, (x s).1.map f <+: script ∧ ∀ a t, (x s).2 = (.ok a, t) → (x s).1.map f = script

theorem scripted_quiet (x : Proc σ ε α) : Scripted f (quiet x) [] :=
  fun _ => ⟨List.prefix_rfl, fun _ _ _ => rfl⟩

theorem scripted_handAll (ps : List ρ) : Scripted f (handAll ps : Gen ρ σ ε Unit) (ps.map f) :=
  fun _ => ⟨List.prefix_rfl, fun _ _ _ => rfl⟩

theorem scripted_andGo {first later : List κ} (hx : Scripted f x first)
    (hg : ∀ s a t, (x s).2 = (.ok a, t) → Scripted f (g a) later) :
    Scripted f (andGo x g) (first ++ later) := by
  intro s
  obtain ⟨hbegun, hdone⟩ := hx s
  have hnext := hg s
  unfold andGo
  rcases h : x s with ⟨ps, e | a, t⟩
  · rw [h] at hbegun
    exact ⟨hbegun.trans (List.prefix_append first later), fun a u hok => by cases hok⟩
  · rw [h] at hdone hnext
    obtain ⟨hgoing, hlast⟩ := hnext a t rfl t
    have hps : ps.map f = first := hdone a t rfl
    constructor
    · show (ps ++ (g a t).1).map f <+: first ++ later
      rw [List.map_append, hps]
      exact (List.prefix_append_right_inj first).2 hgoing
    · intro b u hok
      show (ps ++ (g a t).1).map f = first ++ later
      rw [List.map_append, hps, hlast b u hok]

section Follow

variable {g : α → Gen ρ σ ε β} {script : List κ}

/-- What follows a part without `yield`. -/
theorem scripted_behind {x : Proc σ ε α}
    (hg : ∀ s a t, x s = (.ok a, t) → Scripted f (g a) script) :
    Scripted f (andGo (quiet x) g) script :=
  scripted_andGo (scripted_quiet x) hg

/-- A part without `yield` at the end. -/
theorem scripted_before (y : α → Proc σ ε β) (hx : Scripted f x script) :
    Scripted f (andGo x fun a => quiet (y a)) script := by
  have hall := scripted_andGo hx fun _ a _ _ => scripted_quiet (y a)
  rw [List.append_nil] at hall
  exact hall

theorem scripted_handed {g : Unit → Gen ρ σ ε β} (p : ρ) (hg : Scripted f (g ()) script) :
    Scripted f (andGo (hand p) g) (f p :: script) := by
  have hfirst : Scripted f (hand p : Gen ρ σ ε Unit) [f p] :=
    fun _ => ⟨List.prefix_rfl, fun _ _ _ => rfl⟩
  exact scripted_andGo hfirst fun _ _ _ _ => hg

/-- The value of a `finally`. -/
theorem scripted_ensured (x : Proc σ ε α) (p : ρ) (hg : ∀ a, Scripted f (g a) script) :
    Scripted f (andGo (ensuring (quiet x) p) g) (f p :: script) := by
  have hfirst : Scripted f (ensuring (quiet x) p) [f p] :=
    fun _ => ⟨List.prefix_rfl, fun _ _ _ => rfl⟩
  exact scripted_andGo hfirst fun _ a _ _ => hg a

end Follow

theorem scripted_guarded {x : Proc σ ε α} {go : α → Gen ρ σ ε β}
    {caught : ε → Option (Gen ρ σ ε β)} {script : List κ} (hgo : ∀ a, Scripted f (go a) script)
    (hcaught : ∀ e g, caught e = some g → Scripted f g script) :
    Scripted f (guarded x go caught) script := by
  intro s
  unfold guarded
  rcases x s with ⟨e | a, t⟩
  · dsimp only
    cases h : caught e with
    | none => exact ⟨List.nil_prefix, fun a u hok => by cases hok⟩
    | some g => exact hcaught e g h t
  · exact hgo a t

end Yielding
