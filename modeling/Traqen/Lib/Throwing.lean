-- Computations that may throw. What was written before a throw stays written: the state goes on
-- with the error, and whoever catches it has to put the state right.
import Mathlib.Logic.Relation

namespace Throwing

variable {σ ε α β : Type}

/-- A computation: what it ends with, and the state then. -/
def Proc (σ ε α : Type) : Type := σ → Except ε α × σ

def ret (a : α) : Proc σ ε α := fun s => (.ok a, s)

/-- A value that is refused is thrown. -/
def lift (x : Except ε α) : Proc σ ε α := fun s => (x, s)

def andThen (x : Proc σ ε α) (f : α → Proc σ ε β) : Proc σ ε β := fun s =>
  match x s with
  | (.ok a, t) => f a t
  | (.error e, t) => (.error e, t)

def read : Proc σ ε σ := fun s => (.ok s, s)

def modify (f : σ → σ) : Proc σ ε Unit := fun s => (.ok (), f s)

instance : Monad (Proc σ ε) where
  pure := ret
  bind := andThen

/-- A loop, which the first throw ends. -/
def forEach (f : α → Proc σ ε Unit) : List α → Proc σ ε Unit
  | [] => ret ()
  | a :: as => andThen (f a) fun _ => forEach f as

/-! ## What a computation ends with -/

theorem andThen_ok {x : Proc σ ε α} {f : α → Proc σ ε β} {s t : σ} {b : β}
    (h : andThen x f s = (.ok b, t)) : ∃ a u, x s = (.ok a, u) ∧ f a u = (.ok b, t) := by
  unfold andThen at h
  rcases hx : x s with ⟨_ | a, u⟩
  · rw [hx] at h
    cases h
  · rw [hx] at h
    exact ⟨a, u, rfl, h⟩

theorem forEach_append (f : α → Proc σ ε Unit) (as bs : List α) (s : σ) :
    forEach f (as ++ bs) s = andThen (forEach f as) (fun _ => forEach f bs) s := by
  induction as generalizing s with
  | nil => rfl
  | cons a as ih =>
    rw [List.cons_append, forEach, forEach]
    unfold andThen
    rcases f a s with ⟨_ | u, t⟩
    · rfl
    · exact ih t

/-! ## The steps that a computation takes -/

/-- Every state on the way comes from the one before by a step, up to a throw too. -/
def Within (step : σ → σ → Prop) (x : Proc σ ε α) : Prop :=
  ∀ s, Relation.ReflTransGen step s (x s).2

variable {step : σ → σ → Prop}

theorem within_ret (a : α) : Within step (ret a : Proc σ ε α) := fun _ => .refl

theorem within_lift (x : Except ε α) : Within step (lift x : Proc σ ε α) := fun _ => .refl

theorem within_modify {f : σ → σ} (h : ∀ s, step s (f s)) :
    Within step (modify f : Proc σ ε Unit) := fun s => .single (h s)

theorem within_andThen {x : Proc σ ε α} {f : α → Proc σ ε β} (hx : Within step x)
    (hf : ∀ a, Within step (f a)) : Within step (andThen x f) := by
  intro s
  have hfirst := hx s
  unfold andThen
  rcases h : x s with ⟨_ | a, t⟩
  · rw [h] at hfirst
    exact hfirst
  · rw [h] at hfirst
    exact hfirst.trans (hf a t)

theorem within_forEach {f : α → Proc σ ε Unit} {as : List α} (h : ∀ a ∈ as, Within step (f a)) :
    Within step (forEach f as) := by
  induction as with
  | nil => exact within_ret ()
  | cons a as ih =>
    exact within_andThen (h a List.mem_cons_self)
      fun _ => ih fun b hb => h b (List.mem_cons_of_mem a hb)

/-- What every step keeps holds wherever the computation stops. -/
theorem Within.keeps {x : Proc σ ε α} {Inv : σ → Prop} (h : Within step x)
    (hstep : ∀ s t, step s t → Inv s → Inv t) {s : σ} (hs : Inv s) : Inv (x s).2 := by
  have hreach : ∀ t, Relation.ReflTransGen step s t → Inv t := by
    intro t ht
    induction ht with
    | refl => exact hs
    | tail _ hlast ih => exact hstep _ _ hlast ih
  exact hreach _ (h s)

end Throwing
