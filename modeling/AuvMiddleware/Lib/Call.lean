import Mathlib.Init

/-!
# Calls on an object that may throw

A member function works on an object and ends with a value or an exception. The object it
leaves behind is there in both cases: what was done before the throw stays done.
-/

namespace AuvMiddleware

/-- A call: the outcome, and the object afterwards, thrown or not. -/
def Call (ε σ α : Type) : Type := σ → Except ε α × σ

namespace Call

variable {ε σ α β : Type}

instance : Monad (Call ε σ) where
  pure a s := (.ok a, s)
  bind x f s := match x s with
    | (.ok a, s') => f a s'
    | (.error e, s') => (.error e, s')

def throw (e : ε) : Call ε σ α := fun s => (.error e, s)

def get : Call ε σ σ := fun s => (.ok s, s)

def modify (f : σ → σ) : Call ε σ Unit := fun s => (.ok (), f s)

/-- The handler goes on with the object as the throw left it, and may throw itself. -/
def tryCatch (x : Call ε σ α) (handler : ε → Call ε σ α) : Call ε σ α := fun s =>
  match x s with
  | (.ok a, s') => (.ok a, s')
  | (.error e, s') => handler e s'

@[simp] theorem throw_apply (e : ε) (s : σ) : (throw e : Call ε σ α) s = (.error e, s) := rfl

@[simp] theorem get_bind (f : σ → Call ε σ β) (s : σ) : (get >>= f) s = f s s := rfl

@[simp] theorem modify_bind (g : σ → σ) (f : Unit → Call ε σ β) (s : σ) :
    (modify g >>= f) s = f () (g s) := rfl

theorem bind_of_ok {x : Call ε σ α} {s s' : σ} {a : α} (h : x s = (.ok a, s'))
    (f : α → Call ε σ β) : (x >>= f) s = f a s' := by
  show (match x s with
    | (.ok a, s') => f a s'
    | (.error e, s') => (.error e, s')) = f a s'
  rw [h]

theorem bind_of_error {x : Call ε σ α} {s s' : σ} {e : ε} (h : x s = (.error e, s'))
    (f : α → Call ε σ β) : (x >>= f) s = (.error e, s') := by
  show (match x s with
    | (.ok a, s') => f a s'
    | (.error e, s') => (.error e, s')) = (.error e, s')
  rw [h]

theorem tryCatch_of_ok {x : Call ε σ α} {s s' : σ} {a : α} (h : x s = (.ok a, s'))
    (handler : ε → Call ε σ α) : tryCatch x handler s = (.ok a, s') := by
  unfold tryCatch
  rw [h]

theorem tryCatch_of_error {x : Call ε σ α} {s s' : σ} {e : ε} (h : x s = (.error e, s'))
    (handler : ε → Call ε σ α) : tryCatch x handler s = handler e s' := by
  unfold tryCatch
  rw [h]

theorem bind_eq_ok {x : Call ε σ α} {f : α → Call ε σ β} {s s' : σ} {b : β}
    (h : (x >>= f) s = (.ok b, s')) : ∃ a m, x s = (.ok a, m) ∧ f a m = (.ok b, s') := by
  cases hx : x s with
  | mk r m =>
    cases r with
    | ok a => exact ⟨a, m, rfl, (bind_of_ok hx f).symm.trans h⟩
    | error e =>
      rw [bind_of_error hx] at h
      cases h

theorem bind_assoc {γ : Type} (x : Call ε σ α) (f : α → Call ε σ β) (g : β → Call ε σ γ) :
    x >>= f >>= g = x >>= fun a => f a >>= g := by
  funext s
  cases hx : x s with
  | mk r s' =>
    cases r with
    | ok a =>
      have hf : (x >>= f) s = f a s' := bind_of_ok hx f
      rw [bind_of_ok hx]
      show (match (x >>= f) s with
        | (.ok b, t) => g b t
        | (.error e, t) => (.error e, t)) = _
      rw [hf]
      rfl
    | error e => rw [bind_of_error hx, bind_of_error (bind_of_error hx f)]

theorem bind_pure (x : Call ε σ α) : x >>= pure = x := by
  funext s
  cases hx : x s with
  | mk r s' =>
    cases r with
    | ok a => exact bind_of_ok hx _
    | error e => exact bind_of_error hx _

end Call
end AuvMiddleware
