import AuvMiddleware.Lib.Call
import Mathlib.Logic.Relation

/-!
# Programs of calls

What a function does with an object, as a tree: the next call, and what follows for each of its
results. Run at once it is a call itself; run a call at a time, what the object works on may change
between two calls.
-/

namespace AuvMiddleware

inductive Script (Op : Type) (Result : Op → Type) (α : Type) where
  | done (value : α)
  | call (op : Op) (next : Result op → Script Op Result α)

namespace Script

variable {Op : Type} {Result : Op → Type} {ε σ α : Type} (calls : ∀ op, Call ε σ (Result op))

/-- All of it, with nothing in between. -/
def exec : Script Op Result α → Call ε σ α
  | .done value => pure value
  | .call op next => calls op >>= fun r => (next r).exec

/-- Its next call; what is left then. -/
def advance : Script Op Result α → Call ε σ (Script Op Result α)
  | .done value => pure (.done value)
  | .call op next => calls op >>= fun r => pure (next r)

theorem advance_of_ok {op : Op} {next : Result op → Script Op Result α} {s s' : σ} {r : Result op}
    (h : calls op s = (.ok r, s')) : (Script.call op next).advance calls s = (.ok (next r), s') :=
  Call.bind_of_ok h _

theorem advance_eq_ok {op : Op} {next : Result op → Script Op Result α} {s s' : σ}
    {p : Script Op Result α} (h : (Script.call op next).advance calls s = (.ok p, s')) :
    ∃ r, calls op s = (.ok r, s') ∧ p = next r := by
  obtain ⟨r, m, hcall, hpure⟩ := Call.bind_eq_ok h
  cases hpure
  exact ⟨r, hcall, rfl⟩

/-- One call that returns, on what it leaves of the script and of the object. -/
def Calls (x y : Script Op Result α × σ) : Prop :=
  ∃ op next, x.1 = .call op next ∧ x.1.advance calls x.2 = (.ok y.1, y.2)

/-- With nothing in between, the calls one at a time come to what all of it comes to. -/
theorem exec_calls {p : Script Op Result α} {s s' : σ} {value : α}
    (h : p.exec calls s = (.ok value, s')) :
    Relation.ReflTransGen (Calls calls) (p, s) (.done value, s') := by
  induction p generalizing s with
  | done v =>
    cases h
    exact .refl
  | call op next ih =>
    obtain ⟨r, m, hcall, hrest⟩ := Call.bind_eq_ok h
    exact .head ⟨op, next, rfl, advance_of_ok calls hcall⟩ (ih r hrest)

end Script
end AuvMiddleware
