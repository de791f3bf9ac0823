import Mathlib.Algebra.Order.Field.Basic
import Mathlib.Data.List.Chain
import Mathlib.Order.Bounds.Basic
import Mathlib.Tactic.Ring
import Mathlib.Tactic.Positivity

/-!
# Evenly spaced values

A list whose neighbours differ by the same step is given by its first value and the step. Its first
value is its least one, and its last the greatest, when the step does not go down.
-/

namespace AuvMiddleware

variable {K : Type} [Field K]

def EvenlySpaced (d : K) (l : List K) : Prop := l.IsChain fun a b => b - a = d

instance [DecidableEq K] (d : K) (l : List K) : Decidable (EvenlySpaced d l) :=
  inferInstanceAs (Decidable (l.IsChain fun a b => b - a = d))

namespace EvenlySpaced
variable {d a b : K} {l : List K}

theorem getElem?_eq (h : EvenlySpaced d l) (ha : l.head? = some a) {i : ℕ} {x : K}
    (hx : l[i]? = some x) : x = a + i * d := by
  induction l generalizing a i with
  | nil => cases ha
  | cons first l ih =>
    cases ha
    cases i with
    | zero =>
      cases hx
      simp
    | succ i =>
      rw [List.getElem?_cons_succ] at hx
      cases l with
      | nil => simp at hx
      | cons second l =>
        obtain ⟨hstep, htail⟩ := List.isChain_cons_cons.mp h
        rw [ih htail rfl hx, sub_eq_iff_eq_add.mp hstep, Nat.cast_succ]
        ring

theorem getLast?_eq (h : EvenlySpaced d l) (ha : l.head? = some a) (hb : l.getLast? = some b) :
    b = a + (l.length - 1 : ℕ) * d := by
  rw [List.getLast?_eq_getElem?] at hb
  exact h.getElem?_eq ha hb

theorem step_eq [CharZero K] (h : EvenlySpaced d l) (htwo : 2 ≤ l.length)
    (ha : l.head? = some a) (hb : l.getLast? = some b) : (b - a) / (l.length - 1 : ℕ) = d := by
  have hne : ((l.length - 1 : ℕ) : K) ≠ 0 := Nat.cast_ne_zero.mpr (by omega)
  rw [h.getLast?_eq ha hb, add_sub_cancel_left, mul_div_cancel_left₀ d hne]

section Order
variable [LinearOrder K] [IsStrictOrderedRing K]

theorem isLeast_head (h : EvenlySpaced d l) (hd : 0 ≤ d) (ha : l.head? = some a) :
    IsLeast {x | x ∈ l} a := by
  refine ⟨List.mem_of_head? ha, fun x hx => ?_⟩
  obtain ⟨i, hi⟩ := List.mem_iff_getElem?.mp hx
  rw [h.getElem?_eq ha hi]
  exact le_add_of_nonneg_right (by positivity)

theorem isGreatest_getLast (h : EvenlySpaced d l) (hd : 0 ≤ d) (ha : l.head? = some a)
    (hb : l.getLast? = some b) : IsGreatest {x | x ∈ l} b := by
  refine ⟨List.mem_of_getLast? hb, fun x hx => ?_⟩
  obtain ⟨i, hi⟩ := List.mem_iff_getElem?.mp hx
  have hlt := (List.getElem?_eq_some_iff.mp hi).1
  have hle : (i : K) ≤ (l.length - 1 : ℕ) := by exact_mod_cast Nat.le_sub_one_of_lt hlt
  rw [h.getElem?_eq ha hi, h.getLast?_eq ha hb]
  gcongr

/-- A first value that is the least one is where a descending list cannot start. -/
theorem step_nonneg (h : EvenlySpaced d l) (htwo : 2 ≤ l.length) (ha : l.head? = some a)
    (hleast : IsLeast {x | x ∈ l} a) : 0 ≤ d := by
  have hone := List.getElem?_eq_getElem (show 1 < l.length by omega)
  have hle := hleast.2 (List.mem_of_getElem? hone)
  rw [h.getElem?_eq ha hone] at hle
  simpa using hle

end Order
end EvenlySpaced
end AuvMiddleware
