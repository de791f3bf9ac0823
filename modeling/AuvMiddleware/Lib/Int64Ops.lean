import Mathlib.Algebra.Ring.Int.Defs

/-!
# Signed 64-bit arithmetic that remembers an overflow

Results are reduced to two's complement, and a flag says whether one of them had to be.
-/

namespace AuvMiddleware

def minInt64 : ℤ := -2 ^ 63

def InInt64 (z : ℤ) : Prop := -2 ^ 63 ≤ z ∧ z < 2 ^ 63

instance (z : ℤ) : Decidable (InInt64 z) := inferInstanceAs (Decidable (_ ∧ _))

def wrap64 (z : ℤ) : ℤ := (z + 2 ^ 63) % 2 ^ 64 - 2 ^ 63

def toU64 (z : ℤ) : ℕ := (z % 2 ^ 64).toNat

theorem wrap64_of_in {z : ℤ} (h : InInt64 z) : wrap64 z = z := by
  unfold InInt64 at h
  unfold wrap64
  omega

theorem toU64_of_in {z : ℤ} (h : InInt64 z) (hz : 0 ≤ z) : toU64 z = z.toNat := by
  unfold InInt64 at h
  unfold toU64
  omega

/-! ### The difference of two `Int64` -/

theorem toInt_sub_of_in {a b : Int64} (h : InInt64 (a.toInt - b.toInt)) :
    (a - b).toInt = a.toInt - b.toInt := by
  unfold InInt64 at h
  rw [Int64.toInt_sub, Int.bmod_eq_of_le]
  · omega
  · omega

theorem toInt_sub_of_large {a b : Int64} (h : 2 ^ 63 ≤ a.toInt - b.toInt) :
    (a - b).toInt = a.toInt - b.toInt - 2 ^ 64 := by
  have hhi := a.toInt_lt
  have hlo := b.le_toInt
  rw [Int64.toInt_sub, Int.bmod_def]
  omega

theorem toInt_sub_of_small {a b : Int64} (h : a.toInt - b.toInt < -2 ^ 63) :
    (a - b).toInt = a.toInt - b.toInt + 2 ^ 64 := by
  have hlo := a.le_toInt
  have hhi := b.toInt_lt
  rw [Int64.toInt_sub, Int.bmod_def]
  omega

structure Checked (α : Type) where
  value : α
  overflow : Bool := false

namespace Checked

variable {α β : Type}

instance : Monad Checked where
  pure a := { value := a }
  bind x f := { value := (f x.value).value, overflow := x.overflow || (f x.value).overflow }

def int64 (z : ℤ) : Checked ℤ := { value := wrap64 z, overflow := decide (¬ InInt64 z) }

theorem int64_of_in {z : ℤ} (h : InInt64 z) : int64 z = pure z := by
  show (⟨wrap64 z, decide (¬ InInt64 z)⟩ : Checked ℤ) = ⟨z, false⟩
  rw [wrap64_of_in h, decide_eq_false (not_not_intro h)]

@[simp] theorem pure_bind' (a : α) (f : α → Checked β) : (pure a >>= f) = f a := by
  show (⟨(f a).value, false || (f a).overflow⟩ : Checked β) = f a
  rw [Bool.false_or]

theorem overflow_bind (x : Checked α) (f : α → Checked β) :
    (x >>= f).overflow = (x.overflow || (f x.value).overflow) := rfl

/-- The truncating division of the language; a zero divisor is an overflow too. -/
def div (a b : ℤ) : Checked ℤ :=
  { value := wrap64 (a.tdiv b), overflow := decide (b = 0 ∨ ¬ InInt64 (a.tdiv b)) }

/-! ### Results reached without an overflow -/

def exact (x : Checked α) : Option α := if x.overflow then none else some x.value

@[simp] theorem exact_pure (a : α) : (pure a : Checked α).exact = some a := rfl

theorem exact_bind (x : Checked α) (f : α → Checked β) :
    (x >>= f).exact = x.exact.bind fun a => (f a).exact := by
  show exact ⟨(f x.value).value, x.overflow || (f x.value).overflow⟩ = _
  unfold exact
  cases x.overflow <;> simp

theorem exact_eq_some_iff {x : Checked α} {a : α} :
    x.exact = some a ↔ x.overflow = false ∧ x.value = a := by
  unfold exact
  cases x.overflow <;> simp

theorem eq_pure_of_exact {x : Checked α} {a : α} (h : x.exact = some a) : x = pure a := by
  obtain ⟨hflag, hvalue⟩ := exact_eq_some_iff.mp h
  obtain ⟨value, overflow⟩ := x
  cases hflag
  cases hvalue
  rfl

theorem exact_int64 {z v : ℤ} (h : (int64 z).exact = some v) : v = z ∧ InInt64 z := by
  by_cases hz : InInt64 z
  · rw [int64_of_in hz] at h
    cases h
    exact ⟨rfl, hz⟩
  · simp [exact, int64, hz] at h

theorem exact_div {a b v : ℤ} (h : (div a b).exact = some v) : v = a.tdiv b ∧ b ≠ 0 := by
  by_cases hb : b = 0
  · simp [exact, div, hb] at h
  · by_cases hz : InInt64 (a.tdiv b)
    · simp only [exact, div, hb, hz, not_true_eq_false, or_self, decide_false,
        Bool.false_eq_true, if_false, Option.some.injEq, wrap64_of_in hz] at h
      exact ⟨h.symm, hb⟩
    · simp [exact, div, hz] at h

theorem exact_div_iff {a b v : ℤ} :
    (div a b).exact = some v ↔ b ≠ 0 ∧ InInt64 v ∧ v = a.tdiv b := by
  constructor
  · intro h
    obtain ⟨rfl, hb⟩ := exact_div h
    refine ⟨hb, ?_, rfl⟩
    by_contra hz
    simp [exact, div, hz] at h
  · rintro ⟨hb, hz, rfl⟩
    simp only [exact, div, hb, hz, not_true_eq_false, or_self, decide_false,
      Bool.false_eq_true, if_false, wrap64_of_in hz]

/-- Peels one checked step off a computation that came out exact. -/
theorem exact_bind_eq_some {x : Checked α} {f : α → Checked β} {b : β}
    (h : (x >>= f).exact = some b) : ∃ a, x.exact = some a ∧ (f a).exact = some b := by
  rw [exact_bind] at h
  exact Option.bind_eq_some_iff.mp h

end Checked
end AuvMiddleware
