import Mathlib.Data.Fin.Basic
import Mathlib.Data.List.Basic
import Mathlib.Data.Nat.Bitwise
import Mathlib.Tactic.Ring

/-!
# Byte strings and 32-bit little-endian words
-/

namespace AuvMiddleware

abbrev Byte := Fin 256
abbrev Bytes := List Byte

def lowByte (v : ℕ) : Byte := ⟨v &&& 255, by
  rw [Nat.and_two_pow_sub_one_eq_mod v 8]
  exact Nat.mod_lt _ (by norm_num)⟩

def bytes (values : List ℕ) : Bytes := values.map lowByte

def ascii (text : List Char) : Bytes := text.map fun c => lowByte c.toNat

def toU32 (v : ℤ) : ℕ := (v % 2 ^ 32).toNat

def le32 (v : ℕ) : Bytes :=
  [lowByte v, lowByte (v >>> 8), lowByte (v >>> 16), lowByte (v >>> 24)]

def ofLe32 (b0 b1 b2 b3 : Byte) : ℕ :=
  b0.val ||| b1.val <<< 8 ||| b2.val <<< 16 ||| b3.val <<< 24

theorem four_bytes {s : Bytes} (h : 4 ≤ s.length) :
    ∃ b0 b1 b2 b3 rest, s = b0 :: b1 :: b2 :: b3 :: rest :=
  match s, h with
  | b0 :: b1 :: b2 :: b3 :: rest, _ => ⟨b0, b1, b2, b3, rest, rfl⟩

@[simp] theorem le32_length (v : ℕ) : (le32 v).length = 4 := rfl

theorem lowByte_val (v : ℕ) : (lowByte v).val = v % 256 :=
  Nat.and_two_pow_sub_one_eq_mod v 8

theorem toU32_of_lt {n : ℕ} (h : n < 2 ^ 32) : toU32 (n : ℤ) = n := by
  unfold toU32
  omega

theorem ofLe32_eq (b0 b1 b2 b3 : Byte) :
    ofLe32 b0 b1 b2 b3 = b0.val + 2 ^ 8 * b1.val + 2 ^ 16 * b2.val + 2 ^ 24 * b3.val := by
  have join (lo hi k : ℕ) (h : lo < 2 ^ k) : lo ||| hi <<< k = lo + 2 ^ k * hi := by
    rw [Nat.or_comm, ← Nat.shiftLeft_add_eq_or_of_lt h, Nat.shiftLeft_eq]
    ring
  have h0 := b0.isLt
  have h1 := b1.isLt
  have h2 := b2.isLt
  unfold ofLe32
  rw [join b0.val b1.val 8 (by omega), join _ b2.val 16 (by omega), join _ b3.val 24 (by omega)]

theorem ofLe32_lt (b0 b1 b2 b3 : Byte) : ofLe32 b0 b1 b2 b3 < 2 ^ 32 := by
  have h0 := b0.isLt
  have h1 := b1.isLt
  have h2 := b2.isLt
  have h3 := b3.isLt
  rw [ofLe32_eq]
  omega

theorem ofLe32_le32 {v : ℕ} (h : v < 2 ^ 32) :
    ofLe32 (lowByte v) (lowByte (v >>> 8)) (lowByte (v >>> 16)) (lowByte (v >>> 24)) = v := by
  simp only [ofLe32_eq, lowByte_val, Nat.shiftRight_eq_div_pow]
  omega

theorem le32_inj {v w : ℕ} (hv : v < 2 ^ 32) (hw : w < 2 ^ 32) (h : le32 v = le32 w) : v = w := by
  unfold le32 at h
  injection h with h0 h
  injection h with h1 h
  injection h with h2 h
  injection h with h3 _
  rw [← ofLe32_le32 hv, ← ofLe32_le32 hw, h0, h1, h2, h3]

theorem le32_ofLe32 (b0 b1 b2 b3 : Byte) : le32 (ofLe32 b0 b1 b2 b3) = [b0, b1, b2, b3] := by
  have h (v : ℕ) (b : Byte) (hv : v % 256 = b.val) : lowByte v = b :=
    Fin.ext ((lowByte_val v).trans hv)
  simp only [le32, Nat.shiftRight_eq_div_pow, ofLe32_eq]
  congr 1
  · exact h _ _ (by omega)
  congr 1
  · exact h _ _ (by omega)
  congr 1
  · exact h _ _ (by omega)
  congr 1
  exact h _ _ (by omega)

end AuvMiddleware
