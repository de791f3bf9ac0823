import Mathlib.Data.Int.Notation
import Mathlib.Data.List.Basic

/-!
# Input file streams with error flags

The part of an input stream that outlives a read: its position and its two flags. A read
that meets the end of the file sets both flags; a seek clears the end-of-file flag only and
does nothing more while the failure flag is set.
-/

namespace AuvMiddleware

structure InStream where
  pos : ℕ := 0
  eofbit : Bool := false
  failbit : Bool := false
  deriving DecidableEq, Repr

namespace InStream

variable {α : Type}

def good (s : InStream) : Bool := !s.eofbit && !s.failbit

def seekg (s : InStream) (off : ℤ) : InStream :=
  if s.failbit then { s with eofbit := false }
  else if off < 0 then { s with eofbit := false, failbit := true }
  else { pos := off.toNat, eofbit := false, failbit := false }

/-- Extract up to `n` characters of the file; what was extracted counts as `gcount`. -/
def read (s : InStream) (file : List α) (n : ℕ) : List α × InStream :=
  if s.good then
    let got := (file.drop s.pos).take n
    let short := decide (got.length < n)
    (got, { pos := s.pos + got.length, eofbit := short, failbit := short })
  else ([], { s with failbit := true })

theorem seekg_of_nonneg {s : InStream} {off : ℤ} (hs : s.failbit = false) (ho : 0 ≤ off) :
    s.seekg off = { pos := off.toNat } := by
  simp [seekg, hs, Int.not_lt.mpr ho]

theorem seekg_of_neg {s : InStream} {off : ℤ} (hs : s.failbit = false) (ho : off < 0) :
    s.seekg off = { s with eofbit := false, failbit := true } := by
  simp [seekg, hs, ho]

theorem seekg_failed {s : InStream} (off : ℤ) (hs : s.failbit = true) :
    (s.seekg off).failbit = true := by
  simp [seekg, hs]

theorem read_full {s : InStream} {file : List α} {n : ℕ} (hs : s.good = true)
    (hn : n ≤ (file.drop s.pos).length) :
    s.read file n = ((file.drop s.pos).take n, { pos := s.pos + n }) := by
  have hl : ((file.drop s.pos).take n).length = n := by
    rw [List.length_take]
    exact Nat.min_eq_left hn
  simp [read, hs, hl]

theorem read_short {s : InStream} {file : List α} {n : ℕ} (hs : s.good = true)
    (hn : (file.drop s.pos).length < n) :
    s.read file n = (file.drop s.pos,
      { pos := s.pos + (file.drop s.pos).length, eofbit := true, failbit := true }) := by
  have ht : (file.drop s.pos).take n = file.drop s.pos := List.take_of_length_le (by omega)
  simp only [read, hs, if_true, ht, decide_eq_true hn]

end InStream
end AuvMiddleware
