import AuvMiddleware.Lib.Bytes
import Mathlib.Data.Nat.Digits.Lemmas

/-!
# Decimal integers as text

Printing an integer, and the prefix parser that reads an optional minus sign and as many
digits as follow, with the range check of a fixed-width result type.
-/

namespace AuvMiddleware.Decimal

def minus : Byte := lowByte 45

def isDigit (b : Byte) : Bool := decide (48 ≤ b.val ∧ b.val ≤ 57)

def digitChar (d : ℕ) : Byte := lowByte (48 + d)

def digitsText (n : ℕ) : Bytes :=
  if n = 0 then [digitChar 0] else (Nat.digits 10 n).reverse.map digitChar

def toText (z : ℤ) : Bytes :=
  if z < 0 then minus :: digitsText z.natAbs else digitsText z.natAbs

def digitsValue (ds : Bytes) : ℕ := ds.foldl (fun n b => 10 * n + (b.val - 48)) 0

inductive Parsed where
  | ok (value : ℤ) (rest : Bytes)
  | invalidArgument
  | outOfRange (rest : Bytes)
  deriving DecidableEq, Repr

def parseDigits (lo hi sign : ℤ) (s : Bytes) : Parsed :=
  let ds := s.takeWhile isDigit
  let rest := s.dropWhile isDigit
  if ds = [] then .invalidArgument
  else
    let v := sign * digitsValue ds
    if lo ≤ v ∧ v ≤ hi then .ok v rest else .outOfRange rest

/-- The longest prefix that is a decimal integer, into a type that holds `lo` to `hi`. -/
def parse (lo hi : ℤ) : Bytes → Parsed
  | [] => .invalidArgument
  | b :: s => if b = minus then parseDigits lo hi (-1) s else parseDigits lo hi 1 (b :: s)

/-! ### The grammar -/

structure Digits (text : Bytes) : Prop where
  ne_nil : text ≠ []
  all : ∀ b ∈ text, isDigit b = true

/-- An integer in decimal: digits, perhaps with a minus sign before them. -/
inductive Numeral : Bytes → ℤ → Prop where
  | plain (ds : Bytes) (h : Digits ds) : Numeral ds (1 * digitsValue ds)
  | negative (ds : Bytes) (h : Digits ds) : Numeral (minus :: ds) (-1 * digitsValue ds)

def NoDigit (rest : Bytes) : Prop := ∀ b ∈ rest.head?, isDigit b = false

theorem takeWhile_digits (ds rest : Bytes) (hd : ∀ b ∈ ds, isDigit b = true)
    (hr : ∀ b ∈ rest.head?, isDigit b = false) :
    (ds ++ rest).takeWhile isDigit = ds ∧ (ds ++ rest).dropWhile isDigit = rest := by
  have hstop : rest.takeWhile isDigit = [] ∧ rest.dropWhile isDigit = rest := by
    cases rest with
    | nil => exact ⟨rfl, rfl⟩
    | cons b rest =>
      have hb : isDigit b = false := hr b rfl
      simp [hb]
  constructor
  · rw [List.takeWhile_append_of_pos hd, hstop.1, List.append_nil]
  · rw [List.dropWhile_append_of_pos hd, hstop.2]

theorem not_isDigit_minus : isDigit minus = false := by decide

theorem parseDigits_eq_ok_iff {lo hi sign z : ℤ} {s rest : Bytes} :
    parseDigits lo hi sign s = .ok z rest ↔ ∃ ds, s = ds ++ rest ∧ Digits ds ∧
      z = sign * digitsValue ds ∧ lo ≤ z ∧ z ≤ hi ∧ NoDigit rest := by
  unfold parseDigits
  constructor
  · intro h
    dsimp only at h
    split at h
    · cases h
    · rename_i hne
      split at h
      · rename_i hrange
        injection h with hz hrest
        subst hz hrest
        refine ⟨s.takeWhile isDigit, List.takeWhile_append_dropWhile.symm,
          ⟨hne, List.all_eq_true.mp List.all_takeWhile⟩, rfl, hrange.1, hrange.2, ?_⟩
        intro b hb
        have := List.head?_dropWhile_not isDigit s
        rw [Option.mem_def.mp hb] at this
        simpa using this
      · cases h
  · rintro ⟨ds, rfl, hds, rfl, hlo, hhi, hrest⟩
    obtain ⟨ht, hd⟩ := takeWhile_digits ds rest hds.all hrest
    simp only [ht, hd, hds.ne_nil, if_false, hlo, hhi, and_self, if_true]

theorem Numeral.head_plain {ds : Bytes} (h : Digits ds) : ∃ b s, ds = b :: s ∧ isDigit b = true := by
  cases ds with
  | nil => exact absurd rfl h.ne_nil
  | cons b s => exact ⟨b, s, rfl, h.all b (List.mem_cons_self ..)⟩

/-- What the prefix parser accepts: a numeral in range, up to where its digits end. -/
theorem parse_eq_ok_iff {lo hi z : ℤ} {s rest : Bytes} :
    parse lo hi s = .ok z rest ↔
      ∃ text, s = text ++ rest ∧ Numeral text z ∧ lo ≤ z ∧ z ≤ hi ∧ NoDigit rest := by
  constructor
  · intro h
    cases s with
    | nil => cases h
    | cons b s =>
      rw [parse] at h
      split at h
      · rename_i hb
        obtain ⟨ds, rfl, hds, rfl, hlo, hhi, hrest⟩ := parseDigits_eq_ok_iff.mp h
        exact ⟨minus :: ds, by rw [hb]; rfl, .negative ds hds, hlo, hhi, hrest⟩
      · obtain ⟨ds, hs, hds, rfl, hlo, hhi, hrest⟩ := parseDigits_eq_ok_iff.mp h
        exact ⟨ds, hs, .plain ds hds, hlo, hhi, hrest⟩
  · rintro ⟨text, rfl, htext, hlo, hhi, hrest⟩
    cases htext with
    | plain ds h =>
      obtain ⟨b, s, rfl, hb⟩ := Numeral.head_plain h
      have hminus : b ≠ minus := by
        intro he
        rw [he, not_isDigit_minus] at hb
        cases hb
      rw [List.cons_append, parse, if_neg hminus]
      exact parseDigits_eq_ok_iff.mpr ⟨b :: s, rfl, h, rfl, hlo, hhi, hrest⟩
    | negative ds h =>
      rw [List.cons_append, parse, if_pos rfl]
      exact parseDigits_eq_ok_iff.mpr ⟨ds, rfl, h, rfl, hlo, hhi, hrest⟩

theorem Numeral.head {text : Bytes} {z : ℤ} (h : Numeral text z) :
    ∃ b s, text = b :: s ∧ (b = minus ∨ isDigit b = true) := by
  cases h with
  | plain ds h =>
    obtain ⟨b, s, hs, hb⟩ := Numeral.head_plain h
    exact ⟨b, s, hs, Or.inr hb⟩
  | negative ds h => exact ⟨minus, ds, rfl, Or.inl rfl⟩

/-! ### Reading back what was printed -/

theorem digitChar_val {d : ℕ} (h : d < 10) : (digitChar d).val = 48 + d := by
  rw [digitChar, lowByte_val]
  omega

theorem isDigit_digitChar {d : ℕ} (h : d < 10) : isDigit (digitChar d) = true := by
  simp only [isDigit, digitChar_val h, decide_eq_true_eq]
  omega

theorem digitsText_isDigit (n : ℕ) : ∀ b ∈ digitsText n, isDigit b = true := by
  intro b hb
  unfold digitsText at hb
  split at hb
  · rw [List.mem_singleton.mp hb]
    exact isDigit_digitChar (by omega)
  · obtain ⟨d, hd, rfl⟩ := List.mem_map.mp hb
    exact isDigit_digitChar (Nat.digits_lt_base (by omega) (List.mem_reverse.mp hd))

theorem digitsText_ne_nil (n : ℕ) : digitsText n ≠ [] := by
  unfold digitsText
  split
  · exact List.cons_ne_nil _ _
  · rename_i hn
    simpa using Nat.digits_ne_nil_iff_ne_zero.mpr hn

theorem digitsValue_map_digitChar (ds : List ℕ) (h : ∀ d ∈ ds, d < 10) :
    digitsValue (ds.reverse.map digitChar) = Nat.ofDigits 10 ds := by
  unfold digitsValue
  rw [List.foldl_map, List.foldl_reverse]
  induction ds with
  | nil => rfl
  | cons d ds ih =>
    have hd : (digitChar d).val = 48 + d := digitChar_val (h d (List.mem_cons_self ..))
    have ht := ih fun x hx => h x (List.mem_cons_of_mem _ hx)
    rw [List.foldr_cons, ht, hd, Nat.ofDigits_cons]
    omega

theorem digitsValue_digitsText (n : ℕ) : digitsValue (digitsText n) = n := by
  unfold digitsText
  split
  · rename_i hn
    rw [hn]
    rfl
  · rw [digitsValue_map_digitChar _ fun d hd => Nat.digits_lt_base (by omega) hd]
    exact Nat.ofDigits_digits 10 n

theorem toText_numeral (z : ℤ) : Numeral (toText z) z := by
  have hdigits : Digits (digitsText z.natAbs) := ⟨digitsText_ne_nil _, digitsText_isDigit _⟩
  unfold toText
  split
  · have h := Numeral.negative _ hdigits
    rwa [digitsValue_digitsText, show -1 * (z.natAbs : ℤ) = z by omega] at h
  · have h := Numeral.plain _ hdigits
    rwa [digitsValue_digitsText, show 1 * (z.natAbs : ℤ) = z by omega] at h

/-- What was printed is read back, whatever follows it that is not a digit. -/
theorem parse_toText {lo hi z : ℤ} {rest : Bytes} (hlo : lo ≤ z) (hhi : z ≤ hi)
    (hr : ∀ b ∈ rest.head?, isDigit b = false) :
    parse lo hi (toText z ++ rest) = .ok z rest :=
  parse_eq_ok_iff.mpr ⟨toText z, rfl, toText_numeral z, hlo, hhi, hr⟩

end AuvMiddleware.Decimal
