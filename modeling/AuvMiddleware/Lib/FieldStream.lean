import Mathlib.Data.List.Basic

/-!
# Streams of self-delimiting fields

A message that travels as a sequence of fields, each of which says where it ends. A decoder takes
one field after another off the front of its input and merges it into the message read so far.
-/

namespace AuvMiddleware.FieldStream

variable {α μ : Type}

/-- Merges the field at the front of the input, and returns what follows it. -/
abbrev FieldReader (α μ : Type) := μ → List α → Option (μ × List α)

/-- Whether the input was used up, and the message as far as it was read. -/
def merge (read : FieldReader α μ) : ℕ → List α → μ → Bool × μ
  | _, [], m => (true, m)
  | 0, _ :: _, m => (false, m)
  | fuel + 1, b :: bs, m =>
    match read m (b :: bs) with
    | none => (false, m)
    | some (m', rest) => merge read fuel rest m'

/-- In front of anything, `s` is a number of fields that take `m` to `m'`. -/
inductive Merges (read : FieldReader α μ) : μ → List α → μ → Prop
  | nil (m : μ) : Merges read m [] m
  | cons {m m' m'' : μ} {field s : List α} (hne : field ≠ [])
      (hfield : ∀ rest, read m (field ++ rest) = some (m', rest)) (hs : Merges read m' s m'') :
      Merges read m (field ++ s) m''

/-- The field at the front of the input does not read. -/
def Stuck (read : FieldReader α μ) (m : μ) (s : List α) : Prop := s ≠ [] ∧ read m s = none

variable {read : FieldReader α μ} {m m' m'' : μ} {s t field : List α}

theorem Merges.one (hne : field ≠ [])
    (hfield : ∀ rest, read m (field ++ rest) = some (m', rest)) : Merges read m field m' := by
  have h := Merges.cons hne hfield (.nil m')
  rw [List.append_nil] at h
  exact h

theorem Merges.append (hs : Merges read m s m') (ht : Merges read m' t m'') :
    Merges read m (s ++ t) m'' := by
  induction hs with
  | nil => exact ht
  | cons hne hfield _ ih =>
    rw [List.append_assoc]
    exact .cons hne hfield (ih ht)

theorem merge_of_some {fuel : ℕ} {rest : List α} (hne : s ≠ []) (h : read m s = some (m', rest)) :
    merge read (fuel + 1) s m = merge read fuel rest m' := by
  cases s with
  | nil => exact absurd rfl hne
  | cons b bs => simp only [merge, h]

theorem merge_of_none {fuel : ℕ} (hne : s ≠ []) (h : read m s = none) :
    merge read fuel s m = (false, m) := by
  cases s with
  | nil => exact absurd rfl hne
  | cons b bs =>
    cases fuel with
    | zero => rfl
    | succ fuel => simp only [merge, h]

/-- The loop reads what the fields say, if it is given a turn for each of them. -/
theorem Merges.merge_eq (h : Merges read m s m') {fuel : ℕ} (hfuel : s.length ≤ fuel) :
    merge read fuel s m = (true, m') := by
  induction h generalizing fuel with
  | nil => cases fuel <;> rfl
  | cons hne hfield _ ih =>
    have hpos := List.length_pos_iff.mpr hne
    rw [List.length_append] at hfuel
    cases fuel with
    | zero => omega
    | succ fuel =>
      rw [merge_of_some (List.append_ne_nil_of_left_ne_nil hne _) (hfield _)]
      exact ih (by omega)

/-- The loop stops at the first field that does not read. -/
theorem Merges.merge_stuck (h : Merges read m s m') (ht : Stuck read m' t) {fuel : ℕ}
    (hfuel : s.length ≤ fuel) : merge read fuel (s ++ t) m = (false, m') := by
  induction h generalizing fuel with
  | nil => exact merge_of_none ht.1 ht.2
  | cons hfield_ne hfield _ ih =>
    have hpos := List.length_pos_iff.mpr hfield_ne
    rw [List.length_append] at hfuel
    cases fuel with
    | zero => omega
    | succ fuel =>
      rw [List.append_assoc, merge_of_some (List.append_ne_nil_of_left_ne_nil hfield_ne _) (hfield _)]
      exact ih ht (by omega)

/-- What each field keeps of the message and the input after it, the loop keeps. -/
theorem merge_invariant {Inv : μ → List α → Prop}
    (hread : ∀ m s m' rest, Inv m s → read m s = some (m', rest) → Inv m' rest)
    (fuel : ℕ) (h : Inv m s) : ∃ rest, Inv (merge read fuel s m).2 rest := by
  induction fuel generalizing m s with
  | zero =>
    cases s with
    | nil => exact ⟨_, h⟩
    | cons b bs => exact ⟨_, h⟩
  | succ fuel ih =>
    by_cases hne : s = []
    · subst hne
      exact ⟨_, h⟩
    · cases hr : read m s with
      | none =>
        rw [merge_of_none hne hr]
        exact ⟨_, h⟩
      | some r =>
        obtain ⟨m', rest⟩ := r
        rw [merge_of_some hne hr]
        exact ih (hread m s m' rest h hr)

/-- A reader that takes every field another one takes, and sees `f` of the message there, sees it
of the whole message. -/
theorem merge_map {ν : Type} {read' : FieldReader α ν} (f : μ → ν)
    (hread : ∀ m s m' rest, read m s = some (m', rest) → read' (f m) s = some (f m', rest))
    {fuel : ℕ} (h : merge read fuel s m = (true, m')) :
    merge read' fuel s (f m) = (true, f m') := by
  induction fuel generalizing m s with
  | zero =>
    cases s with
    | nil =>
      cases h
      rfl
    | cons b bs => cases h
  | succ fuel ih =>
    by_cases hne : s = []
    · subst hne
      cases h
      rfl
    · cases hr : read m s with
      | none =>
        rw [merge_of_none hne hr] at h
        cases h
      | some r =>
        obtain ⟨m₁, rest⟩ := r
        rw [merge_of_some hne hr] at h
        rw [merge_of_some hne (hread m s m₁ rest hr)]
        exact ih h

end AuvMiddleware.FieldStream
