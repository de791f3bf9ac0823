import Mathlib.Data.List.Basic
import Mathlib.Order.Lattice

/-!
# Delay lines

Items wait in a list, each with the time it falls due. When the due times never decrease along
the list, releasing what is due takes a prefix, so nothing overtakes.
-/

namespace AuvMiddleware.DelayLine

variable {α τ : Type} [LinearOrder τ] {due : α → τ}

def Ordered (due : α → τ) (line : List α) : Prop := line.Pairwise fun a b => due a ≤ due b

def released (due : α → τ) (now : τ) (line : List α) : List α :=
  line.filter fun a => decide (due a ≤ now)

def waiting (due : α → τ) (now : τ) (line : List α) : List α :=
  line.filter fun a => !decide (due a ≤ now)

theorem mem_released {now : τ} {line : List α} {a : α} :
    a ∈ released due now line ↔ a ∈ line ∧ due a ≤ now := by
  simp [released]

theorem mem_waiting {now : τ} {line : List α} {a : α} :
    a ∈ waiting due now line ↔ a ∈ line ∧ now < due a := by
  simp [waiting]

theorem released_append (now : τ) (line rest : List α) :
    released due now (line ++ rest) = released due now line ++ released due now rest :=
  List.filter_append ..

theorem released_of_due {now : τ} {line : List α} (h : ∀ a ∈ line, due a ≤ now) :
    released due now line = line :=
  List.filter_eq_self.mpr fun a ha => decide_eq_true (h a ha)

theorem released_of_late {now : τ} {line : List α} (h : ∀ a ∈ line, now < due a) :
    released due now line = [] :=
  List.filter_eq_nil_iff.mpr fun a ha hd => absurd (of_decide_eq_true hd) (not_le.mpr (h a ha))

theorem Ordered.released_append_waiting {line : List α} (h : Ordered due line) (now : τ) :
    released due now line ++ waiting due now line = line := by
  induction line with
  | nil => rfl
  | cons d line ih =>
    obtain ⟨hd, hline⟩ := List.pairwise_cons.mp h
    have hrest := ih hline
    unfold released waiting at *
    by_cases hdue : due d ≤ now
    · simp only [List.filter_cons, hdue, decide_true, if_true, Bool.not_true, Bool.false_eq_true,
        if_false, List.cons_append, hrest]
    · -- the head is not due, so nothing behind it is
      have hlate : ∀ a ∈ d :: line, now < due a := by
        intro a ha
        rcases List.mem_cons.mp ha with rfl | ha
        · exact not_le.mp hdue
        · exact lt_of_lt_of_le (not_le.mp hdue) (hd a ha)
      have hnone : (d :: line).filter (fun a => decide (due a ≤ now)) = [] :=
        released_of_late hlate
      rw [hnone, List.nil_append, List.filter_eq_self]
      intro a ha
      simpa using hlate a ha

theorem waiting_waiting {now later : τ} (h : now ≤ later) (line : List α) :
    waiting due later (waiting due now line) = waiting due later line := by
  unfold waiting
  rw [List.filter_filter]
  refine List.filter_congr fun a _ => ?_
  by_cases hdue : due a ≤ now
  · simp [hdue, le_trans hdue h]
  · simp [hdue]

/-- Two releases let out what one release at the later time does, in the same order. -/
theorem Ordered.released_append_released {line : List α} (hline : Ordered due line)
    {now later : τ} (h : now ≤ later) :
    released due now line ++ released due later (waiting due now line) =
      released due later line := by
  have hfirst : released due later (released due now line) = released due now line :=
    released_of_due fun a ha => le_trans (mem_released.mp ha).2 h
  have hall := congrArg (released due later) (hline.released_append_waiting now)
  rwa [released_append, hfirst] at hall

end AuvMiddleware.DelayLine
