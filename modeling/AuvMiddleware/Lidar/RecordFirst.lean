import AuvMiddleware.Lidar.Service
import AuvMiddleware.Lidar.Store

/-!
# Recorded before published (scan_publisher_recorder_main.cpp:250-326)

One `scan` variable goes from the poll to `record()` and from there to `publish()`, through
reconnects, timeouts and stops.
-/

namespace AuvMiddleware.Lidar
open Runs

/-- The scans polled, recorded and handed over, at each point of `main`. -/
def Service.Ordered (s : Service) : Prop :=
  match s.pc with
  | .record => s.polled = s.recorded ++ [s.scan] ∧ s.handed = s.recorded
  | .publish => s.polled = s.recorded ∧ s.recorded = s.handed ++ [s.scan]
  | .returned _ =>
    (s.polled = s.recorded ∨ s.polled = s.recorded ++ [s.scan]) ∧ s.handed = s.recorded
  | _ => s.polled = s.recorded ∧ s.handed = s.recorded

/-- The files hold what was there before the run and the scans recorded since. -/
def Service.Indexed (P : Protobuf) (before : List Scan) (s : Service) : Prop :=
  ∃ t, s.recording.files.index = some t ∧
    Holds P s.recording.files.log t (before ++ s.recorded)

/-! ### One step -/

theorem step_ordered (P : Protobuf) (s : Service) (i : ServiceStep) (s' : Service)
    (hs : s.Ordered) (h : s.step P i = some s') : s'.Ordered := by
  cases step_move h with
  | stopRequested => exact hs
  | wait => exact hs
  | receive scan hpc =>
    simp only [Service.Ordered, hpc] at hs
    exact ⟨congrArg (· ++ [scan]) hs.1, hs.2⟩
  | record hpc =>
    simp only [Service.Ordered, hpc] at hs
    exact ⟨hs.1, congrArg (· ++ [s.scan]) hs.2.symm⟩
  | recordFails hpc | recordThrows _ hpc =>
    simp only [Service.Ordered, hpc] at hs
    exact ⟨.inr hs.1, hs.2⟩
  | publish sent hpc =>
    simp only [Service.Ordered, hpc] at hs
    exact ⟨hs.1, hs.2.symm⟩
  | leave hpc | connectThrows hpc =>
    simp only [Service.Ordered, hpc] at hs
    exact ⟨.inl hs.1, hs.2⟩
  | exit hpc | terminate hpc =>
    rcases hpc with hpc | hpc <;> simp only [Service.Ordered, hpc] at hs
    · exact hs
    · exact hs
  | start hpc | nextPass hpc | noPass hpc | poll hpc | teardown hpc | retry hpc | noRetry hpc
  | sleep hpc | wake hpc | timeout hpc | stall hpc | connect hpc | reconnect hpc
  | reconnectThrows hpc =>
    simp only [Service.Ordered, hpc] at hs
    exact hs

theorem step_indexed (P : Protobuf) {before : List Scan} (s : Service) (i : ServiceStep)
    (s' : Service) (hs : s.Indexed P before) (h : s.step P i = some s') :
    s'.Indexed P before := by
  cases step_move h with
  | record hpc hrec =>
    obtain ⟨t, ht, hholds⟩ := hs
    rcases record_cases P s.scan _ s.recording with
      ⟨t', r', hok, ht', hlog, hindex, -⟩ | ⟨e, k, r', herror, -⟩
    · cases hok.symm.trans hrec
      cases ht.symm.trans ht'
      refine ⟨_, hindex, ?_⟩
      dsimp only
      rw [hlog, ← List.append_assoc]
      exact hholds.record s.scan _
    · cases herror.symm.trans hrec
  | recordFails hpc hrec =>
    obtain ⟨t, ht, hholds⟩ := hs
    rcases record_cases P s.scan _ s.recording with
      ⟨t', r', hok, -⟩ | ⟨e, k, r', herror, hlog, hindex, -⟩
    · cases hok.symm.trans hrec
    · cases herror.symm.trans hrec
      refine ⟨t, hindex.trans ht, ?_⟩
      dsimp only
      rw [hlog]
      exact hholds.append _
  | _ => exact hs

/-! ### After an exception -/

def ServiceStep.Throws (P : Protobuf) (s : Service) : ServiceStep → Prop
  | .recordReturns faults => ∃ e, (Lidar.record P s.scan faults s.recording).1 = .error e
  | .recordThrows _ => True
  | _ => False

theorem throws_returned {P : Protobuf} {s s' : Service} {i : ServiceStep} (ht : i.Throws P s)
    (h : s.step P i = some s') :
    s.pc = .record ∧ s'.pc = .returned 1 ∧ s'.handed = s.handed := by
  cases step_move h with
  | record hpc hrec =>
    obtain ⟨e, he⟩ := ht
    rw [hrec] at he
    cases he
  | recordFails hpc => exact ⟨hpc, rfl, rfl⟩
  | recordThrows wire hpc => exact ⟨hpc, rfl, rfl⟩
  | _ => exact ht.elim

theorem step_returned (P : Protobuf) {code : ℕ} {handed : List Scan} (s : Service)
    (i : ServiceStep) (s' : Service) (hs : s.pc = .returned code ∧ s.handed = handed)
    (h : s.step P i = some s') : s'.pc = .returned code ∧ s'.handed = handed := by
  obtain ⟨hreturned, hhanded⟩ := hs
  cases step_move h with
  | stopRequested => exact ⟨hreturned, hhanded⟩
  | wait hpc | exit hpc | terminate hpc =>
    rcases hpc with hpc | hpc <;> cases hpc.symm.trans hreturned
  | start hpc | nextPass hpc | noPass hpc | poll hpc | teardown hpc | retry hpc | noRetry hpc
  | sleep hpc | wake hpc | leave hpc | timeout hpc | stall hpc | receive _ hpc | connect hpc
  | reconnect hpc | connectThrows hpc | reconnectThrows hpc | record hpc | recordFails hpc
  | recordThrows _ hpc | publish _ hpc =>
    cases hpc.symm.trans hreturned

/-! ### The run -/

theorem Service.Ordered.handed_sublist {s : Service} (hs : s.Ordered) :
    s.handed.Sublist s.recorded := by
  unfold Service.Ordered at hs
  split at hs
  case h_2 =>
    rw [hs.2]
    exact List.sublist_append_left ..
  all_goals
    rw [hs.2]

theorem Service.Ordered.polled_eq {s : Service} (hs : s.Ordered) :
    s.polled = s.recorded ∨
      (s.pc = .record ∨ ∃ code, s.pc = .returned code) ∧ s.polled = s.recorded ++ [s.scan] := by
  unfold Service.Ordered at hs
  split at hs
  case h_1 hpc => exact .inr ⟨.inl hpc, hs.1⟩
  case h_3 code hpc => exact hs.1.imp id fun h => ⟨.inr ⟨code, hpc⟩, h⟩
  all_goals exact .inl hs.1

/-- At every moment of every run: what was handed to the publisher was recorded before, what was
polled is recorded but for the scan in hand, the files hold the recorded scans, and an exception
from `record()` is the end of publishing. -/
theorem recorded_before_published (P : Protobuf) {recording : Recording}
    {steps : List ServiceStep} {s : Service}
    (h : run (Service.step P) { recording := recording } steps = some s) :
    s.handed.Sublist s.recorded ∧
      (s.polled = s.recorded ∨ (s.pc = .record ∨ ∃ code, s.pc = .returned code) ∧
        s.polled = s.recorded ++ [s.scan]) ∧
      (∀ before t, recording.files.index = some t → Holds P recording.files.log t before →
        s.Indexed P before) ∧
      ∀ i s', i.Throws P s → s.step P i = some s' →
        s.polled = s.recorded ++ [s.scan] ∧
          ∀ more s'', run (Service.step P) s' more = some s'' → s''.handed = s.handed := by
  have hstart : Service.Ordered { recording := recording } := ⟨rfl, rfl⟩
  have ho : s.Ordered := run_invariant (step_ordered P) hstart h
  refine ⟨ho.handed_sublist, ho.polled_eq, ?_, ?_⟩
  · intro before t ht hholds
    refine run_invariant (step_indexed P) ⟨t, ht, ?_⟩ h
    rw [List.append_nil]
    exact hholds
  · intro i s' ht hi
    obtain ⟨hat, hpc, hhanded⟩ := throws_returned ht hi
    simp only [Service.Ordered, hat] at ho
    exact ⟨ho.1, fun more s'' hmore =>
      (run_invariant (step_returned P) ⟨hpc, hhanded⟩ hmore).2⟩

def shortWrite : List ServiceStep :=
  [.go, .attemptSucceeds, .go, .go, .pollReturns (some (stamped 3)), .recordReturns {},
    .publishReturns true, .go, .go, .pollReturns (some (stamped 5)),
    .recordReturns { landed := some 5 }, .requestStop]

theorem recorded_before_published_shortWrite :
    ∃ s, run (Service.step wireFormat) { recording := ⟨{}, { index := some Table.empty }⟩ }
        shortWrite = some s ∧
      s.handed = [stamped 3] ∧ s.polled = [stamped 3, stamped 5] ∧
      s.handed.Sublist s.recorded ∧ s.Indexed wireFormat [] :=
  have h := recorded_before_published wireFormat (show run (Service.step wireFormat)
    { recording := ⟨{}, { index := some Table.empty }⟩ } shortWrite = some _ from rfl)
  ⟨_, rfl, rfl, rfl, h.1, h.2.2.1 [] Table.empty rfl (holds_empty wireFormat [])⟩

end AuvMiddleware.Lidar
