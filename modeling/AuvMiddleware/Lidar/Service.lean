import AuvMiddleware.Lib.Runs
import AuvMiddleware.Lidar.Recorder

/-!
# The publisher/recorder service (scan_publisher_recorder_main.cpp:112-326)

`main` step by step: the loop, the watchdog with its reconnect loop inside, and
`connect_with_stop_check`. What the sensor, the vendor's connection attempts, the disk and the
publisher's socket do comes from outside, and so does the stop, which may arrive between any two
steps.
-/

namespace AuvMiddleware.Lidar
open Runs

def kStallTimeoutCount : ℕ := 15

def kStartupTimeoutCount : ℕ := 30

inductive ServicePc where
  | start
  | connecting
  | loopTest
  | poll
  | polling
  | teardown
  | retryTest
  | reconnecting
  | backoff (remainingMs : ℕ)
  | record
  | publish
  | leaving
  | returned (code : ℕ)
  | exited
  | terminated
  deriving DecidableEq

/-- What bears on the watchdog, in the order it happened. -/
inductive WatchEvent where
  | received
  | timeout
  | teardown
  | connected
  deriving DecidableEq

/-- `sources` counts the `SickScanSource` objects that own a connection, `attempts` those still
under construction. The last fields only keep count: of loop passes and polls, of the scans polled,
recorded and handed to the publisher, and of the watchdog's events. -/
structure Service where
  pc : ServicePc := .start
  stop : Bool := false
  sources : ℕ := 0
  attempts : ℕ := 0
  everReceived : Bool := false
  consecutiveTimeouts : ℕ := 0
  reconnected : Bool := false
  scan : Scan := Scan.fresh
  recording : Recording
  published : ℕ := 0
  passes : ℕ := 0
  polls : ℕ := 0
  polled : List Scan := []
  recorded : List Scan := []
  handed : List Scan := []
  events : List WatchEvent := []

/-- `recordThrows` is an exception before anything is written, `foreign` one that does not derive
from `std::exception`. -/
inductive ServiceStep where
  | requestStop
  | go
  | pollReturns (scan : Option Scan)
  | notReady
  | attemptSucceeds
  | attemptThrows (e : Thrown)
  | recordReturns (faults : RecordFaults)
  | recordThrows (wire : LidarScan)
  | publishReturns (sent : Bool)

def Service.threshold (s : Service) : ℕ :=
  if s.everReceived then kStallTimeoutCount else kStartupTimeoutCount

/-- The steps that need nothing from outside. -/
def Service.go (s : Service) : Option Service :=
  match s.pc with
  | .start => some { s with pc := .connecting, attempts := s.attempts + 1 }
  | .loopTest =>
    if !s.stop then
      some { s with pc := .poll, passes := s.passes + 1 }
    else
      some { s with pc := .leaving }
  | .poll => some { s with pc := .polling, polls := s.polls + 1 }
  | .teardown =>
    some { s with
      pc := .retryTest, sources := 0, reconnected := false, events := s.events ++ [.teardown] }
  | .retryTest =>
    if !s.stop && !s.reconnected then
      some { s with pc := .reconnecting, attempts := s.attempts + 1 }
    else
      some { s with pc := .loopTest }
  | .backoff remainingMs =>
    if 0 < remainingMs && !s.stop then
      some { s with pc := .backoff (remainingMs - min 100 remainingMs) }
    else
      some { s with pc := .retryTest }
  | .leaving => some { s with pc := .returned 0, sources := 0 }
  | _ => none

/-- The poll and the arm of the loop it leads to (`scan_publisher_recorder_main.cpp:251-307`). -/
def Service.pollReturns (s : Service) : Option Scan → Service
  | none =>
    let s := { s with
      consecutiveTimeouts := s.consecutiveTimeouts + 1, events := s.events ++ [WatchEvent.timeout] }
    if s.threshold ≤ s.consecutiveTimeouts then { s with pc := .teardown }
    else { s with pc := .loopTest }
  | some scan =>
    { s with
      pc := .record
      scan := scan
      everReceived := true
      consecutiveTimeouts := 0
      polled := s.polled ++ [scan]
      events := s.events ++ [.received] }

/-- `connect_with_stop_check` hands over the object: the first, or one for the watchdog. -/
def Service.attemptSucceeds (s : Service) : Option Service :=
  let s := { s with
    attempts := s.attempts - 1
    sources := s.sources + 1
    events := s.events ++ [WatchEvent.connected] }
  match s.pc with
  | .connecting => some { s with pc := .loopTest }
  | .reconnecting =>
    some { s with pc := .retryTest, reconnected := true, consecutiveTimeouts := 0 }
  | _ => none

/-- An exception ends `main` on the first attempt and starts the backoff on a later one. -/
def Service.attemptThrows (s : Service) (e : Thrown) : Option Service :=
  let s := { s with attempts := s.attempts - 1 }
  match s.pc with
  | .connecting =>
    match e with
    | .std _ => some { s with pc := .returned 1 }
    | .foreign => some { s with pc := .terminated }
  | .reconnecting =>
    match e with
    | .std _ => some { s with pc := .backoff 5000 }
    | .foreign => some { s with pc := .terminated }
  | _ => none

def Service.recordReturns (P : Protobuf) (s : Service) (faults : RecordFaults) : Service :=
  match Lidar.record P s.scan faults s.recording with
  | (.ok (), recording) =>
    { s with pc := .publish, recording := recording, recorded := s.recorded ++ [s.scan] }
  | (.error _, recording) =>
    { s with pc := .returned 1, recording := recording, sources := 0 }

/-- One step of the service; `none` when it cannot be taken where `main` is. -/
def Service.step (P : Protobuf) (s : Service) : ServiceStep → Option Service
  | .requestStop => some { s with stop := true }
  | .go => s.go
  | .pollReturns scan => if s.pc = .polling then some (s.pollReturns scan) else none
  | .notReady =>
    if s.pc = .connecting ∨ s.pc = .reconnecting then
      some (if s.stop then { s with pc := .exited } else s)
    else none
  | .attemptSucceeds => s.attemptSucceeds
  | .attemptThrows e => s.attemptThrows e
  | .recordReturns faults => if s.pc = .record then some (s.recordReturns P faults) else none
  | .recordThrows wire =>
    if s.pc = .record then
      some { s with pc := .returned 1, recording.recorder.wire := wire, sources := 0 }
    else none
  | .publishReturns sent =>
    if s.pc = .publish then
      some { s with
        pc := .loopTest
        handed := s.handed ++ [s.scan]
        published := s.published + if sent then 1 else 0 }
    else none

/-! ### The moves of main -/

/-- The steps one by one, each with where `main` is, what it has tested and what it leaves. -/
inductive ServiceMove (P : Protobuf) (s : Service) : ServiceStep → Service → Prop
  | stopRequested : ServiceMove P s .requestStop { s with stop := true }
  | start (hpc : s.pc = .start) :
    ServiceMove P s .go { s with pc := .connecting, attempts := s.attempts + 1 }
  | nextPass (hpc : s.pc = .loopTest) (hstop : s.stop = false) :
    ServiceMove P s .go { s with pc := .poll, passes := s.passes + 1 }
  | noPass (hpc : s.pc = .loopTest) (hstop : s.stop = true) :
    ServiceMove P s .go { s with pc := .leaving }
  | poll (hpc : s.pc = .poll) :
    ServiceMove P s .go { s with pc := .polling, polls := s.polls + 1 }
  | teardown (hpc : s.pc = .teardown) :
    ServiceMove P s .go { s with
      pc := .retryTest, sources := 0, reconnected := false, events := s.events ++ [.teardown] }
  | retry (hpc : s.pc = .retryTest) (hstop : s.stop = false) (hr : s.reconnected = false) :
    ServiceMove P s .go { s with pc := .reconnecting, attempts := s.attempts + 1 }
  | noRetry (hpc : s.pc = .retryTest) (hdone : s.stop = true ∨ s.reconnected = true) :
    ServiceMove P s .go { s with pc := .loopTest }
  | sleep {remainingMs : ℕ} (hpc : s.pc = .backoff remainingMs) (hleft : 0 < remainingMs)
    (hstop : s.stop = false) :
    ServiceMove P s .go { s with pc := .backoff (remainingMs - min 100 remainingMs) }
  | wake {remainingMs : ℕ} (hpc : s.pc = .backoff remainingMs)
    (hdone : remainingMs = 0 ∨ s.stop = true) :
    ServiceMove P s .go { s with pc := .retryTest }
  | leave (hpc : s.pc = .leaving) :
    ServiceMove P s .go { s with pc := .returned 0, sources := 0 }
  | timeout (hpc : s.pc = .polling) (hlow : s.consecutiveTimeouts + 1 < s.threshold) :
    ServiceMove P s (.pollReturns none) { s with
      pc := .loopTest
      consecutiveTimeouts := s.consecutiveTimeouts + 1
      events := s.events ++ [.timeout] }
  | stall (hpc : s.pc = .polling) (hhigh : s.threshold ≤ s.consecutiveTimeouts + 1) :
    ServiceMove P s (.pollReturns none) { s with
      pc := .teardown
      consecutiveTimeouts := s.consecutiveTimeouts + 1
      events := s.events ++ [.timeout] }
  | receive (scan : Scan) (hpc : s.pc = .polling) :
    ServiceMove P s (.pollReturns (some scan)) { s with
      pc := .record
      scan := scan
      everReceived := true
      consecutiveTimeouts := 0
      polled := s.polled ++ [scan]
      events := s.events ++ [.received] }
  | wait (hpc : s.pc = .connecting ∨ s.pc = .reconnecting) (hstop : s.stop = false) :
    ServiceMove P s .notReady s
  | exit (hpc : s.pc = .connecting ∨ s.pc = .reconnecting) (hstop : s.stop = true) :
    ServiceMove P s .notReady { s with pc := .exited }
  | connect (hpc : s.pc = .connecting) :
    ServiceMove P s .attemptSucceeds { s with
      pc := .loopTest
      attempts := s.attempts - 1
      sources := s.sources + 1
      events := s.events ++ [.connected] }
  | reconnect (hpc : s.pc = .reconnecting) :
    ServiceMove P s .attemptSucceeds { s with
      pc := .retryTest
      attempts := s.attempts - 1
      sources := s.sources + 1
      reconnected := true
      consecutiveTimeouts := 0
      events := s.events ++ [.connected] }
  | connectThrows {e : Exn} (hpc : s.pc = .connecting) :
    ServiceMove P s (.attemptThrows (.std e)) { s with
      pc := .returned 1, attempts := s.attempts - 1 }
  | reconnectThrows {e : Exn} (hpc : s.pc = .reconnecting) :
    ServiceMove P s (.attemptThrows (.std e)) { s with
      pc := .backoff 5000, attempts := s.attempts - 1 }
  | terminate (hpc : s.pc = .connecting ∨ s.pc = .reconnecting) :
    ServiceMove P s (.attemptThrows .foreign) { s with
      pc := .terminated, attempts := s.attempts - 1 }
  | record {faults : RecordFaults} {recording : Recording} (hpc : s.pc = .record)
    (hrec : Lidar.record P s.scan faults s.recording = (.ok (), recording)) :
    ServiceMove P s (.recordReturns faults) { s with
      pc := .publish, recording := recording, recorded := s.recorded ++ [s.scan] }
  | recordFails {faults : RecordFaults} {e : Exn} {recording : Recording} (hpc : s.pc = .record)
    (hrec : Lidar.record P s.scan faults s.recording = (.error e, recording)) :
    ServiceMove P s (.recordReturns faults) { s with
      pc := .returned 1, recording := recording, sources := 0 }
  | recordThrows (wire : LidarScan) (hpc : s.pc = .record) :
    ServiceMove P s (.recordThrows wire) { s with
      pc := .returned 1, recording.recorder.wire := wire, sources := 0 }
  | publish (sent : Bool) (hpc : s.pc = .publish) :
    ServiceMove P s (.publishReturns sent) { s with
      pc := .loopTest
      handed := s.handed ++ [s.scan]
      published := s.published + if sent then 1 else 0 }

theorem go_move {P : Protobuf} {s s' : Service} (h : s.go = some s') : ServiceMove P s .go s' := by
  unfold Service.go at h
  split at h <;> rename_i hpc
  · cases h
    exact .start hpc
  · split at h
    · case isTrue hgo =>
        cases h
        exact .nextPass hpc (by simpa using hgo)
    · case isFalse hgo =>
        cases h
        exact .noPass hpc (by simpa using hgo)
  · cases h
    exact .poll hpc
  · cases h
    exact .teardown hpc
  · split at h
    · case isTrue hgo =>
        cases h
        rw [Bool.and_eq_true, Bool.not_eq_true', Bool.not_eq_true'] at hgo
        exact .retry hpc hgo.1 hgo.2
    · case isFalse hgo =>
        cases h
        rw [Bool.not_eq_true, Bool.and_eq_false_iff, Bool.not_eq_false', Bool.not_eq_false'] at hgo
        exact .noRetry hpc hgo
  · split at h
    · case isTrue hgo =>
        cases h
        rw [Bool.and_eq_true, decide_eq_true_eq, Bool.not_eq_true'] at hgo
        exact .sleep hpc hgo.1 hgo.2
    · case isFalse hgo =>
        cases h
        rw [Bool.not_eq_true, Bool.and_eq_false_iff, decide_eq_false_iff_not,
          Bool.not_eq_false'] at hgo
        exact .wake hpc (hgo.imp_left Nat.eq_zero_of_not_pos)
  · cases h
    exact .leave hpc
  · cases h

theorem step_move {P : Protobuf} {s s' : Service} {i : ServiceStep} (h : s.step P i = some s') :
    ServiceMove P s i s' := by
  cases i with
  | requestStop =>
    cases h
    exact .stopRequested
  | go => exact go_move h
  | pollReturns scan =>
    obtain ⟨hpc, h⟩ := Option.ite_none_right_eq_some.mp h
    cases h
    cases scan with
    | some scan => exact .receive scan hpc
    | none =>
      unfold Service.pollReturns
      dsimp only
      split
      · case isTrue hhigh => exact .stall hpc hhigh
      · case isFalse hlow => exact .timeout hpc (Nat.not_le.mp hlow)
  | notReady =>
    obtain ⟨hpc, h⟩ := Option.ite_none_right_eq_some.mp h
    cases h
    split
    · case isTrue hstop => exact .exit hpc hstop
    · case isFalse hstop => exact .wait hpc (Bool.eq_false_iff.mpr hstop)
  | attemptSucceeds =>
    unfold Service.step Service.attemptSucceeds at h
    dsimp only at h
    split at h <;> rename_i hpc
    · cases h
      exact .connect hpc
    · cases h
      exact .reconnect hpc
    · cases h
  | attemptThrows e =>
    unfold Service.step Service.attemptThrows at h
    dsimp only at h
    split at h <;> rename_i hpc
    · split at h <;> cases h
      · exact .connectThrows hpc
      · exact .terminate (.inl hpc)
    · split at h <;> cases h
      · exact .reconnectThrows hpc
      · exact .terminate (.inr hpc)
    · cases h
  | recordReturns faults =>
    obtain ⟨hpc, h⟩ := Option.ite_none_right_eq_some.mp h
    cases h
    unfold Service.recordReturns
    split
    · case h_1 hrec => exact .record hpc hrec
    · case h_2 hrec => exact .recordFails hpc hrec
  | recordThrows wire =>
    obtain ⟨hpc, h⟩ := Option.ite_none_right_eq_some.mp h
    cases h
    exact .recordThrows wire hpc
  | publishReturns sent =>
    obtain ⟨hpc, h⟩ := Option.ite_none_right_eq_some.mp h
    cases h
    exact .publish sent hpc

/-! ### What each point of main knows -/

/-- The connections, the counter and the flags at each point of `main`. -/
def Service.Sound (s : Service) : Prop :=
  match s.pc with
  | .start => s.sources = 0 ∧ s.attempts = 0 ∧ s.consecutiveTimeouts = 0
  | .connecting => s.sources = 0 ∧ s.attempts = 1 ∧ s.consecutiveTimeouts = 0
  | .loopTest => s.attempts = 0 ∧ s.sources ≤ 1 ∧
    (s.stop = true ∨ s.sources = 1 ∧ s.consecutiveTimeouts < s.threshold)
  | .poll | .polling =>
    s.sources = 1 ∧ s.attempts = 0 ∧ s.consecutiveTimeouts < s.threshold
  | .teardown => s.sources = 1 ∧ s.attempts = 0
  | .retryTest => s.attempts = 0 ∧
    s.sources = (if s.reconnected then 1 else 0) ∧ (s.reconnected → s.consecutiveTimeouts = 0)
  | .reconnecting => s.sources = 0 ∧ s.attempts = 1 ∧ s.reconnected = false
  | .backoff _ => s.sources = 0 ∧ s.attempts = 0 ∧ s.reconnected = false
  | .record | .publish => s.sources = 1 ∧ s.attempts = 0 ∧ s.consecutiveTimeouts = 0
  | .leaving => s.sources ≤ 1 ∧ s.attempts = 0
  | .returned _ => s.sources = 0 ∧ s.attempts = 0
  | .exited => s.sources = 0 ∧ s.attempts = 1
  | .terminated => s.sources = 0 ∧ s.attempts = 0

theorem threshold_pos (s : Service) : 0 < s.threshold := by
  unfold Service.threshold kStallTimeoutCount kStartupTimeoutCount
  split <;> omega

theorem ready_of_fresh {s : Service} (h : s.consecutiveTimeouts = 0) :
    s.consecutiveTimeouts < s.threshold := by
  rw [h]
  exact threshold_pos s

theorem step_sound (P : Protobuf) (s : Service) (i : ServiceStep) (s' : Service) (hs : s.Sound)
    (h : s.step P i = some s') : s'.Sound := by
  cases step_move h with
  | stopRequested =>
    cases hpc : s.pc <;> simp only [Service.Sound, hpc] at hs ⊢
    case loopTest => exact ⟨hs.1, hs.2.1, .inl trivial⟩
    all_goals exact hs
  | start hpc =>
    simp only [Service.Sound, hpc] at hs
    exact ⟨hs.1, congrArg (· + 1) hs.2.1, hs.2.2⟩
  | nextPass hpc hstop =>
    -- a stop is the only way to be here without a connection
    simp only [Service.Sound, hpc, hstop] at hs
    obtain ⟨hattempts, -, hready⟩ := hs
    rcases hready with hready | hready
    · cases hready
    · exact ⟨hready.1, hattempts, hready.2⟩
  | noPass hpc =>
    simp only [Service.Sound, hpc] at hs
    exact ⟨hs.2.1, hs.1⟩
  | poll hpc =>
    simp only [Service.Sound, hpc] at hs
    exact hs
  | teardown hpc =>
    simp only [Service.Sound, hpc] at hs
    exact ⟨hs.2, rfl, fun hr => absurd hr Bool.false_ne_true⟩
  | retry hpc hstop hr =>
    simp only [Service.Sound, hpc, hr] at hs
    exact ⟨hs.2.1, congrArg (· + 1) hs.1, hr⟩
  | noRetry hpc hdone =>
    simp only [Service.Sound, hpc] at hs
    obtain ⟨hattempts, hsources, hfresh⟩ := hs
    refine ⟨hattempts, by dsimp only; split at hsources <;> omega, ?_⟩
    rcases hdone with hstop | hr
    · exact .inl hstop
    · rw [hr] at hsources
      exact .inr ⟨hsources, ready_of_fresh (hfresh hr)⟩
  | sleep hpc =>
    simp only [Service.Sound, hpc] at hs
    exact hs
  | wake hpc =>
    simp only [Service.Sound, hpc] at hs
    obtain ⟨hsources, hattempts, hr⟩ := hs
    exact ⟨hattempts, by dsimp only; rw [hr, hsources]; rfl, by simp [hr]⟩
  | leave hpc =>
    simp only [Service.Sound, hpc] at hs
    exact ⟨rfl, hs.2⟩
  | timeout hpc hlow =>
    simp only [Service.Sound, hpc] at hs
    exact ⟨hs.2.1, le_of_eq hs.1, .inr ⟨hs.1, hlow⟩⟩
  | stall hpc =>
    simp only [Service.Sound, hpc] at hs
    exact ⟨hs.1, hs.2.1⟩
  | receive scan hpc =>
    simp only [Service.Sound, hpc] at hs
    exact ⟨hs.1, hs.2.1, rfl⟩
  | wait => exact hs
  | exit hpc =>
    rcases hpc with hpc | hpc <;> simp only [Service.Sound, hpc] at hs
    · exact ⟨hs.1, hs.2.1⟩
    · exact ⟨hs.1, hs.2.1⟩
  | connect hpc =>
    simp only [Service.Sound, hpc] at hs
    obtain ⟨hsources, hattempts, hfresh⟩ := hs
    have hone : s.sources + 1 = 1 := by omega
    exact ⟨by dsimp only; omega, le_of_eq hone, .inr ⟨hone, ready_of_fresh hfresh⟩⟩
  | reconnect hpc =>
    simp only [Service.Sound, hpc] at hs
    obtain ⟨hsources, hattempts, -⟩ := hs
    have hone : s.sources + 1 = 1 := by omega
    exact ⟨by dsimp only; omega, hone, fun _ => rfl⟩
  | connectThrows hpc =>
    simp only [Service.Sound, hpc] at hs
    exact ⟨hs.1, by dsimp only; omega⟩
  | reconnectThrows hpc =>
    simp only [Service.Sound, hpc] at hs
    exact ⟨hs.1, by dsimp only; omega, hs.2.2⟩
  | terminate hpc =>
    rcases hpc with hpc | hpc <;> simp only [Service.Sound, hpc] at hs
    · exact ⟨hs.1, by dsimp only; omega⟩
    · exact ⟨hs.1, by dsimp only; omega⟩
  | record hpc =>
    simp only [Service.Sound, hpc] at hs
    exact hs
  | recordFails hpc =>
    simp only [Service.Sound, hpc] at hs
    exact ⟨rfl, hs.2.1⟩
  | recordThrows wire hpc =>
    simp only [Service.Sound, hpc] at hs
    exact ⟨rfl, hs.2.1⟩
  | publish sent hpc =>
    simp only [Service.Sound, hpc] at hs
    exact ⟨hs.2.1, le_of_eq hs.1, .inr ⟨hs.1, ready_of_fresh hs.2.2⟩⟩

theorem Service.Sound.one_connection {s : Service} (hs : s.Sound) :
    s.sources + s.attempts ≤ 1 := by
  unfold Service.Sound at hs
  split at hs
  case h_7 => split at hs <;> omega
  all_goals omega

end AuvMiddleware.Lidar
