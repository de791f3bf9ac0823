import AuvMiddleware.Lidar.Service
import AuvMiddleware.Lidar.WireFormat
import Mathlib.Data.List.Basic

/-!
# The watchdog over a whole run (scan_publisher_recorder_main.cpp:114-132, 247-303)

The service keeps a counter and a flag. What they should say is read off the events of the run:
how many timeouts there were since the last scan or the last connection, and whether there was a
scan at all.
-/

namespace AuvMiddleware.Lidar
open Runs

/-- The number of timeouts since the later of the last scan and the last successful connect. -/
def quiet (events : List WatchEvent) : ℕ :=
  (events.reverse.takeWhile fun e => decide (e ≠ .received ∧ e ≠ .connected)).count .timeout

/-- The last event is a timeout, and with it the quiet has reached its threshold. -/
def Due (events : List WatchEvent) : Prop :=
  events.getLast? = some .timeout ∧
    quiet events = if .received ∈ events then kStallTimeoutCount else kStartupTimeoutCount

/-- Teardowns come right after the timeouts that make them due, and nowhere else. -/
def TornDownWhenDue (events : List WatchEvent) : Prop :=
  ∀ before e after, events = before ++ e :: after → (e = .teardown ↔ Due before)

theorem quiet_snoc (events : List WatchEvent) (e : WatchEvent) :
    quiet (events ++ [e]) =
      match e with
      | .received | .connected => 0
      | .timeout => quiet events + 1
      | .teardown => quiet events := by
  cases e <;> simp [quiet]

theorem not_due_snoc (events : List WatchEvent) {e : WatchEvent} (he : e ≠ .timeout) :
    ¬ Due (events ++ [e]) := by
  intro h
  have hlast := h.1
  rw [List.getLast?_append_of_ne_nil _ (List.cons_ne_nil e [])] at hlast
  exact he (Option.some.inj hlast)

theorem TornDownWhenDue.snoc {events : List WatchEvent} (h : TornDownWhenDue events)
    {e : WatchEvent} (he : e = .teardown ↔ Due events) : TornDownWhenDue (events ++ [e]) := by
  intro before x after hsplit
  rcases List.eq_nil_or_concat after with rfl | ⟨rest, last, rfl⟩
  · obtain ⟨rfl, hlast⟩ := List.append_inj' hsplit rfl
    cases hlast
    exact he
  · rw [List.concat_eq_append, ← List.cons_append, ← List.append_assoc] at hsplit
    exact h before x rest (List.append_inj' hsplit rfl).1

/-! ### One step -/

structure Watched (s : Service) : Prop where
  timeouts : s.consecutiveTimeouts = quiet s.events
  ever : s.everReceived = decide (.received ∈ s.events)
  due : s.pc = .teardown ↔ Due s.events
  exact : TornDownWhenDue s.events

theorem Watched.threshold {s : Service} (hw : Watched s) :
    s.threshold = if .received ∈ s.events then kStallTimeoutCount else kStartupTimeoutCount := by
  unfold Service.threshold
  rw [hw.ever]
  simp

structure Unwatched (s s' : Service) : Prop where
  events : s'.events = s.events
  timeouts : s'.consecutiveTimeouts = s.consecutiveTimeouts
  ever : s'.everReceived = s.everReceived
  pc : s'.pc = .teardown ↔ s.pc = .teardown

theorem Watched.unwatched {s s' : Service} (hw : Watched s) (hu : Unwatched s s') : Watched s' where
  timeouts := by rw [hu.timeouts, hu.events, hw.timeouts]
  ever := by rw [hu.ever, hu.events, hw.ever]
  due := by rw [hu.pc, hu.events, hw.due]
  exact := by rw [hu.events]; exact hw.exact

theorem Watched.event {s s' : Service} {e : WatchEvent} (hw : Watched s) (he : e ≠ .timeout)
    (hpc : e = .teardown ↔ s.pc = .teardown) (hpc' : s'.pc ≠ .teardown)
    (hevents : s'.events = s.events ++ [e])
    (htimeouts : s'.consecutiveTimeouts = quiet (s.events ++ [e]))
    (hever : s'.everReceived = decide (.received ∈ s.events ++ [e])) : Watched s' where
  timeouts := by rw [htimeouts, hevents]
  ever := by rw [hever, hevents]
  due := by
    rw [hevents]
    exact iff_of_false hpc' (not_due_snoc _ he)
  exact := by
    rw [hevents]
    exact hw.exact.snoc (hpc.trans hw.due)

/-- One more timeout: the teardown is due exactly when the counter reaches the threshold. -/
theorem Watched.timedOut {s s' : Service} (hw : Watched s) (hpc : s.pc ≠ .teardown)
    (hlow : s.consecutiveTimeouts < s.threshold) (hevents : s'.events = s.events ++ [.timeout])
    (htimeouts : s'.consecutiveTimeouts = s.consecutiveTimeouts + 1)
    (hever : s'.everReceived = s.everReceived)
    (hpc' : s'.pc = .teardown ↔ s.threshold ≤ s.consecutiveTimeouts + 1) : Watched s' where
  timeouts := by rw [htimeouts, hevents, quiet_snoc, hw.timeouts]
  ever := by simpa [hever, hevents] using hw.ever
  due := by
    have hquiet : quiet (s.events ++ [.timeout]) = s.consecutiveTimeouts + 1 := by
      rw [hw.timeouts]
      exact quiet_snoc s.events .timeout
    rw [hpc', hevents]
    unfold Due
    rw [hquiet]
    rw [hw.threshold] at hlow ⊢
    simp only [List.getLast?_append, List.getLast?_singleton, Option.some_or, true_and,
      List.mem_append, List.mem_singleton, reduceCtorEq, or_false]
    omega
  exact := by
    rw [hevents]
    exact hw.exact.snoc (iff_of_false (fun h => by cases h) (hw.due.not.mp hpc))

theorem step_watched (P : Protobuf) (s : Service) (i : ServiceStep) (s' : Service)
    (hw : Watched s) (hs : s.Sound) (h : s.step P i = some s') : Watched s' := by
  cases step_move h with
  | teardown hpc =>
    refine hw.event (e := .teardown) (by decide) (iff_of_true rfl hpc) (by simp) rfl ?_ ?_
    · rw [quiet_snoc]
      exact hw.timeouts
    · simpa using hw.ever
  | timeout hpc hlow =>
    simp only [Service.Sound, hpc] at hs
    refine hw.timedOut (by simp [hpc]) hs.2.2 rfl rfl rfl ?_
    exact iff_of_false (fun h => by cases h) (Nat.not_le.mpr hlow)
  | stall hpc hhigh =>
    simp only [Service.Sound, hpc] at hs
    exact hw.timedOut (by simp [hpc]) hs.2.2 rfl rfl rfl (iff_of_true rfl hhigh)
  | receive scan hpc =>
    refine hw.event (e := .received) (by decide) (by simp [hpc]) (by simp) rfl ?_ (by simp)
    rw [quiet_snoc]
  | connect hpc =>
    simp only [Service.Sound, hpc] at hs
    refine hw.event (e := .connected) (by decide) (by simp [hpc]) (by simp) rfl ?_ ?_
    · rw [quiet_snoc]
      exact hs.2.2
    · simpa using hw.ever
  | reconnect hpc =>
    refine hw.event (e := .connected) (by decide) (by simp [hpc]) (by simp) rfl ?_ ?_
    · rw [quiet_snoc]
    · simpa using hw.ever
  | stopRequested => exact hw.unwatched ⟨rfl, rfl, rfl, Iff.rfl⟩
  | wait => exact hw
  | exit hpc | terminate hpc =>
    refine hw.unwatched ⟨rfl, rfl, rfl, ?_⟩
    rcases hpc with hpc | hpc <;> simp [hpc]
  | start hpc | nextPass hpc | noPass hpc | poll hpc | retry hpc | noRetry hpc | sleep hpc
  | wake hpc | leave hpc | connectThrows hpc | reconnectThrows hpc | record hpc | recordFails hpc
  | recordThrows _ hpc | publish _ hpc =>
    exact hw.unwatched ⟨rfl, rfl, rfl, by simp [hpc]⟩

/-! ### After a stop -/

/-- A poll whose loop test has been passed and that has not begun yet. -/
def Service.owed (s : Service) : ℕ := if s.pc = .poll then 1 else 0

/-- Stopped in pass number `passes`, with at most `polls` polls begun or still to begin. -/
structure Stopped (passes polls : ℕ) (s : Service) : Prop where
  stop : s.stop = true
  passes : s.passes = passes
  polls : s.polls + s.owed ≤ polls

theorem Stopped.of_same {passes polls : ℕ} {s s' : Service} (hs : Stopped passes polls s)
    (hstop : s'.stop = s.stop) (hpasses : s'.passes = s.passes) (hpolls : s'.polls = s.polls)
    (howed : s'.pc ≠ .poll) : Stopped passes polls s' := by
  refine ⟨hstop.trans hs.stop, hpasses.trans hs.passes, ?_⟩
  have := hs.polls
  unfold Service.owed
  rw [if_neg howed, hpolls]
  omega

theorem step_stopped (P : Protobuf) {passes polls : ℕ} (s : Service) (i : ServiceStep)
    (s' : Service) (hs : Stopped passes polls s) (h : s.step P i = some s') :
    Stopped passes polls s' := by
  cases step_move h with
  | stopRequested => exact ⟨rfl, hs.passes, hs.polls⟩
  | nextPass hpc hstop => exact absurd (hs.stop.symm.trans hstop) (fun h => by cases h)
  | poll hpc =>
    refine ⟨hs.stop, hs.passes, ?_⟩
    have hpolls := hs.polls
    rw [Service.owed, if_pos hpc] at hpolls
    simpa [Service.owed] using hpolls
  | wait hpc => exact hs
  | _ => exact hs.of_same rfl rfl rfl (fun h => by cases h)

/-! ### The run -/

structure Supervised (s : Service) : Prop where
  sound : s.Sound
  watched : Watched s

theorem service_run_supervised (P : Protobuf) {recording : Recording} {steps : List ServiceStep}
    {s : Service} (h : run (Service.step P) { recording := recording } steps = some s) :
    Supervised s := by
  have hstart : Supervised { recording := recording } := by
    refine ⟨⟨rfl, rfl, rfl⟩, rfl, rfl, ?_, ?_⟩
    · exact iff_of_false (fun h => by cases h) (fun h => by cases h.1)
    · intro before e after hsplit
      simp at hsplit
  refine run_invariant ?_ hstart h
  intro s i s' hs h
  exact ⟨step_sound P s i s' hs.sound h, step_watched P s i s' hs.watched hs.sound h⟩

/-- Whatever the sensor does and whenever the stop comes: the service polls a connection it has,
never holds two, tears one down exactly when the quiet is long enough, and after the stop begins
no further pass. -/
theorem watchdog_service (P : Protobuf) {recording : Recording} {steps : List ServiceStep}
    {s : Service} (h : run (Service.step P) { recording := recording } steps = some s) :
    (s.pc = .poll ∨ s.pc = .polling → s.sources = 1) ∧
      s.sources + s.attempts ≤ 1 ∧
      ((s.pc = .teardown ↔ Due s.events) ∧ TornDownWhenDue s.events) ∧
      (s.stop = true → ∀ more s', run (Service.step P) s more = some s' →
        s'.passes = s.passes ∧ s'.polls ≤ s.polls + if s.pc = .poll then 1 else 0) := by
  obtain ⟨hs, hw⟩ := service_run_supervised P h
  refine ⟨?_, hs.one_connection, ⟨hw.due, hw.exact⟩, ?_⟩
  · rintro (hpc | hpc) <;> simp only [Service.Sound, hpc] at hs
    · exact hs.1
    · exact hs.1
  · intro hstop more s' hmore
    have hafter := run_invariant (step_stopped P) ⟨hstop, rfl, le_refl _⟩ hmore
    exact ⟨hafter.passes, le_trans (Nat.le_add_right ..) hafter.polls⟩

def slowStart : List ServiceStep :=
  [.go, .notReady, .attemptSucceeds] ++
    (List.replicate 30 [ServiceStep.go, .go, .pollReturns none]).flatten ++
    [.go, .go, .attemptThrows (.std (.runtimeError "refused")), .requestStop, .go, .go, .go]

theorem watchdog_service_slowStart :
    ∃ s, run (Service.step wireFormat) { recording := ⟨{}, {}⟩ } slowStart = some s ∧
      s.polls = 30 ∧ s.sources + s.attempts ≤ 1 ∧ TornDownWhenDue s.events :=
  have h := watchdog_service wireFormat
    (show run (Service.step wireFormat) { recording := ⟨{}, {}⟩ } slowStart = some _ from rfl)
  ⟨_, rfl, rfl, h.2.1, h.2.2.1.2⟩

end AuvMiddleware.Lidar
