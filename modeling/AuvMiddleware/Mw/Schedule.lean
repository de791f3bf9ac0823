import AuvMiddleware.Lib.Runs
import AuvMiddleware.Mw.ExecutorCalls
import Mathlib.Tactic.Ring

/-!
# The schedule of a periodic node (executor.cpp:131-191)

`step` keeps one number for each node, when it is due next, and moves it by a truncating division
when a step comes late. With the node's first step at `n0`, its slots are `n0 + k * period`; what
the counters and the due time say together is which of these slots have passed.
-/

namespace AuvMiddleware.Mw
open Runs

/-! ### One slot, one step -/

def Slot.period (s : Slot) : ℤ := s.report.periodNs

def Slot.passed (s : Slot) : ℤ := s.report.ticks + s.report.missed

structure Unticked (s : Slot) : Prop where
  nextDue : s.nextDue = minInt64
  ticks : s.report.ticks = 0
  missed : s.report.missed = 0
  overflow : s.scheduleOverflow = false

/-- After a step at `last`, the slots up to `last` have passed and the next one is due. -/
structure OnSchedule (n0 last : ℤ) (s : Slot) : Prop where
  due : s.nextDue = n0 + s.passed * s.period
  behind : s.nextDue - s.period ≤ last
  ahead : last < s.nextDue
  start : n0 < s.nextDue
  overflow : s.scheduleOverflow = false

def stepSlot (nowNs : Int64) (t : Tick) (s : Slot) : Slot :=
  if s.due nowNs then tickSlot nowNs t s else s

theorem reschedule_first {now period : ℤ} (h : InInt64 (now + period)) :
    reschedule now period minInt64 = pure (0, now + period) := by
  unfold reschedule
  rw [if_pos rfl, Checked.int64_of_in h]
  rfl

/-- The slot boundary after `now`, of the slots that begin at `start`. -/
def slotEnd (start period now : ℤ) : ℤ := start + ((now - start) / period + 1) * period

theorem slotEnd_le {start period now : ℤ} (hp : 0 < period) : slotEnd start period now ≤ now + period := by
  have hq : (now - start) / period * period ≤ now - start := Int.ediv_mul_le _ (by omega)
  have hspan : ((now - start) / period + 1) * period =
      (now - start) / period * period + period := by ring
  unfold slotEnd
  omega

theorem lt_slotEnd {start period now : ℤ} (hp : 0 < period) : now < slotEnd start period now := by
  have hq : now - start < ((now - start) / period + 1) * period := Int.lt_ediv_add_one_mul_self _ hp
  unfold slotEnd
  omega

theorem slotEnd_add_mul {start period now : ℤ} (hp : 0 < period) (q : ℤ) :
    slotEnd (start + q * period) period now = slotEnd start period now := by
  have hsub : now - (start + q * period) = now - start + -q * period := by ring
  have hdiv : (now - (start + q * period)) / period = (now - start) / period + -q := by
    rw [hsub, Int.add_mul_ediv_right _ _ (by omega)]
  unfold slotEnd
  rw [hdiv]
  ring

theorem slotEnd_start (start period : ℤ) : slotEnd start period start = start + period := by
  unfold slotEnd
  rw [Int.sub_self, Int.zero_ediv]
  ring

/-- Late by less than one period or by many, no intermediate result overflows. -/
theorem reschedule_late {now period due : ℤ} (hp : 0 < period) (hdue : 0 ≤ due) (hlate : due ≤ now)
    (hnow : slotEnd due period now < 2 ^ 63) :
    reschedule now period due = pure ((now - due) / period, slotEnd due period now) := by
  have hq0 : 0 ≤ (now - due) / period := Int.ediv_nonneg (by omega) (by omega)
  have hq := Int.mul_le_mul_of_nonneg_left (show 1 ≤ period by omega) hq0
  rw [Int.mul_one] at hq
  have hspan : ((now - due) / period + 1) * period = (now - due) / period * period + period := by
    ring
  have htdiv : (now - due).tdiv period = (now - due) / period :=
    Int.tdiv_eq_ediv_of_nonneg (by omega)
  have hmin : due ≠ minInt64 := by
    unfold minInt64
    omega
  have hafter : now < slotEnd due period now := lt_slotEnd hp
  have hend : slotEnd due period now = due + ((now - due) / period + 1) * period := rfl
  have hlate' : InInt64 (now - due) := by
    unfold InInt64
    omega
  have hskip : InInt64 ((now - due) / period) := by
    unfold InInt64
    omega
  have hslots : InInt64 ((now - due) / period + 1) := by
    unfold InInt64
    omega
  have hmul : InInt64 (((now - due) / period + 1) * period) := by
    unfold InInt64
    omega
  have hnext : InInt64 (due + ((now - due) / period + 1) * period) := by
    unfold InInt64
    omega
  unfold reschedule
  rw [if_neg hmin, Checked.int64_of_in hlate']
  simp only [Checked.pure_bind', htdiv, Checked.int64_of_in hskip, Checked.int64_of_in hslots,
    Checked.int64_of_in hmul, Checked.int64_of_in hnext, hend]

@[simp] theorem measure_periodNs (t : Tick) (r : Report) :
    (measure t r).value.periodNs = r.periodNs := rfl

@[simp] theorem measure_missed (t : Tick) (r : Report) :
    (measure t r).value.missed = r.missed := rfl

theorem tickSlot_period (nowNs : Int64) (t : Tick) (s : Slot) :
    (tickSlot nowNs t s).period = s.period := by
  unfold tickSlot Slot.period
  dsimp only
  split <;> rfl

theorem tickSlot_eq {nowNs : Int64} {t : Tick} {s : Slot} (hp : 0 < s.period) {skipped next : ℤ}
    (h : reschedule nowNs.toInt s.period s.nextDue = pure (skipped, next)) :
    (tickSlot nowNs t s).nextDue = next ∧
      (tickSlot nowNs t s).scheduleOverflow = s.scheduleOverflow ∧
      (tickSlot nowNs t s).report.ticks = s.report.ticks + 1 ∧
      (tickSlot nowNs t s).report.missed = s.report.missed + toU64 skipped := by
  have hne : ¬ s.report.periodNs = 0 := by
    unfold Slot.period at hp
    omega
  unfold Slot.period at h
  have heq : tickSlot nowNs t s = { s with
      nextDue := next
      report := { (measure t s.report).value with missed := s.report.missed + toU64 skipped }
      scheduleOverflow := s.scheduleOverflow || false
      measureOverflow := s.measureOverflow || (measure t s.report).overflow } := by
    unfold tickSlot
    simp only [measure_periodNs, hne, if_false, h, measure_missed]
    rfl
  rw [heq]
  exact ⟨rfl, Bool.or_false _, rfl, rfl⟩

theorem due_iff {nowNs : Int64} {s : Slot} (hp : 0 < s.period) :
    s.due nowNs = true ↔ s.nextDue ≤ nowNs.toInt := by
  unfold Slot.period at hp
  simp [Slot.due, hp]

theorem tickSlot_first {nowNs : Int64} {t : Tick} {s : Slot} (hs : Unticked s) (hp : 0 < s.period)
    (hnow : 0 ≤ nowNs.toInt) (hbound : nowNs.toInt + s.period < 2 ^ 63) :
    s.due nowNs = true ∧ OnSchedule nowNs.toInt nowNs.toInt (tickSlot nowNs t s) := by
  have hin : InInt64 (nowNs.toInt + s.period) := by
    unfold InInt64
    omega
  have hr : reschedule nowNs.toInt s.period s.nextDue = pure (0, nowNs.toInt + s.period) := by
    rw [hs.nextDue]
    exact reschedule_first hin
  obtain ⟨hnext, hover, hticks, hmissed⟩ := tickSlot_eq (t := t) hp hr
  have hpassed : (tickSlot nowNs t s).passed = 1 := by
    unfold Slot.passed
    rw [hticks, hmissed, hs.ticks, hs.missed]
    rfl
  constructor
  · rw [due_iff hp, hs.nextDue]
    unfold minInt64
    omega
  · constructor
    · rw [hnext, hpassed, tickSlot_period]
      ring
    · rw [hnext, tickSlot_period]
      omega
    · rw [hnext]
      omega
    · rw [hnext]
      omega
    · rw [hover]
      exact hs.overflow

theorem tickSlot_later {nowNs : Int64} {t : Tick} {s : Slot} {n0 last : ℤ}
    (hs : OnSchedule n0 last s) (hp : 0 < s.period) (hn0 : 0 ≤ n0)
    (hlate : s.nextDue ≤ nowNs.toInt) (hbound : slotEnd n0 s.period nowNs.toInt < 2 ^ 63) :
    OnSchedule n0 nowNs.toInt (tickSlot nowNs t s) := by
  have hstart := hs.start
  have hend : slotEnd s.nextDue s.period nowNs.toInt = slotEnd n0 s.period nowNs.toInt := by
    rw [hs.due]
    exact slotEnd_add_mul hp _
  have hr := reschedule_late hp (by omega) hlate (hend.trans_lt hbound)
  obtain ⟨hnext, hover, hticks, hmissed⟩ := tickSlot_eq (t := t) hp hr
  have hq0 : 0 ≤ (nowNs.toInt - s.nextDue) / s.period := Int.ediv_nonneg (by omega) (by omega)
  have hq1 : slotEnd s.nextDue s.period nowNs.toInt ≤ nowNs.toInt + s.period := slotEnd_le hp
  have hq2 : nowNs.toInt < slotEnd s.nextDue s.period nowNs.toInt := lt_slotEnd hp
  have hq := Int.ediv_le_self s.period (show 0 ≤ nowNs.toInt - s.nextDue by omega)
  have hu : (toU64 ((nowNs.toInt - s.nextDue) / s.period) : ℤ) =
      (nowNs.toInt - s.nextDue) / s.period := by
    have hle := nowNs.toInt_lt
    rw [toU64_of_in (by unfold InInt64; omega) hq0]
    omega
  have hpassed : (tickSlot nowNs t s).passed =
      s.passed + ((nowNs.toInt - s.nextDue) / s.period + 1) := by
    unfold Slot.passed
    rw [hticks, hmissed]
    omega
  constructor
  · rw [hnext, hpassed, tickSlot_period, slotEnd, hs.due]
    ring
  · rw [hnext, tickSlot_period]
    omega
  · rw [hnext]
    exact hq2
  · rw [hnext]
    omega
  · rw [hover]
    exact hs.overflow

theorem OnSchedule.wait {n0 last now : ℤ} {s : Slot} (hs : OnSchedule n0 last s)
    (hlast : last ≤ now) (hearly : now < s.nextDue) : OnSchedule n0 now s :=
  ⟨hs.due, by have := hs.behind; omega, hearly, hs.start, hs.overflow⟩

theorem OnSchedule.passed_eq {n0 last : ℤ} {s : Slot} (hs : OnSchedule n0 last s)
    (hp : 0 < s.period) : s.passed = (last - n0) / s.period + 1 := by
  have hdue := hs.due
  have hbehind := hs.behind
  have hahead := hs.ahead
  have hexp : (s.passed - 1) * s.period = s.passed * s.period - s.period := by ring
  have hle : s.passed - 1 ≤ (last - n0) / s.period :=
    Int.le_ediv_of_mul_le hp (by omega)
  have hlt : (last - n0) / s.period < s.passed := Int.ediv_lt_of_lt_mul hp (by omega)
  omega

theorem OnSchedule.due_iff_floor {n0 last : ℤ} (nowNs : Int64) {s : Slot}
    (hs : OnSchedule n0 last s) (hp : 0 < s.period) :
    s.due nowNs = true ↔ (last - n0) / s.period < (nowNs.toInt - n0) / s.period := by
  have hpassed := hs.passed_eq hp
  rw [due_iff hp, hs.due]
  constructor
  · intro h
    have := Int.le_ediv_of_mul_le hp (show s.passed * s.period ≤ nowNs.toInt - n0 by omega)
    omega
  · intro h
    have hle : s.passed ≤ (nowNs.toInt - n0) / s.period := by omega
    have := Int.mul_le_of_le_ediv hp hle
    omega

/-! ### A step of the executor, slot by slot -/

theorem stepSlots_cons (nowNs : Int64) (ticks : ℕ → Tick) (i : ℕ) (s : Slot) (rest : List Slot) :
    stepSlots nowNs ticks i (s :: rest) =
      (stepSlot nowNs (ticks i) s :: (stepSlots nowNs ticks (i + 1) rest).1,
        (if s.due nowNs then [⟨i, s.node, .tick nowNs, (ticks i).threw⟩] else []) ++
          (stepSlots nowNs ticks (i + 1) rest).2) := by
  rw [stepSlots, stepSlot]
  cases s.due nowNs <;> rfl

theorem stepSlots_getElem? (nowNs : Int64) (ticks : ℕ → Tick) (i : ℕ) (slots : List Slot) (k : ℕ) :
    (stepSlots nowNs ticks i slots).1[k]? =
      slots[k]?.map fun s => stepSlot nowNs (ticks (i + k)) s := by
  induction slots generalizing i k with
  | nil => rfl
  | cons s rest ih =>
    rw [stepSlots_cons]
    cases k with
    | zero => rfl
    | succ k =>
      have hk : i + 1 + k = i + (k + 1) := by omega
      rw [List.getElem?_cons_succ, List.getElem?_cons_succ, ih, hk]

theorem le_slot_of_mem_stepSlots {nowNs : Int64} {ticks : ℕ → Tick} {i : ℕ} {slots : List Slot} :
    ∀ ev ∈ (stepSlots nowNs ticks i slots).2, i ≤ ev.slot := by
  induction slots generalizing i with
  | nil =>
    intro ev hev
    cases hev
  | cons s rest ih =>
    intro ev hev
    rw [stepSlots_cons] at hev
    rcases List.mem_append.mp hev with hev | hev
    · split at hev
      · rw [List.mem_singleton.mp hev]
      · cases hev
    · exact Nat.le_of_succ_le (ih ev hev)

def callsOn (k : ℕ) (events : List Event) : List NodeCall :=
  (events.filter fun ev => ev.slot = k).map Event.call

theorem callsOn_append (k : ℕ) (as bs : List Event) :
    callsOn k (as ++ bs) = callsOn k as ++ callsOn k bs := by
  unfold callsOn
  rw [List.filter_append, List.map_append]

theorem callsOn_stepSlots (nowNs : Int64) (ticks : ℕ → Tick) (i : ℕ) (slots : List Slot) {k : ℕ}
    {s : Slot} (hs : slots[k]? = some s) :
    callsOn (i + k) (stepSlots nowNs ticks i slots).2 =
      if s.due nowNs then [.tick nowNs] else [] := by
  induction slots generalizing i k with
  | nil => cases hs
  | cons t rest ih =>
    rw [stepSlots_cons]
    cases k with
    | zero =>
      cases hs
      have hrest : (stepSlots nowNs ticks (i + 1) rest).2.filter (fun ev => ev.slot = i) = [] := by
        rw [List.filter_eq_nil_iff]
        intro ev hev
        have := le_slot_of_mem_stepSlots ev hev
        simp only [decide_eq_true_eq]
        omega
      unfold callsOn
      rw [Nat.add_zero, List.filter_append, hrest]
      split <;> simp
    | succ k =>
      have hk : i + 1 + k = i + (k + 1) := by omega
      have hhead : callsOn (i + (k + 1))
          (if t.due nowNs then [⟨i, t.node, .tick nowNs, (ticks i).threw⟩] else []) = [] := by
        unfold callsOn
        split <;> simp
      have htail := ih (i + 1) hs
      rw [hk] at htail
      rw [callsOn_append, hhead, htail, List.nil_append]

/-! ### Runs -/

/-- Before the first step a slot is what `add` has made of an accepted node. -/
def FreshSlots (e : Executor) : Prop :=
  e.stepCount = 0 → ∀ s ∈ e.slots, ∃ spec : NodeSpec,
    0 ≤ spec.periodNs.toInt ∧ 0 ≤ spec.budgetNs.toInt ∧ s = newSlot s.node spec

theorem freshSlots_execStep (e : Executor) (i : ExecStep) (e' : Executor) (he : FreshSlots e)
    (h : execStep e i = some e') : FreshSlots e' := by
  obtain ⟨_, hd⟩ := execStep_does h
  cases hd with
  | added node spec hadd =>
    intro h0 s hs
    rcases List.mem_append.mp hs with hs | hs
    · exact he h0 s hs
    · rw [List.mem_singleton.mp hs]
      exact ⟨spec, hadd.2.1, hadd.2.2, rfl⟩
  | stepped nowNs ticks h =>
    intro h0
    exact absurd h0 (Nat.succ_ne_zero _)
  | refused | configured | configureThrew | started | startThrew | startThrewForeign | stopped
    | stoppedEarly => exact he

theorem fresh_slot {period : Int64} {lead : List ExecStep} {e : Executor}
    (hlead : run execStep { periodNs := period } lead = some e) (hnew : e.stepCount = 0) {s : Slot}
    (hs : s ∈ e.slots) : ∃ spec : NodeSpec,
      0 ≤ spec.periodNs.toInt ∧ 0 ≤ spec.budgetNs.toInt ∧ s = newSlot s.node spec := by
  have hempty : FreshSlots { periodNs := period } := by
    intro _ s hs
    cases hs
  exact run_invariant freshSlots_execStep hempty hlead hnew s hs

/-- A node that no step has seen yet is as `add` has left it. -/
def Unstepped (e : Executor) : Prop := e.stepCount = 0 → ∀ s ∈ e.slots, Unticked s

theorem fresh_unstepped {period : Int64} {lead : List ExecStep} {e : Executor}
    (hlead : run execStep { periodNs := period } lead = some e) : Unstepped e := by
  intro hnew s hs
  obtain ⟨spec, -, -, hspec⟩ := fresh_slot hlead hnew hs
  rw [hspec]
  exact ⟨rfl, rfl, rfl, rfl⟩

def afterSteps (n : ℕ → Int64) (ticks : ℕ → ℕ → Tick) (e : Executor) : ℕ → Executor
  | 0 => e
  | j + 1 => (execCall (.step (n j) (ticks j)) (afterSteps n ticks e j)).2

theorem step_running {e : Executor} (h : e.phase = .running) (nowNs : Int64) (ticks : ℕ → Tick) :
    (execCall (.step nowNs ticks) e).2 = { e with
      stepCount := e.stepCount + 1
      slots := (stepSlots nowNs ticks 0 e.slots).1
      trace := e.trace ++ (stepSlots nowNs ticks 0 e.slots).2 } := by
  show (step nowNs ticks e).2 = _
  unfold step
  rw [Call.bind_of_ok (require_ok "step" h)]
  rfl

theorem afterSteps_running (n : ℕ → Int64) (ticks : ℕ → ℕ → Tick) {e : Executor}
    (h : e.phase = .running) (j : ℕ) : (afterSteps n ticks e j).phase = .running := by
  induction j with
  | zero => exact h
  | succ j ih =>
    rw [afterSteps, step_running ih]
    exact ih

def slotAfter (n : ℕ → Int64) (t : ℕ → Tick) (s : Slot) : ℕ → Slot
  | 0 => s
  | j + 1 => stepSlot (n j) (t j) (slotAfter n t s j)

theorem afterSteps_slot (n : ℕ → Int64) (ticks : ℕ → ℕ → Tick) {e : Executor}
    (h : e.phase = .running) {k : ℕ} {s : Slot} (hs : e.slots[k]? = some s) (j : ℕ) :
    (afterSteps n ticks e j).slots[k]? = some (slotAfter n (fun j => ticks j k) s j) := by
  induction j with
  | zero => exact hs
  | succ j ih =>
    rw [afterSteps, step_running (afterSteps_running n ticks h j), stepSlots_getElem?, ih, Nat.zero_add]
    rfl

section Slot

variable {n : ℕ → Int64} {t : ℕ → Tick} {s : Slot} (hs : Unticked s) (hp : 0 < s.period)

theorem stepSlot_period (nowNs : Int64) (t : Tick) (s : Slot) :
    (stepSlot nowNs t s).period = s.period := by
  unfold stepSlot
  split
  · exact tickSlot_period nowNs t s
  · rfl

theorem slotAfter_period (j : ℕ) : (slotAfter n t s j).period = s.period := by
  induction j with
  | zero => rfl
  | succ j ih => rw [slotAfter, stepSlot_period, ih]

include hs hp in
theorem slotAfter_onSchedule {j : ℕ} (hmono : ∀ k < j, (n k).toInt ≤ (n (k + 1)).toInt)
    (hrange : ∀ k ≤ j, 0 ≤ (n k).toInt ∧ slotEnd (n 0).toInt s.period (n k).toInt < 2 ^ 63) :
    OnSchedule (n 0).toInt (n j).toInt (slotAfter n t s (j + 1)) := by
  induction j with
  | zero =>
    obtain ⟨hnow, hbound⟩ := hrange 0 (le_refl 0)
    rw [slotEnd_start] at hbound
    obtain ⟨hdue, hon⟩ := tickSlot_first (t := t 0) hs hp hnow hbound
    show OnSchedule _ _ (stepSlot (n 0) (t 0) s)
    rw [stepSlot, if_pos hdue]
    exact hon
  | succ j ih =>
    have hprev := ih (fun k hk => hmono k (by omega)) (fun k hk => hrange k (by omega))
    have hle := hmono j (by omega)
    have hp' : 0 < (slotAfter n t s (j + 1)).period := by rw [slotAfter_period]; exact hp
    rw [slotAfter, stepSlot]
    split
    · rename_i hdue
      rw [due_iff hp'] at hdue
      exact tickSlot_later hprev hp' (hrange 0 (by omega)).1 hdue
        (by rw [slotAfter_period]; exact (hrange (j + 1) (le_refl _)).2)
    · rename_i hdue
      rw [due_iff hp'] at hdue
      exact hprev.wait hle (by omega)

end Slot

/-- Step `j` ticks a periodic node exactly when a slot of it has come up since the last step, and
the slots up to now have each been served or counted as missed, without an overflow. -/
theorem schedule_exact {period : Int64} {lead : List ExecStep} {e : Executor}
    (hlead : run execStep { periodNs := period } lead = some e) (hrunning : e.phase = .running)
    (hnew : e.stepCount = 0) {k : ℕ} {s : Slot} (hs : e.slots[k]? = some s) (hp : 0 < s.period)
    (n : ℕ → Int64) (ticks : ℕ → ℕ → Tick) (j : ℕ)
    (hmono : ∀ i < j, (n i).toInt ≤ (n (i + 1)).toInt)
    (hrange : ∀ i ≤ j, 0 ≤ (n i).toInt ∧ (n i).toInt + s.period < 2 ^ 63) :
    (∃ events, (afterSteps n ticks e (j + 1)).trace = (afterSteps n ticks e j).trace ++ events ∧
      callsOn k events =
        if j = 0 ∨ ((n (j - 1)).toInt - (n 0).toInt) / s.period <
          ((n j).toInt - (n 0).toInt) / s.period then [.tick (n j)] else []) ∧
    ∃ s', (afterSteps n ticks e (j + 1)).slots[k]? = some s' ∧
      (s'.report.ticks + s'.report.missed : ℤ) =
        ((n j).toInt - (n 0).toInt) / s.period + 1 ∧
      s'.scheduleOverflow = false := by
  have hun : Unticked s := fresh_unstepped hlead hnew s (List.mem_of_getElem? hs)
  have hrun := afterSteps_running n ticks hrunning j
  have hslot := afterSteps_slot n ticks hrunning hs
  have hends : ∀ i ≤ j, 0 ≤ (n i).toInt ∧ slotEnd (n 0).toInt s.period (n i).toInt < 2 ^ 63 :=
    fun i hi => ⟨(hrange i hi).1, (slotEnd_le hp).trans_lt (hrange i hi).2⟩
  have hon := slotAfter_onSchedule (t := fun j => ticks j k) hun hp hmono hends
  constructor
  · refine ⟨(stepSlots (n j) (ticks j) 0 (afterSteps n ticks e j).slots).2, ?_, ?_⟩
    · rw [afterSteps, step_running hrun]
    · have hcalls := callsOn_stepSlots (n j) (ticks j) 0 _ (hslot j)
      rw [Nat.zero_add] at hcalls
      rw [hcalls]
      cases j with
      | zero =>
        obtain ⟨hnow, hbound⟩ := hrange 0 (le_refl 0)
        have hdue : (slotAfter n (fun j => ticks j k) s 0).due (n 0) = true :=
          (tickSlot_first (t := {}) hun hp hnow hbound).1
        rw [if_pos (Or.inl rfl), if_pos hdue]
      | succ j =>
        have hprev := slotAfter_onSchedule (t := fun j => ticks j k) hun hp
          (fun i hi => hmono i (Nat.lt_succ_of_lt hi)) (fun i hi => hends i (Nat.le_succ_of_le hi))
        have hp' : 0 < (slotAfter n (fun j => ticks j k) s (j + 1)).period := by
          rw [slotAfter_period]
          exact hp
        have hiff := hprev.due_iff_floor (n (j + 1)) hp'
        rw [slotAfter_period] at hiff
        simp only [hiff, Nat.succ_ne_zero, false_or, Nat.add_sub_cancel]
  · have hp' : 0 < (slotAfter n (fun j => ticks j k) s (j + 1)).period := by
      rw [slotAfter_period]
      exact hp
    have hpassed := hon.passed_eq hp'
    rw [slotAfter_period] at hpassed
    exact ⟨_, hslot (j + 1), hpassed, hon.overflow⟩

def twoNodes : List ExecStep :=
  [.add 7 { name := "a", periodNs := 10 }, .add 8 { name := "b" }, .configureAll fun _ => none,
    .startAll fun _ => none]

theorem schedule_exact_late :
    ∃ e s', run execStep { periodNs := 5 } twoNodes = some e ∧
      (afterSteps (fun j => if j = 0 then 100 else 125) (fun _ _ => { threw := true }) e 2).slots[0]?
        = some s' ∧
      (s'.report.ticks + s'.report.missed : ℤ) = 3 := by
  have hrun : ∃ e s, run execStep { periodNs := 5 } twoNodes = some e ∧ e.phase = .running ∧
      e.stepCount = 0 ∧ e.slots[0]? = some s ∧ s.period = 10 := ⟨_, _, rfl, rfl, rfl, rfl, by decide⟩
  obtain ⟨e, s, he, hphase, hnew, hs, hp⟩ := hrun
  obtain ⟨-, s', hs', hpassed, -⟩ := schedule_exact he hphase hnew hs (by omega)
    (fun j => if j = 0 then 100 else 125) (fun _ _ => { threw := true }) 1
    (by
      intro i hi
      obtain rfl : i = 0 := by omega
      decide)
    (by
      intro i hi
      rw [hp]
      rcases Nat.le_one_iff_eq_zero_or_eq_one.mp hi with rfl | rfl <;> decide)
  refine ⟨e, s', he, hs', ?_⟩
  rw [hpassed, hp]
  decide

end AuvMiddleware.Mw
