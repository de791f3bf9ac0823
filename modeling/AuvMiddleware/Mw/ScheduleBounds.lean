import AuvMiddleware.Mw.Isolation

/-!
# The range of the scheduling arithmetic (executor.cpp:131-191)

`add` takes every non-negative period. A step then computes the boundary after the step time, and
it is this sum that has to fit; the readings of the measurement clock never get near the range.
-/

namespace AuvMiddleware.Mw
open Runs

/-! ### The schedule -/

theorem exact_of_overflow_eq_false {α : Type} {x : Checked α} (h : x.overflow = false) :
    x.exact = some x.value := by
  unfold Checked.exact
  rw [h]
  rfl

theorem reschedule_first_bound {now period : ℤ}
    (h : (reschedule now period minInt64).overflow = false) : now + period < 2 ^ 63 := by
  have hexact := exact_of_overflow_eq_false h
  unfold reschedule at hexact
  rw [if_pos rfl] at hexact
  obtain ⟨next, hnext, -⟩ := Checked.exact_bind_eq_some hexact
  exact (Checked.exact_int64 hnext).2.2

theorem reschedule_late_bound {now period due : ℤ} (hdue : 0 ≤ due)
    (hlate : due ≤ now) (h : (reschedule now period due).overflow = false) :
    slotEnd due period now < 2 ^ 63 := by
  have hmin : due ≠ minInt64 := by
    unfold minInt64
    omega
  have htdiv : (now - due).tdiv period = (now - due) / period :=
    Int.tdiv_eq_ediv_of_nonneg (by omega)
  have hexact := exact_of_overflow_eq_false h
  unfold reschedule at hexact
  rw [if_neg hmin] at hexact
  obtain ⟨late, hl, hexact⟩ := Checked.exact_bind_eq_some hexact
  obtain ⟨skipped, hsk, hexact⟩ := Checked.exact_bind_eq_some hexact
  obtain ⟨slots, hsl, hexact⟩ := Checked.exact_bind_eq_some hexact
  obtain ⟨span, hsp, hexact⟩ := Checked.exact_bind_eq_some hexact
  obtain ⟨next, hn, -⟩ := Checked.exact_bind_eq_some hexact
  obtain ⟨rfl, -⟩ := Checked.exact_int64 hl
  obtain ⟨rfl, -⟩ := Checked.exact_int64 hsk
  obtain ⟨rfl, -⟩ := Checked.exact_int64 hsl
  obtain ⟨rfl, -⟩ := Checked.exact_int64 hsp
  have hin := (Checked.exact_int64 hn).2.2
  rw [htdiv] at hin
  exact hin

theorem tickSlot_scheduleOverflow (nowNs : Int64) (t : Tick) {s : Slot} (hp : 0 < s.period) :
    (tickSlot nowNs t s).scheduleOverflow =
      (s.scheduleOverflow || (reschedule nowNs.toInt s.period s.nextDue).overflow) := by
  have hne : ¬ s.report.periodNs = 0 := by
    unfold Slot.period at hp
    omega
  unfold tickSlot Slot.period
  simp only [measure_periodNs, hne, if_false]

theorem stepSlot_scheduleOverflow (nowNs : Int64) (t : Tick) {s : Slot} (hp : 0 < s.period) :
    (stepSlot nowNs t s).scheduleOverflow = (s.scheduleOverflow ||
      (s.due nowNs && (reschedule nowNs.toInt s.period s.nextDue).overflow)) := by
  unfold stepSlot
  cases s.due nowNs with
  | false => simp
  | true => simpa using tickSlot_scheduleOverflow nowNs t hp

theorem stepSlot_everyStep (nowNs : Int64) (t : Tick) {s : Slot} (hp : s.period = 0) :
    (stepSlot nowNs t s).scheduleOverflow = s.scheduleOverflow := by
  unfold Slot.period at hp
  unfold stepSlot tickSlot
  simp only [measure_periodNs, hp, if_true]
  split <;> rfl

theorem OnSchedule.nextDue_eq {n0 last : ℤ} {s : Slot} (hs : OnSchedule n0 last s)
    (hp : 0 < s.period) : s.nextDue = slotEnd n0 s.period last := by
  rw [hs.due, hs.passed_eq hp, slotEnd]

theorem slotAfter_everyStep {n : ℕ → Int64} {t : ℕ → Tick} {s : Slot} (hp : s.period = 0) (j : ℕ) :
    (slotAfter n t s j).scheduleOverflow = s.scheduleOverflow := by
  induction j with
  | zero => rfl
  | succ j ih =>
    have hp' : (slotAfter n t s j).period = 0 := by
      rw [slotAfter_period]
      exact hp
    rw [slotAfter, stepSlot_everyStep (n j) (t j) hp', ih]

section Slot

variable {n : ℕ → Int64} {t : ℕ → Tick} {s : Slot} (hs : Unticked s) (hp : 0 < s.period)

include hs hp in
theorem stepSlot_first_bound (hnow : 0 ≤ (n 0).toInt)
    (hover : (s.due (n 0) && (reschedule (n 0).toInt s.period s.nextDue).overflow) = false) :
    slotEnd (n 0).toInt s.period (n 0).toInt < 2 ^ 63 := by
  have hdue : s.due (n 0) = true := by
    rw [due_iff hp, hs.nextDue]
    unfold minInt64
    omega
  rw [hdue, Bool.true_and, hs.nextDue] at hover
  rw [slotEnd_start]
  exact reschedule_first_bound hover

/-- A node that waits is due at the boundary it was due at before. -/
theorem stepSlot_later_bound {n0 last : ℤ} {nowNs : Int64} (hon : OnSchedule n0 last s)
    (hp : 0 < s.period) (h0 : 0 ≤ n0) (hle : last ≤ nowNs.toInt)
    (hlast : slotEnd n0 s.period last < 2 ^ 63)
    (hover : (s.due nowNs && (reschedule nowNs.toInt s.period s.nextDue).overflow) = false) :
    slotEnd n0 s.period nowNs.toInt < 2 ^ 63 := by
  by_cases hdue : s.due nowNs = true
  · rw [hdue, Bool.true_and] at hover
    rw [due_iff hp] at hdue
    have hstart := hon.start
    have hend := reschedule_late_bound (by omega) hdue hover
    rwa [hon.due, slotEnd_add_mul hp] at hend
  · rw [due_iff hp, not_le] at hdue
    have hnext := (hon.wait hle hdue).nextDue_eq hp
    rw [← hnext, hon.nextDue_eq hp]
    exact hlast

include hs hp in
/-- The step times go no further than the flag tells. -/
theorem slotAfter_overflow_iff {m : ℕ} (hmono : ∀ j, j + 1 < m → (n j).toInt ≤ (n (j + 1)).toInt)
    (hnonneg : ∀ j < m, 0 ≤ (n j).toInt) :
    (slotAfter n t s m).scheduleOverflow = false ↔
      ∀ j < m, slotEnd (n 0).toInt s.period (n j).toInt < 2 ^ 63 := by
  induction m with
  | zero => simp [slotAfter, hs.overflow]
  | succ m ih =>
    have ih := ih (fun j hj => hmono j (by omega)) (fun j hj => hnonneg j (by omega))
    have hpm : 0 < (slotAfter n t s m).period := by
      rw [slotAfter_period]
      exact hp
    constructor
    · intro h
      rw [slotAfter, stepSlot_scheduleOverflow (n m) (t m) hpm, Bool.or_eq_false_iff] at h
      obtain ⟨hbefore, hover⟩ := h
      have hprev := ih.mp hbefore
      intro j hj
      rcases Nat.lt_succ_iff_lt_or_eq.mp hj with hj | rfl
      · exact hprev j hj
      · cases j with
        | zero => exact stepSlot_first_bound hs hp (hnonneg 0 hj) hover
        | succ j =>
          have hon := slotAfter_onSchedule (t := t) (j := j) hs hp (fun i hi => hmono i (by omega))
            (fun i hi => ⟨hnonneg i (by omega), hprev i (by omega)⟩)
          have hlast := hprev j (by omega)
          rw [← slotAfter_period (n := n) (t := t) (s := s) (j + 1)] at hlast ⊢
          exact stepSlot_later_bound hon hpm (hnonneg 0 (by omega)) (hmono j (by omega)) hlast hover
    · intro h
      exact (slotAfter_onSchedule (j := m) hs hp (fun j hj => hmono j (by omega))
        (fun j hj => ⟨hnonneg j (by omega), h j (by omega)⟩)).overflow

end Slot

/-! ### The measurements -/

/-- The readings of the measurement clock around the ticks of one node: the clock never goes
backwards, and the difference of two readings is a number of nanoseconds. -/
structure Steady (t : ℕ → Tick) : Prop where
  forward : ∀ j, (t j).began.toInt ≤ (t j).ended.toInt
  onward : ∀ j, (t j).ended.toInt ≤ (t (j + 1)).began.toInt
  difference : ∀ i j, (t j).ended.toInt - (t i).began.toInt < 2 ^ 63

/-- Before step `j` no more has been measured than has gone by. -/
structure Measured (t : ℕ → Tick) (j : ℕ) (s : Slot) : Prop where
  nonneg : 0 ≤ s.report.totalNs
  total : s.report.totalNs ≤ (t j).began.toInt - (t 0).began.toInt
  overflow : s.measureOverflow = false

theorem tickSlot_measured (nowNs : Int64) {t : ℕ → Tick} (ht : Steady t) {j : ℕ} {s : Slot}
    (hs : Measured t j s) : Measured t (j + 1) (tickSlot nowNs (t j) s) := by
  obtain ⟨hnonneg, htotal, hover⟩ := hs
  have hforward := ht.forward j
  have honward := ht.onward j
  have hspan := ht.difference 0 j
  have htook : InInt64 ((t j).ended.toInt - (t j).began.toInt) := by
    have := ht.difference j j
    unfold InInt64
    omega
  have hsum : InInt64 (s.report.totalNs + ((t j).ended.toInt - (t j).began.toInt)) := by
    unfold InInt64
    omega
  have hmeasure : (measure (t j) s.report).value.totalNs =
      s.report.totalNs + ((t j).ended.toInt - (t j).began.toInt) ∧
      (measure (t j) s.report).overflow = false := by
    unfold measure
    rw [Checked.int64_of_in htook, Checked.pure_bind', Checked.int64_of_in hsum,
      Checked.pure_bind']
    exact ⟨rfl, rfl⟩
  have hslot : (tickSlot nowNs (t j) s).report.totalNs = (measure (t j) s.report).value.totalNs ∧
      (tickSlot nowNs (t j) s).measureOverflow =
        (s.measureOverflow || (measure (t j) s.report).overflow) := by
    unfold tickSlot
    dsimp only
    split <;> exact ⟨rfl, rfl⟩
  rw [hmeasure.1, hmeasure.2, hover] at hslot
  obtain ⟨htotal', hover'⟩ := hslot
  constructor
  · rw [htotal']
    omega
  · rw [htotal']
    omega
  · exact hover'

theorem slotAfter_measured (n : ℕ → Int64) {t : ℕ → Tick} (ht : Steady t) {s : Slot}
    (hs : Measured t 0 s) (j : ℕ) : Measured t j (slotAfter n t s j) := by
  induction j with
  | zero => exact hs
  | succ j ih =>
    rw [slotAfter, stepSlot]
    split
    · exact tickSlot_measured (n j) ht ih
    · obtain ⟨hnonneg, htotal, hover⟩ := ih
      have hforward := ht.forward j
      have honward := ht.onward j
      exact ⟨hnonneg, by omega, hover⟩

/-! ### The executor -/

def TickedAt (n : ℕ → Int64) (ticks : ℕ → ℕ → Tick) (e : Executor) (k i : ℕ) : Prop :=
  ∃ events, (afterSteps n ticks e (i + 1)).trace = (afterSteps n ticks e i).trace ++ events ∧
    NodeCall.tick (n i) ∈ callsOn k events

theorem tickedAt_iff (n : ℕ → Int64) (ticks : ℕ → ℕ → Tick) {e : Executor}
    (h : e.phase = .running) {k : ℕ} {s : Slot} (hs : e.slots[k]? = some s) (i : ℕ) :
    TickedAt n ticks e k i ↔ (slotAfter n (fun j => ticks j k) s i).due (n i) = true := by
  have hrun := afterSteps_running n ticks h i
  have hslot := afterSteps_slot n ticks h hs i
  have hcalls := callsOn_stepSlots (n i) (ticks i) 0 _ hslot
  rw [Nat.zero_add] at hcalls
  have htrace : (afterSteps n ticks e (i + 1)).trace = (afterSteps n ticks e i).trace ++
      (stepSlots (n i) (ticks i) 0 (afterSteps n ticks e i).slots).2 := by
    rw [afterSteps, step_running hrun]
  constructor
  · rintro ⟨events, hevents, hmem⟩
    rw [List.append_cancel_left (hevents.symm.trans htrace), hcalls] at hmem
    by_contra hdue
    rw [if_neg hdue] at hmem
    cases hmem
  · intro hdue
    refine ⟨_, htrace, ?_⟩
    rw [hcalls, if_pos hdue]
    exact List.mem_singleton.mpr rfl

/-- In the first `m` steps nothing overflowed, and no node was ticked twice in a slot of its
schedule. -/
structure ScheduleSafe (n : ℕ → Int64) (ticks : ℕ → ℕ → Tick) (e : Executor) (m : ℕ) : Prop where
  schedule : ∀ s ∈ (afterSteps n ticks e m).slots, s.scheduleOverflow = false
  measurements : ∀ s ∈ (afterSteps n ticks e m).slots, s.measureOverflow = false
  oneTick : ∀ k s, e.slots[k]? = some s → 0 < s.period → ∀ i j, i < j → j < m →
    TickedAt n ticks e k i → TickedAt n ticks e k j →
      ((n i).toInt - (n 0).toInt) / s.period ≠ ((n j).toInt - (n 0).toInt) / s.period

theorem floor_lt_of_due {n : ℕ → Int64} {t : ℕ → Tick} {s : Slot} (hs : Unticked s)
    (hp : 0 < s.period) {i j m : ℕ} (hmono : ∀ j, j + 1 < m → (n j).toInt ≤ (n (j + 1)).toInt)
    (hends : ∀ j < m, 0 ≤ (n j).toInt ∧ slotEnd (n 0).toInt s.period (n j).toInt < 2 ^ 63)
    (hij : i < j) (hjm : j < m) (hdue : (slotAfter n t s j).due (n j) = true) :
    ((n i).toInt - (n 0).toInt) / s.period < ((n j).toInt - (n 0).toInt) / s.period := by
  cases j with
  | zero => exact absurd hij (Nat.not_lt_zero i)
  | succ j =>
    have hon := slotAfter_onSchedule (t := t) (j := j) hs hp (fun k hk => hmono k (by omega))
      (fun k hk => hends k (by omega))
    have hp' : 0 < (slotAfter n t s (j + 1)).period := by
      rw [slotAfter_period]
      exact hp
    rw [hon.due_iff_floor (n (j + 1)) hp', slotAfter_period] at hdue
    have hle : ∀ k, i + k ≤ j → (n i).toInt ≤ (n (i + k)).toInt := by
      intro k
      induction k with
      | zero =>
        intro _
        exact le_refl _
      | succ k ih =>
        intro hk
        exact (ih (by omega)).trans (hmono (i + k) (by omega))
    have hij' := hle (j - i) (by omega)
    rw [show i + (j - i) = j by omega] at hij'
    have hfloor := Int.ediv_le_ediv hp
      (show (n i).toInt - (n 0).toInt ≤ (n j).toInt - (n 0).toInt by omega)
    omega

theorem mem_afterSteps {n : ℕ → Int64} {ticks : ℕ → ℕ → Tick} {e : Executor}
    (h : e.phase = .running) {m : ℕ} {s' : Slot} (hs' : s' ∈ (afterSteps n ticks e m).slots) :
    ∃ k s, e.slots[k]? = some s ∧ s' = slotAfter n (fun j => ticks j k) s m := by
  obtain ⟨k, hk⟩ := List.getElem?_of_mem hs'
  have hlt : k < e.slots.length := by
    rw [← afterSteps_length n ticks h m]
    exact (List.getElem?_eq_some_iff.mp hk).1
  have hs := List.getElem?_eq_getElem hlt
  exact ⟨k, _, hs, Option.some.inj (hk.symm.trans (afterSteps_slot n ticks h hs m))⟩

/-- The scheduling arithmetic is safe exactly as long as the slot boundary after each step time
can be represented. -/
theorem schedule_safe_iff {period : Int64} {lead : List ExecStep} {e : Executor}
    (hlead : run execStep { periodNs := period } lead = some e) (hrunning : e.phase = .running)
    (hnew : e.stepCount = 0) (n : ℕ → Int64) (ticks : ℕ → ℕ → Tick) (m : ℕ)
    (hmono : ∀ j, j + 1 < m → (n j).toInt ≤ (n (j + 1)).toInt) (hnonneg : ∀ j < m, 0 ≤ (n j).toInt)
    (hclock : ∀ k, Steady fun j => ticks j k) :
    ScheduleSafe n ticks e m ↔
      ∀ s ∈ e.slots, 0 < s.period → ∀ j < m, slotEnd (n 0).toInt s.period (n j).toInt < 2 ^ 63 := by
  have hun := fresh_unstepped hlead hnew
  constructor
  · intro hsafe s hs hp
    obtain ⟨k, hk⟩ := List.getElem?_of_mem hs
    have hslot := afterSteps_slot n ticks hrunning hk m
    have hover := hsafe.schedule _ (List.mem_of_getElem? hslot)
    exact (slotAfter_overflow_iff (hun s hs) hp hmono hnonneg).mp hover
  · intro hends
    constructor
    · intro s' hs'
      obtain ⟨k, s, hk, rfl⟩ := mem_afterSteps hrunning hs'
      have hs := List.mem_of_getElem? hk
      obtain ⟨spec, hperiod, -, hspec⟩ := fresh_slot hlead hnew hs
      have hnonneg_period : 0 ≤ s.period := by
        rw [hspec]
        exact hperiod
      rcases hnonneg_period.eq_or_lt with hp | hp
      · rw [slotAfter_everyStep hp.symm]
        exact (hun s hs).overflow
      · exact (slotAfter_overflow_iff (hun s hs) hp hmono hnonneg).mpr (hends s hs hp)
    · intro s' hs'
      obtain ⟨k, s, hk, rfl⟩ := mem_afterSteps hrunning hs'
      obtain ⟨spec, -, -, hspec⟩ := fresh_slot hlead hnew (List.mem_of_getElem? hk)
      have hstart : Measured (fun j => ticks j k) 0 s := by
        rw [hspec]
        exact ⟨le_refl 0, (Int.sub_self _).ge, rfl⟩
      exact (slotAfter_measured n (hclock k) hstart m).overflow
    · intro k s hk hp i j hij hjm _ hj
      have hs := List.mem_of_getElem? hk
      rw [tickedAt_iff n ticks hrunning hk] at hj
      exact (floor_lt_of_due (hun s hs) hp hmono
        (fun j hj => ⟨hnonneg j hj, hends s hs hp j hj⟩) hij hjm hj).ne

theorem schedule_safe_iff_idle :
    ∃ e, run execStep { periodNs := 5 } twoNodes = some e ∧
      ScheduleSafe (fun j => if j = 0 then 100 else 125) (fun _ _ => {}) e 2 := by
  have hrun : ∃ e, run execStep { periodNs := 5 } twoNodes = some e ∧ e.phase = .running ∧
      e.stepCount = 0 ∧ (∀ s ∈ e.slots, 0 < s.period → s.period = 10) :=
    ⟨_, rfl, rfl, rfl, by decide⟩
  obtain ⟨e, he, hphase, hnew, hperiod⟩ := hrun
  refine ⟨e, he, (schedule_safe_iff he hphase hnew _ _ 2 ?_ ?_ ?_).mpr ?_⟩
  · intro j hj
    obtain rfl : j = 0 := by omega
    decide
  · intro j hj
    rcases Nat.le_one_iff_eq_zero_or_eq_one.mp (Nat.le_of_lt_succ hj) with rfl | rfl <;> decide
  · intro _
    exact ⟨fun _ => le_refl _, fun _ => le_refl _, fun _ _ => by decide⟩
  · intro s hs hp j hj
    rw [hperiod s hs hp]
    rcases Nat.le_one_iff_eq_zero_or_eq_one.mp (Nat.le_of_lt_succ hj) with rfl | rfl <;> decide

/-- With the longest period there is, a node first stepped at 1 is due at every step. -/
theorem longestPeriod_overflows :
    ∃ e, run execStep { periodNs := 1 } (alone 0 { name := "slow", periodNs := Int64.maxValue }) =
        some e ∧ e.phase = .running ∧ e.stepCount = 0 ∧
      TickedAt (fun j => if j = 0 then 1 else 2) (fun _ _ => {}) e 0 0 ∧
      TickedAt (fun j => if j = 0 then 1 else 2) (fun _ _ => {}) e 0 1 ∧
      ¬ ScheduleSafe (fun j => if j = 0 then 1 else 2) (fun _ _ => {}) e 2 := by
  obtain ⟨e, he, hphase, hnew, hslots⟩ := alone_started 1 0
    (show 0 ≤ ({ name := "slow", periodNs := Int64.maxValue } : NodeSpec).periodNs.toInt by decide)
    (show 0 ≤ ({ name := "slow", periodNs := Int64.maxValue } : NodeSpec).budgetNs.toInt by decide)
  have hs : e.slots[0]? = some (newSlot 0 { name := "slow", periodNs := Int64.maxValue }) := by
    rw [hslots]
    rfl
  refine ⟨e, he, hphase, hnew, ?_, ?_, ?_⟩
  · rw [tickedAt_iff _ _ hphase hs]
    decide
  · rw [tickedAt_iff _ _ hphase hs]
    decide
  · intro hsafe
    have hover := hsafe.schedule _ (List.mem_of_getElem? (afterSteps_slot _ _ hphase hs 2))
    revert hover
    decide

end AuvMiddleware.Mw
