import AuvMiddleware.Mw.ReportHistory

/-!
# The loop that drives an executor in real time (mw_executor_demo.cpp:118-147)

Each pass sleeps until its own place on a grid that is fixed when the loop starts, and steps the
executor at whatever time it is then. What the machine does in between is given from outside.
-/

namespace AuvMiddleware.Mw
open Runs

/-- What the machine does in one pass, in nanoseconds. -/
structure Pass where
  /-- From the end of the pass before to the reading of the clock at the top. -/
  reached : ℕ := 0
  /-- By how much `sleep_for` returns late, where it is called. -/
  overslept : ℕ := 0
  /-- From there to the reading that `step` gets. -/
  called : ℕ := 0
  /-- How long `step` takes. -/
  worked : ℕ := 0
  ticks : ℕ → Tick := fun _ => {}

/-- The loop at its top, with the times `step` has been given. -/
structure RealTimeLoop where
  executor : Executor
  clock : ℤ
  n : ℕ := 0
  times : List ℤ := []

def RealTimeLoop.pass (kPeriod kRunFor origin : ℤ) (s : RealTimeLoop) (p : Pass) :
    Option RealTimeLoop :=
  if s.n * kPeriod < kRunFor then
    let target := origin + s.n * kPeriod
    let now := s.clock + p.reached
    let woken := if now < target then now + (target - now) + p.overslept else now
    let stepped := woken + p.called
    some {
      executor := (execCall (.step (Int64.ofInt (stepped - origin)) p.ticks) s.executor).2
      clock := stepped + p.worked
      n := s.n + 1
      times := s.times ++ [stepped - origin] }
  else none

/-! ### The times of the steps -/

/-- Around a step the loop takes `overhead` at most, and `sleep_for` is late by `oversleep`. -/
structure Prompt (overhead oversleep : ℕ) (p : Pass) : Prop where
  between : p.reached + p.called ≤ overhead
  waking : p.overslept ≤ oversleep

instance (overhead oversleep : ℕ) (p : Pass) : Decidable (Prompt overhead oversleep p) :=
  decidable_of_iff (p.reached + p.called ≤ overhead ∧ p.overslept ≤ oversleep)
    ⟨fun h => ⟨h.1, h.2⟩, fun h => ⟨h.1, h.2⟩⟩

/-- How far passes that take more than a period put those after them behind. -/
def overrun (kPeriod : ℤ) (overhead : ℕ) (passes : List Pass) : ℤ :=
  (passes.map fun p => max 0 (p.worked + overhead - kPeriod)).sum

theorem overrun_append (kPeriod : ℤ) (overhead : ℕ) (as bs : List Pass) :
    overrun kPeriod overhead (as ++ bs) =
      overrun kPeriod overhead as + overrun kPeriod overhead bs := by
  unfold overrun
  rw [List.map_append, List.sum_append]

theorem overrun_nonneg (kPeriod : ℤ) (overhead : ℕ) (passes : List Pass) :
    0 ≤ overrun kPeriod overhead passes :=
  List.sum_nonneg fun z hz => by
    obtain ⟨p, -, rfl⟩ := List.mem_map.mp hz
    exact le_max_left ..

theorem overrun_take_le (kPeriod : ℤ) (overhead j : ℕ) (passes : List Pass) :
    overrun kPeriod overhead (passes.take j) ≤ overrun kPeriod overhead passes := by
  have happ := overrun_append kPeriod overhead (passes.take j) (passes.drop j)
  have hrest := overrun_nonneg kPeriod overhead (passes.drop j)
  rw [List.take_append_drop] at happ
  omega

/-- The step of pass `j`, at `t`, is never early, and late by what the passes before it overran. -/
structure OnGrid (kPeriod : ℤ) (overhead oversleep : ℕ) (passes : List Pass) (j : ℕ) (t : ℤ) :
    Prop where
  early : j * kPeriod ≤ t
  late : t ≤ j * kPeriod + overhead + oversleep + overrun kPeriod overhead (passes.take j)

structure OnPace (kPeriod origin : ℤ) (overhead oversleep : ℕ) (passes : List Pass)
    (s : RealTimeLoop) : Prop where
  count : s.n = passes.length
  steps : s.times.length = passes.length
  clock : s.clock ≤ origin + s.n * kPeriod + oversleep + overrun kPeriod overhead passes
  last : ∀ t ∈ s.times.getLast?, origin + t ≤ s.clock
  times : ∀ j t, s.times[j]? = some t → OnGrid kPeriod overhead oversleep passes j t

section Pass

variable {kPeriod kRunFor origin : ℤ} {overhead oversleep : ℕ} {passes : List Pass}
  {s s' : RealTimeLoop} {p : Pass}

theorem OnPace.pass (hi : OnPace kPeriod origin overhead oversleep passes s)
    (hp : Prompt overhead oversleep p) (h : s.pass kPeriod kRunFor origin p = some s') :
    OnPace kPeriod origin overhead oversleep (passes ++ [p]) s' ∧
      ∃ t, s'.times = s.times ++ [t] ∧ (∀ last ∈ s.times.getLast?, last ≤ t) ∧
        s.n * kPeriod < kRunFor ∧
        s'.executor = (execCall (.step (Int64.ofInt t) p.ticks) s.executor).2 := by
  obtain ⟨hrunning, h⟩ := Option.ite_none_right_eq_some.mp h
  cases h
  have hclock := hi.clock
  have hbetween := hp.between
  have hwaking := hp.waking
  have hover : overrun kPeriod overhead (passes ++ [p]) = overrun kPeriod overhead passes +
      max 0 (p.worked + overhead - kPeriod) := by
    rw [overrun_append]
    simp [overrun]
  have hnonneg := overrun_nonneg kPeriod overhead passes
  generalize hwoken : (if s.clock + p.reached < origin + s.n * kPeriod then
      s.clock + p.reached + (origin + s.n * kPeriod - (s.clock + p.reached)) + p.overslept
    else s.clock + p.reached) = woken
  have hbounds : s.clock ≤ woken ∧ origin + s.n * kPeriod ≤ woken ∧
      woken + p.called ≤ origin + s.n * kPeriod + overhead + oversleep +
        overrun kPeriod overhead passes := by
    rw [← hwoken]
    split <;> omega
  obtain ⟨hsince, hearly, hlate⟩ := hbounds
  have hgrid : OnGrid kPeriod overhead oversleep passes s.n (woken + p.called - origin) := by
    constructor
    · omega
    · rw [hi.count, List.take_length, ← hi.count]
      omega
  refine ⟨⟨?_, ?_, ?_, ?_, ?_⟩, _, rfl, ?_, hrunning, rfl⟩
  · simp [hi.count]
  · simp [hi.steps]
  · dsimp only
    have hnext : ((s.n + 1 : ℕ) : ℤ) * kPeriod = s.n * kPeriod + kPeriod := by
      push_cast
      ring
    rw [hnext, hover]
    omega
  · intro t ht
    simp only [List.getLast?_append, List.getLast?_singleton, Option.some_or,
      Option.mem_some_iff] at ht
    dsimp only
    omega
  · intro j t ht
    rcases Nat.lt_or_ge j s.times.length with hj | hj
    · rw [List.getElem?_append_left hj] at ht
      obtain ⟨hearly, hlate⟩ := hi.times j t ht
      rw [hi.steps] at hj
      exact ⟨hearly, by rwa [List.take_append_of_le_length (Nat.le_of_lt hj)]⟩
    · rw [List.getElem?_append_right hj] at ht
      obtain ⟨hzero, rfl⟩ : j - s.times.length = 0 ∧ woken + p.called - origin = t := by
        cases hsub : j - s.times.length with
        | zero =>
          rw [hsub] at ht
          exact ⟨rfl, Option.some.inj ht⟩
        | succ i =>
          rw [hsub] at ht
          cases ht
      obtain rfl : j = s.n := by
        rw [hi.count, ← hi.steps]
        omega
      obtain ⟨hearly, hlate⟩ := hgrid
      exact ⟨hearly, by rwa [List.take_append_of_le_length (Nat.le_of_eq hi.count)]⟩
  · intro last hlast
    have := hi.last last hlast
    omega

end Pass

/-! ### The nodes -/

/-- A slot that was `slot` before the loop: none of its turns has been left out so far. -/
structure InTime (slot : Slot) (times : List ℤ) (s : Slot) : Prop where
  period : s.period = slot.period
  missed : s.report.missed = 0
  fresh : times = [] → s = slot
  schedule : ∀ first ∈ times.head?, ∀ last ∈ times.getLast?, OnSchedule first last s

theorem toInt_ofInt_of_in {z : ℤ} (h : InInt64 z) : (Int64.ofInt z).toInt = z :=
  Int64.toInt_ofInt_of_le h.1 h.2

section Slot

variable {slot s : Slot} {t : ℤ} (tick : Tick) (ht : 0 ≤ t) (hbound : t + slot.period < 2 ^ 63)

include ht hbound in
theorem stepSlot_first_inTime (hun : Unticked slot) (hp : 0 < slot.period) :
    InTime slot [t] (stepSlot (Int64.ofInt t) tick slot) := by
  have hnow : (Int64.ofInt t).toInt = t := toInt_ofInt_of_in (by unfold InInt64; omega)
  have hin : InInt64 (t + slot.period) := by
    unfold InInt64
    omega
  have hnow0 : 0 ≤ (Int64.ofInt t).toInt := by rwa [hnow]
  obtain ⟨hdue, hon⟩ := tickSlot_first (t := tick) hun hp hnow0 (by rwa [hnow])
  have hr : reschedule (Int64.ofInt t).toInt slot.period slot.nextDue =
      pure (0, t + slot.period) := by
    rw [hun.nextDue, hnow]
    exact reschedule_first hin
  obtain ⟨-, -, -, hmissed⟩ := tickSlot_eq (t := tick) hp hr
  rw [stepSlot, if_pos hdue]
  refine ⟨tickSlot_period .., ?_, by simp, ?_⟩
  · rw [hmissed, hun.missed]
    rfl
  · intro first hfirst last hlast
    cases hfirst
    cases hlast
    rwa [hnow] at hon

include ht hbound in
theorem InTime.step {times : List ℤ} (h : InTime slot times s) (hp : 0 < slot.period) {first last : ℤ}
    (hfirst : times.head? = some first) (hlast : times.getLast? = some last) (h0 : 0 ≤ first)
    (hmono : last ≤ t) (hgap : t ≤ last + slot.period) :
    InTime slot (times ++ [t]) (stepSlot (Int64.ofInt t) tick s) := by
  have hnow : (Int64.ofInt t).toInt = t := toInt_ofInt_of_in (by unfold InInt64; omega)
  have hp' : 0 < s.period := by rwa [h.period]
  have hon := h.schedule first hfirst last hlast
  have hschedule : OnSchedule first t (stepSlot (Int64.ofInt t) tick s) ∧
      (stepSlot (Int64.ofInt t) tick s).report.missed = 0 := by
    unfold stepSlot
    split
    · rename_i hdue
      rw [due_iff hp', hnow] at hdue
      have hend : slotEnd first s.period t < 2 ^ 63 := by
        have hle : slotEnd first s.period t ≤ t + s.period := slotEnd_le hp'
        rw [h.period] at hle ⊢
        omega
      have hdue' : s.nextDue ≤ (Int64.ofInt t).toInt := by rwa [hnow]
      have hlater := tickSlot_later (t := tick) hon hp' h0 hdue' (by rwa [hnow])
      rw [hnow] at hlater
      have hstart := hon.start
      have hahead := hon.ahead
      -- the node was not due at `last`, so `t` is less than a period past its turn
      have hnone : (t - s.nextDue) / s.period = 0 :=
        Int.ediv_eq_zero_of_lt (by omega) (by rw [h.period]; omega)
      have hend' : slotEnd s.nextDue s.period t < 2 ^ 63 := by
        rw [hon.due, slotEnd_add_mul hp']
        exact hend
      have hr := reschedule_late hp' (by omega) hdue hend'
      rw [← hnow] at hr
      obtain ⟨-, -, -, hmissed⟩ := tickSlot_eq (t := tick) hp' hr
      rw [hnow, hnone, h.missed] at hmissed
      exact ⟨hlater, hmissed⟩
    · rename_i hdue
      rw [due_iff hp', hnow] at hdue
      exact ⟨hon.wait hmono (by omega), h.missed⟩
  refine ⟨(stepSlot_period ..).trans h.period, hschedule.2, by simp, ?_⟩
  intro first' hfirst' last' hlast'
  rw [List.head?_append, hfirst] at hfirst'
  rw [List.getLast?_append, List.getLast?_singleton] at hlast'
  cases hfirst'
  cases hlast'
  exact hschedule.1

end Slot

/-! ### The loop -/

/-- The node in slot `k` can wait as long as the loop is ever behind. -/
def Slack (kPeriod kRunFor : ℤ) (overhead oversleep : ℕ) (passes : List Pass) (slot : Slot) : Prop :=
  kPeriod + overhead + oversleep + overrun kPeriod overhead passes ≤ slot.period ∧
    kRunFor + 2 * slot.period < 2 ^ 63

structure LoopInv (kPeriod kRunFor origin : ℤ) (overhead oversleep : ℕ) (e : Executor)
    (passes : List Pass) (s : RealTimeLoop) : Prop where
  phase : s.executor.phase = .running
  pace : OnPace kPeriod origin overhead oversleep passes s
  nodes : ∀ (k : ℕ) (slot : Slot), e.slots[k]? = some slot → ∃ s', s.executor.slots[k]? = some s' ∧
    (Slack kPeriod kRunFor overhead oversleep passes slot → InTime slot s.times s')

section Loop

variable {kPeriod kRunFor origin : ℤ} {overhead oversleep : ℕ} {e : Executor}
  {passes : List Pass} {s s' : RealTimeLoop} {p : Pass}

theorem Slack.of_append {slot : Slot} {more : List Pass}
    (h : Slack kPeriod kRunFor overhead oversleep (passes ++ more) slot) :
    Slack kPeriod kRunFor overhead oversleep passes slot := by
  have hnonneg := overrun_nonneg kPeriod overhead more
  obtain ⟨hslack, hrange⟩ := h
  rw [overrun_append] at hslack
  exact ⟨by omega, hrange⟩

theorem LoopInv.pass (hun : ∀ slot ∈ e.slots, Unticked slot) (hperiod : 0 < kPeriod)
    (hi : LoopInv kPeriod kRunFor origin overhead oversleep e passes s)
    (hp : Prompt overhead oversleep p) (h : s.pass kPeriod kRunFor origin p = some s') :
    LoopInv kPeriod kRunFor origin overhead oversleep e (passes ++ [p]) s' := by
  obtain ⟨hpace, t, htimes, hmono, hrunning, hexec⟩ := hi.pace.pass hp h
  rw [step_running hi.phase] at hexec
  refine ⟨by rw [hexec]; exact hi.phase, hpace, ?_⟩
  intro k slot hk
  obtain ⟨before, hbefore, hintime⟩ := hi.nodes k slot hk
  refine ⟨stepSlot (Int64.ofInt t) (p.ticks k) before, ?_, ?_⟩
  · rw [hexec]
    dsimp only
    rw [stepSlots_getElem?, hbefore, Nat.zero_add]
    rfl
  · intro hslack
    have hin := hintime hslack.of_append
    have hgrid := hpace.times s.n t (by
      rw [htimes, List.getElem?_append_right (by rw [hi.pace.steps, hi.pace.count]),
        hi.pace.steps, hi.pace.count, Nat.sub_self]
      rfl)
    obtain ⟨hearly, hlate⟩ := hgrid
    have hover := overrun_take_le kPeriod overhead s.n (passes ++ [p])
    obtain ⟨hperiods, hrange⟩ := hslack
    have hn : 0 ≤ s.n * kPeriod := Int.mul_nonneg (by omega) (by omega)
    have hnonneg := overrun_nonneg kPeriod overhead (passes ++ [p])
    rw [htimes]
    cases htop : s.times with
    | nil =>
      rw [hin.fresh htop]
      exact stepSlot_first_inTime _ (by omega) (by omega)
        (hun slot (List.mem_of_getElem? hk)) (by omega)
    | cons first rest =>
      have hne : s.times ≠ [] := by simp [htop]
      have hfirst : s.times.head? = some first := by rw [htop]; rfl
      have hlast := List.getLast?_eq_some_getLast hne
      have hfirst0 := (hi.pace.times 0 first (by rw [htop]; rfl)).early
      have hprev := (hi.pace.times (s.times.length - 1) (s.times.getLast hne) (by
        rw [← List.getLast?_eq_getElem?, hlast])).early
      have hcount : ((s.times.length - 1 : ℕ) : ℤ) * kPeriod = s.n * kPeriod - kPeriod := by
        have hpos := List.length_pos_iff.mpr hne
        rw [hi.pace.count, ← hi.pace.steps, Nat.cast_sub hpos, Int.sub_mul, Nat.cast_one, Int.one_mul]
      rw [← htop]
      exact hin.step _ (by omega) (by omega) (by omega) hfirst hlast (by simpa using hfirst0)
        (hmono _ hlast) (by omega)

theorem LoopInv.start (hphase : e.phase = .running) (hun : ∀ slot ∈ e.slots, Unticked slot) :
    LoopInv kPeriod kRunFor origin overhead oversleep e [] { executor := e, clock := origin } := by
  refine ⟨hphase, ⟨rfl, rfl, ?_, by simp, by simp⟩, ?_⟩
  · simp [overrun]
  · intro k slot hk
    have hmissed := (hun slot (List.mem_of_getElem? hk)).missed
    exact ⟨slot, hk, fun _ => ⟨rfl, hmissed, fun _ => rfl, by simp⟩⟩

/-- The ticks of a node that has missed nothing, counted by its own period. -/
theorem LoopInv.ticks (hi : LoopInv kPeriod kRunFor origin overhead oversleep e passes s)
    (hperiod : 0 < kPeriod) (hne : passes ≠ []) {slot slot' : Slot}
    (hslack : Slack kPeriod kRunFor overhead oversleep passes slot)
    (hin : InTime slot s.times slot') :
    (passes.length - 1) * kPeriod - overhead - oversleep < slot'.report.ticks * slot.period ∧
      (slot'.report.ticks - 1) * slot.period ≤ (passes.length - 1) * kPeriod + overhead +
        oversleep + overrun kPeriod overhead passes := by
  have hlen := hi.pace.steps
  have hpos : 0 < passes.length := List.length_pos_iff.mpr hne
  have hslots : 0 < slot.period := by
    have := overrun_nonneg kPeriod overhead passes
    have := hslack.1
    omega
  obtain ⟨first, hfirst⟩ : ∃ first, s.times[0]? = some first :=
    ⟨_, List.getElem?_eq_getElem (by omega)⟩
  obtain ⟨last, hlast⟩ : ∃ last, s.times[passes.length - 1]? = some last :=
    ⟨_, List.getElem?_eq_getElem (by omega)⟩
  obtain ⟨hfirst0, hfirst1⟩ := hi.pace.times 0 first hfirst
  obtain ⟨hlast0, hlast1⟩ := hi.pace.times _ last hlast
  have hon := hin.schedule first (by rwa [List.head?_eq_getElem?]) last (by
    rwa [List.getLast?_eq_getElem?, hlen])
  have hpassed := hon.passed_eq (by rwa [hin.period])
  rw [Slot.passed, hin.missed, hin.period, Nat.cast_zero, Int.add_zero] at hpassed
  have hover := overrun_take_le kPeriod overhead (passes.length - 1) passes
  have hnone : overrun kPeriod overhead (passes.take 0) = 0 := rfl
  have hcount : ((passes.length - 1 : ℕ) : ℤ) = passes.length - 1 := by
    rw [Nat.cast_sub hpos, Nat.cast_one]
  rw [hcount] at hlast0 hlast1
  rw [hnone] at hfirst1
  rw [Nat.cast_zero, Int.zero_mul] at hfirst0 hfirst1
  have hbelow : last - first < slot'.report.ticks * slot.period := by
    rw [hpassed]
    exact Int.lt_ediv_add_one_mul_self _ hslots
  have habove : (slot'.report.ticks - 1) * slot.period ≤ last - first := by
    rw [hpassed, Int.add_sub_cancel]
    exact Int.ediv_mul_le _ (by omega)
  constructor <;> omega

end Loop

/-- No late wake-up is ever carried over: a step is behind the grid by one wake-up at most and by
what earlier passes overran. A node with that much slack is ticked at its own rate, for as long as
the loop runs, and misses nothing. -/
theorem loop_on_time {kPeriod : Int64} {e₀ e : Executor} {lead : List ExecStep}
    (hexec : newExecutor kPeriod = .ok e₀) (hlead : run execStep e₀ lead = some e)
    (hrunning : e.phase = .running) (hnew : e.stepCount = 0) {kRunFor origin : ℤ}
    {passes : List Pass} {s : RealTimeLoop}
    (h : run (RealTimeLoop.pass kPeriod.toInt kRunFor origin) { executor := e, clock := origin }
      passes = some s)
    {overhead oversleep : ℕ} (hpasses : ∀ p ∈ passes, Prompt overhead oversleep p) :
    (∀ j t, s.times[j]? = some t → OnGrid kPeriod.toInt overhead oversleep passes j t) ∧
    ∀ (k : ℕ) (slot : Slot), e.slots[k]? = some slot →
      Slack kPeriod.toInt kRunFor overhead oversleep passes slot →
      ∃ slot', s.executor.slots[k]? = some slot' ∧ slot'.report.missed = 0 ∧ (passes ≠ [] →
        (passes.length - 1) * kPeriod.toInt - overhead - oversleep <
          slot'.report.ticks * slot.period ∧
        (slot'.report.ticks - 1) * slot.period ≤ (passes.length - 1) * kPeriod.toInt + overhead +
          oversleep + overrun kPeriod.toInt overhead passes) := by
  have hperiod : 0 < kPeriod.toInt ∧ e₀ = { periodNs := kPeriod } := by
    unfold newExecutor at hexec
    split at hexec
    · cases hexec
    · rename_i hpos
      rw [Int64.le_iff_toInt_le, Int64.toInt_zero, not_le] at hpos
      cases hexec
      exact ⟨hpos, rfl⟩
  obtain ⟨hperiod, rfl⟩ := hperiod
  have hun : ∀ slot ∈ e.slots, Unticked slot := fresh_unstepped hlead hnew
  have hstep (done : List Pass) (m : RealTimeLoop) (p : Pass) (m' : RealTimeLoop)
      (hm : (∀ p ∈ done, Prompt overhead oversleep p) →
        LoopInv kPeriod.toInt kRunFor origin overhead oversleep e done m)
      (hp : m.pass kPeriod.toInt kRunFor origin p = some m')
      (hdone : ∀ q ∈ done ++ [p], Prompt overhead oversleep q) :
      LoopInv kPeriod.toInt kRunFor origin overhead oversleep e (done ++ [p]) m' :=
    (hm fun q hq => hdone q (List.mem_append_left _ hq)).pass hun hperiod
      (hdone p (List.mem_append_right _ (List.mem_singleton.mpr rfl))) hp
  have hi := run_history hstep (fun _ => LoopInv.start hrunning hun) h hpasses
  refine ⟨hi.pace.times, ?_⟩
  intro k slot hk hslack
  obtain ⟨slot', hslot', hin⟩ := hi.nodes k slot hk
  exact ⟨slot', hslot', (hin hslack).missed, fun hne => hi.ticks hperiod hne hslack (hin hslack)⟩

/-- The three nodes of the program. -/
def demoNodes : List ExecStep :=
  [.add 0 { name := "depth", periodNs := 10000000, budgetNs := 1000000 },
    .add 1 { name := "control", periodNs := 20000000, budgetNs := 2000000 },
    .add 2 { name := "telemetry", periodNs := 500000000, budgetNs := 5000000 },
    .configureAll fun _ => none, .startAll fun _ => none]

/-- The second pass wakes up late, and the third takes longer than its period. -/
def latePasses : List Pass :=
  [{ reached := 2000, worked := 900000 }, { overslept := 700000, worked := 4100000 },
    { called := 1000, worked := 6000000 }, { reached := 3000, worked := 20000 }]

theorem latePasses_on_time :
    ∃ e s slot, run execStep { periodNs := 5000000 } demoNodes = some e ∧
      run (RealTimeLoop.pass 5000000 2000000000 77) { executor := e, clock := 77 } latePasses =
        some s ∧
      s.times = [2000, 5700000, 10001000, 16004000] ∧
      s.executor.slots[0]? = some slot ∧ slot.report.missed = 0 := by
  have hrun : ∃ e s slot, run execStep { periodNs := 5000000 } demoNodes = some e ∧
      e.phase = .running ∧ e.stepCount = 0 ∧ e.slots[0]? = some slot ∧ slot.period = 10000000 ∧
      run (RealTimeLoop.pass 5000000 2000000000 77) { executor := e, clock := 77 } latePasses =
        some s ∧
      s.times = [2000, 5700000, 10001000, 16004000] :=
    ⟨_, _, _, rfl, rfl, rfl, rfl, by decide, rfl, by decide⟩
  obtain ⟨e, s, slot, he, hphase, hnew, hslot, hperiod, hs, htimes⟩ := hrun
  have hexec : newExecutor 5000000 = .ok { periodNs := 5000000 } := rfl
  have hprompt : ∀ p ∈ latePasses, Prompt 5000 700000 p := by decide
  obtain ⟨-, hnodes⟩ := loop_on_time hexec he hphase hnew hs hprompt
  obtain ⟨slot', hslot', hmissed, -⟩ := hnodes 0 slot hslot
    ⟨by rw [hperiod]; decide, by rw [hperiod]; decide⟩
  exact ⟨e, s, slot', he, hs, htimes, hslot', hmissed⟩

end AuvMiddleware.Mw
