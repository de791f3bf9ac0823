import AuvMiddleware.Mw.Isolation
import AuvMiddleware.Mw.Unwinding
import Mathlib.Algebra.Order.BigOperators.Group.List

/-!
# What a report says of the ticks before it (executor.cpp:131-169)

`step` keeps counters and durations and forgets the ticks they came from. Here the ticks of each
slot are kept beside the executor, through any calls on it, and compared with its report.
-/

namespace AuvMiddleware.Mw
open Runs

def Tick.took (t : Tick) : ℤ := t.ended.toInt - t.began.toInt

/-- An executor, and the ticks each of its slots has had. -/
structure Observed where
  executor : Executor
  seen : ℕ → List Tick := fun _ => []

def dueAt (nowNs : Int64) (slots : List Slot) (k : ℕ) : List Slot :=
  (slots[k]?.filter fun s => s.due nowNs).toList

theorem dueAt_some {slots : List Slot} {k : ℕ} {s : Slot} (nowNs : Int64) (h : slots[k]? = some s) :
    dueAt nowNs slots k = if s.due nowNs then [s] else [] := by
  unfold dueAt
  rw [h]
  cases hdue : s.due nowNs <;> simp [Option.filter, hdue]

theorem dueAt_none {slots : List Slot} {k : ℕ} (nowNs : Int64) (h : slots.length ≤ k) :
    dueAt nowNs slots k = [] := by
  unfold dueAt
  rw [List.getElem?_eq_none h]
  rfl

def Observed.step (s : Observed) (i : ExecStep) : Option Observed :=
  some {
    executor := (execCall i s.executor).2
    seen :=
      match i with
      | .step nowNs ticks =>
        if s.executor.phase = .running then
          fun k => s.seen k ++ (dueAt nowNs s.executor.slots k).map fun _ => ticks k
        else s.seen
      | _ => s.seen }

def NodeCall.isTick : NodeCall → Bool
  | .tick _ => true
  | _ => false

/-- Whether the calls of `tick()` on the node in slot `k` threw, one after another. -/
def throwsOn (k : ℕ) (events : List Event) : List Bool :=
  (events.filter fun ev => decide (ev.slot = k) && ev.call.isTick).map Event.threw

theorem throwsOn_append (k : ℕ) (as bs : List Event) :
    throwsOn k (as ++ bs) = throwsOn k as ++ throwsOn k bs := by
  unfold throwsOn
  rw [List.filter_append, List.map_append]

theorem throwsOn_none {k : ℕ} {events : List Event}
    (h : ∀ ev ∈ events, ev.call.isTick = false) : throwsOn k events = [] := by
  unfold throwsOn
  rw [List.filter_eq_nil_iff.mpr, List.map_nil]
  intro ev hev
  simp [h ev hev]

theorem throwsOn_calls {c : NodeCall} (hc : c.isTick = false) (k i : ℕ) (slots : List Slot) :
    throwsOn k (calls c i slots) = [] :=
  throwsOn_none fun ev hev => (call_of_mem_calls ev hev).symm ▸ hc

theorem throwsOn_stops (k : ℕ) (slots : List Slot) : throwsOn k (stops slots) = [] := by
  refine throwsOn_none fun ev hev => ?_
  rw [call_of_mem_calls ev (List.mem_reverse.mp hev)]
  rfl

theorem throwsOn_stepSlots (nowNs : Int64) (ticks : ℕ → Tick) (i : ℕ) (slots : List Slot) (k : ℕ) :
    throwsOn (i + k) (stepSlots nowNs ticks i slots).2 =
      (dueAt nowNs slots k).map fun _ => (ticks (i + k)).threw := by
  induction slots generalizing i k with
  | nil => rfl
  | cons s rest ih =>
    rw [stepSlots_cons, throwsOn_append]
    cases k with
    | zero =>
      have hrest : throwsOn (i + 0) (stepSlots nowNs ticks (i + 1) rest).2 = [] := by
        unfold throwsOn
        rw [List.filter_eq_nil_iff.mpr, List.map_nil]
        intro ev hev
        have := le_slot_of_mem_stepSlots ev hev
        simp only [Bool.and_eq_true, decide_eq_true_eq]
        omega
      rw [hrest, List.append_nil, dueAt_some nowNs rfl]
      split <;> simp [throwsOn, NodeCall.isTick]
    | succ k =>
      have hk : i + (k + 1) = i + 1 + k := by omega
      have hhead : throwsOn (i + (k + 1))
          (if s.due nowNs then [⟨i, s.node, .tick nowNs, (ticks i).threw⟩] else []) = [] := by
        unfold throwsOn
        split <;> simp
      rw [hhead, List.nil_append, hk, ih]
      rfl

/-! ### One slot -/

/-- The counts and durations of a slot's report are those of the ticks it has had. -/
structure AddsUp (seen : List Tick) (s : Slot) : Prop where
  ticks : s.report.ticks = seen.length
  faults : s.report.faults = seen.countP Tick.threw
  durations : (∀ t ∈ seen, 0 ≤ t.took) → (seen.map Tick.took).sum < 2 ^ 63 →
    s.measureOverflow = false ∧
    s.report.totalNs = (seen.map Tick.took).sum ∧
    s.report.lastNs = (seen.getLast?.map Tick.took).getD 0 ∧
    s.report.maxNs = (seen.map Tick.took).foldl max 0 ∧
    s.report.overruns =
      seen.countP fun t => decide (0 < s.report.budgetNs ∧ s.report.budgetNs < t.took)

theorem addsUp_new (node : ℕ) (spec : NodeSpec) : AddsUp [] (newSlot node spec) :=
  ⟨rfl, rfl, fun _ _ => ⟨rfl, rfl, rfl, rfl, rfl⟩⟩

theorem tickSlot_report (nowNs : Int64) (t : Tick) (s : Slot) :
    (∃ missed, (tickSlot nowNs t s).report =
      { (measure t s.report).value with missed := missed }) ∧
    (tickSlot nowNs t s).measureOverflow = (s.measureOverflow || (measure t s.report).overflow) := by
  unfold tickSlot
  dsimp only
  split <;> exact ⟨⟨_, rfl⟩, rfl⟩

theorem measure_of_in {t : Tick} {r : Report} (htook : InInt64 t.took)
    (htotal : InInt64 (r.totalNs + t.took)) :
    measure t r = pure { r with
      faults := if t.threw then r.faults + 1 else r.faults
      ticks := r.ticks + 1
      lastNs := t.took
      totalNs := r.totalNs + t.took
      maxNs := if t.took > r.maxNs then t.took else r.maxNs
      overruns := if r.budgetNs > 0 ∧ t.took > r.budgetNs then r.overruns + 1 else r.overruns } := by
  unfold Tick.took at htook htotal ⊢
  unfold measure
  rw [Checked.int64_of_in htook, Checked.pure_bind', Checked.int64_of_in htotal,
    Checked.pure_bind']

theorem AddsUp.tick {seen : List Tick} {s : Slot} (h : AddsUp seen s) (nowNs : Int64) (t : Tick) :
    AddsUp (seen ++ [t]) (tickSlot nowNs t s) := by
  obtain ⟨⟨missed, hreport⟩, hover⟩ := tickSlot_report nowNs t s
  constructor
  · rw [hreport]
    simp [h.ticks]
  · rw [hreport, List.countP_append, List.countP_singleton]
    simp only [measure_faults, h.faults]
    split <;> rfl
  · intro hforward hsum
    have hforward' : ∀ t ∈ seen, 0 ≤ t.took := fun x hx => hforward x (List.mem_append_left _ hx)
    have ht : 0 ≤ t.took := hforward t (by simp)
    rw [List.map_append, List.sum_append, List.map_singleton, List.sum_singleton] at hsum
    have hnonneg : 0 ≤ (seen.map Tick.took).sum :=
      List.sum_nonneg fun z hz => by
        obtain ⟨x, hx, rfl⟩ := List.mem_map.mp hz
        exact hforward' x hx
    obtain ⟨hflag, htotal, hlast, hmax, hoverruns⟩ := h.durations hforward' (by omega)
    have hmeasure := measure_of_in (t := t) (r := s.report) (by unfold InInt64; omega)
      (by rw [htotal]; unfold InInt64; omega)
    rw [hmeasure] at hreport hover
    have hreport : (tickSlot nowNs t s).report = { s.report with
        faults := if t.threw then s.report.faults + 1 else s.report.faults
        ticks := s.report.ticks + 1
        lastNs := t.took
        totalNs := s.report.totalNs + t.took
        maxNs := if t.took > s.report.maxNs then t.took else s.report.maxNs
        overruns := if s.report.budgetNs > 0 ∧ t.took > s.report.budgetNs then
          s.report.overruns + 1 else s.report.overruns
        missed := missed } := hreport
    rw [hover, hreport, hflag]
    refine ⟨rfl, ?_, ?_, ?_, ?_⟩
    · dsimp only
      rw [htotal, List.map_append, List.sum_append, List.map_singleton, List.sum_singleton]
    · simp
    · dsimp only
      rw [List.map_append, List.foldl_append, ← hmax]
      simp only [List.map_cons, List.map_nil, List.foldl_cons, List.foldl_nil]
      split <;> omega
    · dsimp only
      rw [List.countP_append, List.countP_singleton, ← hoverruns]
      by_cases hlate : s.report.budgetNs > 0 ∧ t.took > s.report.budgetNs
      · rw [if_pos hlate, if_pos (decide_eq_true hlate)]
      · rw [if_neg hlate, if_neg (by rwa [decide_eq_true_eq]), Nat.add_zero]

/-! ### Any calls -/

structure ObservedInv (s : Observed) : Prop where
  unstepped : s.executor.phase = .building → s.executor.stepCount = 0
  unseen : ∀ k, s.executor.slots.length ≤ k → s.seen k = []
  adds : ∀ k slot, s.executor.slots[k]? = some slot → AddsUp (s.seen k) slot
  steps : ∀ k slot, s.executor.slots[k]? = some slot →
    (s.seen k).length ≤ s.executor.stepCount ∧
      (slot.period = 0 → (s.seen k).length = s.executor.stepCount)
  threw : ∀ k, throwsOn k s.executor.trace = (s.seen k).map Tick.threw

theorem ObservedInv.calls {s : Observed} (hi : ObservedInv s) {e : Executor} {events : List Event}
    (htrace : e.trace = s.executor.trace ++ events) (hevents : ∀ k, throwsOn k events = [])
    (hslots : e.slots = s.executor.slots) (hsteps : e.stepCount = s.executor.stepCount)
    (hphase : e.phase = .building → s.executor.phase = .building) :
    ObservedInv { s with executor := e } := by
  refine ⟨fun h => hsteps.trans (hi.unstepped (hphase h)), ?_, ?_, ?_, ?_⟩
  · rw [hslots]
    exact hi.unseen
  · rw [hslots]
    exact hi.adds
  · rw [hslots, hsteps]
    exact hi.steps
  · intro k
    dsimp only
    rw [htrace, throwsOn_append, hevents, List.append_nil]
    exact hi.threw k

theorem ObservedInv.add {s : Observed} (hi : ObservedInv s) (node : ℕ) (spec : NodeSpec)
    (hphase : s.executor.phase = .building) :
    ObservedInv { s with
      executor := { s.executor with slots := s.executor.slots ++ [newSlot node spec] } } := by
  have hold (k : ℕ) (slot : Slot) (h : (s.executor.slots ++ [newSlot node spec])[k]? = some slot) :
      s.executor.slots[k]? = some slot ∨ slot = newSlot node spec ∧ s.seen k = [] := by
    rcases Nat.lt_or_ge k s.executor.slots.length with hk | hk
    · left
      rwa [List.getElem?_append_left hk] at h
    · right
      rw [List.getElem?_append_right hk] at h
      exact ⟨List.mem_singleton.mp (List.mem_of_getElem? h), hi.unseen k hk⟩
  refine ⟨hi.unstepped, ?_, ?_, ?_, hi.threw⟩
  · intro k hk
    rw [List.length_append] at hk
    exact hi.unseen k (Nat.le_of_add_right_le hk)
  · intro k slot h
    rcases hold k slot h with h | ⟨rfl, hseen⟩
    · exact hi.adds k slot h
    · show AddsUp (s.seen k) _
      rw [hseen]
      exact addsUp_new node spec
  · intro k slot h
    rcases hold k slot h with h | ⟨-, hseen⟩
    · exact hi.steps k slot h
    · dsimp only
      rw [hseen, hi.unstepped hphase]
      exact ⟨le_refl _, fun _ => rfl⟩

theorem due_everyStep {s : Slot} (nowNs : Int64) (hp : s.period = 0) : s.due nowNs = true := by
  unfold Slot.period at hp
  simp [Slot.due, hp]

theorem ObservedInv.stepped {s : Observed} (hi : ObservedInv s) (nowNs : Int64) (ticks : ℕ → Tick)
    (hphase : s.executor.phase = .running) :
    ObservedInv {
      executor := { s.executor with
        stepCount := s.executor.stepCount + 1
        slots := (stepSlots nowNs ticks 0 s.executor.slots).1
        trace := s.executor.trace ++ (stepSlots nowNs ticks 0 s.executor.slots).2 }
      seen := fun k => s.seen k ++ (dueAt nowNs s.executor.slots k).map fun _ => ticks k } := by
  have hslots (k : ℕ) (slot : Slot)
      (h : (stepSlots nowNs ticks 0 s.executor.slots).1[k]? = some slot) :
      ∃ before, s.executor.slots[k]? = some before ∧ slot = stepSlot nowNs (ticks k) before := by
    rw [stepSlots_getElem?, Nat.zero_add, Option.map_eq_some_iff] at h
    obtain ⟨before, hbefore, rfl⟩ := h
    exact ⟨before, hbefore, rfl⟩
  refine ⟨?_, ?_, ?_, ?_, ?_⟩
  · intro h
    exact absurd (hphase.symm.trans h) (by simp)
  · intro k hk
    rw [stepSlots_length] at hk
    dsimp only
    rw [hi.unseen k hk, dueAt_none nowNs hk]
    rfl
  · intro k slot h
    obtain ⟨before, hbefore, rfl⟩ := hslots k slot h
    have hadds := hi.adds k before hbefore
    dsimp only
    rw [dueAt_some nowNs hbefore]
    unfold stepSlot
    split
    · exact hadds.tick nowNs (ticks k)
    · simpa using hadds
  · intro k slot h
    obtain ⟨before, hbefore, rfl⟩ := hslots k slot h
    obtain ⟨hle, hall⟩ := hi.steps k before hbefore
    dsimp only
    rw [dueAt_some nowNs hbefore, stepSlot_period, List.length_append, List.length_map]
    constructor
    · split
      · exact Nat.add_le_add hle (le_refl 1)
      · exact Nat.le_succ_of_le hle
    · intro hp
      rw [if_pos (due_everyStep nowNs hp), hall hp]
      rfl
  · intro k
    have hsteps := throwsOn_stepSlots nowNs ticks 0 s.executor.slots k
    rw [Nat.zero_add] at hsteps
    dsimp only
    rw [throwsOn_append, hi.threw, hsteps, List.map_append, List.map_map]
    rfl

theorem throwsOn_failed {c : NodeCall} (hc : c.isTick = false) (k n node : ℕ) (slots : List Slot) :
    throwsOn k (calls c 0 slots ++ [⟨n, node, c, true⟩]) = [] := by
  rw [throwsOn_append, throwsOn_calls hc, List.nil_append]
  refine throwsOn_none fun ev hev => ?_
  rw [List.mem_singleton.mp hev]
  exact hc

theorem observed_step_inv (s : Observed) (i : ExecStep) (s' : Observed) (hi : ObservedInv s)
    (h : s.step i = some s') : ObservedInv s' := by
  have hquiet (hother : ∀ nowNs ticks, i = .step nowNs ticks → s.executor.phase ≠ .running) :
      s' = { s with executor := (execCall i s.executor).2 } := by
    cases h
    cases i with
    | step nowNs ticks => simp [hother nowNs ticks rfl]
    | _ => rfl
  have hd := execCall_does s.executor i
  generalize hafter : (execCall i s.executor).2 = e at hd
  generalize threw (execCall i s.executor) = b at hd
  cases hd with
  | refused _ hrefused =>
    rw [hquiet (by rintro nowNs ticks rfl; exact hrefused), hafter]
    exact hi
  | added node spec hadd =>
    rw [hquiet (by simp), hafter]
    exact hi.add node spec hadd.1
  | configured throws hphase hall =>
    rw [hquiet (by simp), hafter]
    exact hi.calls rfl (fun k => throwsOn_calls rfl k 0 _) rfl rfl (by simp)
  | configureThrew throws hphase hk =>
    rw [hquiet (by simp), hafter]
    exact hi.calls rfl (fun k => throwsOn_failed rfl k _ _ _) rfl rfl id
  | started throws hphase hall =>
    rw [hquiet (by simp), hafter]
    exact hi.calls rfl (fun k => throwsOn_calls rfl k 0 _) rfl rfl (by simp)
  | startThrew throws hphase hk =>
    rw [hquiet (by simp), hafter]
    refine hi.calls (List.append_assoc ..) (fun k => ?_) rfl rfl id
    rw [throwsOn_append, throwsOn_failed rfl, throwsOn_stops, List.append_nil]
  | startThrewForeign throws hphase hk =>
    rw [hquiet (by simp), hafter]
    exact hi.calls rfl (fun k => throwsOn_failed rfl k _ _ _) rfl rfl id
  | stepped nowNs ticks hphase =>
    cases h
    have hstepped := hi.stepped nowNs ticks hphase
    simpa only [hafter, hphase, if_true] using hstepped
  | stopped hphase =>
    rw [hquiet (by simp), hafter]
    exact hi.calls rfl (fun k => throwsOn_stops k _) rfl rfl (by simp)
  | stoppedEarly hphase =>
    rw [hquiet (by simp), hafter]
    exact hi.calls (List.append_nil _).symm (fun _ => rfl) rfl rfl (by simp)

/-- Through any calls, thrown or not, a node's report is the account of the ticks it was given:
how many, how many threw, and, as long as the time spent in them is a number of nanoseconds, how
long they took and how many went over the budget. -/
theorem report_adds_up (period : Int64) {steps : List ExecStep} {s : Observed}
    (h : run Observed.step { executor := { periodNs := period } } steps = some s) {k : ℕ}
    {slot : Slot} (hk : s.executor.slots[k]? = some slot) :
    AddsUp (s.seen k) slot ∧
      throwsOn k s.executor.trace = (s.seen k).map Tick.threw ∧
      slot.report.ticks ≤ s.executor.stepCount ∧
      (slot.period = 0 → slot.report.ticks = s.executor.stepCount) := by
  have hstart : ObservedInv { executor := { periodNs := period } } :=
    ⟨fun _ => rfl, fun _ _ => rfl, by simp, by simp, fun _ => rfl⟩
  have hi := run_invariant observed_step_inv hstart h
  have hadds := hi.adds k slot hk
  obtain ⟨hle, hall⟩ := hi.steps k slot hk
  rw [hadds.ticks]
  exact ⟨hadds, hi.threw k, hle, hall⟩

/-- The second tick of node 7 throws and is late; node 8 has a tick between. -/
def lateTick : List ExecStep :=
  twoNodes ++ [.step 0 (fun _ => { ended := 4 }), .step 3 (fun _ => { ended := 1 }),
    .step 12 (fun _ => { threw := true, began := 12, ended := 19 }), .add 9 { name := "c" }, .stopAll,
    .step 30 (fun _ => {})]

theorem lateTick_adds_up :
    ∃ s slot, run Observed.step { executor := { periodNs := 5 } } lateTick = some s ∧
      s.executor.slots[0]? = some slot ∧ s.executor.stepCount = 3 ∧ AddsUp (s.seen 0) slot ∧
      (s.seen 0).map Tick.took = [4, 7] ∧ throwsOn 0 s.executor.trace = [false, true] := by
  have hrun : ∃ s slot, run Observed.step { executor := { periodNs := 5 } } lateTick = some s ∧
      s.executor.slots[0]? = some slot ∧ s.executor.stepCount = 3 ∧
      (s.seen 0).map Tick.took = [4, 7] ∧ (s.seen 0).map Tick.threw = [false, true] :=
    ⟨_, _, rfl, rfl, by decide⟩
  obtain ⟨s, slot, hs, hslot, hsteps, htook, hthrew⟩ := hrun
  obtain ⟨hadds, htrace, -⟩ := report_adds_up 5 hs hslot
  exact ⟨s, slot, hs, hslot, hsteps, hadds, htook, htrace.trans hthrew⟩

end AuvMiddleware.Mw
