import AuvMiddleware.Mw.Schedule

/-!
# Nodes do not disturb each other (executor.cpp:131-191)

Two runs side by side: the executor with all its nodes, and one with a single node of them. What a
step does to a node's slot depends on the slot's own schedule and on whether its own tick throws;
neither the other nodes nor the measurement clock come in.
-/

namespace AuvMiddleware.Mw
open Runs

/-! ### One slot in two runs -/

/-- The two slots may differ in everything that was measured. -/
structure SameSchedule (s s₁ : Slot) : Prop where
  period : s.report.periodNs = s₁.report.periodNs
  nextDue : s.nextDue = s₁.nextDue
  ticks : s.report.ticks = s₁.report.ticks
  faults : s.report.faults = s₁.report.faults
  missed : s.report.missed = s₁.report.missed

theorem SameSchedule.refl (s : Slot) : SameSchedule s s := ⟨rfl, rfl, rfl, rfl, rfl⟩

theorem SameSchedule.due {s s₁ : Slot} (h : SameSchedule s s₁) (nowNs : Int64) :
    s.due nowNs = s₁.due nowNs := by
  unfold Slot.due
  rw [h.period, h.nextDue]

@[simp] theorem measure_ticks (t : Tick) (r : Report) :
    (measure t r).value.ticks = r.ticks + 1 := rfl

@[simp] theorem measure_faults (t : Tick) (r : Report) :
    (measure t r).value.faults = if t.threw then r.faults + 1 else r.faults := rfl

theorem SameSchedule.tickSlot {s s₁ : Slot} (h : SameSchedule s s₁) (nowNs : Int64) {t t₁ : Tick}
    (ht : t.threw = t₁.threw) : SameSchedule (tickSlot nowNs t s) (tickSlot nowNs t₁ s₁) := by
  obtain ⟨hperiod, hnext, hticks, hfaults, hmissed⟩ := h
  unfold Mw.tickSlot
  by_cases hp : s₁.report.periodNs = 0
  · simp only [measure_periodNs, hperiod, hp, if_true]
    constructor
    · exact hperiod
    · exact hnext
    · simp only [measure_ticks, hticks]
    · simp only [measure_faults, ht, hfaults]
    · exact hmissed
  · simp only [measure_periodNs, hperiod, hp, if_false, hnext]
    constructor
    · rfl
    · rfl
    · simp only [measure_ticks, hticks]
    · simp only [measure_faults, ht, hfaults]
    · simp only [measure_missed, hmissed]

theorem SameSchedule.stepSlot {s s₁ : Slot} (h : SameSchedule s s₁) (nowNs : Int64) {t t₁ : Tick}
    (ht : t.threw = t₁.threw) : SameSchedule (stepSlot nowNs t s) (stepSlot nowNs t₁ s₁) := by
  unfold Mw.stepSlot
  rw [h.due nowNs]
  split
  · exact h.tickSlot nowNs ht
  · exact h

theorem SameSchedule.slotAfter {s s₁ : Slot} (h : SameSchedule s s₁) (n : ℕ → Int64)
    {t t₁ : ℕ → Tick} (ht : ∀ j, (t j).threw = (t₁ j).threw) (j : ℕ) :
    SameSchedule (slotAfter n t s j) (slotAfter n t₁ s₁ j) := by
  induction j with
  | zero => exact h
  | succ j ih => exact ih.stepSlot (n j) (ht j)

/-- The ticks that the steps before step `j` give to a slot. -/
def ticked (n : ℕ → Int64) (t : ℕ → Tick) (s : Slot) : ℕ → List NodeCall
  | 0 => []
  | j + 1 => ticked n t s j ++ if (slotAfter n t s j).due (n j) then [.tick (n j)] else []

theorem SameSchedule.ticked {s s₁ : Slot} (h : SameSchedule s s₁) (n : ℕ → Int64)
    {t t₁ : ℕ → Tick} (ht : ∀ j, (t j).threw = (t₁ j).threw) (j : ℕ) :
    ticked n t s j = ticked n t₁ s₁ j := by
  induction j with
  | zero => rfl
  | succ j ih => rw [Mw.ticked, Mw.ticked, ih, (h.slotAfter n ht j).due (n j)]

/-! ### One step of all the nodes -/

theorem mem_stepSlots (nowNs : Int64) (ticks : ℕ → Tick) (i : ℕ) (slots : List Slot) {ev : Event} :
    ev ∈ (stepSlots nowNs ticks i slots).2 ↔
      ∃ k s, slots[k]? = some s ∧ s.due nowNs = true ∧
        ev = ⟨i + k, s.node, .tick nowNs, (ticks (i + k)).threw⟩ := by
  induction slots generalizing i with
  | nil => simp [stepSlots]
  | cons s rest ih =>
    rw [stepSlots_cons, List.mem_append, ih]
    constructor
    · rintro (hev | ⟨k, s', hs', hdue, rfl⟩)
      · split at hev
        · rename_i hdue
          exact ⟨0, s, rfl, hdue, List.mem_singleton.mp hev⟩
        · cases hev
      · refine ⟨k + 1, s', hs', hdue, ?_⟩
        rw [Nat.add_assoc, Nat.add_comm 1]
    · rintro ⟨k, s', hs', hdue, rfl⟩
      cases k with
      | zero =>
        cases hs'
        left
        rw [if_pos hdue]
        exact List.mem_singleton.mpr rfl
      | succ k =>
        right
        refine ⟨k, s', hs', hdue, ?_⟩
        rw [Nat.add_assoc, Nat.add_comm 1]

theorem stepSlots_inOrder (nowNs : Int64) (ticks : ℕ → Tick) (i : ℕ) (slots : List Slot) :
    ((stepSlots nowNs ticks i slots).2.map Event.slot).Pairwise (· < ·) := by
  induction slots generalizing i with
  | nil => exact List.Pairwise.nil
  | cons s rest ih =>
    rw [stepSlots_cons]
    cases s.due nowNs with
    | false => exact ih (i + 1)
    | true =>
      refine List.Pairwise.cons ?_ (ih (i + 1))
      intro k hk
      obtain ⟨ev, hev, rfl⟩ := List.mem_map.mp hk
      exact le_slot_of_mem_stepSlots ev hev

/-! ### Runs -/

theorem afterSteps_calls (n : ℕ → Int64) (ticks : ℕ → ℕ → Tick) {e : Executor}
    (h : e.phase = .running) {k : ℕ} {s : Slot} (hs : e.slots[k]? = some s) (j : ℕ) :
    ∃ events, (afterSteps n ticks e j).trace = e.trace ++ events ∧
      callsOn k events = ticked n (fun j => ticks j k) s j := by
  induction j with
  | zero => exact ⟨[], (List.append_nil _).symm, rfl⟩
  | succ j ih =>
    obtain ⟨events, htrace, hcalls⟩ := ih
    have hrun := afterSteps_running n ticks h j
    have hslot := afterSteps_slot n ticks h hs j
    have hstep := callsOn_stepSlots (n j) (ticks j) 0 _ hslot
    rw [Nat.zero_add] at hstep
    refine ⟨events ++ (stepSlots (n j) (ticks j) 0 (afterSteps n ticks e j).slots).2, ?_, ?_⟩
    · rw [afterSteps, step_running hrun, ← List.append_assoc, ← htrace]
    · rw [callsOn_append, hcalls, hstep, ticked]

/-- A step ticks the due nodes once each, in add order. -/
theorem afterSteps_events (n : ℕ → Int64) (ticks : ℕ → ℕ → Tick) {e : Executor}
    (h : e.phase = .running) (j : ℕ) : ∃ events,
      (afterSteps n ticks e (j + 1)).trace = (afterSteps n ticks e j).trace ++ events ∧
      (events.map Event.slot).Pairwise (· < ·) ∧
      ∀ ev, ev ∈ events ↔ ∃ k s, (afterSteps n ticks e j).slots[k]? = some s ∧
        s.due (n j) = true ∧ ev = ⟨k, s.node, .tick (n j), (ticks j k).threw⟩ := by
  refine ⟨(stepSlots (n j) (ticks j) 0 (afterSteps n ticks e j).slots).2, ?_, ?_, ?_⟩
  · rw [afterSteps, step_running (afterSteps_running n ticks h j)]
  · exact stepSlots_inOrder (n j) (ticks j) 0 _
  · intro ev
    have hmem : ev ∈ _ ↔ _ := mem_stepSlots (n j) (ticks j) 0 (afterSteps n ticks e j).slots
    simpa only [Nat.zero_add] using hmem

theorem stepSlots_length (nowNs : Int64) (ticks : ℕ → Tick) (i : ℕ) (slots : List Slot) :
    (stepSlots nowNs ticks i slots).1.length = slots.length := by
  induction slots generalizing i with
  | nil => rfl
  | cons s rest ih => rw [stepSlots_cons, List.length_cons, List.length_cons, ih]

theorem afterSteps_length (n : ℕ → Int64) (ticks : ℕ → ℕ → Tick) {e : Executor}
    (h : e.phase = .running) (j : ℕ) : (afterSteps n ticks e j).slots.length = e.slots.length := by
  induction j with
  | zero => rfl
  | succ j ih =>
    rw [afterSteps, step_running (afterSteps_running n ticks h j), stepSlots_length, ih]

def alone (node : ℕ) (spec : NodeSpec) : List ExecStep :=
  [.add node spec, .configureAll fun _ => none, .startAll fun _ => none]

theorem alone_started (period : Int64) (node : ℕ) {spec : NodeSpec}
    (hperiod : 0 ≤ spec.periodNs.toInt) (hbudget : 0 ≤ spec.budgetNs.toInt) :
    ∃ e, run execStep { periodNs := period } (alone node spec) = some e ∧ e.phase = .running ∧
      e.stepCount = 0 ∧ e.slots = [newSlot node spec] := by
  have hspec : ¬ (spec.periodNs < 0 ∨ spec.budgetNs < 0) := by
    rw [Int64.lt_iff_toInt_lt, Int64.lt_iff_toInt_lt, Int64.toInt_zero]
    omega
  have hadd : (execCall (.add node spec) { periodNs := period }).2 =
      { periodNs := period, slots := [newSlot node spec] } := by
    show (add node spec { periodNs := period }).2 = _
    unfold add
    have hphase : ({ periodNs := period } : Executor).phase = .building := rfl
    rw [Call.bind_of_ok (require_ok "add" hphase), if_neg hspec]
    rfl
  have hrun : run execStep { periodNs := period } (alone node spec) =
      run execStep { periodNs := period, slots := [newSlot node spec] }
        [.configureAll fun _ => none, .startAll fun _ => none] := by
    rw [← hadd]
    rfl
  exact ⟨_, hrun, rfl, rfl, rfl⟩

/-- Every node is ticked as if it were alone: at the same times, with the same counters, whatever
the other nodes and the measurement clock do. A step ticks the due nodes once each, in add order. -/
theorem node_isolated {period : Int64} {lead : List ExecStep} {e : Executor}
    (hlead : run execStep { periodNs := period } lead = some e) (hrunning : e.phase = .running)
    (hnew : e.stepCount = 0) (n : ℕ → Int64) (ticks : ℕ → ℕ → Tick) :
    (∀ k s, e.slots[k]? = some s → ∃ spec e₁, s = newSlot s.node spec ∧
      run execStep { periodNs := period } (alone s.node spec) = some e₁ ∧ e₁.phase = .running ∧
      ∀ solo : ℕ → ℕ → Tick, (∀ j, (solo j 0).threw = (ticks j k).threw) → ∀ j,
        (∃ events events₁, (afterSteps n ticks e j).trace = e.trace ++ events ∧
          (afterSteps n solo e₁ j).trace = e₁.trace ++ events₁ ∧
          callsOn k events = callsOn 0 events₁) ∧
        ∃ s' s₁, (afterSteps n ticks e j).slots[k]? = some s' ∧
          (afterSteps n solo e₁ j).slots = [s₁] ∧
          s'.report.ticks = s₁.report.ticks ∧
          s'.report.faults = s₁.report.faults ∧
          s'.report.missed = s₁.report.missed) ∧
    ∀ j, ∃ events,
      (afterSteps n ticks e (j + 1)).trace = (afterSteps n ticks e j).trace ++ events ∧
      (events.map Event.slot).Pairwise (· < ·) ∧
      ∀ ev, ev ∈ events ↔ ∃ k s, (afterSteps n ticks e j).slots[k]? = some s ∧
        s.due (n j) = true ∧ ev = ⟨k, s.node, .tick (n j), (ticks j k).threw⟩ := by
  constructor
  · intro k s hs
    obtain ⟨spec, hperiod, hbudget, hspec⟩ := fresh_slot hlead hnew (List.mem_of_getElem? hs)
    obtain ⟨e₁, hrun₁, hrunning₁, -, hslots₁⟩ := alone_started period s.node hperiod hbudget
    have hs₁ : e₁.slots[0]? = some s := by
      rw [hslots₁, ← hspec]
      rfl
    refine ⟨spec, e₁, hspec, hrun₁, hrunning₁, fun solo hsolo j => ?_⟩
    have hthrew : ∀ j, (ticks j k).threw = (solo j 0).threw := fun j => (hsolo j).symm
    constructor
    · obtain ⟨events, htrace, hcalls⟩ := afterSteps_calls n ticks hrunning hs j
      obtain ⟨events₁, htrace₁, hcalls₁⟩ := afterSteps_calls n solo hrunning₁ hs₁ j
      refine ⟨events, events₁, htrace, htrace₁, ?_⟩
      rw [hcalls, hcalls₁]
      exact (SameSchedule.refl s).ticked n hthrew j
    · have hsame := (SameSchedule.refl s).slotAfter n hthrew j
      have hone := afterSteps_length n solo hrunning₁ j
      have hslot₁ := afterSteps_slot n solo hrunning₁ hs₁ j
      rw [hslots₁] at hone
      obtain ⟨s₁, hs₁'⟩ := List.length_eq_one_iff.mp hone
      rw [hs₁'] at hslot₁
      cases hslot₁
      exact ⟨_, _, afterSteps_slot n ticks hrunning hs j, hs₁', hsame.ticks, hsame.faults,
        hsame.missed⟩
  · exact afterSteps_events n ticks hrunning

theorem node_isolated_beside_throwing :
    ∃ spec e e₁ s' s₁, run execStep { periodNs := 5 } twoNodes = some e ∧
      run execStep { periodNs := 5 } (alone 7 spec) = some e₁ ∧
      (afterSteps (fun j => if j = 0 then 100 else 125)
        (fun _ k => { threw := k = 1, ended := 9 }) e 2).slots[0]? = some s' ∧
      (afterSteps (fun j => if j = 0 then 100 else 125) (fun _ _ => {}) e₁ 2).slots = [s₁] ∧
      s'.report.missed = s₁.report.missed := by
  have hrun : ∃ e s, run execStep { periodNs := 5 } twoNodes = some e ∧ e.phase = .running ∧
      e.stepCount = 0 ∧ e.slots[0]? = some s ∧ s.node = 7 := ⟨_, _, rfl, rfl, rfl, rfl, rfl⟩
  obtain ⟨e, s, he, hphase, hnew, hs, hnode⟩ := hrun
  obtain ⟨spec, e₁, -, hrun₁, -, hsame⟩ := (node_isolated he hphase hnew
    (fun j => if j = 0 then 100 else 125) (fun _ k => { threw := k = 1, ended := 9 })).1 0 s hs
  obtain ⟨-, s', s₁, hs', hs₁, -, -, hmissed⟩ := hsame (fun _ _ => {}) (fun _ => rfl) 2
  rw [hnode] at hrun₁
  exact ⟨spec, e, e₁, s', s₁, he, hrun₁, hs', hs₁, hmissed⟩

end AuvMiddleware.Mw
