import AuvMiddleware.Mw.Unwinding

/-!
# The order of calls a node receives (node.hpp:59-75)

`configure()` once, `start()` once, `tick()` many times, `stop()` once. The executor's phase moves
on only when every node has gone through, so a call that failed half-way may be made again, and
then it calls the nodes before the failure a second time.
-/

namespace AuvMiddleware.Mw
open Runs

/-! ### What a node receives -/

def received (node : ℕ) (trace : List Event) : List NodeCall :=
  (trace.filter fun ev => ev.node = node).map Event.call

theorem received_append (node : ℕ) (as bs : List Event) :
    received node (as ++ bs) = received node as ++ received node bs := by
  unfold received
  rw [List.filter_append, List.map_append]

theorem received_cons_self (i : ℕ) {node : ℕ} (c : NodeCall) (b : Bool) (evs : List Event) :
    received node (⟨i, node, c, b⟩ :: evs) = c :: received node evs := by
  simp [received]

theorem received_cons_of_ne (i : ℕ) {m node : ℕ} (h : m ≠ node) (c : NodeCall) (b : Bool)
    (evs : List Event) : received node (⟨i, m, c, b⟩ :: evs) = received node evs := by
  simp [received, h]

theorem received_calls_of_not_mem {node : ℕ} (c : NodeCall) (i : ℕ) {slots : List Slot}
    (h : node ∉ nodesOf slots) : received node (calls c i slots) = [] := by
  induction slots generalizing i with
  | nil => rfl
  | cons s rest ih =>
    simp only [nodesOf, List.map_cons, List.mem_cons, not_or] at h
    rw [calls_cons, received_cons_of_ne i (Ne.symm h.1)]
    exact ih (i + 1) h.2

theorem received_calls {node : ℕ} (c : NodeCall) (i : ℕ) {slots : List Slot}
    (hnodup : (nodesOf slots).Nodup) (h : node ∈ nodesOf slots) :
    received node (calls c i slots) = [c] := by
  induction slots generalizing i with
  | nil => cases h
  | cons s rest ih =>
    obtain ⟨hs, hrest⟩ := List.nodup_cons.mp hnodup
    rw [calls_cons]
    by_cases heq : s.node = node
    · subst heq
      rw [received_cons_self, received_calls_of_not_mem c (i + 1) hs]
    · have hmem : node ∈ nodesOf rest := by
        rcases List.mem_cons.mp h with h | h
        · exact absurd h.symm heq
        · exact h
      rw [received_cons_of_ne i heq]
      exact ih (i + 1) hrest hmem

theorem received_stops {node : ℕ} {slots : List Slot} (hnodup : (nodesOf slots).Nodup)
    (h : node ∈ nodesOf slots) : received node (stops slots) = [.stop] := by
  have hc := received_calls .stop 0 hnodup h
  unfold received calls at hc
  unfold received stops
  rw [List.filter_reverse, List.map_reverse, hc, List.reverse_singleton]

theorem received_stops_of_not_mem {node : ℕ} {slots : List Slot} (h : node ∉ nodesOf slots) :
    received node (stops slots) = [] := by
  have hc := received_calls_of_not_mem .stop 0 h
  unfold received calls at hc
  unfold received stops
  rw [List.filter_reverse, List.map_reverse, hc, List.reverse_nil]

theorem received_stepSlots_of_not_mem {node : ℕ} (nowNs : Int64) (ticks : ℕ → Tick) (i : ℕ)
    {slots : List Slot} (h : node ∉ nodesOf slots) :
    received node (stepSlots nowNs ticks i slots).2 = [] := by
  induction slots generalizing i with
  | nil => rfl
  | cons s rest ih =>
    simp only [nodesOf, List.map_cons, List.mem_cons, not_or] at h
    rw [stepSlots]
    split
    · rw [received_cons_of_ne i (Ne.symm h.1)]
      exact ih (i + 1) h.2
    · exact ih (i + 1) h.2

theorem received_stepSlots (node : ℕ) (nowNs : Int64) (ticks : ℕ → Tick) (i : ℕ)
    {slots : List Slot} (hnodup : (nodesOf slots).Nodup) :
    received node (stepSlots nowNs ticks i slots).2 = [] ∨
      received node (stepSlots nowNs ticks i slots).2 = [.tick nowNs] := by
  induction slots generalizing i with
  | nil => exact Or.inl rfl
  | cons s rest ih =>
    obtain ⟨hs, hrest⟩ := List.nodup_cons.mp hnodup
    rw [stepSlots]
    split
    · by_cases heq : s.node = node
      · subst heq
        rw [received_cons_self, received_stepSlots_of_not_mem nowNs ticks (i + 1) hs]
        exact Or.inr rfl
      · rw [received_cons_of_ne i heq]
        exact ih (i + 1) hrest
    · exact ih (i + 1) hrest

/-! ### The order -/

def LifecyclePrefix (cs : List NodeCall) : Prop :=
  ∃ times : List Int64, cs <+: [.configure, .start] ++ times.map .tick ++ [.stop]

def InOrder (e : Executor) : Prop := ∀ node, LifecyclePrefix (received node e.trace)

def Stage : Phase → List NodeCall → Prop
  | .building, cs => cs = [] ∨ cs = [.configure]
  | .configured, cs =>
    cs = [.configure] ∨ cs = [.configure, .start] ∨ cs = [.configure, .start, .stop]
  | .running, cs => ∃ times : List Int64, cs = [.configure, .start] ++ times.map .tick
  | .stopped, cs => LifecyclePrefix cs

theorem lifecyclePrefix_ticks (times : List Int64) :
    LifecyclePrefix ([.configure, .start] ++ times.map .tick) :=
  ⟨times, List.prefix_append _ _⟩

theorem lifecyclePrefix_stopped (times : List Int64) :
    LifecyclePrefix ([.configure, .start] ++ times.map .tick ++ [.stop]) :=
  ⟨times, List.prefix_rfl⟩

theorem LifecyclePrefix.of_le {cs ds : List NodeCall} (h : cs <+: ds)
    (hd : LifecyclePrefix ds) : LifecyclePrefix cs := by
  obtain ⟨times, ht⟩ := hd
  exact ⟨times, h.trans ht⟩

theorem Stage.lifecyclePrefix {p : Phase} {cs : List NodeCall} (h : Stage p cs) :
    LifecyclePrefix cs := by
  have hstop := lifecyclePrefix_stopped []
  cases p with
  | building =>
    rcases h with rfl | rfl
    · exact LifecyclePrefix.of_le (by simp) hstop
    · exact LifecyclePrefix.of_le (by simp) hstop
  | configured =>
    rcases h with rfl | rfl | rfl
    · exact LifecyclePrefix.of_le (by simp) hstop
    · exact LifecyclePrefix.of_le (by simp) hstop
    · exact hstop
  | running =>
    obtain ⟨times, rfl⟩ := h
    exact lifecyclePrefix_ticks times
  | stopped => exact h

theorem LifecyclePrefix.count_le {cs : List NodeCall} (h : LifecyclePrefix cs) {c : NodeCall}
    (hc : c = .configure ∨ c = .start) : cs.count c ≤ 1 := by
  obtain ⟨times, ht⟩ := h
  have hticks : (times.map NodeCall.tick).count c = 0 := by
    rw [List.count_eq_zero]
    intro hmem
    obtain ⟨t, -, rfl⟩ := List.mem_map.mp hmem
    rcases hc with hc | hc <;> cases hc
  have hle := ht.sublist.count_le c
  rw [List.count_append, List.count_append, hticks] at hle
  rcases hc with rfl | rfl
  · simpa using hle
  · simpa using hle

/-! ### First tries -/

/-- If the call goes through the nodes to configure or to start them, none of them has been
through that before. -/
def FirstTry (e : Executor) (i : ExecStep) : Prop :=
  match i with
  | .configureAll _ =>
    e.phase = .building → ∀ node ∈ nodesOf e.slots, .configure ∉ received node e.trace
  | .startAll _ =>
    e.phase = .configured → ∀ node ∈ nodesOf e.slots, .start ∉ received node e.trace
  | _ => True

def KeepsOrder (e : Executor) (i : ExecStep) : Prop := InOrder (execCall i e).2

/-- A call on an executor whose nodes are pairwise distinct: no node is added twice. -/
def distinctStep (e : Executor) (i : ExecStep) : Option Executor :=
  match i with
  | .add node _ => if node ∈ nodesOf e.slots then none else execStep e i
  | _ => execStep e i

def FromFirst (c : NodeCall) (e : Executor) : Prop :=
  ∀ node ∈ nodesOf e.slots, c ∈ received node e.trace →
    ∀ first ∈ (nodesOf e.slots).head?, c ∈ received first e.trace

structure LifeInv (e : Executor) : Prop where
  distinct : (nodesOf e.slots).Nodup
  others : ∀ node, node ∉ nodesOf e.slots → received node e.trace = []
  stage : ∀ node ∈ nodesOf e.slots, Stage e.phase (received node e.trace)
  configured : e.phase = .building → FromFirst .configure e
  started : e.phase = .configured → FromFirst .start e

theorem LifeInv.inOrder {e : Executor} (h : LifeInv e) : InOrder e := by
  intro node
  by_cases hn : node ∈ nodesOf e.slots
  · exact (h.stage node hn).lifecyclePrefix
  · rw [h.others node hn]
    exact ⟨[], List.nil_prefix⟩

section Failed

variable {throws : ℕ → Option Thrown} {slots : List Slot} {k : ℕ} {s : Slot} {x : Thrown}
  (h : FirstThrow throws slots k s x)

include h

theorem FirstThrow.nodes : nodesOf (slots.take (k + 1)) = nodesOf (slots.take k) ++ [s.node] := by
  rw [List.take_add_one, h.slot]
  simp [nodesOf]

/-- The calls of a loop that fails at slot `k` reach the first `k + 1` nodes. -/
theorem FirstThrow.received (c : NodeCall) (hnodup : (nodesOf slots).Nodup) (node : ℕ) :
    received node (calls c 0 (slots.take k) ++ [⟨k, s.node, c, true⟩]) =
      if node ∈ nodesOf (slots.take (k + 1)) then [c] else [] := by
  have hsub : (nodesOf (slots.take (k + 1))).Nodup :=
    hnodup.sublist ((List.take_sublist (k + 1) slots).map Slot.node)
  rw [h.nodes] at hsub ⊢
  obtain ⟨htake, -, hdisj⟩ := List.nodup_append.mp hsub
  rw [received_append]
  by_cases heq : node = s.node
  · have hnot : node ∉ nodesOf (slots.take k) := by
      intro hmem
      exact hdisj node hmem s.node (List.mem_singleton_self _) heq
    rw [received_calls_of_not_mem c 0 hnot, heq, received_cons_self, if_pos (by simp)]
    rfl
  · rw [received_cons_of_ne k (Ne.symm heq)]
    by_cases hmem : node ∈ nodesOf (slots.take k)
    · rw [received_calls c 0 htake hmem, if_pos (List.mem_append_left _ hmem)]
      rfl
    · rw [received_calls_of_not_mem c 0 hmem, if_neg (by simp [hmem, heq])]
      rfl

theorem FirstThrow.head_mem {first : ℕ} (hf : first ∈ (nodesOf slots).head?) :
    first ∈ nodesOf (slots.take (k + 1)) := by
  cases slots with
  | nil => cases hf
  | cons t rest =>
    cases hf
    exact List.mem_cons_self ..

end Failed

theorem mem_nodesOf_take {node k : ℕ} {slots : List Slot} (h : node ∈ nodesOf (slots.take k)) :
    node ∈ nodesOf slots :=
  ((List.take_sublist k slots).map Slot.node).subset h

theorem lifeInv_new (period : Int64) : LifeInv { periodNs := period } := by
  refine ⟨List.nodup_nil, fun _ _ => rfl, ?_, ?_, ?_⟩
  · intro node hn
    cases hn
  · intro _ node hn
    cases hn
  · intro _ node hn
    cases hn

theorem LifeInv.extend {e e' : Executor} (hs : LifeInv e) {evs : List Event}
    (hnodes : nodesOf e'.slots = nodesOf e.slots) (htrace : e'.trace = e.trace ++ evs)
    (hothers : ∀ node, node ∉ nodesOf e.slots → received node evs = [])
    (hstage : ∀ node ∈ nodesOf e.slots,
      Stage e'.phase (received node e.trace ++ received node evs))
    (hconfigured : e'.phase = .building → FromFirst .configure e')
    (hstarted : e'.phase = .configured → FromFirst .start e') : LifeInv e' := by
  refine ⟨by rw [hnodes]; exact hs.distinct, ?_, ?_, hconfigured, hstarted⟩
  · intro node hn
    rw [hnodes] at hn
    rw [htrace, received_append, hs.others node hn, hothers node hn]
    rfl
  · intro node hn
    rw [hnodes] at hn
    rw [htrace, received_append]
    exact hstage node hn

theorem LifeInv.building {e : Executor} (hs : LifeInv e) (hp : e.phase = .building)
    (hfirst : ∀ node ∈ nodesOf e.slots, .configure ∉ received node e.trace) :
    ∀ node ∈ nodesOf e.slots, received node e.trace = [] := by
  intro node hn
  have h := hs.stage node hn
  rw [hp] at h
  rcases h with h | h
  · exact h
  · exact absurd (by rw [h]; exact List.mem_singleton_self _) (hfirst node hn)

theorem LifeInv.unstarted {e : Executor} (hs : LifeInv e) (hp : e.phase = .configured)
    (hfirst : ∀ node ∈ nodesOf e.slots, .start ∉ received node e.trace) :
    ∀ node ∈ nodesOf e.slots, received node e.trace = [.configure] := by
  intro node hn
  have h := hs.stage node hn
  rw [hp] at h
  rcases h with h | h | h
  · exact h
  · exact absurd (by rw [h]; simp) (hfirst node hn)
  · exact absurd (by rw [h]; simp) (hfirst node hn)

theorem LifeInv.added {e : Executor} (hs : LifeInv e) (hp : e.phase = .building) {node : ℕ}
    (spec : NodeSpec) (hnew : node ∉ nodesOf e.slots) :
    LifeInv { e with slots := e.slots ++ [newSlot node spec] } := by
  have hnodes : nodesOf (e.slots ++ [newSlot node spec]) = nodesOf e.slots ++ [node] := by
    simp [nodesOf, newSlot]
  have hnone := hs.others node hnew
  refine ⟨?_, ?_, ?_, ?_, fun h => ?_⟩
  · rw [hnodes]
    refine List.nodup_append.mpr ⟨hs.distinct, by simp, ?_⟩
    intro m hm n hn heq
    rw [List.mem_singleton.mp hn] at heq
    exact hnew (heq ▸ hm)
  · intro m hm
    rw [hnodes, List.mem_append, not_or] at hm
    exact hs.others m hm.1
  · intro m hm
    rw [hnodes, List.mem_append] at hm
    rcases hm with hm | hm
    · exact hs.stage m hm
    · rw [List.mem_singleton.mp hm]
      simp only [hnone, hp]
      exact Or.inl rfl
  · intro _ m hm hc first hf
    have hm' : m ∈ nodesOf e.slots := by
      rw [hnodes, List.mem_append] at hm
      rcases hm with hm | hm
      · exact hm
      · rw [List.mem_singleton.mp hm, hnone] at hc
        cases hc
    refine hs.configured hp m hm' hc first ?_
    rw [hnodes, List.head?_append_of_ne_nil _ (List.ne_nil_of_mem hm')] at hf
    exact hf
  · rw [hp] at h
    cases h

theorem LifeInv.configured_all {e : Executor} (hs : LifeInv e) (hp : e.phase = .building)
    (hfirst : ∀ node ∈ nodesOf e.slots, .configure ∉ received node e.trace) :
    LifeInv { e with trace := e.trace ++ calls .configure 0 e.slots, phase := .configured } := by
  have hnil := hs.building hp hfirst
  refine hs.extend rfl rfl (fun node hn => received_calls_of_not_mem _ 0 hn) ?_ ?_ ?_
  · intro node hn
    rw [hnil node hn, received_calls _ 0 hs.distinct hn]
    exact Or.inl rfl
  · intro h
    cases h
  · intro _ node hn hmem
    simp only [received_append, hnil node hn, received_calls _ 0 hs.distinct hn] at hmem
    simp at hmem

theorem LifeInv.started_all {e : Executor} (hs : LifeInv e) (hp : e.phase = .configured)
    (hfirst : ∀ node ∈ nodesOf e.slots, .start ∉ received node e.trace) (n : ℕ) :
    LifeInv { e with
      trace := e.trace ++ calls .start 0 e.slots, started := n, phase := .running } := by
  refine hs.extend rfl rfl (fun node hn => received_calls_of_not_mem _ 0 hn) ?_ ?_ ?_
  · intro node hn
    rw [hs.unstarted hp hfirst node hn, received_calls _ 0 hs.distinct hn]
    exact ⟨[], rfl⟩
  · intro h
    cases h
  · intro h
    cases h

/-- A loop that fails and leaves it at that: the nodes it reached are one call further. -/
theorem LifeInv.loop_failed {e e' : Executor} (hs : LifeInv e) {c : NodeCall}
    {throws : ℕ → Option Thrown} {k : ℕ} {s : Slot} {x : Thrown}
    (hk : FirstThrow throws e.slots k s x) (hslots : e'.slots = e.slots)
    (hphase : e'.phase = e.phase)
    (htrace : e'.trace = e.trace ++ (calls c 0 (e.slots.take k) ++ [⟨k, s.node, c, true⟩]))
    (hcalled : ∀ node ∈ nodesOf e.slots, Stage e.phase (received node e.trace ++ [c]))
    (hc : e.phase = .building ∧ c = .configure ∨ e.phase = .configured ∧ c = .start) :
    LifeInv e' := by
  have hrec := hk.received c hs.distinct
  have hfrom : FromFirst c e' := by
    intro node hn _ first hf
    rw [hslots] at hf
    rw [htrace, received_append, hrec, if_pos (hk.head_mem hf)]
    exact List.mem_append_right _ (List.mem_singleton_self _)
  refine hs.extend (by rw [hslots]) htrace ?_ ?_ ?_ ?_
  · intro node hn
    rw [hrec, if_neg fun hmem => hn (mem_nodesOf_take hmem)]
  · intro node hn
    rw [hphase, hrec]
    split
    · exact hcalled node hn
    · rw [List.append_nil]
      exact hs.stage node hn
  · intro h
    rw [hphase] at h
    rcases hc with ⟨-, rfl⟩ | ⟨hp, -⟩
    · exact hfrom
    · rw [hp] at h
      cases h
  · intro h
    rw [hphase] at h
    rcases hc with ⟨hp, -⟩ | ⟨-, rfl⟩
    · rw [hp] at h
      cases h
    · exact hfrom

/-- The nodes before the failure are stopped again, the failing one is not. -/
theorem LifeInv.start_unwound {e : Executor} (hs : LifeInv e) (hp : e.phase = .configured)
    (hfirst : ∀ node ∈ nodesOf e.slots, .start ∉ received node e.trace)
    {throws : ℕ → Option Thrown} {k : ℕ} {s : Slot} {x : Thrown}
    (hk : FirstThrow throws e.slots k s x) :
    LifeInv { e with
      trace := e.trace ++ (calls .start 0 (e.slots.take k) ++ [⟨k, s.node, .start, true⟩]) ++
        stops (e.slots.take k)
      started := 0 } := by
  have hrec := hk.received .start hs.distinct
  have htake : (nodesOf (e.slots.take k)).Nodup :=
    hs.distinct.sublist ((List.take_sublist k e.slots).map Slot.node)
  refine hs.extend rfl (List.append_assoc _ _ _) ?_ ?_ ?_ ?_
  · intro node hn
    rw [received_append, hrec, if_neg fun hmem => hn (mem_nodesOf_take hmem),
      received_stops_of_not_mem fun hmem => hn (mem_nodesOf_take hmem)]
    rfl
  · intro node hn
    rw [hs.unstarted hp hfirst node hn, received_append, hrec]
    simp only [hp]
    by_cases hbefore : node ∈ nodesOf (e.slots.take k)
    · have hreached : node ∈ nodesOf (e.slots.take (k + 1)) := by
        rw [hk.nodes]
        exact List.mem_append_left _ hbefore
      rw [if_pos hreached, received_stops htake hbefore]
      exact Or.inr (Or.inr rfl)
    · rw [received_stops_of_not_mem hbefore]
      split
      · exact Or.inr (Or.inl rfl)
      · exact Or.inl rfl
  · intro h
    simp only [hp] at h
    cases h
  · intro _ node hn _ first hf
    simp only [List.append_assoc, received_append _ e.trace]
    rw [← List.append_assoc, received_append, hrec, if_pos (hk.head_mem hf)]
    simp

theorem LifeInv.ticks {e : Executor} (hs : LifeInv e) (hp : e.phase = .running) {node : ℕ}
    (hn : node ∈ nodesOf e.slots) :
    ∃ times : List Int64, received node e.trace = [.configure, .start] ++ times.map .tick := by
  have hst := hs.stage node hn
  rwa [hp] at hst

theorem LifeInv.stepped {e : Executor} (hs : LifeInv e) (hp : e.phase = .running)
    (nowNs : Int64) (ticks : ℕ → Tick) :
    LifeInv { e with
      stepCount := e.stepCount + 1
      slots := (stepSlots nowNs ticks 0 e.slots).1
      trace := e.trace ++ (stepSlots nowNs ticks 0 e.slots).2 } := by
  refine hs.extend (nodesOf_stepSlots _ _ _ _) rfl
    (fun node hn => received_stepSlots_of_not_mem _ _ 0 hn) ?_ ?_ ?_
  · intro node hn
    obtain ⟨times, ht⟩ := hs.ticks hp hn
    simp only [hp]
    rcases received_stepSlots node nowNs ticks 0 hs.distinct with hev | hev
    · rw [hev, List.append_nil]
      exact ⟨times, ht⟩
    · rw [hev, ht]
      exact ⟨times ++ [nowNs], by simp⟩
  · intro h
    simp only [hp] at h
    cases h
  · intro h
    simp only [hp] at h
    cases h

theorem LifeInv.stopped {e : Executor} (hs : LifeInv e) (hp : e.phase = .running) :
    LifeInv { e with trace := e.trace ++ stops e.slots, phase := .stopped } := by
  refine hs.extend rfl rfl (fun node hn => received_stops_of_not_mem hn) ?_ ?_ ?_
  · intro node hn
    obtain ⟨times, ht⟩ := hs.ticks hp hn
    rw [ht, received_stops hs.distinct hn]
    exact lifecyclePrefix_stopped times
  · intro h
    cases h
  · intro h
    cases h

theorem distinctStep_eq {e e' : Executor} {i : ExecStep} (h : distinctStep e i = some e') :
    execStep e i = some e' ∧ ∀ node spec, i = .add node spec → node ∉ nodesOf e.slots := by
  unfold distinctStep at h
  split at h
  · rename_i node spec
    split at h
    · cases h
    · rename_i hnew
      refine ⟨h, ?_⟩
      intro n sp heq
      cases heq
      exact hnew
  · rename_i hno
    exact ⟨h, fun node spec heq => absurd heq (hno node spec)⟩

theorem distinctStep_inv (e : Executor) (i : ExecStep) (e' : Executor) (hs : LifeInv e)
    (hc : FirstTry e i) (h : distinctStep e i = some e') : LifeInv e' := by
  obtain ⟨hstep, hnew⟩ := distinctStep_eq h
  obtain ⟨_, hd⟩ := execStep_does hstep
  cases hd with
  | refused => exact hs
  | added node spec ha => exact hs.added ha.1 spec (hnew node spec rfl)
  | configured throws hp hall => exact hs.configured_all hp (hc hp)
  | configureThrew throws hp hk =>
    refine hs.loop_failed hk rfl rfl rfl ?_ (Or.inl ⟨hp, rfl⟩)
    intro node hn
    rw [hs.building hp (hc hp) node hn, hp]
    exact Or.inr rfl
  | started throws hp hall => exact hs.started_all hp (hc hp) _
  | startThrew throws hp hk => exact hs.start_unwound hp (hc hp) hk
  | startThrewForeign throws hp hk =>
    refine hs.loop_failed hk rfl rfl rfl ?_ (Or.inr ⟨hp, rfl⟩)
    intro node hn
    rw [hs.unstarted hp (hc hp) node hn, hp]
    exact Or.inr (Or.inl rfl)
  | stepped nowNs ticks hp => exact hs.stepped hp nowNs ticks
  | stopped hp => exact hs.stopped hp
  | stoppedEarly hp =>
    refine hs.extend rfl (List.append_nil _).symm (fun _ _ => rfl) ?_ ?_ ?_
    · intro node hn
      rw [show received node [] = [] from rfl, List.append_nil]
      exact (hs.stage node hn).lifecyclePrefix
    · intro h
      cases h
    · intro h
      cases h

/-! ### Second tries -/

/-- What the loop calls on the first node is a second call of the kind there. -/
theorem not_lifecyclePrefix_again {c : NodeCall} {cs evs : List NodeCall}
    (hc : c = .configure ∨ c = .start) (hcs : c ∈ cs) (hevs : c ∈ evs) :
    ¬ LifecyclePrefix (cs ++ evs) := by
  intro h
  have hle := h.count_le hc
  have h1 := List.count_pos_iff.mpr hcs
  have h2 := List.count_pos_iff.mpr hevs
  rw [List.count_append] at hle
  omega

theorem exists_first {c : NodeCall} {e : Executor} (h : FromFirst c e)
    (hno : ¬ ∀ node ∈ nodesOf e.slots, c ∉ received node e.trace) :
    ∃ first ∈ (nodesOf e.slots).head?, first ∈ nodesOf e.slots ∧ c ∈ received first e.trace := by
  push Not at hno
  obtain ⟨node, hn, hc⟩ := hno
  cases hslots : nodesOf e.slots with
  | nil =>
    rw [hslots] at hn
    cases hn
  | cons first rest =>
    have hf : first ∈ (nodesOf e.slots).head? := by rw [hslots]; rfl
    exact ⟨first, rfl, List.mem_cons_self .., h node hn hc first hf⟩

theorem received_calls_first (c : NodeCall) {slots : List Slot} (hnodup : (nodesOf slots).Nodup)
    {first : ℕ} (hf : first ∈ nodesOf slots) : c ∈ received first (calls c 0 slots) := by
  rw [received_calls c 0 hnodup hf]
  exact List.mem_singleton_self c

theorem LifeInv.calls_first {e e' : Executor} {i : ExecStep} {b : Bool} (hs : LifeInv e)
    (hd : Does e i b e') {c : NodeCall} {first : ℕ} (hf : first ∈ (nodesOf e.slots).head?)
    (hmem : first ∈ nodesOf e.slots)
    (hi : (∃ throws, i = .configureAll throws ∧ e.phase = .building ∧ c = .configure) ∨
      ∃ throws, i = .startAll throws ∧ e.phase = .configured ∧ c = .start) :
    ∃ evs, e'.trace = e.trace ++ evs ∧ c ∈ received first evs := by
  have hloop {throws : ℕ → Option Thrown} {k : ℕ} {s : Slot} {x : Thrown}
      (hk : FirstThrow throws e.slots k s x) :
      c ∈ received first (calls c 0 (e.slots.take k) ++ [⟨k, s.node, c, true⟩]) := by
    rw [hk.received c hs.distinct, if_pos (hk.head_mem hf)]
    exact List.mem_singleton_self c
  rcases hi with ⟨throws, rfl, hp, rfl⟩ | ⟨throws, rfl, hp, rfl⟩
  · cases hd with
    | refused _ h => exact absurd hp h
    | configured _ _ _ => exact ⟨_, rfl, received_calls_first _ hs.distinct hmem⟩
    | configureThrew _ _ hk => exact ⟨_, rfl, hloop hk⟩
  · cases hd with
    | refused _ h => exact absurd hp h
    | started _ _ _ => exact ⟨_, rfl, received_calls_first _ hs.distinct hmem⟩
    | startThrew _ _ hk =>
      refine ⟨_, List.append_assoc _ _ _, ?_⟩
      rw [received_append]
      exact List.mem_append_left _ (hloop hk)
    | startThrewForeign _ _ hk => exact ⟨_, rfl, hloop hk⟩

theorem keepsOrder_iff_firstTry (e : Executor) (i : ExecStep) (hs : LifeInv e) :
    KeepsOrder e i ↔ FirstTry e i := by
  have hd := execCall_does e i
  constructor
  · intro hk
    have hagain {c : NodeCall} (hc : c = .configure ∨ c = .start) (hfrom : FromFirst c e)
        (hi : (∃ throws, i = .configureAll throws ∧ e.phase = .building ∧ c = .configure) ∨
          ∃ throws, i = .startAll throws ∧ e.phase = .configured ∧ c = .start) :
        ∀ node ∈ nodesOf e.slots, c ∉ received node e.trace := by
      by_contra hno
      obtain ⟨first, hf, hmem, hbefore⟩ := exists_first hfrom hno
      obtain ⟨evs, htrace, hevs⟩ := hs.calls_first hd hf hmem hi
      have hfirst := hk first
      rw [htrace, received_append] at hfirst
      exact not_lifecyclePrefix_again hc hbefore hevs hfirst
    cases i with
    | configureAll throws =>
      intro hp
      exact hagain (Or.inl rfl) (hs.configured hp) (Or.inl ⟨throws, rfl, hp, rfl⟩)
    | startAll throws =>
      intro hp
      exact hagain (Or.inr rfl) (hs.started hp) (Or.inr ⟨throws, rfl, hp, rfl⟩)
    | add | step | stopAll => trivial
  · intro hfirst
    cases i with
    | add node spec =>
      have htrace : (execCall (.add node spec) e).2.trace = e.trace := by
        generalize threw (execCall (.add node spec) e) = b at hd
        generalize (execCall (.add node spec) e).2 = e' at hd
        cases hd <;> rfl
      unfold KeepsOrder InOrder
      rw [htrace]
      exact hs.inOrder
    | configureAll throws => exact (distinctStep_inv e _ _ hs hfirst rfl).inOrder
    | startAll throws => exact (distinctStep_inv e _ _ hs hfirst rfl).inOrder
    | step nowNs ticks => exact (distinctStep_inv e _ _ hs hfirst rfl).inOrder
    | stopAll => exact (distinctStep_inv e _ _ hs hfirst rfl).inOrder

/-- The nodes of an executor receive their calls in order, after every call of a run, exactly when
the run makes no second try at configuring or starting after one that called a node and failed. -/
theorem lifecycle_order_iff (period : Int64) (steps : List ExecStep) :
    Throughout distinctStep KeepsOrder { periodNs := period } steps ↔
      Throughout distinctStep FirstTry { periodNs := period } steps :=
  throughout_congr LifeInv (fun e i e' _ => distinctStep_inv e i e')
    (fun e i _ => keepsOrder_iff_firstTry e i) (A := fun _ => True) (fun _ _ => trivial)
    (lifeInv_new period)

def secondTries : List ExecStep :=
  let refuse (k : ℕ) : Option Thrown := if k = 1 then some (.std (.runtimeError "no")) else none
  [.add 7 { name := "a" }, .add 8 { name := "b" }, .configureAll refuse,
    .configureAll fun _ => none, .startAll refuse, .startAll fun _ => none]

theorem lifecycle_second_tries :
    ∃ e, run distinctStep { periodNs := 5 } secondTries = some e ∧
      received 7 e.trace = [.configure, .configure, .start, .stop, .start] ∧
      ¬ LifecyclePrefix (received 7 e.trace) := by
  have hrun : ∃ e, run distinctStep { periodNs := 5 } secondTries = some e ∧
      received 7 e.trace = [.configure, .configure, .start, .stop, .start] := ⟨_, rfl, by decide⟩
  obtain ⟨e, he, hrec⟩ := hrun
  refine ⟨e, he, hrec, ?_⟩
  intro h
  have := h.count_le (Or.inl rfl)
  rw [hrec] at this
  exact absurd this (by decide)

end AuvMiddleware.Mw
