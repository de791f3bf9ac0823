import AuvMiddleware.Lib.Runs
import AuvMiddleware.Mw.ExecutorCalls

/-!
# Started and not stopped (executor.cpp:107-129, 193-202)

The nodes that run at a point of the trace, as a stack: nodes are started in the order they were
added, and a `stop()` takes the top one off and must be the stop of that node.
-/

namespace AuvMiddleware.Mw
open Runs

def nodesOf (slots : List Slot) : List ℕ := slots.map Slot.node

/-- One more call; `none` if it is a start out of the order of the slots, or a stop of another
node than the one started last. -/
def stackStep (st : List ℕ) (ev : Event) : Option (List ℕ) :=
  match ev.call, ev.threw with
  | .start, false => if ev.slot = st.length then some (ev.node :: st) else none
  | .stop, _ =>
    match st with
    | n :: rest => if n = ev.node ∧ ev.slot = rest.length then some rest else none
    | [] => none
  | _, _ => some st

def unwind (st : List ℕ) (evs : List Event) : Option (List ℕ) := run stackStep st evs

theorem unwind_append (st : List ℕ) (as bs : List Event) :
    unwind st (as ++ bs) = (unwind st as).bind fun st' => unwind st' bs := run_append st as bs

theorem unwind_starts_from (st : List ℕ) (slots : List Slot) :
    unwind st (calls .start st.length slots) = some ((nodesOf slots).reverse ++ st) := by
  induction slots generalizing st with
  | nil => rfl
  | cons s rest ih =>
    have hfirst : stackStep st ⟨st.length, s.node, .start, false⟩ = some (s.node :: st) := if_pos rfl
    rw [calls_cons, unwind, run, hfirst, Option.bind_some]
    have hrest := ih (s.node :: st)
    rw [List.length_cons] at hrest
    rw [← unwind, hrest]
    simp [nodesOf]

theorem unwind_stops_from (st : List ℕ) (slots : List Slot) :
    unwind ((nodesOf slots).reverse ++ st) (calls .stop st.length slots).reverse = some st := by
  induction slots generalizing st with
  | nil => rfl
  | cons s rest ih =>
    have hrest := ih (s.node :: st)
    have hlast : stackStep (s.node :: st) ⟨st.length, s.node, .stop, false⟩ = some st :=
      if_pos ⟨rfl, rfl⟩
    rw [calls_cons, List.reverse_cons, unwind_append]
    simp only [nodesOf, List.map_cons, List.reverse_cons, List.append_assoc,
      List.singleton_append, List.length_cons] at hrest ⊢
    rw [hrest, Option.bind_some, unwind, run, hlast]
    rfl

theorem unwind_starts (slots : List Slot) :
    unwind [] (calls .start 0 slots) = some (nodesOf slots).reverse := by
  have h := unwind_starts_from [] slots
  rwa [List.append_nil] at h

theorem unwind_stops (slots : List Slot) :
    unwind (nodesOf slots).reverse (stops slots) = some [] := by
  have h := unwind_stops_from [] slots
  rwa [List.append_nil] at h

theorem unwind_others (st : List ℕ) {evs : List Event}
    (h : ∀ ev ∈ evs, stackStep st ev = some st) : unwind st evs = some st := by
  induction evs with
  | nil => rfl
  | cons ev evs ih =>
    have hrest := ih fun x hx => h x (List.mem_cons_of_mem _ hx)
    rw [unwind, run, h ev (List.mem_cons_self ..)]
    exact hrest

theorem call_of_mem_calls {c : NodeCall} {i : ℕ} {slots : List Slot} :
    ∀ ev ∈ calls c i slots, ev.call = c := by
  induction slots generalizing i with
  | nil =>
    intro ev hev
    cases hev
  | cons s rest ih =>
    intro ev hev
    rcases List.mem_cons.mp hev with rfl | hev
    · rfl
    · exact ih ev hev

theorem call_of_mem_stepSlots {nowNs : Int64} {ticks : ℕ → Tick} {i : ℕ} {slots : List Slot} :
    ∀ ev ∈ (stepSlots nowNs ticks i slots).2, ev.call = .tick nowNs := by
  induction slots generalizing i with
  | nil =>
    intro ev hev
    cases hev
  | cons s rest ih =>
    intro ev hev
    rw [stepSlots] at hev
    split at hev
    · rcases List.mem_cons.mp hev with rfl | hev
      · rfl
      · exact ih ev hev
    · exact ih ev hev

theorem nodesOf_stepSlots (nowNs : Int64) (ticks : ℕ → Tick) (i : ℕ) (slots : List Slot) :
    nodesOf (stepSlots nowNs ticks i slots).1 = nodesOf slots := by
  induction slots generalizing i with
  | nil => rfl
  | cons s rest ih =>
    have htick : (tickSlot nowNs (ticks i) s).node = s.node := by
      unfold tickSlot
      dsimp only
      split <;> rfl
    have hrest := ih (i + 1)
    unfold nodesOf at hrest ⊢
    rw [stepSlots]
    split
    · rw [List.map_cons, List.map_cons, htick, hrest]
    · rw [List.map_cons, List.map_cons, hrest]

theorem unwind_configures (st : List ℕ) {evs : List Event}
    (h : ∀ ev ∈ evs, ev.call = .configure) : unwind st evs = some st := by
  apply unwind_others
  intro ev hev
  unfold stackStep
  rw [h ev hev]

theorem unwind_stepSlots (st : List ℕ) (nowNs : Int64) (ticks : ℕ → Tick) (slots : List Slot) :
    unwind st (stepSlots nowNs ticks 0 slots).2 = some st := by
  apply unwind_others
  intro ev hev
  unfold stackStep
  rw [call_of_mem_stepSlots ev hev]

theorem unwind_starts_failed (k node : ℕ) (slots : List Slot) :
    unwind [] (calls .start 0 slots ++ [⟨k, node, .start, true⟩]) =
      some (nodesOf slots).reverse := by
  rw [unwind_append, unwind_starts]
  rfl

/-! ### All or nothing -/

/-- What is started and not stopped: nothing, or all nodes of a running executor. -/
def AllOrNothing (e : Executor) : Prop :=
  unwind [] e.trace = some [] ∨
    e.phase = .running ∧ unwind [] e.trace = some (nodesOf e.slots).reverse

/-- A `start_all()` that throws has stopped what it had started, the last one first, and after any
call the executor runs all of its nodes or none. -/
def StartsWhole (e : Executor) (i : ExecStep) : Prop :=
  (∀ throws, i = .startAll throws → threw (execCall i e) = true →
    ∃ evs, (execCall i e).2.trace = e.trace ++ evs ∧ unwind [] evs = some []) ∧
  AllOrNothing (execCall i e).2

/-- If what the first `start()` to throw throws is no `std::exception`, it is the first node's. -/
def CaughtUnlessFirst (e : Executor) (i : ExecStep) : Prop :=
  match i with
  | .startAll throws => e.phase = .configured →
    ∀ k < e.slots.length, (∀ j < k, throws j = none) → throws k = some .foreign → k = 0
  | _ => True

instance decidableCaught (e : Executor) : ∀ i, Decidable (CaughtUnlessFirst e i)
  | .startAll throws => inferInstanceAs (Decidable (e.phase = .configured →
      ∀ k < e.slots.length, (∀ j < k, throws j = none) → throws k = some .foreign → k = 0))
  | .add _ _ => isTrue trivial
  | .configureAll _ => isTrue trivial
  | .step _ _ => isTrue trivial
  | .stopAll => isTrue trivial

structure UnwindInv (e : Executor) : Prop where
  running : e.phase = .running → unwind [] e.trace = some (nodesOf e.slots).reverse
  idle : e.phase ≠ .running → unwind [] e.trace = some []

theorem UnwindInv.allOrNothing {e : Executor} (h : UnwindInv e) : AllOrNothing e := by
  by_cases hp : e.phase = .running
  · exact Or.inr ⟨hp, h.running hp⟩
  · exact Or.inl (h.idle hp)

theorem unwindInv_of_idle {e : Executor} (hp : e.phase ≠ .running)
    (h : unwind [] e.trace = some []) : UnwindInv e :=
  ⟨fun hr => absurd hr hp, fun _ => h⟩

theorem unwindInv_new (period : Int64) : UnwindInv { periodNs := period } :=
  unwindInv_of_idle (fun h => by cases h) rfl

theorem FirstThrow.lt_length {throws : ℕ → Option Thrown} {slots : List Slot} {k : ℕ} {s : Slot}
    {x : Thrown} (h : FirstThrow throws slots k s x) : k < slots.length :=
  (List.getElem?_eq_some_iff.mp h.slot).1

theorem nodesOf_take_ne_nil {slots : List Slot} {k : ℕ} (hlen : k < slots.length) (hk : k ≠ 0) :
    nodesOf (slots.take k) ≠ [] := by
  intro hnil
  have htake := congrArg List.length hnil
  rw [nodesOf, List.length_map, List.length_take, List.length_nil] at htake
  omega

theorem UnwindInv.idle_of {e : Executor} (hs : UnwindInv e) {p : Phase} (hp : e.phase = p)
    (hne : p ≠ .running) : unwind [] e.trace = some [] := by
  apply hs.idle
  rw [hp]
  exact hne

/-- What an executor that does not run does next starts from nothing. -/
theorem UnwindInv.unwind_next {e : Executor} (hs : UnwindInv e) {p : Phase} (hp : e.phase = p)
    (hne : p ≠ .running) (evs : List Event) : unwind [] (e.trace ++ evs) = unwind [] evs := by
  rw [unwind_append, hs.idle_of hp hne, Option.bind_some]

theorem UnwindInv.starts_failed {e : Executor} (hs : UnwindInv e) (hp : e.phase = .configured)
    (k node : ℕ) :
    unwind [] (e.trace ++ (calls .start 0 (e.slots.take k) ++ [⟨k, node, .start, true⟩])) =
      some (nodesOf (e.slots.take k)).reverse := by
  rw [hs.unwind_next hp Phase.noConfusion, unwind_starts_failed]

theorem Does.unwindInv {e e' : Executor} {i : ExecStep} {b : Bool} (hd : Does e i b e')
    (hs : UnwindInv e) (hc : CaughtUnlessFirst e i) : UnwindInv e' := by
  cases hd with
  | refused => exact hs
  | added node spec ha =>
    have hp : e.phase ≠ .running := by
      rw [ha.1]
      exact Phase.noConfusion
    exact unwindInv_of_idle hp (hs.idle hp)
  | configured throws hp hall =>
    apply unwindInv_of_idle Phase.noConfusion
    rw [hs.unwind_next hp Phase.noConfusion]
    exact unwind_configures [] call_of_mem_calls
  | configureThrew throws hp hk =>
    apply unwindInv_of_idle (by rw [hp]; exact Phase.noConfusion)
    rw [hs.unwind_next hp Phase.noConfusion]
    apply unwind_configures
    intro ev hev
    rcases List.mem_append.mp hev with hev | hev
    · exact call_of_mem_calls ev hev
    · rw [List.mem_singleton.mp hev]
  | started throws hp hall =>
    refine ⟨fun _ => ?_, fun hne => absurd rfl hne⟩
    rw [hs.unwind_next hp Phase.noConfusion, unwind_starts]
  | @startThrew throws hp k s x hk =>
    apply unwindInv_of_idle (by rw [hp]; exact Phase.noConfusion)
    rw [unwind_append, hs.starts_failed hp, Option.bind_some, unwind_stops]
  | startThrewForeign throws hp hk =>
    apply unwindInv_of_idle (by rw [hp]; exact Phase.noConfusion)
    rw [hs.starts_failed hp, hc hp _ hk.lt_length hk.before hk.here]
    rfl
  | stepped nowNs ticks hp =>
    refine ⟨fun _ => ?_, fun hne => absurd hp hne⟩
    rw [unwind_append, hs.running hp, Option.bind_some, unwind_stepSlots, nodesOf_stepSlots]
  | stopped hp =>
    apply unwindInv_of_idle Phase.noConfusion
    rw [unwind_append, hs.running hp, Option.bind_some, unwind_stops]
  | stoppedEarly hp => exact unwindInv_of_idle Phase.noConfusion (hs.idle hp)

theorem Does.start_uncaught {e e' : Executor} {throws : ℕ → Option Thrown} {b : Bool} {k : ℕ}
    (hd : Does e (.startAll throws) b e') (hp : e.phase = .configured) (hlen : k < e.slots.length)
    (hbefore : ∀ j < k, throws j = none) (hthrow : throws k = some .foreign) :
    e'.phase = .configured ∧
      ∃ node, e'.trace =
        e.trace ++ (calls .start 0 (e.slots.take k) ++ [⟨k, node, .start, true⟩]) := by
  have hfirst {j : ℕ} {s : Slot} {x : Thrown} (hj : FirstThrow throws e.slots j s x) :
      j = k ∧ x = .foreign := by
    rcases Nat.lt_trichotomy j k with hlt | rfl | hlt
    · have := hj.here
      rw [hbefore j hlt] at this
      cases this
    · have := hj.here
      rw [hthrow] at this
      cases this
      exact ⟨rfl, rfl⟩
    · have := hj.before k hlt
      rw [hthrow] at this
      cases this
  cases hd with
  | refused _ h => exact absurd hp h
  | started _ _ hall =>
    rw [hall k hlen] at hthrow
    cases hthrow
  | startThrew _ _ hj => cases (hfirst hj).2
  | startThrewForeign _ _ hj =>
    rw [(hfirst hj).1]
    exact ⟨hp, _, rfl⟩

theorem Does.start_threw {e e' : Executor} {throws : ℕ → Option Thrown}
    (hd : Does e (.startAll throws) true e') :
    e' = e ∨
      e.phase = .configured ∧ e'.phase = .configured ∧ ∃ evs, e'.trace = e.trace ++ evs := by
  cases hd with
  | refused => exact Or.inl rfl
  | startThrew _ hp _ => exact Or.inr ⟨hp, hp, _, List.append_assoc _ _ _⟩
  | startThrewForeign _ hp _ => exact Or.inr ⟨hp, hp, _, rfl⟩

theorem startsWhole_iff (e : Executor) (i : ExecStep) (hs : UnwindInv e) :
    StartsWhole e i ↔ CaughtUnlessFirst e i := by
  have hd := execCall_does e i
  constructor
  · intro hw
    cases i with
    | startAll throws =>
      intro hp k hlen hbefore hthrow
      obtain ⟨hphase, node, htrace⟩ := hd.start_uncaught hp hlen hbefore hthrow
      by_contra hne
      rcases hw.2 with h | ⟨h, -⟩
      · rw [htrace, hs.starts_failed hp] at h
        exact nodesOf_take_ne_nil hlen hne (List.reverse_eq_nil_iff.mp (Option.some.inj h))
      · rw [hphase] at h
        cases h
    | add | configureAll | step | stopAll => trivial
  · intro hc
    have hs' := hd.unwindInv hs hc
    refine ⟨?_, hs'.allOrNothing⟩
    intro throws hi hthrew
    subst hi
    rw [hthrew] at hd
    rcases hd.start_threw with heq | ⟨hp, hp', evs, htrace⟩
    · refine ⟨[], ?_, rfl⟩
      rw [heq, List.append_nil]
    · refine ⟨evs, htrace, ?_⟩
      have hidle := hs'.idle_of hp' Phase.noConfusion
      rwa [htrace, hs.unwind_next hp Phase.noConfusion] at hidle

/-- A `start_all()` is all or nothing, in every call of a run, exactly when nothing but a
`std::exception` comes out of a `start()`, the first node's apart. -/
theorem starts_whole_iff (period : Int64) (steps : List ExecStep) :
    Throughout execStep StartsWhole { periodNs := period } steps ↔
      Throughout execStep CaughtUnlessFirst { periodNs := period } steps :=
  throughout_congr UnwindInv
    (fun e i _ _ hs hc h => by cases h; exact (execCall_does e i).unwindInv hs hc)
    (fun e i _ => startsWhole_iff e i) (A := fun _ => True) (fun _ _ => trivial)
    (unwindInv_new period)

def uncaughtStart : List ExecStep :=
  [.add 7 { name := "a" }, .add 8 { name := "b" }, .configureAll fun _ => none,
    .startAll fun k => if k = 1 then some .foreign else none, .stopAll]

theorem starts_whole_uncaught :
    ∃ e, run execStep { periodNs := 5 } uncaughtStart = some e ∧
      unwind [] e.trace = some [7] ∧ e.phase = .stopped ∧ ¬ AllOrNothing e := by
  have hrun : ∃ e, run execStep { periodNs := 5 } uncaughtStart = some e ∧
      unwind [] e.trace = some [7] ∧ e.phase = .stopped := ⟨_, rfl, by decide⟩
  obtain ⟨e, he, hleft, hp⟩ := hrun
  refine ⟨e, he, hleft, hp, ?_⟩
  rintro (h | ⟨h, -⟩)
  · rw [hleft] at h
    cases h
  · rw [hp] at h
    cases h

end AuvMiddleware.Mw
