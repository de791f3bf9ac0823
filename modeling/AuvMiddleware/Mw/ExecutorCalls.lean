import AuvMiddleware.Mw.Executor

/-!
# What a call on an executor can do

Every lifecycle call in any phase: it is refused, or it makes calls on the nodes that this module
lists case by case. The caller may catch what a call throws and go on with the executor.
-/

namespace AuvMiddleware.Mw

inductive ExecStep where
  | add (node : ℕ) (spec : NodeSpec)
  | configureAll (throws : ℕ → Option Thrown)
  | startAll (throws : ℕ → Option Thrown)
  | step (nowNs : Int64) (ticks : ℕ → Tick)
  | stopAll

def execCall : ExecStep → Call Thrown Executor Unit
  | .add node spec => add node spec
  | .configureAll throws => configureAll throws
  | .startAll throws => startAll throws
  | .step nowNs ticks => step nowNs ticks
  | .stopAll => Call.modify stopAll

/-! ### The loop over the nodes -/

def calls (call : NodeCall) (i : ℕ) (slots : List Slot) : List Event :=
  (callAll call (fun _ => none) i slots).1

@[simp] theorem calls_nil (call : NodeCall) (i : ℕ) : calls call i [] = [] := rfl

@[simp] theorem calls_cons (call : NodeCall) (i : ℕ) (s : Slot) (slots : List Slot) :
    calls call i (s :: slots) = ⟨i, s.node, call, false⟩ :: calls call (i + 1) slots := rfl

structure FirstThrow (throws : ℕ → Option Thrown) (slots : List Slot) (k : ℕ) (s : Slot)
    (x : Thrown) : Prop where
  slot : slots[k]? = some s
  before : ∀ j < k, throws j = none
  here : throws k = some x

theorem callAll_cases (call : NodeCall) (throws : ℕ → Option Thrown) (i : ℕ) (slots : List Slot) :
    ((∀ k < slots.length, throws (i + k) = none) ∧
      callAll call throws i slots = (calls call i slots, none)) ∨
    ∃ k s x, FirstThrow (fun j => throws (i + j)) slots k s x ∧
      callAll call throws i slots =
        (calls call i (slots.take k) ++ [⟨i + k, s.node, call, true⟩], some (i + k, s, x)) := by
  induction slots generalizing i with
  | nil =>
    left
    refine ⟨?_, rfl⟩
    intro k hk
    exact absurd hk (Nat.not_lt_zero k)
  | cons s rest ih =>
    cases ht : throws i with
    | some x =>
      right
      refine ⟨0, s, x, ⟨rfl, ?_, ht⟩, ?_⟩
      · intro j hj
        exact absurd hj (Nat.not_lt_zero j)
      · simp only [callAll, ht, List.take_zero, calls_nil, List.nil_append, Nat.add_zero]
    | none =>
      rcases ih (i + 1) with ⟨hall, heq⟩ | ⟨k, t, x, hfirst, heq⟩
      · left
        constructor
        · intro k hk
          cases k with
          | zero => exact ht
          | succ k =>
            have := hall k (by simpa using hk)
            rwa [Nat.add_assoc, Nat.add_comm 1] at this
        · simp only [callAll, ht, heq, calls_cons]
      · right
        refine ⟨k + 1, t, x, ⟨hfirst.slot, ?_, ?_⟩, ?_⟩
        · intro j hj
          cases j with
          | zero => exact ht
          | succ j =>
            have := hfirst.before j (by omega)
            rwa [Nat.add_assoc, Nat.add_comm 1] at this
        · have := hfirst.here
          rwa [Nat.add_assoc, Nat.add_comm 1] at this
        · have hk : i + 1 + k = i + (k + 1) := by omega
          simp only [callAll, ht, heq, hk, List.take_succ_cons, calls_cons, List.cons_append]

theorem callAll_eq (call : NodeCall) (throws : ℕ → Option Thrown) (slots : List Slot) :
    ((∀ k < slots.length, throws k = none) ∧
      callAll call throws 0 slots = (calls call 0 slots, none)) ∨
    ∃ k s x, FirstThrow throws slots k s x ∧
      callAll call throws 0 slots =
        (calls call 0 (slots.take k) ++ [⟨k, s.node, call, true⟩], some (k, s, x)) := by
  have h := callAll_cases call throws 0 slots
  simpa only [Nat.zero_add] using h

/-! ### Call by call -/

def newSlot (node : ℕ) (spec : NodeSpec) : Slot where
  node := node
  report := {
    name := spec.name
    periodNs := spec.periodNs.toInt
    budgetNs := spec.budgetNs.toInt }

def Accepts (e : Executor) : ExecStep → Prop
  | .add _ spec => e.phase = .building ∧ 0 ≤ spec.periodNs.toInt ∧ 0 ≤ spec.budgetNs.toInt
  | .configureAll _ => e.phase = .building
  | .startAll _ => e.phase = .configured
  | .step _ _ => e.phase = .running
  | .stopAll => True

/-- `Does e i threw e'`: the call `i` takes the executor from `e` to `e'`. -/
inductive Does (e : Executor) : ExecStep → Bool → Executor → Prop where
  | refused (i : ExecStep) (h : ¬ Accepts e i) : Does e i true e
  | added (node : ℕ) (spec : NodeSpec) (h : Accepts e (.add node spec)) :
      Does e (.add node spec) false { e with slots := e.slots ++ [newSlot node spec] }
  | configured (throws : ℕ → Option Thrown) (h : e.phase = .building)
      (hall : ∀ k < e.slots.length, throws k = none) :
      Does e (.configureAll throws) false
        { e with trace := e.trace ++ calls .configure 0 e.slots, phase := .configured }
  | configureThrew (throws : ℕ → Option Thrown) (h : e.phase = .building) {k : ℕ} {s : Slot}
      {x : Thrown} (hk : FirstThrow throws e.slots k s x) :
      Does e (.configureAll throws) true { e with
        trace := e.trace ++ (calls .configure 0 (e.slots.take k) ++ [⟨k, s.node, .configure, true⟩]) }
  | started (throws : ℕ → Option Thrown) (h : e.phase = .configured)
      (hall : ∀ k < e.slots.length, throws k = none) :
      Does e (.startAll throws) false { e with
        trace := e.trace ++ calls .start 0 e.slots
        started := e.slots.length
        phase := .running }
  | startThrew (throws : ℕ → Option Thrown) (h : e.phase = .configured) {k : ℕ} {s : Slot} {x : Exn}
      (hk : FirstThrow throws e.slots k s (.std x)) :
      Does e (.startAll throws) true { e with
        trace := e.trace ++ (calls .start 0 (e.slots.take k) ++ [⟨k, s.node, .start, true⟩]) ++
          stops (e.slots.take k)
        started := 0 }
  | startThrewForeign (throws : ℕ → Option Thrown) (h : e.phase = .configured) {k : ℕ} {s : Slot}
      (hk : FirstThrow throws e.slots k s .foreign) :
      Does e (.startAll throws) true { e with
        trace := e.trace ++ (calls .start 0 (e.slots.take k) ++ [⟨k, s.node, .start, true⟩])
        started := k }
  | stepped (nowNs : Int64) (ticks : ℕ → Tick) (h : e.phase = .running) :
      Does e (.step nowNs ticks) false { e with
        stepCount := e.stepCount + 1
        slots := (stepSlots nowNs ticks 0 e.slots).1
        trace := e.trace ++ (stepSlots nowNs ticks 0 e.slots).2 }
  | stopped (h : e.phase = .running) :
      Does e .stopAll false { e with trace := e.trace ++ stops e.slots, phase := .stopped }
  | stoppedEarly (h : e.phase ≠ .running) : Does e .stopAll false { e with phase := .stopped }

def threw (r : Except Thrown Unit × Executor) : Bool :=
  match r.1 with
  | .ok _ => false
  | .error _ => true

theorem require_ok {expected : Phase} {e : Executor} (what : String) (h : e.phase = expected) :
    require expected what e = (.ok (), e) := by
  unfold require
  rw [Call.get_bind, if_neg (not_not_intro h)]
  rfl

theorem require_error {expected : Phase} {e : Executor} (what : String) (h : e.phase ≠ expected) :
    ∃ x, require expected what e = (.error x, e) := by
  unfold require
  rw [Call.get_bind, if_pos h]
  exact ⟨_, rfl⟩

theorem require_bind_error {expected : Phase} {e : Executor} (what : String)
    (h : e.phase ≠ expected) (f : Unit → Call Thrown Executor Unit) :
    ∃ x, (require expected what >>= f) e = (.error x, e) := by
  obtain ⟨x, hx⟩ := require_error what h
  exact ⟨x, Call.bind_of_error hx f⟩

theorem does_of_eq {e e' : Executor} {i : ExecStep} {r : Except Thrown Unit}
    (h : execCall i e = (r, e')) (hd : Does e i (threw (r, e')) e') :
    Does e i (threw (execCall i e)) (execCall i e).2 := by
  rw [h]
  exact hd

theorem add_does (e : Executor) (node : ℕ) (spec : NodeSpec) :
    Does e (.add node spec) (threw (add node spec e)) (add node spec e).2 := by
  by_cases hp : e.phase = .building
  swap
  · obtain ⟨x, hx⟩ := require_bind_error "add" hp _
    exact does_of_eq (i := .add node spec) hx (.refused _ fun h => hp h.1)
  have hneg : spec.periodNs < 0 ∨ spec.budgetNs < 0 ↔
      ¬ (0 ≤ spec.periodNs.toInt ∧ 0 ≤ spec.budgetNs.toInt) := by
    rw [Int64.lt_iff_toInt_lt, Int64.lt_iff_toInt_lt, Int64.toInt_zero]
    omega
  unfold add
  rw [Call.bind_of_ok (require_ok "add" hp)]
  by_cases hspec : spec.periodNs < 0 ∨ spec.budgetNs < 0
  · rw [if_pos hspec]
    exact .refused _ fun h => hneg.mp hspec h.2
  · rw [if_neg hspec]
    exact .added node spec ⟨hp, by rwa [hneg, not_not] at hspec⟩

theorem configureAll_does (e : Executor) (throws : ℕ → Option Thrown) :
    Does e (.configureAll throws) (threw (configureAll throws e)) (configureAll throws e).2 := by
  by_cases hp : e.phase = .building
  swap
  · obtain ⟨x, hx⟩ := require_bind_error "configure_all" hp _
    exact does_of_eq (i := .configureAll throws) hx (.refused _ hp)
  unfold configureAll
  rw [Call.bind_of_ok (require_ok "configure_all" hp)]
  rcases callAll_eq .configure throws e.slots with ⟨hall, heq⟩ | ⟨k, s, x, hfirst, heq⟩
  · simp only [Call.get_bind, heq, note, Call.modify_bind]
    exact .configured throws hp hall
  · simp only [Call.get_bind, heq, note, Call.modify_bind]
    cases x with
    | std x => exact .configureThrew throws hp hfirst
    | foreign => exact .configureThrew throws hp hfirst

theorem startAll_does (e : Executor) (throws : ℕ → Option Thrown) :
    Does e (.startAll throws) (threw (startAll throws e)) (startAll throws e).2 := by
  by_cases hp : e.phase = .configured
  swap
  · obtain ⟨x, hx⟩ := require_bind_error "start_all" hp _
    exact does_of_eq (i := .startAll throws) hx (.refused _ hp)
  unfold startAll
  rw [Call.bind_of_ok (require_ok "start_all" hp)]
  rcases callAll_eq .start throws e.slots with ⟨hall, heq⟩ | ⟨k, s, x, hfirst, heq⟩
  · simp only [Call.get_bind, heq, note, Call.modify_bind]
    exact .started throws hp hall
  · simp only [Call.get_bind, heq, note, Call.modify_bind]
    cases x with
    | std x => exact .startThrew throws hp hfirst
    | foreign => exact .startThrewForeign throws hp hfirst

theorem step_does (e : Executor) (nowNs : Int64) (ticks : ℕ → Tick) :
    Does e (.step nowNs ticks) (threw (step nowNs ticks e)) (step nowNs ticks e).2 := by
  by_cases hp : e.phase = .running
  · unfold step
    rw [Call.bind_of_ok (require_ok "step" hp)]
    exact .stepped nowNs ticks hp
  · obtain ⟨x, hx⟩ := require_bind_error "step" hp _
    exact does_of_eq (i := .step nowNs ticks) hx (.refused _ hp)

theorem execCall_does (e : Executor) (i : ExecStep) :
    Does e i (threw (execCall i e)) (execCall i e).2 := by
  cases i with
  | add node spec => exact add_does e node spec
  | configureAll throws => exact configureAll_does e throws
  | startAll throws => exact startAll_does e throws
  | step nowNs ticks => exact step_does e nowNs ticks
  | stopAll =>
    show Does e .stopAll false (stopAll e)
    unfold stopAll
    by_cases hp : e.phase = .running
    · rw [if_neg (not_not_intro hp)]
      exact .stopped hp
    · rw [if_pos hp]
      exact .stoppedEarly hp

/-! ### Runs -/

def execStep (e : Executor) (i : ExecStep) : Option Executor := some (execCall i e).2

theorem execStep_does {e e' : Executor} {i : ExecStep} (h : execStep e i = some e') :
    ∃ threw, Does e i threw e' := by
  cases h
  exact ⟨_, execCall_does e i⟩

end AuvMiddleware.Mw
