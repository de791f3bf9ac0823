import AuvMiddleware.Base
import AuvMiddleware.Lib.Call
import AuvMiddleware.Lib.Int64Ops
import Mathlib.Data.List.Basic

/-!
# mw::Executor (executor.cpp)

The calls an executor makes on its nodes are kept in the order they were made. What a node does
with a call is given from outside: whether `configure()`, `start()` or `tick()` throws, and what
the measurement clock reads around a tick.
-/

namespace AuvMiddleware.Mw

/-! ### Nodes (node.hpp) -/

structure NodeSpec where
  name : String
  periodNs : Int64 := 0
  budgetNs : Int64 := 0
  deriving DecidableEq

inductive NodeCall where
  | configure
  | start
  | tick (nowNs : Int64)
  | stop
  deriving DecidableEq

/-- A call on the node in a slot of the executor, and whether it threw. -/
structure Event where
  slot : ℕ
  node : ℕ
  call : NodeCall
  threw : Bool := false
  deriving DecidableEq

/-! ### The executor's state -/

inductive Phase where
  | building
  | configured
  | running
  | stopped
  deriving DecidableEq, Repr

def Phase.toText : Phase → String
  | .building => "building"
  | .configured => "configured"
  | .running => "running"
  | .stopped => "stopped"

structure Report where
  name : String
  periodNs : ℤ := 0
  budgetNs : ℤ := 0
  ticks : ℕ := 0
  faults : ℕ := 0
  overruns : ℕ := 0
  missed : ℕ := 0
  lastNs : ℤ := 0
  maxNs : ℤ := 0
  totalNs : ℤ := 0
  deriving DecidableEq

/-- One entry of the parallel vectors `nodes`, `next_due` and `reports`; the flags remember signed
overflows, in the schedule and in the measurements. -/
structure Slot where
  node : ℕ
  nextDue : ℤ := minInt64
  report : Report
  scheduleOverflow : Bool := false
  measureOverflow : Bool := false
  deriving DecidableEq

/-- `Executor::Impl`, with the calls made so far. -/
structure Executor where
  periodNs : Int64
  phase : Phase := .building
  stepCount : ℕ := 0
  slots : List Slot := []
  started : ℕ := 0
  trace : List Event := []
  deriving DecidableEq

def newExecutor (periodNs : Int64) : Except Thrown Executor :=
  if periodNs ≤ 0 then
    .error (.std (.invalidArgument "mw::Executor: period_ns must be positive"))
  else .ok { periodNs := periodNs }

def require (expected : Phase) (what : String) : Call Thrown Executor Unit := do
  let e ← Call.get
  if e.phase ≠ expected then
    Call.throw (.std (.logicError ("mw::Executor::" ++ what ++ ": executor is " ++
      e.phase.toText ++ ", expected " ++ expected.toText)))
  else pure ()

def note (events : List Event) : Call Thrown Executor Unit :=
  Call.modify fun e => { e with trace := e.trace ++ events }

/-! ### Lifecycle -/

def add (node : ℕ) (spec : NodeSpec) : Call Thrown Executor Unit := do
  require .building "add"
  if spec.periodNs < 0 ∨ spec.budgetNs < 0 then
    Call.throw (.std (.invalidArgument ("mw::Executor::add: node '" ++ spec.name ++
      "' declares a negative period or budget")))
  else
    Call.modify fun e => { e with
      slots := e.slots ++ [{
        node := node
        report := {
          name := spec.name
          periodNs := spec.periodNs.toInt
          budgetNs := spec.budgetNs.toInt } }] }

/-- The loop over the nodes from slot `i` on, up to the first call that throws: the calls it makes,
and where and what was thrown. -/
def callAll (call : NodeCall) (throws : ℕ → Option Thrown) :
    ℕ → List Slot → List Event × Option (ℕ × Slot × Thrown)
  | _, [] => ([], none)
  | i, s :: rest =>
    match throws i with
    | some x => ([⟨i, s.node, call, true⟩], some (i, s, x))
    | none =>
      let r := callAll call throws (i + 1) rest
      (⟨i, s.node, call, false⟩ :: r.1, r.2)

/-- `Executor::configure_all` (`executor.cpp:93-105`); only a `std::exception` is caught. -/
def configureAll (throws : ℕ → Option Thrown) : Call Thrown Executor Unit := do
  require .building "configure_all"
  let e ← Call.get
  let r := callAll .configure throws 0 e.slots
  note r.1
  match r.2 with
  | none => Call.modify fun e => { e with phase := .configured }
  | some (_, s, .std x) =>
    Call.throw (.std (.runtimeError ("mw::Executor::configure_all: node '" ++ s.report.name ++
      "' failed to configure: " ++ x.what)))
  | some (_, _, .foreign) => Call.throw .foreign

def stops (slots : List Slot) : List Event := (callAll .stop (fun _ => none) 0 slots).1.reverse

/-- `Executor::start_all` (`executor.cpp:107-129`); only a `std::exception` is caught and unwound. -/
def startAll (throws : ℕ → Option Thrown) : Call Thrown Executor Unit := do
  require .configured "start_all"
  let e ← Call.get
  let r := callAll .start throws 0 e.slots
  note r.1
  match r.2 with
  | none => Call.modify fun e => { e with started := e.slots.length, phase := .running }
  | some (k, s, .std x) =>
    note (stops (e.slots.take k))
    Call.modify fun e => { e with started := 0 }
    Call.throw (.std (.runtimeError ("mw::Executor::start_all: node '" ++ s.report.name ++
      "' failed to start: " ++ x.what)))
  | some (k, _, .foreign) =>
    Call.modify fun e => { e with started := k }
    Call.throw .foreign

def stopAll (e : Executor) : Executor :=
  if e.phase ≠ .running then { e with phase := .stopped }
  else { e with trace := e.trace ++ stops e.slots, phase := .stopped }

/-! ### step -/

/-- What one `tick()` does from the executor's side: whether it throws, anything at all, and the
readings of the measurement clock around it. -/
structure Tick where
  threw : Bool := false
  began : Int64 := 0
  ended : Int64 := 0
  deriving DecidableEq

/-- Whether the node of a slot is ticked at a step (`executor.cpp:138-140`). -/
def Slot.due (s : Slot) (nowNs : Int64) : Bool :=
  !(decide (s.report.periodNs > 0) && decide (nowNs.toInt < s.nextDue))

/-- The counters and durations of a report after a tick (`executor.cpp:152-167`). -/
def measure (t : Tick) (r : Report) : Checked Report := do
  let took ← Checked.int64 (t.ended.toInt - t.began.toInt)
  let total ← Checked.int64 (r.totalNs + took)
  pure { r with
    faults := if t.threw then r.faults + 1 else r.faults
    ticks := r.ticks + 1
    lastNs := took
    totalNs := total
    maxNs := if took > r.maxNs then took else r.maxNs
    overruns := if r.budgetNs > 0 ∧ took > r.budgetNs then r.overruns + 1 else r.overruns }

/-- How many slots a tick at `nowNs` has skipped, and when the next one is due
(`executor.cpp:179-190`). -/
def reschedule (nowNs periodNs due : ℤ) : Checked (ℤ × ℤ) :=
  if due = minInt64 then do
    let next ← Checked.int64 (nowNs + periodNs)
    pure (0, next)
  else do
    let late ← Checked.int64 (nowNs - due)
    let skipped ← Checked.int64 (late.tdiv periodNs)
    let slots ← Checked.int64 (skipped + 1)
    let span ← Checked.int64 (slots * periodNs)
    let next ← Checked.int64 (due + span)
    pure (skipped, next)

def tickSlot (nowNs : Int64) (t : Tick) (s : Slot) : Slot :=
  let m := measure t s.report
  let s := { s with
    report := m.value
    measureOverflow := s.measureOverflow || m.overflow }
  if s.report.periodNs = 0 then s
  else
    let n := reschedule nowNs.toInt s.report.periodNs s.nextDue
    { s with
      report.missed := s.report.missed + toU64 n.value.1
      nextDue := n.value.2
      scheduleOverflow := s.scheduleOverflow || n.overflow }

def stepSlots (nowNs : Int64) (ticks : ℕ → Tick) : ℕ → List Slot → List Slot × List Event
  | _, [] => ([], [])
  | i, s :: rest =>
    let r := stepSlots nowNs ticks (i + 1) rest
    if s.due nowNs then
      (tickSlot nowNs (ticks i) s :: r.1, ⟨i, s.node, .tick nowNs, (ticks i).threw⟩ :: r.2)
    else (s :: r.1, r.2)

/-- `Executor::step` (`executor.cpp:131-191`); what a tick throws goes no further. -/
def step (nowNs : Int64) (ticks : ℕ → Tick) : Call Thrown Executor Unit := do
  require .running "step"
  Call.modify fun e =>
    let r := stepSlots nowNs ticks 0 e.slots
    { e with stepCount := e.stepCount + 1, slots := r.1, trace := e.trace ++ r.2 }

end AuvMiddleware.Mw
