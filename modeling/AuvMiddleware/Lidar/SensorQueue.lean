import AuvMiddleware.Lib.Runs
import Mathlib.Data.PNat.Notation
import Mathlib.Data.PNat.Basic

/-!
# The queue between the driver's thread and a poll (sick_scan_source.cpp:179-193, 318-334)

`SickScanSource` queues scans and `SickCloudSource` clouds, with the same code. Each delivery and
each poll holds the mutex, so a run of the two threads is a list of whole steps.
-/

namespace AuvMiddleware.Lidar
open Runs

variable {α : Type}

/-- `queue`, `dropped` and `cfg.queue_capacity`, which the constructor refuses when it is 0. -/
structure SensorQueue (α : Type) where
  capacity : ℕ+
  queue : List α := []
  dropped : ℕ := 0

/-- `while (queue.size() >= cfg.queue_capacity)`: the queue after the loop, and the items popped. -/
def makeRoom (capacity : ℕ) : List α → List α × ℕ
  | [] => ([], 0)
  | x :: rest =>
    if capacity ≤ (x :: rest).length then
      ((makeRoom capacity rest).1, (makeRoom capacity rest).2 + 1)
    else
      (x :: rest, 0)

/-- `Impl::enqueue` (`sick_scan_source.cpp:179-193`, `sick_cloud_source.cpp:150-161`), once the
message has been accepted. -/
def SensorQueue.enqueue (q : SensorQueue α) (item : α) : SensorQueue α :=
  let (queue, popped) := makeRoom q.capacity q.queue
  { q with queue := queue ++ [item], dropped := q.dropped + popped }

/-- `poll_scan` and `poll_cloud` at the end of their wait; `none` is a timeout. -/
def SensorQueue.poll (q : SensorQueue α) : Option α × SensorQueue α :=
  match q.queue with
  | [] => (none, q)
  | item :: rest => (some item, { q with queue := rest })

theorem makeRoom_eq (capacity : ℕ) (hc : 0 < capacity) (queue : List α) :
    makeRoom capacity queue =
      (queue.drop (queue.length + 1 - capacity), queue.length + 1 - capacity) := by
  induction queue with
  | nil =>
    have h : 0 + 1 - capacity = 0 := by omega
    simp [makeRoom, h]
  | cons x rest ih =>
    unfold makeRoom
    rw [List.length_cons]
    split
    · have h : rest.length + 1 + 1 - capacity = rest.length + 1 - capacity + 1 := by omega
      rw [ih, h, List.drop_succ_cons]
    · have h : rest.length + 1 + 1 - capacity = 0 := by omega
      rw [h]
      rfl

theorem enqueue_room {q : SensorQueue α} (h : q.queue.length < q.capacity) (item : α) :
    q.enqueue item = { q with queue := q.queue ++ [item] } := by
  have hroom : q.queue.length + 1 - q.capacity = 0 := by omega
  simp [SensorQueue.enqueue, makeRoom_eq _ q.capacity.pos, hroom]

theorem enqueue_full {q : SensorQueue α} {x : α} {rest : List α} (hq : q.queue = x :: rest)
    (h : q.queue.length = q.capacity) (item : α) :
    q.enqueue item = { q with queue := rest ++ [item], dropped := q.dropped + 1 } := by
  have hroom : q.queue.length + 1 - q.capacity = 1 := by omega
  have hpop : makeRoom q.capacity q.queue = (rest, 1) := by
    rw [makeRoom_eq _ q.capacity.pos, hroom, hq]
    rfl
  simp [SensorQueue.enqueue, hpop]

/-! ### Two threads on one queue -/

/-- How a delivered item left the queue; a dropped one with the number of newer deliveries that
had arrived by then. -/
inductive Fate where
  | polled
  | dropped (newer : ℕ)
  deriving DecidableEq

structure Sensor (α : Type) where
  queue : SensorQueue α
  deliveries : List α := []
  polled : List α := []
  gone : List (α × Fate) := []

inductive SensorStep (α : Type) where
  | deliver (item : α)
  | poll

def Sensor.step (s : Sensor α) : SensorStep α → Sensor α
  | .deliver item =>
    let queue := s.queue.enqueue item
    let popped := s.queue.queue.take (queue.dropped - s.queue.dropped)
    { s with
      queue := queue
      deliveries := s.deliveries ++ [item]
      gone := s.gone ++ popped.zipIdx.map fun (x, j) =>
        (x, .dropped (s.deliveries.length - (s.gone.length + j))) }
  | .poll =>
    match s.queue.poll with
    | (none, _) => s
    | (some item, queue) =>
      { s with
        queue := queue
        polled := s.polled ++ [item]
        gone := s.gone ++ [(item, .polled)] }

def wasPolled (x : α × Fate) : Bool := decide (x.2 = .polled)

structure SensorInv (capacity : ℕ+) (s : Sensor α) : Prop where
  sameCapacity : s.queue.capacity = capacity
  bounded : s.queue.queue.length ≤ capacity
  order : s.deliveries = s.gone.map Prod.fst ++ s.queue.queue
  polled : s.polled = (s.gone.filter wasPolled).map Prod.fst
  dropped : s.gone.length = s.polled.length + s.queue.dropped
  overtaken : ∀ x newer, (x, Fate.dropped newer) ∈ s.gone → newer = capacity

theorem deliver_room {s : Sensor α} (h : s.queue.queue.length < s.queue.capacity) (item : α) :
    s.step (.deliver item) = { s with
      queue := { s.queue with queue := s.queue.queue ++ [item] }
      deliveries := s.deliveries ++ [item] } := by
  simp [Sensor.step, enqueue_room h]

/-- The front goes, and by now as many items have been delivered after it as the queue holds. -/
theorem deliver_full {capacity : ℕ+} {s : Sensor α} (hi : SensorInv capacity s) {x : α}
    {rest : List α} (hq : s.queue.queue = x :: rest) (hfull : s.queue.queue.length = capacity)
    (item : α) :
    s.step (.deliver item) = { s with
      queue := { s.queue with queue := rest ++ [item], dropped := s.queue.dropped + 1 }
      deliveries := s.deliveries ++ [item]
      gone := s.gone ++ [(x, .dropped capacity)] } := by
  have hnewer : s.deliveries.length - s.gone.length = capacity := by
    rw [hi.order, List.length_append, List.length_map, hfull]
    omega
  have henqueue := enqueue_full hq (by rw [hfull, hi.sameCapacity]) item
  have hpopped : s.queue.dropped + 1 - s.queue.dropped = 1 := by omega
  simp [Sensor.step, henqueue, hpopped, hq, hnewer]

theorem SensorInv.overtaken_append {capacity : ℕ+} {s : Sensor α} (hi : SensorInv capacity s)
    {x : α} {fate : Fate} (hfate : ∀ newer, fate = .dropped newer → newer = capacity) :
    ∀ y newer, (y, Fate.dropped newer) ∈ s.gone ++ [(x, fate)] → newer = capacity := by
  intro y newer hy
  rcases List.mem_append.mp hy with hy | hy
  · exact hi.overtaken y newer hy
  · exact hfate newer (Prod.ext_iff.mp (List.mem_singleton.mp hy)).2.symm

theorem sensor_deliver_inv {capacity : ℕ+} {s : Sensor α} (hi : SensorInv capacity s) (item : α) :
    SensorInv capacity (s.step (.deliver item)) := by
  have hcapacity := hi.sameCapacity
  have hdropped := hi.dropped
  by_cases hroom : s.queue.queue.length < s.queue.capacity
  · rw [deliver_room hroom]
    rw [hcapacity] at hroom
    exact {
      sameCapacity := hcapacity
      bounded := by
        simp only [List.length_append, List.length_singleton]
        omega
      order := by rw [hi.order, List.append_assoc]
      polled := hi.polled
      dropped := hi.dropped
      overtaken := hi.overtaken }
  · -- the queue is exactly full: its front goes
    have hfull : s.queue.queue.length = capacity := by
      have := hi.bounded
      rw [hcapacity] at hroom
      omega
    cases hq : s.queue.queue with
    | nil =>
      rw [hq] at hfull
      exact absurd hfull.symm capacity.ne_zero
    | cons x rest =>
      rw [deliver_full hi hq hfull]
      rw [hq, List.length_cons] at hfull
      exact {
        sameCapacity := hcapacity
        bounded := by
          simp only [List.length_append, List.length_singleton]
          omega
        order := by simp [hi.order, hq]
        polled := by simpa [wasPolled] using hi.polled
        dropped := by
          simp only [List.length_append, List.length_singleton]
          omega
        overtaken := hi.overtaken_append fun newer h => (Fate.dropped.inj h).symm }

theorem sensor_poll_inv {capacity : ℕ+} {s : Sensor α} (hi : SensorInv capacity s) :
    SensorInv capacity (s.step .poll) := by
  cases hq : s.queue.queue with
  | nil =>
    have hstep : s.step .poll = s := by simp [Sensor.step, SensorQueue.poll, hq]
    rw [hstep]
    exact hi
  | cons x rest =>
    have hstep : s.step .poll = { s with
        queue := { s.queue with queue := rest }
        polled := s.polled ++ [x]
        gone := s.gone ++ [(x, .polled)] } := by
      simp [Sensor.step, SensorQueue.poll, hq]
    have hbounded := hi.bounded
    have hdropped := hi.dropped
    rw [hq, List.length_cons] at hbounded
    rw [hstep]
    exact {
      sameCapacity := hi.sameCapacity
      bounded := by dsimp only; omega
      order := by simp [hi.order, hq]
      polled := by simp [wasPolled, hi.polled]
      dropped := by
        simp only [List.length_append, List.length_singleton]
        omega
      overtaken := hi.overtaken_append nofun }

theorem sensor_run_inv (capacity : ℕ+) (steps : List (SensorStep α)) :
    SensorInv capacity (steps.foldl Sensor.step { queue := { capacity := capacity } }) := by
  refine run_invariant ?_ ?_ (run_total (f := Sensor.step) _ steps)
  · intro s i s' hi h
    cases h
    cases i with
    | deliver item => exact sensor_deliver_inv hi item
    | poll => exact sensor_poll_inv hi
  · exact ⟨rfl, Nat.zero_le _, rfl, rfl, rfl, fun _ _ h => absurd h List.not_mem_nil⟩

/-- In every interleaving of deliveries and polls the queue is the newest deliveries, and what
left it did so in order: polled, or overtaken by as many deliveries as the queue holds. -/
theorem sensor_newest_wins (capacity : ℕ+) (steps : List (SensorStep α)) :
    ∃ s, run (fun s i => some (Sensor.step s i)) { queue := { capacity := capacity } } steps =
        some s ∧
      s.queue.queue.length ≤ capacity ∧
      s.deliveries.length = s.polled.length + s.queue.dropped + s.queue.queue.length ∧
      s.deliveries = s.gone.map Prod.fst ++ s.queue.queue ∧
      s.polled = (s.gone.filter wasPolled).map Prod.fst ∧
      s.polled.Sublist s.deliveries ∧
      ∀ x newer, (x, Fate.dropped newer) ∈ s.gone → newer = capacity := by
  have hi := sensor_run_inv capacity steps
  refine ⟨_, run_total _ steps, hi.bounded, ?_, hi.order, hi.polled, ?_, hi.overtaken⟩
  · have hlength := congrArg List.length hi.order
    rw [List.length_append, List.length_map, hi.dropped] at hlength
    exact hlength
  · rw [hi.order, hi.polled]
    exact (List.Sublist.map Prod.fst List.filter_sublist).trans (List.sublist_append_left ..)

end AuvMiddleware.Lidar
