import AuvMiddleware.Lidar.LiveStream
import AuvMiddleware.Lidar.SensorQueue
import AuvMiddleware.Lidar.VendorCloud

/-!
# Sources of clouds (sick_cloud_source.cpp:150-161, 234-247, cloud_subscriber.cpp:39-56)

A consumer sees an `ICloudSource`: the driver of a sensor, or a subscription.
-/

namespace AuvMiddleware.Lidar
open Runs

structure SickCloudSource where
  cfg : CloudConfig
  queue : SensorQueue PointCloud
  lastStampNs : ℤ := 0
  overflow : Bool := false

/-- `SickCloudSource::Impl::enqueue` on a vendor message; what the conversion throws goes through. -/
def SickCloudSource.enqueue (msg : PointCloudMsg) (s : SickCloudSource) :
    Except Exn Unit × SickCloudSource :=
  let converted := toCloud s.cfg msg s.lastStampNs
  let s := { s with
    lastStampNs := converted.lastStampNs, overflow := s.overflow || converted.overflow }
  match converted.result with
  | .error e => (.error e, s)
  | .ok none => (.ok (), s)
  | .ok (some cloud) => (.ok (), { s with queue := s.queue.enqueue cloud })

def SickCloudSource.poll (out : PointCloud) (s : SickCloudSource) :
    (Bool × PointCloud) × SickCloudSource :=
  match s.queue.poll with
  | (none, _) => ((false, out), s)
  | (some cloud, queue) => ((true, cloud), { s with queue := queue })

inductive CloudSource where
  | sick (s : SickCloudSource)
  | subscriber (s : LiveSubscriber LidarPointCloud)

inductive CloudSourceConfig where
  | sick (cfg : CloudConfig) (queueCapacity : ℕ+)
  | subscriber

def CloudSource.create : CloudSourceConfig → CloudSource
  | .sick cfg queueCapacity => .sick { cfg := cfg, queue := { capacity := queueCapacity } }
  | .subscriber => .subscriber { wire := {} }

/-- `received` is what the subscription's socket has; a driver's source takes from its queue. -/
def CloudSource.poll (P : CloudProtobuf) (received : Option Bytes) (out : PointCloud) :
    CloudSource → (Bool × PointCloud) × CloudSource
  | .sick s => ((s.poll out).1, .sick (s.poll out).2)
  | .subscriber s =>
    ((s.poll (cloudCodec P) received out).1, .subscriber (s.poll (cloudCodec P) received out).2)

inductive CloudStep where
  | deliver (msg : PointCloudMsg)
  | poll (received : Option Bytes) (out : PointCloud)

def CloudSource.step (P : CloudProtobuf) : CloudSource → CloudStep → Option CloudSource
  | .sick s, .deliver msg => some (.sick (s.enqueue msg).2)
  | .subscriber _, .deliver _ => none
  | s, .poll received out => some (s.poll P received out).2

/-! ### What a consumer may do with a cloud -/

/-- `to_xyz` (`point_cloud.hpp:45-51`) over the operations on `float`; `none` is an index behind
the end of an array. -/
def toXyz (mul : F32 → F32 → F32) (cos sin : F32 → F32) (cloud : PointCloud) (i : ℕ) :
    Option (F32 × F32 × F32) := do
  let r ← cloud.ranges[i]?
  let az ← cloud.azimuths[i]?
  let el ← cloud.elevations[i]?
  let horizontal := mul r (cos el)
  some (mul horizontal (cos az), mul horizontal (sin az), mul r (sin el))

/-- Every index below `size()` is one of every array the consumer reads. -/
theorem PointCloud.WellFormed.indexed {cloud : PointCloud} (h : cloud.WellFormed) {i : ℕ}
    (hi : i < cloud.size) (mul : F32 → F32 → F32) (cos sin : F32 → F32) :
    (toXyz mul cos sin cloud i).isSome = true ∧
      (cloud.intensities ≠ [] → i < cloud.intensities.length) := by
  obtain ⟨hazimuths, helevations, hintensities⟩ := h
  unfold PointCloud.size at hi
  constructor
  · have haz : i < cloud.azimuths.length := by omega
    have hel : i < cloud.elevations.length := by omega
    simp [toXyz, List.getElem?_eq_getElem hi, List.getElem?_eq_getElem haz,
      List.getElem?_eq_getElem hel]
  · intro hne
    have := List.length_pos_iff.mpr hne
    omega

/-! ### Runs -/

def CloudStep.HandsOut (P : CloudProtobuf) (s : CloudSource) : CloudStep → Prop
  | .poll received out => (s.poll P received out).1.1 = true → (s.poll P received out).1.2.WellFormed
  | .deliver _ => True

def LidarPointCloud.Parallel (m : LidarPointCloud) : Prop :=
  m.azimuths.length = m.ranges.length ∧ m.elevations.length = m.ranges.length ∧
    (m.intensities.length = 0 ∨ m.intensities.length = m.ranges.length)

/-- What a subscription receives is parallel, if it parses at all. -/
def CloudStep.ReceivesParallel (P : CloudProtobuf) (s : CloudSource) : CloudStep → Prop
  | .poll (some payload) _ =>
    match s with
    | .subscriber _ => ∀ m, P.parseFromString payload = (true, m) → m.Parallel
    | .sick _ => True
  | _ => True

def CloudSource.Queued : CloudSource → Prop
  | .sick s => ∀ cloud ∈ s.queue.queue, cloud.WellFormed
  | .subscriber _ => True

theorem mem_enqueue {α : Type} {q : SensorQueue α} {item x : α} (h : x ∈ (q.enqueue item).queue) :
    x ∈ q.queue ∨ x = item := by
  simp only [SensorQueue.enqueue, makeRoom_eq _ q.capacity.pos] at h
  rcases List.mem_append.mp h with h | h
  · exact .inl (List.mem_of_mem_drop h)
  · exact .inr (List.mem_singleton.mp h)

theorem sick_enqueue_queued {s : SickCloudSource} (h : ∀ cloud ∈ s.queue.queue, cloud.WellFormed)
    (msg : PointCloudMsg) : ∀ cloud ∈ (s.enqueue msg).2.queue.queue, cloud.WellFormed := by
  intro cloud hc
  unfold SickCloudSource.enqueue at hc
  dsimp only at hc
  split at hc
  · exact h cloud hc
  · exact h cloud hc
  · case h_3 new hnew =>
      rcases mem_enqueue hc with hc | rfl
      · exact h cloud hc
      · exact toCloud_wellFormed hnew

theorem sick_poll_queued {s : SickCloudSource} (h : ∀ cloud ∈ s.queue.queue, cloud.WellFormed)
    (out : PointCloud) :
    (∀ cloud ∈ (s.poll out).2.queue.queue, cloud.WellFormed) ∧
      ((s.poll out).1.1 = true → (s.poll out).1.2.WellFormed) := by
  unfold SickCloudSource.poll SensorQueue.poll
  cases hq : s.queue.queue with
  | nil => simp [hq]
  | cons cloud rest =>
    rw [hq] at h
    exact ⟨fun c hc => h c (List.mem_cons_of_mem _ hc), fun _ => h cloud (List.mem_cons_self ..)⟩

theorem cloud_step_queued (P : CloudProtobuf) (s : CloudSource) (i : CloudStep) (s' : CloudSource)
    (hs : s.Queued) (h : s.step P i = some s') : s'.Queued := by
  cases s with
  | subscriber s =>
    cases i with
    | deliver msg => cases h
    | poll received out =>
      cases h
      trivial
  | sick s =>
    cases i with
    | deliver msg =>
      cases h
      exact sick_enqueue_queued hs msg
    | poll received out =>
      cases h
      exact (sick_poll_queued hs out).1

theorem handsOut_iff (P : CloudProtobuf) (s : CloudSource) (i : CloudStep) (hs : s.Queued) :
    i.HandsOut P s ↔ i.ReceivesParallel P s := by
  cases i with
  | deliver msg => exact Iff.rfl
  | poll received out =>
    cases s with
    | sick s =>
      have hpoll := (sick_poll_queued hs out).2
      cases received with
      | none => exact iff_of_true hpoll trivial
      | some payload => exact iff_of_true hpoll trivial
    | subscriber s =>
      cases received with
      | none => simp [CloudStep.HandsOut, CloudStep.ReceivesParallel, CloudSource.poll, poll_none]
      | some payload =>
        unfold CloudStep.HandsOut CloudStep.ReceivesParallel CloudSource.poll LiveSubscriber.poll
        cases hparse : P.parseFromString payload with
        | mk ok m =>
          cases ok with
          | false => simp [cloudCodec, hparse]
          | true =>
            simp [cloudCodec, hparse, PointCloud.fromProto, PointCloud.WellFormed,
              LidarPointCloud.Parallel]

/-- A driver's source never hands out a cloud with arrays of different lengths; a subscription
does so exactly when it is sent one. -/
theorem cloud_sources_wellFormed_iff (P : CloudProtobuf) (cfg : CloudSourceConfig)
    (steps : List CloudStep) :
    Throughout (CloudSource.step P) (fun s i => i.HandsOut P s) (.create cfg) steps ↔
      Throughout (CloudSource.step P) (fun s i => i.ReceivesParallel P s) (.create cfg) steps := by
  refine throughout_congr CloudSource.Queued
    (fun s i s' _ hs _ h => cloud_step_queued P s i s' hs h)
    (fun s i _ hs => handsOut_iff P s i hs) (A := fun _ => True) (fun _ _ => trivial) ?_
  cases cfg with
  | sick cfg queueCapacity => exact fun cloud hc => absurd hc List.not_mem_nil
  | subscriber => trivial

/-- A message of one range and nothing else: tag 6, four bytes. -/
def lonelyRange : Bytes := bytes [50, 4, 0, 0, 128, 63]

theorem lonelyRange_handedOut :
    (CloudSource.poll cloudWireFormat (some lonelyRange) PointCloud.fresh
      (.create .subscriber)).1 = (true, { PointCloud.fresh with ranges := [0x3f800000#32] }) ∧
    (∀ mul cos sin,
      toXyz mul cos sin { PointCloud.fresh with ranges := [0x3f800000#32] } 0 = none) ∧
    ¬ Throughout (CloudSource.step cloudWireFormat) (fun s i => i.HandsOut cloudWireFormat s)
      (.create .subscriber) [.poll (some lonelyRange) PointCloud.fresh] := by
  refine ⟨by decide, fun _ _ _ => rfl, fun h => ?_⟩
  exact absurd (h.1 (by decide)) (by decide)

end AuvMiddleware.Lidar
