import AuvMiddleware.Lib.Runs
import AuvMiddleware.Lidar.CloudWire

/-!
# Live streams (publisher.cpp:46-58, subscriber.cpp:46-66, cloud_publisher.cpp:34-42,
cloud_subscriber.cpp:39-56)

`ScanPublisher` and `ScanSubscriber`, and the same pair for clouds: the code is the same but for
the codec. Both ends keep one message object and use it again for every sample.
-/

namespace AuvMiddleware.Lidar
open Runs

variable {α μ : Type}

/-- A sample type on the wire. The encoder overwrites whatever the message held before, and the
decoder takes out what the encoder put in. -/
structure Codec (α μ : Type) where
  fresh : μ
  toProto : α → μ → μ
  fromProto : μ → α
  serializeAsString : μ → Bytes
  parseFromString : Bytes → Bool × μ
  overwrites : ∀ x m, toProto x m = toProto x fresh
  restores : ∀ x, fromProto (toProto x fresh) = x

def scanCodec (P : Protobuf) : Codec Scan LidarScan where
  fresh := {}
  toProto := toProto
  fromProto := fromProto
  serializeAsString := P.serializeAsString
  parseFromString := P.parseFromString
  overwrites := toProto_reuse
  restores scan := fromProto_toProto scan {}

def cloudCodec (P : CloudProtobuf) : Codec PointCloud LidarPointCloud where
  fresh := {}
  toProto := PointCloud.toProto
  fromProto := PointCloud.fromProto
  serializeAsString := P.serializeAsString
  parseFromString := P.parseFromString
  overwrites _ _ := rfl
  restores _ := rfl

namespace Codec

def Undoes (C : Codec α μ) (x : α) : Prop :=
  C.parseFromString (C.serializeAsString (C.toProto x C.fresh)) = (true, C.toProto x C.fresh)

/-- What a payload says to a subscriber, `none` for one that does not parse. -/
def decode (C : Codec α μ) (payload : Bytes) : Option α :=
  match C.parseFromString payload with
  | (true, wire) => some (C.fromProto wire)
  | (false, _) => none

end Codec

structure LivePublisher (μ : Type) where
  wire : μ

/-- `ScanPublisher::publish` and `CloudPublisher::publish` up to the send: the payload. -/
def LivePublisher.publish (C : Codec α μ) (x : α) (p : LivePublisher μ) :
    Bytes × LivePublisher μ :=
  let wire := C.toProto x p.wire
  (C.serializeAsString wire, { wire := wire })

structure LiveSubscriber (μ : Type) where
  wire : μ
  malformed : ℕ := 0

/-- `poll_scan` and `poll_cloud` on what `receive` returned: the answer, and `out` afterwards. -/
def LiveSubscriber.poll (C : Codec α μ) (received : Option Bytes) (out : α)
    (s : LiveSubscriber μ) : (Bool × α) × LiveSubscriber μ :=
  match received with
  | none => ((false, out), s)
  | some payload =>
    match C.parseFromString payload with
    | (false, wire) => ((false, out), { wire := wire, malformed := s.malformed + 1 })
    | (true, wire) => ((true, C.fromProto wire), { s with wire := wire })

/-! ### A publisher and a subscriber with a lossy connection between them -/

/-- `transit` is on its way in order; `delivered` are the samples that were not lost, and `junk`
counts what others put on the topic that does not parse. -/
structure LiveFeed (α μ : Type) where
  publisher : LivePublisher μ
  subscriber : LiveSubscriber μ
  transit : List Bytes := []
  delivered : List α := []
  junk : ℕ := 0
  returned : List α := []

/-- A publish that throws leaves its message object in any state, and sends nothing. -/
inductive LiveFeedStep (α μ : Type) where
  | publish (x : α) (lost : Bool)
  | publishThrows (wire : μ)
  | junk (payload : Bytes)
  | poll (ready : Bool) (out : α)

def LiveFeed.start (C : Codec α μ) : LiveFeed α μ :=
  { publisher := { wire := C.fresh }, subscriber := { wire := C.fresh } }

def LiveFeed.poll (C : Codec α μ) (received : Option Bytes) (out : α) (s : LiveFeed α μ) :
    LiveFeed α μ :=
  match s.subscriber.poll C received out with
  | ((true, value), subscriber) =>
    { s with subscriber := subscriber, returned := s.returned ++ [value] }
  | ((false, _), subscriber) => { s with subscriber := subscriber }

def LiveFeed.step (C : Codec α μ) (s : LiveFeed α μ) :
    LiveFeedStep α μ → Option (LiveFeed α μ)
  | .publish x lost =>
    let (payload, publisher) := s.publisher.publish C x
    if lost then
      some { s with publisher := publisher }
    else
      some { s with
        publisher := publisher
        transit := s.transit ++ [payload]
        delivered := s.delivered ++ [x] }
  | .publishThrows wire => some { s with publisher := { wire := wire } }
  | .junk payload =>
    match C.decode payload with
    | none => some { s with transit := s.transit ++ [payload], junk := s.junk + 1 }
    | some _ => none
  | .poll ready out =>
    match ready, s.transit with
    | true, payload :: rest => some ({ s with transit := rest }.poll C (some payload) out)
    | true, [] => some (s.poll C none out)
    | false, _ => some (s.poll C none out)

/-- What was returned and what is still under way are the delivered samples, in order; every
undecodable payload is counted once it is polled; a poll that returns false leaves `out` alone. -/
structure LiveFeed.Faithful (C : Codec α μ) (s : LiveFeed α μ) : Prop where
  samples : s.returned ++ s.transit.filterMap C.decode = s.delivered
  malformed : s.subscriber.malformed +
    (s.transit.filter fun payload => (C.decode payload).isNone).length = s.junk
  undecodable : ∀ payload out, C.decode payload = none →
    (s.subscriber.poll C (some payload) out).1.1 = false ∧
      (s.subscriber.poll C (some payload) out).2.malformed = s.subscriber.malformed + 1
  untouched : ∀ received out, (s.subscriber.poll C received out).1.1 = false →
    (s.subscriber.poll C received out).1.2 = out

section Stream

variable {C : Codec α μ}

/-- Whatever an earlier sample left in the message, the payload is that of this one alone. -/
theorem decode_serialized {x : α} (h : C.Undoes x) (wire : μ) :
    C.decode (C.serializeAsString (C.toProto x wire)) = some x := by
  unfold Codec.Undoes at h
  simp only [Codec.decode, C.overwrites x wire, h, C.restores]

theorem poll_none (out : α) (s : LiveSubscriber μ) : s.poll C none out = ((false, out), s) := rfl

theorem poll_decoded {payload : Bytes} {x : α} (h : C.decode payload = some x) (out : α)
    (s : LiveSubscriber μ) :
    ∃ wire, s.poll C (some payload) out = ((true, x), { s with wire := wire }) := by
  unfold Codec.decode at h
  unfold LiveSubscriber.poll
  split at h
  · case h_1 wire hparse =>
      cases h
      exact ⟨wire, by simp only [hparse]⟩
  · cases h

theorem poll_undecodable {payload : Bytes} (h : C.decode payload = none) (out : α)
    (s : LiveSubscriber μ) : ∃ wire, s.poll C (some payload) out =
      ((false, out), { wire := wire, malformed := s.malformed + 1 }) := by
  unfold Codec.decode at h
  unfold LiveSubscriber.poll
  split at h
  · cases h
  · case h_2 wire hparse => exact ⟨wire, by simp only [hparse]⟩

theorem poll_untouched (s : LiveSubscriber μ) (received : Option Bytes) (out : α)
    (h : (s.poll C received out).1.1 = false) : (s.poll C received out).1.2 = out := by
  cases received with
  | none => rfl
  | some payload =>
    cases hd : C.decode payload with
    | none =>
      obtain ⟨wire, hp⟩ := poll_undecodable hd out s
      rw [hp]
    | some x =>
      obtain ⟨wire, hp⟩ := poll_decoded hd out s
      rw [hp] at h
      cases h

structure StreamInv (C : Codec α μ) (s : LiveFeed α μ) : Prop where
  samples : s.returned ++ s.transit.filterMap C.decode = s.delivered
  malformed : s.subscriber.malformed +
    (s.transit.filter fun payload => (C.decode payload).isNone).length = s.junk

theorem StreamInv.faithful {s : LiveFeed α μ} (hi : StreamInv C s) : s.Faithful C where
  samples := hi.samples
  malformed := hi.malformed
  undecodable payload out h := by
    obtain ⟨wire, hp⟩ := poll_undecodable h out s.subscriber
    rw [hp]
    exact ⟨rfl, rfl⟩
  untouched := poll_untouched s.subscriber

theorem feed_poll_inv {s : LiveFeed α μ} (hi : StreamInv C s) {payload : Bytes}
    {rest : List Bytes} (htransit : s.transit = payload :: rest) (out : α) :
    StreamInv C ({ s with transit := rest }.poll C (some payload) out) := by
  have hsamples := hi.samples
  have hmalformed := hi.malformed
  rw [htransit] at hsamples hmalformed
  cases hd : C.decode payload with
  | none =>
    obtain ⟨wire, hp⟩ := poll_undecodable hd out s.subscriber
    simp only [LiveFeed.poll, hp]
    constructor
    · simpa [hd] using hsamples
    · simp only [List.filter_cons, hd, Option.isNone_none, if_true, List.length_cons] at hmalformed
      dsimp only
      omega
  | some x =>
    obtain ⟨wire, hp⟩ := poll_decoded hd out s.subscriber
    simp only [LiveFeed.poll, hp]
    constructor
    · simpa [hd] using hsamples
    · simpa [hd] using hmalformed

theorem stream_step_inv (s : LiveFeed α μ) (i : LiveFeedStep α μ) (s' : LiveFeed α μ)
    (hi : StreamInv C s) (hu : ∀ x ∈ s'.delivered, C.Undoes x) (h : s.step C i = some s') :
    StreamInv C s' := by
  have hsamples := hi.samples
  have hmalformed := hi.malformed
  cases i with
  | publish x lost =>
    cases lost with
    | true =>
      cases h
      exact ⟨hsamples, hmalformed⟩
    | false =>
      cases h
      have hx := decode_serialized (hu x (by simp)) s.publisher.wire
      constructor
      · simp [hx, ← hsamples]
      · simpa [hx] using hmalformed
  | publishThrows wire =>
    cases h
    exact ⟨hsamples, hmalformed⟩
  | junk payload =>
    unfold LiveFeed.step at h
    dsimp only at h
    split at h
    · case h_1 hd =>
        cases h
        constructor
        · simpa [hd] using hsamples
        · simp only [List.filter_append, List.length_append, hd, Option.isNone_none,
            List.filter_cons_of_pos, List.filter_nil, List.length_singleton]
          omega
    · cases h
  | poll ready out =>
    have hidle : StreamInv C (s.poll C none out) := ⟨hsamples, hmalformed⟩
    unfold LiveFeed.step at h
    dsimp only at h
    split at h
    · case h_1 payload rest htransit =>
        cases h
        exact feed_poll_inv hi htransit out
    · cases h
      exact hidle
    · cases h
      exact hidle

theorem poll_delivered (received : Option Bytes) (out : α) (s : LiveFeed α μ) :
    (s.poll C received out).delivered = s.delivered := by
  unfold LiveFeed.poll
  split <;> rfl

theorem stream_step_delivered {s s' : LiveFeed α μ} {i : LiveFeedStep α μ}
    (h : s.step C i = some s') : s.delivered ⊆ s'.delivered := by
  cases i with
  | publish x lost =>
    cases lost with
    | true =>
      cases h
      exact List.Subset.refl _
    | false =>
      cases h
      exact List.subset_append_left ..
  | publishThrows wire =>
    cases h
    exact List.Subset.refl _
  | junk payload =>
    unfold LiveFeed.step at h
    dsimp only at h
    split at h
    · cases h
      exact List.Subset.refl _
    · cases h
  | poll ready out =>
    unfold LiveFeed.step at h
    dsimp only at h
    split at h <;> cases h <;> rw [poll_delivered] <;> exact List.Subset.refl _

/-- The codec is trusted on what a run delivered only, so each state is judged by its own list. -/
def StreamKept (C : Codec α μ) (s : LiveFeed α μ) : Prop :=
  (∀ x ∈ s.delivered, C.Undoes x) → StreamInv C s

theorem stream_run_kept {steps : List (LiveFeedStep α μ)} {s : LiveFeed α μ}
    (h : run (LiveFeed.step C) (LiveFeed.start C) steps = some s) : StreamKept C s := by
  have hstart : StreamKept C (LiveFeed.start C) := fun _ => ⟨rfl, rfl⟩
  refine run_invariant ?_ hstart h
  intro s i s' hkept h hu
  have hi : StreamInv C s := hkept fun x hx => hu x (stream_step_delivered h hx)
  exact stream_step_inv s i s' hi hu h

end Stream

/-- Scans and clouds come out of the far end as they went in, one for one. -/
theorem live_streams_faithful (P : Protobuf) (Q : CloudProtobuf)
    {scanSteps : List (LiveFeedStep Scan LidarScan)} {s : LiveFeed Scan LidarScan}
    {cloudSteps : List (LiveFeedStep PointCloud LidarPointCloud)}
    {c : LiveFeed PointCloud LidarPointCloud}
    (hs : run (LiveFeed.step (scanCodec P)) (LiveFeed.start (scanCodec P)) scanSteps = some s)
    (hc : run (LiveFeed.step (cloudCodec Q)) (LiveFeed.start (cloudCodec Q)) cloudSteps = some c)
    (hP : ∀ scan ∈ s.delivered, (scanCodec P).Undoes scan)
    (hQ : ∀ cloud ∈ c.delivered, (cloudCodec Q).Undoes cloud) :
    s.Faithful (scanCodec P) ∧ c.Faithful (cloudCodec Q) :=
  ⟨(stream_run_kept hs hP).faithful, (stream_run_kept hc hQ).faithful⟩

def scanTraffic : List (LiveFeedStep Scan LidarScan) :=
  [.publish { Scan.fresh with ranges := [1, 2, 3], intensities := [4, 5, 6] } false,
    .publish { Scan.fresh with stampNs := 7 } true, .junk (bytes [8]),
    .publish { Scan.fresh with ranges := [9] } false,
    .poll true Scan.fresh, .poll true Scan.fresh, .poll true Scan.fresh, .poll true Scan.fresh]

def cloudTraffic : List (LiveFeedStep PointCloud LidarPointCloud) :=
  [.publish { PointCloud.fresh with ranges := [1], azimuths := [2], elevations := [3] } false,
    .poll false PointCloud.fresh, .poll true PointCloud.fresh]

theorem live_streams_faithful_traffic : ∃ s c,
    run (LiveFeed.step (scanCodec wireFormat)) (LiveFeed.start (scanCodec wireFormat)) scanTraffic =
      some s ∧
    run (LiveFeed.step (cloudCodec cloudWireFormat)) (LiveFeed.start (cloudCodec cloudWireFormat))
      cloudTraffic = some c ∧
    s.returned = [{ Scan.fresh with ranges := [1, 2, 3], intensities := [4, 5, 6] },
      { Scan.fresh with ranges := [9] }] ∧
    c.returned = [{ PointCloud.fresh with ranges := [1], azimuths := [2], elevations := [3] }] ∧
    s.Faithful (scanCodec wireFormat) ∧ c.Faithful (cloudCodec cloudWireFormat) :=
  ⟨_, _, rfl, rfl, by decide, by decide,
    live_streams_faithful wireFormat cloudWireFormat
      (show run (LiveFeed.step _) (LiveFeed.start _) scanTraffic = some _ from rfl)
      (show run (LiveFeed.step _) (LiveFeed.start _) cloudTraffic = some _ from rfl)
      (by unfold Codec.Undoes; decide) (by unfold Codec.Undoes; decide)⟩

end AuvMiddleware.Lidar
