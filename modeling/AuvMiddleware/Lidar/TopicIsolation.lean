import AuvMiddleware.Lidar.LiveStream
import AuvMiddleware.Mw.Subscriber

/-!
# What a subscriber's topic keeps out (subscriber.cpp:12-66, cloud_subscriber.cpp:11-56)

The constructor subscribes to the topic, and ZeroMQ takes a subscription for a prefix. Beside the
samples a poll returned stands the topic frame each came with.
-/

namespace AuvMiddleware.Lidar
open Runs Mw

variable {α μ : Type}

/-- A `ScanSubscriber` or `CloudSubscriber`, its socket included. -/
structure TopicFeed (α μ : Type) where
  sock : SubSocket
  subscriber : LiveSubscriber μ
  returned : List (Bytes × α) := []

/-- A message of publishers, on any topic, or a poll; what its two reads come to is given. -/
inductive TopicStep (α : Type) where
  | arrive (topic payload : Bytes)
  | poll (first second : RecvResult) (out : α)

def TopicFeed.start (C : Codec α μ) (topic : Bytes) : TopicFeed α μ :=
  { sock := { prefixes := [topic] }, subscriber := { wire := C.fresh } }

def TopicFeed.poll (C : Codec α μ) (received : Option Message) (out : α) (s : TopicFeed α μ) :
    TopicFeed α μ :=
  match received, s.subscriber.poll C (received.map Message.payload) out with
  | some m, ((true, value), subscriber) =>
    { s with subscriber := subscriber, returned := s.returned ++ [(m.topic, value)] }
  | _, (_, subscriber) => { s with subscriber := subscriber }

def TopicFeed.step (C : Codec α μ) (s : TopicFeed α μ) : TopicStep α → Option (TopicFeed α μ)
  | .arrive topic payload => some { s with sock := s.sock.arrive ⟨topic, [payload]⟩ }
  | .poll first second out =>
    let (received, sock) := s.sock.receive first second
    some ({ s with sock := sock }.poll C received out)

/-- Whatever arrives and however it is polled, no sample sent on `other` is returned to a subscriber
constructed for `topic`, unless the two are the same. -/
def KeepsOut (C : Codec α μ) (topic other : Bytes) : Prop :=
  ∀ steps s, run (TopicFeed.step C) (TopicFeed.start C topic) steps = some s →
    ∀ r ∈ s.returned, r.1 = other → other = topic

/-! ### What comes through a prefix -/

/-- The socket is in a message of two frames, or between two, and holds no others. -/
structure TwoFrames (topic : Bytes) (sock : SubSocket) : Prop where
  prefixes : sock.prefixes = [topic]
  rest : sock.rest.length ≤ 1
  queue : ∀ m ∈ sock.queue, m.more.length = 1 ∧ topic <+: m.first

theorem arrive_twoFrames {ts : Bytes} {sock : SubSocket} (h : TwoFrames ts sock)
    (topic payload : Bytes) : TwoFrames ts (sock.arrive ⟨topic, [payload]⟩) := by
  unfold SubSocket.arrive
  split
  · case isTrue hm =>
      obtain ⟨p, hp, hpm⟩ := hm
      rw [h.prefixes, List.mem_singleton] at hp
      refine ⟨h.prefixes, h.rest, ?_⟩
      intro m hm
      rcases List.mem_append.mp hm with hm | hm
      · exact h.queue m hm
      · rw [List.mem_singleton.mp hm]
        exact ⟨rfl, hp ▸ hpm⟩
  · exact h

theorem receive_twoFrames {ts : Bytes} {sock : SubSocket} (h : TwoFrames ts sock)
    (first second : RecvResult) :
    TwoFrames ts (sock.receive first second).2 ∧
      ∀ m ∈ (sock.receive first second).1, ts <+: m.topic := by
  have hsame : TwoFrames ts sock ∧ ∀ m ∈ (none : Option Message), ts <+: m.topic := ⟨h, by simp⟩
  obtain ⟨prefixes, rest, queue⟩ := sock
  cases first with
  | timeout => exact hsame
  | error => exact hsame
  | ready =>
    cases rest with
    | cons body rest =>
      -- the second frame of a message whose first read had no successor: it has no payload
      obtain rfl : rest = [] := List.eq_nil_of_length_eq_zero (by simpa using h.rest)
      exact ⟨⟨h.prefixes, Nat.zero_le 1, h.queue⟩, fun m hm => by cases hm⟩
    | nil =>
      cases queue with
      | nil => exact hsame
      | cons m queue =>
        obtain ⟨⟨hmore, htopic⟩, hqueue⟩ := List.forall_mem_cons.mp h.queue
        obtain ⟨topic, more⟩ := m
        obtain ⟨body, rfl⟩ := List.length_eq_one_iff.mp hmore
        have hopen : TwoFrames ts { prefixes := prefixes, rest := [body], queue := queue } :=
          ⟨h.prefixes, Nat.le_refl 1, hqueue⟩
        cases second with
        | timeout => exact ⟨hopen, fun m hm => by cases hm⟩
        | error => exact ⟨hopen, fun m hm => by cases hm⟩
        | ready =>
          refine ⟨⟨h.prefixes, Nat.zero_le 1, hqueue⟩, ?_⟩
          intro m hm
          cases hm
          exact htopic

structure TopicInv (topic : Bytes) (s : TopicFeed α μ) : Prop where
  sock : TwoFrames topic s.sock
  returned : ∀ r ∈ s.returned, topic <+: r.1

theorem topic_poll_inv {C : Codec α μ} {topic : Bytes} {s : TopicFeed α μ}
    (hi : TopicInv topic s) {received : Option Message} (hm : ∀ m ∈ received, topic <+: m.topic)
    (out : α) : TopicInv topic (s.poll C received out) := by
  unfold TopicFeed.poll
  split
  · case h_1 m value subscriber hpoll =>
      refine ⟨hi.sock, ?_⟩
      intro r hr
      rcases List.mem_append.mp hr with hr | hr
      · exact hi.returned r hr
      · rw [List.mem_singleton.mp hr]
        exact hm m rfl
  · exact ⟨hi.sock, hi.returned⟩

theorem topic_step_inv {C : Codec α μ} {topic : Bytes} (s : TopicFeed α μ) (i : TopicStep α)
    (s' : TopicFeed α μ) (hi : TopicInv topic s) (h : s.step C i = some s') :
    TopicInv topic s' := by
  cases i with
  | arrive t payload =>
    cases h
    exact ⟨arrive_twoFrames hi.sock t payload, hi.returned⟩
  | poll first second out =>
    cases h
    obtain ⟨hsock, hm⟩ := receive_twoFrames hi.sock first second
    have hread : TopicInv topic { s with sock := (s.sock.receive first second).2 } :=
      ⟨hsock, hi.returned⟩
    exact topic_poll_inv hread hm out

theorem topic_start_inv (C : Codec α μ) (topic : Bytes) :
    TopicInv topic (TopicFeed.start C topic) where
  sock := {
    prefixes := rfl
    rest := Nat.zero_le 1
    queue := by simp [TopicFeed.start] }
  returned := by simp [TopicFeed.start]

theorem topic_run_inv {C : Codec α μ} {topic : Bytes} {steps : List (TopicStep α)}
    {s : TopicFeed α μ} (h : run (TopicFeed.step C) (TopicFeed.start C topic) steps = some s) :
    TopicInv topic s :=
  run_invariant topic_step_inv (topic_start_inv C topic) h

/-- One sample on a longer topic, polled once, is returned. -/
theorem longer_topic_returned {C : Codec α μ} {topic other : Bytes} (h : topic <+: other) {x : α}
    (hx : C.Undoes x) : ∃ s, run (TopicFeed.step C) (TopicFeed.start C topic)
      [.arrive other (C.serializeAsString (C.toProto x C.fresh)), .poll .ready .ready x] = some s ∧
      s.returned = [(other, x)] := by
  have harrive : (TopicFeed.start C topic).sock.arrive
      ⟨other, [C.serializeAsString (C.toProto x C.fresh)]⟩ =
      { prefixes := [topic], queue := [⟨other, [C.serializeAsString (C.toProto x C.fresh)]⟩] } :=
    if_pos ⟨topic, List.mem_singleton_self topic, h⟩
  obtain ⟨wire, hpoll⟩ := poll_decoded (decode_serialized hx C.fresh) x { wire := C.fresh }
  refine ⟨_, rfl, ?_⟩
  dsimp only
  rw [harrive]
  show (TopicFeed.poll C (some ⟨other, C.serializeAsString (C.toProto x C.fresh)⟩) x _).returned = _
  unfold TopicFeed.poll
  rw [show (TopicFeed.start C topic).subscriber = { wire := C.fresh } from rfl]
  simp only [Option.map_some, hpoll]
  rfl

theorem keepsOut_iff {C : Codec α μ} {x : α} (hx : C.Undoes x) (topic other : Bytes) :
    KeepsOut C topic other ↔ ¬ (topic <+: other ∧ other ≠ topic) := by
  constructor
  · intro hkeeps ⟨hlonger, hne⟩
    obtain ⟨s, hrun, hreturned⟩ := longer_topic_returned hlonger hx
    exact hne (hkeeps _ s hrun (other, x) (by simp [hreturned]) rfl)
  · intro hnot steps s hrun r hr hother
    by_contra hne
    exact hnot ⟨hother ▸ (topic_run_inv hrun).returned r hr, hne⟩

/-- A subscriber keeps another topic out exactly when its own is no proper prefix of it. -/
theorem topics_isolated_iff (P : Protobuf) (Q : CloudProtobuf) {scan : Scan} {cloud : PointCloud}
    (hP : (scanCodec P).Undoes scan) (hQ : (cloudCodec Q).Undoes cloud) (topic other : Bytes) :
    (KeepsOut (scanCodec P) topic other ↔ ¬ (topic <+: other ∧ other ≠ topic)) ∧
      (KeepsOut (cloudCodec Q) topic other ↔ ¬ (topic <+: other ∧ other ≠ topic)) :=
  ⟨keepsOut_iff hP topic other, keepsOut_iff hQ topic other⟩

def scanTopic : Bytes := ascii ['l', 'i', 'd', 'a', 'r', '.', 's', 'c', 'a', 'n']
def rawScanTopic : Bytes := scanTopic ++ ascii ['.', 'r', 'a', 'w']

theorem topics_isolated_iff_raw :
    ¬ KeepsOut (cloudCodec cloudWireFormat) scanTopic rawScanTopic ∧
      KeepsOut (scanCodec wireFormat) rawScanTopic scanTopic := by
  have hscan : (scanCodec wireFormat).Undoes Scan.fresh := by
    unfold Codec.Undoes
    decide
  have hcloud : (cloudCodec cloudWireFormat).Undoes PointCloud.fresh := by
    unfold Codec.Undoes
    decide
  have h := topics_isolated_iff wireFormat cloudWireFormat hscan hcloud
  exact ⟨fun hkeeps => (h scanTopic rawScanTopic).2.mp hkeeps (by decide),
    (h rawScanTopic scanTopic).1.mpr (by decide)⟩

/-- A subscriber to `lidar.scan` returns what is sent on `lidar.scan.raw`. -/
theorem topics_leak_raw : ¬ KeepsOut (scanCodec wireFormat) scanTopic rawScanTopic := by
  intro hkeeps
  have hx : (scanCodec wireFormat).Undoes Scan.fresh := by
    unfold Codec.Undoes
    decide
  obtain ⟨s, hrun, hreturned⟩ := longer_topic_returned
    (show scanTopic <+: rawScanTopic from List.prefix_append ..) hx
  exact absurd (hkeeps _ s hrun (rawScanTopic, Scan.fresh) (by simp [hreturned]) rfl) (by decide)

end AuvMiddleware.Lidar
