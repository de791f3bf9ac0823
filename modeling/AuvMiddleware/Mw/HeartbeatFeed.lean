import AuvMiddleware.Mw.HeartbeatWire
import AuvMiddleware.Mw.GapDetection
import Mathlib.Data.List.Forall2

/-!
# mw_pub to mw_sub (mw_pub.cpp, mw_sub.cpp)

One publisher, one subscriber and what ZeroMQ does between them: messages come whole and in order,
or are lost. What `mw_sub` prints is read off the bytes that `mw_pub` put together.
-/

namespace AuvMiddleware.Mw
open Runs ProtoRuntime

def auvControl : Bytes := ascii ['a', 'u', 'v', '-', 'c', 'o', 'n', 't', 'r', 'o', 'l']

def kNodeStateRunning : Int32 := 2

/-- The heartbeat of one turn (`mw_pub.cpp:33-41`) and the counter after it; `tick_count` is set
after `stamp` has counted the message. -/
def mwPubHeartbeat (sequence : UInt64) (wallTimeNs elapsedNs : Int64) : Heartbeat × UInt64 :=
  let (_, header, sequence) := stamp {} auvControl sequence wallTimeNs
  let hb : Heartbeat := { header := some header }
  let hb := { hb with nodeName := auvControl, state := kNodeStateRunning }
  let hb := { hb with tickCount := sequence, overruns := 0 }
  ({ hb with wcetUs := (elapsedNs % 1000).toUInt64.toUInt32 }, sequence)

/-! ### One heartbeat -/

section RoundTrip

variable {R : ProtoRuntime}

def Heartbeat.serializeAsString (R : ProtoRuntime) (m : Heartbeat) : Bytes :=
  R.serializeAsString (m.serialize R)

/-- The fields beside the header that are written at all. -/
def Heartbeat.others (R : ProtoRuntime) (m : Heartbeat) : List Bytes :=
  [R.putString 2 m.nodeName, R.putEnum 3 m.state, R.putUInt64 4 m.tickCount,
    R.putUInt64 5 m.overruns, R.putUInt32 6 m.wcetUs].filter (· ≠ [])

theorem serialize_eq_message (m : Heartbeat) : m.serialize R = message R [] m.header (m.others R) := by
  simp only [message, Heartbeat.others, Heartbeat.serialize, List.flatten_nil, List.nil_append,
    List.flatten_filter_ne_nil, List.flatten_cons, List.append_assoc, List.append_nil]

theorem putUnless_foreign {absent : Prop} [Decidable absent] {tag : ℕ} {value : Bytes}
    (h : Foreign R (R.writeTag tag ++ value)) (hne : R.putUnless absent tag value ≠ []) :
    Foreign R (R.putUnless absent tag value) := by
  unfold putUnless at hne ⊢
  split at hne
  · exact absurd rfl hne
  · case isFalse habsent =>
      rw [if_neg habsent]
      exact h

theorem others_foreign (hR : R.Lawful) {m : Heartbeat} (hname : m.nodeName.length ≤ maxSize) :
    ∀ f ∈ m.others R, Foreign R f := by
  intro f hf
  obtain ⟨hf, hne⟩ := List.mem_filter.mp hf
  have hne : f ≠ [] := of_decide_eq_true hne
  simp only [List.mem_cons, List.not_mem_nil, or_false] at hf
  rcases hf with rfl | rfl | rfl | rfl | rfl
  · exact putUnless_foreign (foreign_delimited hR (by decide) (by decide) hname) hne
  · exact putUnless_foreign (foreign_varint hR (by decide) (by decide) fun rest =>
      hR.unknownField_varint64 (by decide) (by decide) (hR.readVarint64_writeEnum _ rest)) hne
  · exact putUnless_foreign (foreign_varint hR (by decide) (by decide) fun rest =>
      hR.unknownField_varint64 (by decide) (by decide) (hR.readVarint64_writeUInt64 _ rest)) hne
  · exact putUnless_foreign (foreign_varint hR (by decide) (by decide) fun rest =>
      hR.unknownField_varint64 (by decide) (by decide) (hR.readVarint64_writeUInt64 _ rest)) hne
  · exact putUnless_foreign (foreign_varint hR (by decide) (by decide) fun rest =>
      hR.unknownField_varint32 (by decide) (by decide) (hR.readVarint32_writeUInt32 _ rest)) hne

theorem serializeAsString_eq (hR : R.Lawful) {m : Heartbeat}
    (hlen : (m.serialize R).length ≤ maxSize) : m.serializeAsString R = m.serialize R := by
  rw [Heartbeat.serializeAsString, hR.serializeAsString_eq, if_pos (lt_of_le_maxSize hlen)]

theorem heartbeat_anyHeader (hR : R.Lawful) {m : Heartbeat}
    (hlen : (m.serialize R).length ≤ maxSize) :
    (envelopeProtobuf R).parseAnyHeader (m.serialize R) (Int32.ofNat (m.serialize R).length) =
      if ∀ h ∈ m.header, h.Utf8 R then some { header := m.header } else none := by
  have hname : m.nodeName.length ≤ maxSize := by
    have hput := le_putString_length hR 2 m.nodeName
    simp only [Heartbeat.serialize, List.length_append] at hlen
    omega
  rw [serialize_eq_message] at hlen ⊢
  exact parseAnyHeader_message hR (List.forall_mem_nil _) (others_foreign hR hname) hlen

/-- Both reads of `mw_sub` give back what was written: the body unless a string is not UTF-8, the
header whatever the body holds. -/
theorem heartbeat_round_trip (hR : R.Lawful) (m : Heartbeat)
    (hlen : (m.serialize R).length ≤ maxSize) :
    (envelopeProtobuf R).parseHeartbeat (m.serializeAsString R) =
        (if m.Utf8 R then some m else none) ∧
      ∀ out, peekHeader (envelopeProtobuf R) (m.serializeAsString R) out =
        peekedHeader R m.header out := by
  rw [serializeAsString_eq hR hlen]
  exact ⟨parseHeartbeat_serialize hR hlen, peekHeader_parsed (heartbeat_anyHeader hR hlen)⟩

def binaryName : Heartbeat where
  header := some ⟨kSchemaVersion, auvControl, 300, -5⟩
  nodeName := bytes [255]
  state := -1

theorem binaryName_read :
    envelopeWireFormat.parseHeartbeat (binaryName.serializeAsString reference) = none ∧
      peekHeader envelopeWireFormat (binaryName.serializeAsString reference) {} =
        (.ok, ⟨kSchemaVersion, auvControl, 300, -5⟩) := by
  obtain ⟨hparse, hpeek⟩ := heartbeat_round_trip reference_lawful binaryName (by decide)
  exact ⟨hparse.trans (if_neg (by decide)), (hpeek {}).trans (by decide)⟩

end RoundTrip

/-- What the two programs ask of protobuf: the heartbeats that `mw_pub` serialises are read back by
their own parser, and their headers by one that knows nothing but field 1. -/
structure CarriesHeartbeats (P : EnvelopeProtobuf) (serializeAsString : Heartbeat → Bytes) :
    Prop where
  header (sequence : UInt64) (wallTimeNs elapsedNs : Int64) :
    P.Carries (serializeAsString (mwPubHeartbeat sequence wallTimeNs elapsedNs).1)
      ⟨kSchemaVersion, auvControl, sequence, wallTimeNs⟩
  body (sequence : UInt64) (wallTimeNs elapsedNs : Int64) :
    P.parseHeartbeat (serializeAsString (mwPubHeartbeat sequence wallTimeNs elapsedNs).1) =
      some (mwPubHeartbeat sequence wallTimeNs elapsedNs).1

theorem lawful_carriesHeartbeats {R : ProtoRuntime} (hR : R.Lawful)
    (hascii : R.verifyUtf8 auvControl = true) :
    CarriesHeartbeats (envelopeProtobuf R) (Heartbeat.serializeAsString R) := by
  have hheader (sequence : UInt64) (wallTimeNs elapsedNs : Int64) :
      (mwPubHeartbeat sequence wallTimeNs elapsedNs).1.header =
        some ⟨kSchemaVersion, auvControl, sequence, wallTimeNs⟩ := rfl
  have hutf8 (sequence : UInt64) (wallTimeNs elapsedNs : Int64) :
      ∀ h ∈ (mwPubHeartbeat sequence wallTimeNs elapsedNs).1.header, h.Utf8 R := by
    intro h hh
    cases hh
    exact hascii
  have hlen (sequence : UInt64) (wallTimeNs elapsedNs : Int64) :
      ((mwPubHeartbeat sequence wallTimeNs elapsedNs).1.serialize R).length ≤ maxSize := by
    have hsize := heartbeatSerialize_length hR (hheader sequence wallTimeNs elapsedNs)
    have hnode : (mwPubHeartbeat sequence wallTimeNs elapsedNs).1.nodeName = auvControl := rfl
    have hname : auvControl.length = 11 := rfl
    dsimp only at hsize
    rw [hnode, hname] at hsize
    exact hsize.trans (by decide)
  constructor
  · intro sequence wallTimeNs elapsedNs
    have hany := heartbeat_anyHeader hR (hlen sequence wallTimeNs elapsedNs)
    rw [if_pos (hutf8 sequence wallTimeNs elapsedNs)] at hany
    rw [serializeAsString_eq hR (hlen sequence wallTimeNs elapsedNs)]
    exact hany
  · intro sequence wallTimeNs elapsedNs
    have hparse := parseHeartbeat_serialize hR (hlen sequence wallTimeNs elapsedNs)
    rw [if_pos ⟨hutf8 sequence wallTimeNs elapsedNs, hascii⟩] at hparse
    rw [serializeAsString_eq hR (hlen sequence wallTimeNs elapsedNs)]
    exact hparse

/-! ### The feed -/

/-- Beside the two programs and the socket stand the numbers of the heartbeats that got through. -/
structure HeartbeatFeed where
  sequence : UInt64 := 0
  published : ℕ := 0
  carried : List ℕ := []
  sock : SubSocket
  sub : MwSub := {}
  lines : List MwSubLine := []

/-- `lost`: refused by the publisher's socket, or dropped by ZeroMQ. A read that is not `ready`
times out. -/
inductive HeartbeatStep where
  | publish (wallTimeNs elapsedNs : Int64) (lost : Bool)
  | receive (ready : Bool)

/-- `Context`, `Subscriber` and `subscribe` (`mw_sub.cpp:18-20`). -/
def HeartbeatFeed.start (wanted : Bytes) : HeartbeatFeed := { sock := { prefixes := [wanted] } }

section Feed

variable (P : EnvelopeProtobuf) (serializeAsString : Heartbeat → Bytes) (topic : Bytes)

def HeartbeatFeed.publish (wallTimeNs elapsedNs : Int64) (lost : Bool) (s : HeartbeatFeed) :
    HeartbeatFeed :=
  let (hb, sequence) := mwPubHeartbeat s.sequence wallTimeNs elapsedNs
  let s' := { s with sequence := sequence, published := s.published + 1 }
  if lost then s'
  else { s' with
    carried := s.carried ++ [s.published]
    sock := s.sock.arrive ⟨topic, [serializeAsString hb]⟩ }

def HeartbeatFeed.receive (ready : Bool) (s : HeartbeatFeed) : HeartbeatFeed :=
  let outcome : RecvResult := if ready then .ready else .timeout
  let (msg, sock) := s.sock.receive outcome outcome
  let (line, sub) := s.sub.handle P msg
  { s with sock := sock, sub := sub, lines := s.lines ++ [line] }

def HeartbeatFeed.step (s : HeartbeatFeed) : HeartbeatStep → Option HeartbeatFeed
  | .publish wallTimeNs elapsedNs lost =>
    some (s.publish serializeAsString topic wallTimeNs elapsedNs lost)
  | .receive ready => some (s.receive P ready)

end Feed

/-- The line for heartbeat `i`, after `before` was the last one printed. -/
def heartbeatLine (topic : Bytes) (before : Option ℕ) (i : ℕ) : MwSubLine :=
  .message topic (UInt64.ofNat i) auvControl 2
    (if ∀ l ∈ before, i = l + 1 then "" else "  <-- GAP")

def heartbeatLines (topic : Bytes) : Option ℕ → List ℕ → List MwSubLine
  | _, [] => []
  | before, i :: is => heartbeatLine topic before i :: heartbeatLines topic (some i) is

/-- The message that carries heartbeat `i`. -/
def Bears (serializeAsString : Heartbeat → Bytes) (topic : Bytes) (m : Multipart) (i : ℕ) : Prop :=
  ∃ wallTimeNs elapsedNs, m =
    ⟨topic, [serializeAsString (mwPubHeartbeat (UInt64.ofNat i) wallTimeNs elapsedNs).1]⟩

structure HeartbeatInv (serializeAsString : Heartbeat → Bytes) (wanted topic : Bytes)
    (s : HeartbeatFeed) (printed waiting : List ℕ) : Prop where
  counter : s.sequence = UInt64.ofNat s.published
  split : s.carried = printed ++ waiting
  ordered : s.carried.Pairwise (· < ·)
  below : ∀ i ∈ s.carried, i < s.published
  prefixes : s.sock.prefixes = [wanted]
  aligned : s.sock.rest = []
  queue : List.Forall₂ (Bears serializeAsString topic) s.sock.queue waiting
  expects : s.sub = printed.getLast?.elim {} fun l =>
    { expected := UInt64.ofNat (l + 1), first := false }
  lines : s.lines.filter (· ≠ .idle) = heartbeatLines topic none printed

theorem heartbeatLines_concat (topic : Bytes) (before : Option ℕ) (is : List ℕ) (i : ℕ) :
    heartbeatLines topic before (is ++ [i]) =
      heartbeatLines topic before is ++ [heartbeatLine topic (is.getLast?.or before) i] := by
  induction is generalizing before with
  | nil => rfl
  | cons j is ih =>
    have hlast : (j :: is).getLast?.or before = is.getLast?.or (some j) := by
      rw [List.getLast?_cons]
      cases is.getLast? <;> rfl
    rw [List.cons_append, heartbeatLines, ih, hlast]
    rfl

section Run

variable {P : EnvelopeProtobuf} {serializeAsString : Heartbeat → Bytes} {wanted topic : Bytes}

/-- What `mw_sub` makes of the message that carries heartbeat `i`. -/
theorem handle_heartbeat (hP : CarriesHeartbeats P serializeAsString) (topic : Bytes) {i : ℕ}
    {printed : List ℕ} (hi : i < 2 ^ 64) (hbefore : ∀ l ∈ printed, l < i)
    (wallTimeNs elapsedNs : Int64) {sub : MwSub}
    (hsub : sub = printed.getLast?.elim {} fun l =>
      { expected := UInt64.ofNat (l + 1), first := false }) :
    sub.handle P
        (some ⟨topic, serializeAsString (mwPubHeartbeat (UInt64.ofNat i) wallTimeNs elapsedNs).1⟩) =
      (heartbeatLine topic printed.getLast? i,
        { expected := UInt64.ofNat (i + 1), first := false }) := by
  have hpeek := peekHeader_carried (hP.header (UInt64.ofNat i) wallTimeNs elapsedNs) rfl {}
  have hparse := hP.body (UInt64.ofNat i) wallTimeNs elapsedNs
  have hnext : UInt64.ofNat i + 1 = UInt64.ofNat (i + 1) := (UInt64.ofNat_add ..).symm
  have hgap : (if !sub.first && UInt64.ofNat i != sub.expected then "  <-- GAP" else "") =
      if ∀ l ∈ printed.getLast?, i = l + 1 then "" else "  <-- GAP" := by
    subst hsub
    cases hlast : printed.getLast? with
    | none => rfl
    | some l =>
      have hl : l < i := hbefore l (List.mem_of_getLast? hlast)
      have heq : UInt64.ofNat i = UInt64.ofNat (l + 1) ↔ i = l + 1 := by
        constructor
        · intro h
          have hnat := congrArg UInt64.toNat h
          rw [UInt64.toNat_ofNat_of_lt' hi,
            UInt64.toNat_ofNat_of_lt' (by simp [UInt64.size]; omega)] at hnat
          exact hnat
        · intro h
          rw [h]
      by_cases hil : i = l + 1
      · simp [hil]
      · have hne := bne_iff_ne.mpr (heq.not.mpr hil)
        simp only [Option.elim_some, Bool.not_false, hne, Bool.and_self, if_true,
          Option.mem_some_iff, forall_eq', hil, if_false]
  unfold MwSub.handle
  dsimp only
  rw [hpeek, hparse]
  dsimp only
  rw [hgap, hnext]
  rfl

theorem publish_through (topic : Bytes) (wallTimeNs elapsedNs : Int64) (s : HeartbeatFeed) :
    s.publish serializeAsString topic wallTimeNs elapsedNs false = { s with
      sequence := s.sequence + 1
      published := s.published + 1
      carried := s.carried ++ [s.published]
      sock := s.sock.arrive
        ⟨topic, [serializeAsString (mwPubHeartbeat s.sequence wallTimeNs elapsedNs).1]⟩ } := rfl

theorem publish_feed_inv (hwanted : wanted <+: topic) {s : HeartbeatFeed}
    {printed waiting : List ℕ} (hi : HeartbeatInv serializeAsString wanted topic s printed waiting)
    (wallTimeNs elapsedNs : Int64) (lost : Bool) :
    ∃ waiting', HeartbeatInv serializeAsString wanted topic
      (s.publish serializeAsString topic wallTimeNs elapsedNs lost) printed waiting' := by
  have hnext : s.sequence + 1 = UInt64.ofNat (s.published + 1) := by
    rw [hi.counter, UInt64.ofNat_add]
    rfl
  cases lost with
  | true =>
    exact ⟨waiting, hnext, hi.split, hi.ordered, fun i hmem => Nat.lt_succ_of_lt (hi.below i hmem),
      hi.prefixes, hi.aligned, hi.queue, hi.expects, hi.lines⟩
  | false =>
    have harrive (m : Multipart) (hm : m.first = topic) :
        s.sock.arrive m = { s.sock with queue := s.sock.queue ++ [m] } := by
      unfold SubSocket.arrive
      rw [if_pos]
      rw [hi.prefixes, hm]
      exact ⟨wanted, List.mem_singleton_self _, hwanted⟩
    rw [publish_through, harrive _ rfl, hi.counter]
    rw [hi.counter] at hnext
    refine ⟨waiting ++ [s.published], hnext, ?_, ?_, ?_, hi.prefixes, hi.aligned, ?_, hi.expects,
      hi.lines⟩
    · dsimp only
      rw [hi.split, List.append_assoc]
    · refine List.pairwise_append.mpr ⟨hi.ordered, List.pairwise_singleton .., ?_⟩
      intro i hmem j hj
      rw [List.mem_singleton.mp hj]
      exact hi.below i hmem
    · intro i hmem
      rcases List.mem_append.mp hmem with hmem | hmem
      · exact Nat.lt_succ_of_lt (hi.below i hmem)
      · rw [List.mem_singleton.mp hmem]
        exact Nat.lt_succ_self _
    · exact List.rel_append hi.queue (.cons ⟨wallTimeNs, elapsedNs, rfl⟩ .nil)

theorem receive_idle {s : HeartbeatFeed} {ready : Bool}
    (h : ready = false ∨ s.sock.rest = [] ∧ s.sock.queue = []) :
    s.receive P ready = { s with lines := s.lines ++ [.idle] } := by
  have hnone : s.sock.receive (if ready then .ready else .timeout)
      (if ready then .ready else .timeout) = (none, s.sock) := by
    rcases h with rfl | ⟨hrest, hqueue⟩
    · rfl
    · cases ready with
      | false => rfl
      | true => simp [SubSocket.receive, SubSocket.recv, hrest, hqueue]
  unfold HeartbeatFeed.receive
  dsimp only
  rw [hnone]
  rfl

theorem receive_feed_inv (hP : CarriesHeartbeats P serializeAsString) {s : HeartbeatFeed}
    {printed waiting : List ℕ} (hi : HeartbeatInv serializeAsString wanted topic s printed waiting)
    (hsmall : s.published ≤ 2 ^ 64) (ready : Bool) : ∃ printed' waiting',
      HeartbeatInv serializeAsString wanted topic (s.receive P ready) printed' waiting' := by
  by_cases hidle : ready = false ∨ s.sock.rest = [] ∧ s.sock.queue = []
  · rw [receive_idle hidle]
    refine ⟨printed, waiting, hi.counter, hi.split, hi.ordered, hi.below, hi.prefixes, hi.aligned,
      hi.queue, hi.expects, ?_⟩
    rw [List.filter_append, hi.lines]
    exact List.append_nil _
  · obtain ⟨hready, hqueue⟩ := not_or.mp hidle
    have hready : ready = true := by simpa using hready
    subst hready
    have hrest := hi.aligned
    cases hq : s.sock.queue with
    | nil => exact absurd ⟨hrest, hq⟩ hqueue
    | cons m queue =>
      have hbears := hi.queue
      rw [hq] at hbears
      obtain ⟨i, waiting', ⟨wallTimeNs, elapsedNs, rfl⟩, hqueue', rfl⟩ :=
        List.forall₂_cons_left_iff.mp hbears
      have hmem : i ∈ s.carried := by simp [hi.split]
      have hordered := hi.ordered
      rw [hi.split, List.pairwise_append] at hordered
      have hbefore : ∀ l ∈ printed, l < i := fun l hl =>
        hordered.2.2 l hl i (List.mem_cons_self ..)
      have hlt : i < 2 ^ 64 := Nat.lt_of_lt_of_le (hi.below i hmem) hsmall
      have hline := handle_heartbeat hP topic hlt hbefore wallTimeNs elapsedNs hi.expects
      have hreceive : s.sock.receive .ready .ready =
          (some ⟨topic,
              serializeAsString (mwPubHeartbeat (UInt64.ofNat i) wallTimeNs elapsedNs).1⟩,
            { s.sock with queue := queue }) := by
        simp [SubSocket.receive, SubSocket.recv, hrest, hq]
      have hs : s.receive P true = { s with
          sock := { s.sock with queue := queue }
          sub := { expected := UInt64.ofNat (i + 1), first := false }
          lines := s.lines ++ [heartbeatLine topic printed.getLast? i] } := by
        unfold HeartbeatFeed.receive
        simp only [if_true, hreceive, hline]
      rw [hs]
      refine ⟨printed ++ [i], waiting', hi.counter, ?_, hi.ordered, hi.below, hi.prefixes, hrest,
        hqueue', ?_, ?_⟩
      · rw [hi.split, List.append_assoc]
        rfl
      · rw [List.getLast?_concat]
        rfl
      · have hshown : heartbeatLine topic printed.getLast? i ≠ .idle := by simp [heartbeatLine]
        dsimp only
        rw [List.filter_append, hi.lines, heartbeatLines_concat, Option.or_none]
        simp only [List.filter_cons, List.filter_nil, hshown, ne_eq, not_false_eq_true,
          decide_true, if_true]

theorem heartbeat_step_inv (hP : CarriesHeartbeats P serializeAsString)
    (hwanted : wanted <+: topic) (s : HeartbeatFeed) (i : HeartbeatStep) (s' : HeartbeatFeed)
    (hi : s.published ≤ 2 ^ 64 →
      ∃ printed waiting, HeartbeatInv serializeAsString wanted topic s printed waiting)
    (h : s.step P serializeAsString topic i = some s') : s'.published ≤ 2 ^ 64 →
      ∃ printed waiting, HeartbeatInv serializeAsString wanted topic s' printed waiting := by
  intro hsmall
  cases i with
  | publish wallTimeNs elapsedNs lost =>
    cases h
    have hgrows : s.published ≤
        (s.publish serializeAsString topic wallTimeNs elapsedNs lost).published := by
      cases lost <;> exact Nat.le_succ _
    obtain ⟨printed, waiting, hi⟩ := hi (hgrows.trans hsmall)
    obtain ⟨waiting', hi'⟩ := publish_feed_inv hwanted hi wallTimeNs elapsedNs lost
    exact ⟨printed, waiting', hi'⟩
  | receive ready =>
    cases h
    obtain ⟨printed, waiting, hi⟩ := hi hsmall
    exact receive_feed_inv hP hi hsmall ready

/-- Every heartbeat that gets through is printed once and in order, with its number, its publisher
and its state; the mark stands exactly where heartbeats between two printed ones were lost. -/
theorem heartbeats_printed (hP : CarriesHeartbeats P serializeAsString)
    (hwanted : wanted <+: topic) {steps : List HeartbeatStep} {s : HeartbeatFeed}
    (h : run (HeartbeatFeed.step P serializeAsString topic) (HeartbeatFeed.start wanted) steps =
      some s)
    (hsmall : s.published ≤ 2 ^ 64) :
    ∃ printed waiting, s.carried = printed ++ waiting ∧ s.carried.Pairwise (· < ·) ∧
      waiting.length = s.sock.queue.length ∧
      s.lines.filter (· ≠ .idle) = heartbeatLines topic none printed := by
  have hstart : HeartbeatInv serializeAsString wanted topic (HeartbeatFeed.start wanted) [] [] :=
    ⟨rfl, rfl, .nil, nofun, rfl, rfl, .nil, rfl, rfl⟩
  obtain ⟨printed, waiting, hi⟩ :=
    run_invariant (heartbeat_step_inv hP hwanted) (fun _ => ⟨[], [], hstart⟩) h hsmall
  exact ⟨printed, waiting, hi.split, hi.ordered, hi.queue.length_eq.symm, hi.lines⟩

end Run

def secondLost : List HeartbeatStep :=
  [.publish 5 7 false, .publish 6 8 true, .receive true, .publish 7 9 false, .receive false,
    .receive true]

def secondLostStep : HeartbeatFeed → HeartbeatStep → Option HeartbeatFeed :=
  HeartbeatFeed.step envelopeWireFormat (Heartbeat.serializeAsString reference) (bytes [1, 2])

theorem secondLost_printed :
    ∃ s, run secondLostStep (HeartbeatFeed.start (bytes [1])) secondLost = some s ∧
      ∃ printed waiting, s.carried = printed ++ waiting ∧ s.carried.Pairwise (· < ·) ∧
        waiting.length = s.sock.queue.length ∧
        s.lines.filter (· ≠ .idle) = heartbeatLines (bytes [1, 2]) none printed := by
  have hP : CarriesHeartbeats envelopeWireFormat (Heartbeat.serializeAsString reference) :=
    lawful_carriesHeartbeats reference_lawful (by decide)
  have hwanted : bytes [1] <+: bytes [1, 2] := ⟨bytes [2], rfl⟩
  obtain ⟨s, hrun⟩ := Option.isSome_iff_exists.mp
    (show (run secondLostStep (HeartbeatFeed.start (bytes [1])) secondLost).isSome = true from rfl)
  have hsmall : s.published ≤ 2 ^ 64 := by
    have hpublished : (run secondLostStep (HeartbeatFeed.start (bytes [1]))
        secondLost).map HeartbeatFeed.published = some 3 := rfl
    rw [hrun, Option.map_some] at hpublished
    have hthree := Option.some.inj hpublished
    omega
  exact ⟨s, hrun, heartbeats_printed hP hwanted hrun hsmall⟩

end AuvMiddleware.Mw
