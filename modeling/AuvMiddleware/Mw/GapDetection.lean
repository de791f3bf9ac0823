import AuvMiddleware.Mw.Envelope
import AuvMiddleware.Mw.Subscriber
import Mathlib.Logic.Function.Basic

/-!
# mw_sub's gap mark against what was lost (mw_sub.cpp:25-55)

Publishers stamp their messages with one counter a stream; each stream comes to the receiver in
order, with losses. Beside the code's state stands what was published, lost and received.
-/

namespace AuvMiddleware.Mw
open Runs

structure MwSub where
  expected : UInt64 := 0
  first : Bool := true
  deriving DecidableEq

/-- A line `mw_sub` prints, by the values it prints. -/
inductive MwSubLine where
  | idle
  | rejected (topic : Bytes) (status : String)
  | message (topic : Bytes) (seq : UInt64) (publisher : Bytes) (state : ℤ) (gap : String)
  deriving DecidableEq

/-- The loop's body (`mw_sub.cpp:28-55`) on what `receive` returned. -/
def MwSub.handle (P : EnvelopeProtobuf) (s : MwSub) : Option Message → MwSubLine × MwSub
  | none => (.idle, s)
  | some msg =>
    match peekHeader P msg.payload {} with
    | (.ok, header) =>
      let hb := P.parseHeartbeat msg.payload
      let seq := header.sequence
      let gap := if !s.first && seq != s.expected then "  <-- GAP" else ""
      let state := hb.elim (-1) fun hb => hb.state.toInt
      (.message msg.topic seq header.publisher state gap,
        { s with expected := seq + 1, first := false })
    | (status, _) => (.rejected msg.topic status.toString, s)

def MwSubLine.Flagged : MwSubLine → Prop
  | .message _ _ _ _ gap => gap ≠ ""
  | _ => False

instance : DecidablePred MwSubLine.Flagged
  | .message _ _ _ _ gap => inferInstanceAs (Decidable (gap ≠ ""))
  | .idle | .rejected .. => isFalse id

structure Stream where
  publisher : Bytes
  topic : Bytes
  deriving DecidableEq

/-- One stream: its publisher's counter and what became of its messages, which count from 0.
`transit` holds those on their way, with their payloads. -/
structure StreamState where
  sequence : UInt64 := 0
  published : ℕ := 0
  transit : List (ℕ × Bytes) := []
  lost : List ℕ := []
  received : List ℕ := []
  deriving DecidableEq

/-- `header` is what the message's header was before it was stamped. -/
def StreamState.publish (P : EnvelopeProtobuf) (publisher : Bytes) (header : Header)
    (wallTimeNs : Int64) (payload : Bytes) (t : StreamState) : Option StreamState :=
  let (_, header, sequence) := stamp header publisher t.sequence wallTimeNs
  if P.Carries payload header then
    some { t with
      sequence := sequence
      published := t.published + 1
      transit := t.transit ++ [(t.published, payload)] }
  else none

def StreamState.lose (index : ℕ) (t : StreamState) : Option StreamState :=
  if index ∈ t.transit.map Prod.fst then
    some { t with
      transit := t.transit.filter fun m => m.1 ≠ index
      lost := index :: t.lost }
  else none

def StreamState.deliver (t : StreamState) : Option ((ℕ × Bytes) × StreamState) :=
  match t.transit with
  | [] => none
  | m :: rest => some (m, { t with transit := rest, received := t.received ++ [m.1] })

structure Streams where
  sub : MwSub := {}
  of : Stream → StreamState := fun _ => {}
  latest : Option (Stream × ℕ) := none

inductive StreamEvent where
  | publish (stream : Stream) (header : Header) (wallTimeNs : Int64) (payload : Bytes)
  | lose (stream : Stream) (index : ℕ)
  | deliver (stream : Stream)
  /-- Anything on the socket that `peek_header` refuses. -/
  | refused (topic payload : Bytes)
  | idle

def Streams.step (P : EnvelopeProtobuf) (s : Streams) : StreamEvent → Option Streams
  | .publish stream header wallTimeNs payload =>
    ((s.of stream).publish P stream.publisher header wallTimeNs payload).map fun t =>
      { s with of := Function.update s.of stream t }
  | .lose stream index =>
    ((s.of stream).lose index).map fun t => { s with of := Function.update s.of stream t }
  | .deliver stream =>
    (s.of stream).deliver.map fun r =>
      { sub := (s.sub.handle P (some ⟨stream.topic, r.1.2⟩)).2
        of := Function.update s.of stream r.2
        latest := some (stream, r.1.1) }
  | .refused topic payload =>
    if (peekHeader P payload {}).1 ≠ .ok then
      some { s with sub := (s.sub.handle P (some ⟨topic, payload⟩)).2 }
    else none
  | .idle => some { s with sub := (s.sub.handle P none).2 }

/-- A message is marked exactly when one of its stream was lost since the stream's last. -/
def GapRight (P : EnvelopeProtobuf) (s : Streams) : StreamEvent → Prop
  | .deliver stream => ∀ m ∈ (s.of stream).transit.head?,
      ((s.sub.handle P (some ⟨stream.topic, m.2⟩)).1.Flagged ↔
        ∃ l ∈ (s.of stream).received.getLast?, ∃ j ∈ (s.of stream).lost, l < j ∧ j < m.1)
  | _ => True

instance (P : EnvelopeProtobuf) (s : Streams) : ∀ e, Decidable (GapRight P s e)
  | .deliver stream => inferInstanceAs (Decidable (∀ m ∈ (s.of stream).transit.head?,
      ((s.sub.handle P (some ⟨stream.topic, m.2⟩)).1.Flagged ↔
        ∃ l ∈ (s.of stream).received.getLast?, ∃ j ∈ (s.of stream).lost, l < j ∧ j < m.1)))
  | .publish .. | .lose .. | .refused .. | .idle => isTrue trivial

/-- After a message of its own stream, a message does not come by its expected number through a
whole turn of the counter; after one of another stream, it has the number after that one's exactly
when it is the next of its stream, or the first received of it. -/
def InTurn (s : Streams) : StreamEvent → Prop
  | .deliver stream => ∀ m ∈ (s.of stream).transit.head?, ∀ r ∈ s.latest,
      if r.1 = stream then m.1 % 2 ^ 64 = (r.2 + 1) % 2 ^ 64 → m.1 = r.2 + 1
      else m.1 % 2 ^ 64 = (r.2 + 1) % 2 ^ 64 ↔
        ∀ l ∈ (s.of stream).received.getLast?, m.1 = l + 1
  | _ => True

/-! ### The loop's body -/

theorem handle_carried {P : EnvelopeProtobuf} {msg : Message} {header : Header}
    (h : P.Carries msg.payload header) (hv : header.schemaVersion = kSchemaVersion) (s : MwSub) :
    ((s.handle P (some msg)).1.Flagged ↔ s.first = false ∧ header.sequence ≠ s.expected) ∧
      (s.handle P (some msg)).2 = { expected := header.sequence + 1, first := false } := by
  unfold MwSub.handle
  dsimp only
  rw [peekHeader_carried h hv]
  refine ⟨?_, rfl⟩
  show (if !s.first && header.sequence != s.expected then "  <-- GAP" else "") ≠ "" ↔ _
  by_cases he : header.sequence = s.expected
  · simp [he]
  · cases s.first with
    | true => simp
    | false => simp [he]

theorem handle_refused {P : EnvelopeProtobuf} {msg : Message}
    (h : (peekHeader P msg.payload {}).1 ≠ .ok) (s : MwSub) :
    (s.handle P (some msg)).2 = s := by
  unfold MwSub.handle
  dsimp only
  split
  · case h_1 header hpeek => exact absurd (by rw [hpeek]) h
  · rfl

/-! ### What a stream keeps -/

def StreamState.kept (t : StreamState) : List ℕ := t.received ++ t.transit.map Prod.fst

structure StreamInv (P : EnvelopeProtobuf) (t : StreamState) : Prop where
  counter : t.sequence = UInt64.ofNat t.published
  ordered : t.kept.Pairwise (· < ·)
  published : ∀ i ∈ t.kept, i < t.published
  accounted : ∀ i < t.published, i ∈ t.kept ∨ i ∈ t.lost
  carried : ∀ m ∈ t.transit, ∃ header, P.Carries m.2 header ∧
    header.schemaVersion = kSchemaVersion ∧ header.sequence = UInt64.ofNat m.1

theorem publish_inv {P : EnvelopeProtobuf} {publisher : Bytes} {header : Header}
    {wallTimeNs : Int64} {payload : Bytes} {t t' : StreamState} (hi : StreamInv P t)
    (h : t.publish P publisher header wallTimeNs payload = some t') :
    StreamInv P t' ∧ t'.received = t.received := by
  obtain ⟨hcarries, h⟩ := Option.ite_none_right_eq_some.mp h
  cases h
  have hkept : StreamState.kept { t with
      sequence := t.sequence + 1
      published := t.published + 1
      transit := t.transit ++ [(t.published, payload)] } = t.kept ++ [t.published] := by
    simp [StreamState.kept]
  refine ⟨⟨?_, ?_, ?_, ?_, ?_⟩, rfl⟩
  · show t.sequence + 1 = _
    rw [hi.counter, UInt64.ofNat_add]
    rfl
  · rw [hkept, List.pairwise_append]
    refine ⟨hi.ordered, List.pairwise_singleton .., ?_⟩
    intro i hmem j hj
    rw [List.mem_singleton.mp hj]
    exact hi.published i hmem
  · rw [hkept]
    intro i hmem
    rcases List.mem_append.mp hmem with hmem | hmem
    · exact Nat.lt_succ_of_lt (hi.published i hmem)
    · rw [List.mem_singleton.mp hmem]
      exact Nat.lt_succ_self _
  · rw [hkept]
    intro i hlt
    rcases Nat.lt_succ_iff_lt_or_eq.mp hlt with hlt | rfl
    · exact (hi.accounted i hlt).imp_left fun h => List.mem_append_left _ h
    · exact .inl (List.mem_append_right _ (List.mem_singleton_self _))
  · intro m hm
    rcases List.mem_append.mp hm with hm | hm
    · exact hi.carried m hm
    · rw [List.mem_singleton.mp hm]
      exact ⟨_, hcarries, rfl, hi.counter⟩

theorem lose_inv {P : EnvelopeProtobuf} {index : ℕ} {t t' : StreamState} (hi : StreamInv P t)
    (h : t.lose index = some t') : StreamInv P t' ∧ t'.received = t.received := by
  obtain ⟨-, h⟩ := Option.ite_none_right_eq_some.mp h
  cases h
  have hkept : (t.received ++ (t.transit.filter fun m => m.1 ≠ index).map Prod.fst).Sublist
      t.kept :=
    List.Sublist.append (List.Sublist.refl _) (List.filter_sublist.map _)
  refine ⟨⟨hi.counter, hi.ordered.sublist hkept, ?_, ?_, ?_⟩, rfl⟩
  · intro i hmem
    exact hi.published i (hkept.subset hmem)
  · intro i hlt
    by_cases he : i = index
    · exact .inr (he ▸ List.mem_cons_self ..)
    · rcases hi.accounted i hlt with hmem | hlost
      · refine .inl ?_
        rcases List.mem_append.mp hmem with hmem | hmem
        · exact List.mem_append_left _ hmem
        · obtain ⟨m, hm, rfl⟩ := List.mem_map.mp hmem
          refine List.mem_append_right _ (List.mem_map_of_mem ?_)
          exact List.mem_filter.mpr ⟨hm, decide_eq_true he⟩
      · exact .inr (List.mem_cons_of_mem _ hlost)
  · intro m hm
    exact hi.carried m (List.mem_of_mem_filter hm)

theorem deliver_some {t t' : StreamState} {m : ℕ × Bytes} (h : t.deliver = some (m, t')) :
    ∃ rest, t.transit = m :: rest ∧
      t' = { t with transit := rest, received := t.received ++ [m.1] } := by
  unfold StreamState.deliver at h
  split at h
  · cases h
  · case h_2 m rest htransit =>
      cases h
      exact ⟨rest, htransit, rfl⟩

theorem deliver_inv {P : EnvelopeProtobuf} {m : ℕ × Bytes} {t t' : StreamState}
    (hi : StreamInv P t) (h : t.deliver = some (m, t')) :
    StreamInv P t' ∧ t'.received = t.received ++ [m.1] := by
  obtain ⟨rest, htransit, rfl⟩ := deliver_some h
  have hkept : StreamState.kept { t with transit := rest, received := t.received ++ [m.1] } =
      t.kept := by
    simp [StreamState.kept, htransit]
  refine ⟨⟨hi.counter, ?_, ?_, ?_, ?_⟩, rfl⟩
  · rw [hkept]
    exact hi.ordered
  · rw [hkept]
    exact hi.published
  · rw [hkept]
    exact hi.accounted
  · intro m' hm'
    exact hi.carried m' (htransit ▸ List.mem_cons_of_mem _ hm')

theorem not_mem_between {α : Type} [Preorder α] {xs ys : List α} {a b j : α}
    (h : (xs ++ a :: b :: ys).Pairwise (· < ·)) (haj : a < j) (hjb : j < b) :
    j ∉ xs ++ a :: b :: ys := by
  obtain ⟨-, hafter, hbefore⟩ := List.pairwise_append.mp h
  obtain ⟨-, hrest⟩ := List.pairwise_cons.mp hafter
  intro hmem
  rcases List.mem_append.mp hmem with hmem | hmem
  · exact lt_asymm haj (hbefore j hmem a (List.mem_cons_self ..))
  · rcases List.mem_cons.mp hmem with rfl | hmem
    · exact lt_irrefl _ haj
    · rcases List.mem_cons.mp hmem with rfl | hmem
      · exact lt_irrefl _ hjb
      · exact lt_asymm hjb ((List.pairwise_cons.mp hrest).1 j hmem)

/-- With the stream's last received `l` before it, a message is the next one or one was lost. -/
theorem lost_between {P : EnvelopeProtobuf} {t : StreamState} (hi : StreamInv P t)
    {m : ℕ × Bytes} {rest : List (ℕ × Bytes)} (htransit : t.transit = m :: rest) {l : ℕ}
    (hl : t.received.getLast? = some l) : (∃ j ∈ t.lost, l < j ∧ j < m.1) ↔ m.1 ≠ l + 1 := by
  obtain ⟨earlier, hreceived⟩ := List.getLast?_eq_some_iff.mp hl
  have hkept : t.kept = earlier ++ l :: m.1 :: rest.map Prod.fst := by
    simp [StreamState.kept, htransit, hreceived]
  have hordered := hi.ordered
  rw [hkept] at hordered
  constructor
  · intro ⟨j, _, hlj, hjm⟩
    omega
  · intro hne
    have hlm : l < m.1 :=
      (List.pairwise_cons.mp (List.pairwise_append.mp hordered).2.1).1 m.1
        (List.mem_cons_self ..)
    have hm : m.1 < t.published := hi.published m.1 (by simp [hkept])
    have hnext : l + 1 ∉ t.kept :=
      hkept ▸ not_mem_between hordered (Nat.lt_succ_self l) (by omega)
    exact ⟨l + 1, (hi.accounted (l + 1) (by omega)).resolve_left hnext, by omega, by omega⟩

structure StreamsInv (P : EnvelopeProtobuf) (s : Streams) : Prop where
  streams : ∀ stream, StreamInv P (s.of stream)
  sub : s.sub = s.latest.elim {} fun r =>
    { expected := UInt64.ofNat r.2 + 1, first := false }
  latest : ∀ r ∈ s.latest, (s.of r.1).received.getLast? = some r.2
  unheard : s.latest = none → ∀ stream, (s.of stream).received = []

theorem update_inv {P : EnvelopeProtobuf} {s : Streams} {stream : Stream} {t : StreamState}
    (hi : StreamsInv P s) (ht : StreamInv P t ∧ t.received = (s.of stream).received) :
    StreamsInv P { s with of := Function.update s.of stream t } := by
  have hreceived (other : Stream) :
      (Function.update s.of stream t other).received = (s.of other).received := by
    by_cases h : other = stream
    · rw [h, Function.update_self, ht.2]
    · rw [Function.update_of_ne h]
  refine ⟨?_, hi.sub, ?_, ?_⟩
  · exact (Function.forall_update_iff s.of fun _ t => StreamInv P t).mpr
      ⟨ht.1, fun other _ => hi.streams other⟩
  · intro r hr
    exact (congrArg List.getLast? (hreceived r.1)).trans (hi.latest r hr)
  · intro hnone other
    exact (hreceived other).trans (hi.unheard hnone other)

theorem streams_step_inv {P : EnvelopeProtobuf} {s s' : Streams} {e : StreamEvent}
    (hi : StreamsInv P s) (h : s.step P e = some s') : StreamsInv P s' := by
  cases e with
  | publish stream header wallTimeNs payload =>
    obtain ⟨t, ht, rfl⟩ := Option.map_eq_some_iff.mp h
    exact update_inv hi (publish_inv (hi.streams stream) ht)
  | lose stream index =>
    obtain ⟨t, ht, rfl⟩ := Option.map_eq_some_iff.mp h
    exact update_inv hi (lose_inv (hi.streams stream) ht)
  | deliver stream =>
    obtain ⟨⟨m, t⟩, ht, rfl⟩ := Option.map_eq_some_iff.mp h
    obtain ⟨htinv, hreceived⟩ := deliver_inv (hi.streams stream) ht
    obtain ⟨rest, htransit, -⟩ := deliver_some ht
    obtain ⟨header, hcarries, hv, hseq⟩ :=
      (hi.streams stream).carried m (htransit ▸ List.mem_cons_self ..)
    refine ⟨?_, ?_, ?_, nofun⟩
    · exact (Function.forall_update_iff s.of fun _ t => StreamInv P t).mpr
        ⟨htinv, fun other _ => hi.streams other⟩
    · exact (handle_carried hcarries hv s.sub).2.trans (by rw [hseq]; rfl)
    · intro r hr
      cases hr
      show (Function.update s.of stream t stream).received.getLast? = _
      rw [Function.update_self, hreceived, List.getLast?_concat]
  | refused topic payload =>
    obtain ⟨hrefused, h⟩ := Option.ite_none_right_eq_some.mp h
    cases h
    exact ⟨hi.streams, (handle_refused hrefused s.sub).trans hi.sub, hi.latest, hi.unheard⟩
  | idle =>
    cases h
    exact hi

theorem streams_start_inv (P : EnvelopeProtobuf) : StreamsInv P {} where
  streams := fun _ => {
    counter := rfl
    ordered := List.Pairwise.nil
    published := nofun
    accounted := nofun
    carried := nofun }
  sub := rfl
  latest := nofun
  unheard := fun _ _ => rfl

/-! ### The mark -/

theorem ofNat_eq_succ_iff (i k : ℕ) :
    UInt64.ofNat i = UInt64.ofNat k + 1 ↔ i % 2 ^ 64 = (k + 1) % 2 ^ 64 := by
  rw [show UInt64.ofNat k + 1 = UInt64.ofNat (k + 1) from (UInt64.ofNat_add k 1).symm,
    ← UInt64.toNat_inj]
  simp only [UInt64.toNat_ofNat']

/-- After the message `k`, of whatever stream, the mark is right exactly when the number after
`k`'s tells the next message of the stream, or the first, from the others. -/
theorem mark_right_iff {P : EnvelopeProtobuf} {s : Streams} (hi : StreamsInv P s)
    {stream : Stream} {m : ℕ × Bytes} (hm : m ∈ (s.of stream).transit.head?) {r : Stream × ℕ}
    (hr : s.latest = some r) :
    ((s.sub.handle P (some ⟨stream.topic, m.2⟩)).1.Flagged ↔
        ∃ l ∈ (s.of stream).received.getLast?, ∃ j ∈ (s.of stream).lost, l < j ∧ j < m.1) ↔
      (m.1 % 2 ^ 64 = (r.2 + 1) % 2 ^ 64 ↔
        ∀ l ∈ (s.of stream).received.getLast?, m.1 = l + 1) := by
  obtain ⟨header, hcarries, hv, hseq⟩ :=
    (hi.streams stream).carried m (List.mem_of_mem_head? hm)
  obtain ⟨rest, htransit⟩ := List.head?_eq_some_iff.mp hm
  have hlost : (∃ l ∈ (s.of stream).received.getLast?, ∃ j ∈ (s.of stream).lost,
      l < j ∧ j < m.1) ↔ ¬ ∀ l ∈ (s.of stream).received.getLast?, m.1 = l + 1 := by
    cases hlast : (s.of stream).received.getLast? with
    | none => simp
    | some l => simpa using lost_between (hi.streams stream) htransit hlast
  have hmark : (s.sub.handle P (some ⟨stream.topic, m.2⟩)).1.Flagged ↔
      ¬ m.1 % 2 ^ 64 = (r.2 + 1) % 2 ^ 64 := by
    rw [(handle_carried hcarries hv s.sub).1, hi.sub, hr, hseq, ← ofNat_eq_succ_iff]
    simp
  rw [hmark, hlost]
  exact not_iff_not

theorem gapRight_iff_inTurn {P : EnvelopeProtobuf} {s : Streams} (hi : StreamsInv P s)
    (e : StreamEvent) : GapRight P s e ↔ InTurn s e := by
  cases e with
  | deliver stream =>
    refine forall₂_congr fun m hm => ?_
    cases hr : s.latest with
    | none =>
      -- nothing has been received yet: nothing is marked
      obtain ⟨header, hcarries, hv, -⟩ :=
        (hi.streams stream).carried m (List.mem_of_mem_head? hm)
      rw [(handle_carried hcarries hv s.sub).1, hi.sub, hi.unheard hr stream, hr]
      simp
    | some r =>
      rw [mark_right_iff hi hm hr]
      by_cases hown : r.1 = stream
      · subst hown
        have hlast := hi.latest r hr
        simp only [Option.mem_def, Option.some.injEq, forall_eq', if_true, hlast]
        refine ⟨Iff.mp, fun h => ⟨h, ?_⟩⟩
        intro he
        rw [he]
      · simp only [Option.mem_def, Option.some.injEq, forall_eq', if_neg hown]
  | publish => exact Iff.rfl
  | lose => exact Iff.rfl
  | refused => exact Iff.rfl
  | idle => exact Iff.rfl

/-- Whatever is published, lost and received in whatever order, every message is marked as it
should be exactly when every message comes in its turn. -/
theorem gaps_right_iff (P : EnvelopeProtobuf) (events : List StreamEvent) :
    Throughout (Streams.step P) (GapRight P) {} events ↔
      Throughout (Streams.step P) InTurn {} events :=
  throughout_congr (A := fun _ => True) (StreamsInv P)
    (fun _ _ _ _ hi _ h => streams_step_inv hi h) (fun _ e _ hi => gapRight_iff_inTurn hi e)
    (fun _ _ => trivial) (streams_start_inv P)

/-- Two publishers of one topic, with one message each, and nothing lost. -/
def twoPublishers : List StreamEvent :=
  let sensors : Stream := ⟨ascii ['s'], ascii ['t']⟩
  let control : Stream := ⟨ascii ['c'], ascii ['t']⟩
  [.publish sensors {} 5 (headerOnly ⟨1, ascii ['s'], 0, 5⟩),
    .publish control {} 6 (headerOnly ⟨1, ascii ['c'], 0, 6⟩),
    .deliver sensors, .deliver control]

theorem second_stream_marked :
    ¬ Throughout (Streams.step envelopeWireFormat) (GapRight envelopeWireFormat) {}
      twoPublishers := by
  decide

end AuvMiddleware.Mw
