import AuvMiddleware.Mw.Envelope

/-!
# Messages with a header in field 1 (envelope.pb.cc, heartbeat.pb.cc)

What the generated parsers make of the bytes, over any runtime that keeps its laws: a heartbeat is
read as itself, and any message whatever as an `AnyHeader`.
-/

namespace AuvMiddleware.Mw
open FieldStream ProtoRuntime

variable {R : ProtoRuntime}

def Header.Utf8 (R : ProtoRuntime) (m : Header) : Prop := R.verifyUtf8 m.publisher = true

def Heartbeat.Utf8 (R : ProtoRuntime) (m : Heartbeat) : Prop :=
  (∀ h ∈ m.header, h.Utf8 R) ∧ R.verifyUtf8 m.nodeName = true

instance (m : Header) : Decidable (m.Utf8 R) := inferInstanceAs (Decidable (_ = _))

instance (m : Heartbeat) : Decidable (m.Utf8 R) := inferInstanceAs (Decidable (_ ∧ _))

theorem lt_of_le_maxSize {n : ℕ} (h : n ≤ maxSize) : n < 2 ^ 31 :=
  Nat.lt_of_le_of_lt h (by decide)

/-! ### Headers -/

theorem parsed_header (hR : R.Lawful) {m : Header} (hlen : (m.serialize R).length ≤ maxSize) :
    parsed (R.internalParse (Header.mergeField R) (m.serialize R) {}) =
      if m.Utf8 R then some m else none := by
  have hname := le_putString_length hR 2 m.publisher
  have hparts := hlen
  simp only [Header.serialize, List.length_append] at hparts
  have hsize : m.publisher.length ≤ maxSize := by omega
  have version : Merges (R.tagged (Header.mergeField R)) {}
      (R.putUInt32 1 m.schemaVersion) { schemaVersion := m.schemaVersion } :=
    merges_putUInt32 hR (by decide) _ (fun v => ({ schemaVersion := v } : Header)) (fun _ => rfl)
      rfl
  split
  · case isTrue hutf8 =>
      have publisher (a : Header) (ha : a.publisher = []) :
          Merges (R.tagged (Header.mergeField R)) a
            (R.putString 2 m.publisher) { a with publisher := m.publisher } :=
        merges_putString hR (by decide) (lt_of_le_maxSize hsize) ⟨hsize, hutf8⟩
          (fun s => { a with publisher := s }) (fun _ => rfl) (by rw [← ha])
      have sequence (a : Header) (ha : a.sequence = 0) :
          Merges (R.tagged (Header.mergeField R)) a
            (R.putUInt64 3 m.sequence) { a with sequence := m.sequence } :=
        merges_putUInt64 hR (by decide) _ (fun v => { a with sequence := v }) (fun _ => rfl)
          (by rw [← ha])
      have publishTimeNs (a : Header) (ha : a.publishTimeNs = 0) :
          Merges (R.tagged (Header.mergeField R)) a
            (R.putInt64 4 m.publishTimeNs) { a with publishTimeNs := m.publishTimeNs } :=
        merges_putInt64 hR (by decide) _ (fun z => { a with publishTimeNs := z }) (fun _ => rfl)
          (by rw [← ha])
      have h := (version.append (publisher _ rfl)).append (sequence _ rfl)
      exact congrArg parsed (internalParse_merges (h.append (publishTimeNs _ rfl)))
  · case isFalse hutf8 =>
      have stuck (a : Header) (rest : Bytes) :
          Stuck (R.tagged (Header.mergeField R)) a (R.putString 2 m.publisher ++ rest) :=
        putString_stuck hR (by decide) (lt_of_le_maxSize hsize) (fun htext => hutf8 htext.2)
          (fun s => { a with publisher := s }) (fun _ => rfl) rest
      simp only [Header.serialize, List.append_assoc]
      exact congrArg parsed (internalParse_stuck version (stuck _ _))

theorem headerField_write {μ : Type} (hR : R.Lawful) {h : Header}
    (hlen : (h.serialize R).length ≤ maxSize) (rest : Bytes) (put : Header → μ) :
    headerField R none (R.writeDelimited (h.serialize R) ++ rest) put =
      if h.Utf8 R then some (put h, rest) else none := by
  rw [headerField, messageField_write hR hlen, Option.getD_none, parsed_header hR hlen]
  split <;> rfl

section HeaderFields

variable {μ : Type} {field : FieldParser μ} {m : μ}

theorem merges_putHeader (hR : R.Lawful) {header : Option Header}
    (hutf8 : ∀ h ∈ header, h.Utf8 R) (hlen : ∀ h ∈ header, (h.serialize R).length ≤ maxSize)
    (put : Option Header → μ)
    (hfield : ∀ bs, field m 10 bs = headerField R none bs fun h => put (some h))
    (hnone : put none = m) : Merges (R.tagged field) m
      (R.putMessage 1 (header.map (Header.serialize R))) (put header) := by
  cases header with
  | none =>
    rw [hnone]
    exact .nil m
  | some h =>
    show Merges _ m (R.writeTag 10 ++ R.writeDelimited (h.serialize R)) _
    refine merges_tagged hR (by decide) fun rest => ?_
    rw [hfield, headerField_write hR (hlen h rfl), if_pos (hutf8 h rfl)]

theorem putHeader_stuck (hR : R.Lawful) {h : Header} (hutf8 : ¬ h.Utf8 R)
    (hlen : (h.serialize R).length ≤ maxSize) (put : Header → μ)
    (hfield : ∀ bs, field m 10 bs = headerField R none bs put) (rest : Bytes) :
    Stuck (R.tagged field) m (R.putMessage 1 (some (h.serialize R)) ++ rest) := by
  refine ⟨?_, ?_⟩
  · exact List.append_ne_nil_of_left_ne_nil (writeTag_append_ne_nil hR (by decide) _) rest
  · show R.tagged field m (R.writeTag 10 ++ R.writeDelimited (h.serialize R) ++ rest) = none
    rw [tagged_write hR (by decide), hfield, headerField_write hR hlen, if_neg hutf8]

end HeaderFields

theorem le_putMessage_length (hR : R.Lawful) (number : ℕ) (s : Bytes) :
    s.length ≤ (R.putMessage number (some s)).length := by
  have hs := hR.writeDelimited_length s
  rw [putMessage, Option.elim_some, List.length_append]
  omega

/-! ### Heartbeats -/

theorem parseHeartbeat_serialize (hR : R.Lawful) {m : Heartbeat}
    (hlen : (m.serialize R).length ≤ maxSize) :
    (envelopeProtobuf R).parseHeartbeat (m.serialize R) = if m.Utf8 R then some m else none := by
  have hname := le_putString_length hR 2 m.nodeName
  have hparts := hlen
  simp only [Heartbeat.serialize, List.length_append] at hparts
  have hsize : m.nodeName.length ≤ maxSize := by omega
  have hheader : ∀ h ∈ m.header, (h.serialize R).length ≤ maxSize := by
    intro h hh
    have hmessage := le_putMessage_length hR 1 (h.serialize R)
    rw [show m.header = some h from hh, Option.map_some] at hparts
    omega
  have header (hutf8 : ∀ h ∈ m.header, h.Utf8 R) : Merges (R.tagged (Heartbeat.mergeField R)) {}
      (R.putMessage 1 (m.header.map (Header.serialize R))) { header := m.header } :=
    merges_putHeader hR hutf8 hheader (fun h => ({ header := h } : Heartbeat)) (fun _ => rfl) rfl
  show parsed (R.internalParse (Heartbeat.mergeField R) (m.serialize R) {}) = _
  split
  · case isTrue hutf8 =>
      have nodeName (a : Heartbeat) (ha : a.nodeName = []) :
          Merges (R.tagged (Heartbeat.mergeField R)) a
            (R.putString 2 m.nodeName) { a with nodeName := m.nodeName } :=
        merges_putString hR (by decide) (lt_of_le_maxSize hsize) ⟨hsize, hutf8.2⟩
          (fun s => { a with nodeName := s }) (fun _ => rfl) (by rw [← ha])
      have state (a : Heartbeat) (ha : a.state = 0) :
          Merges (R.tagged (Heartbeat.mergeField R)) a
            (R.putEnum 3 m.state) { a with state := m.state } :=
        merges_putEnum hR (by decide) _ (fun v => { a with state := v }) (fun _ => rfl)
          (by rw [← ha])
      have tickCount (a : Heartbeat) (ha : a.tickCount = 0) :
          Merges (R.tagged (Heartbeat.mergeField R)) a
            (R.putUInt64 4 m.tickCount) { a with tickCount := m.tickCount } :=
        merges_putUInt64 hR (by decide) _ (fun v => { a with tickCount := v }) (fun _ => rfl)
          (by rw [← ha])
      have overruns (a : Heartbeat) (ha : a.overruns = 0) :
          Merges (R.tagged (Heartbeat.mergeField R)) a
            (R.putUInt64 5 m.overruns) { a with overruns := m.overruns } :=
        merges_putUInt64 hR (by decide) _ (fun v => { a with overruns := v }) (fun _ => rfl)
          (by rw [← ha])
      have wcetUs (a : Heartbeat) (ha : a.wcetUs = 0) :
          Merges (R.tagged (Heartbeat.mergeField R)) a
            (R.putUInt32 6 m.wcetUs) { a with wcetUs := m.wcetUs } :=
        merges_putUInt32 hR (by decide) _ (fun v => { a with wcetUs := v }) (fun _ => rfl)
          (by rw [← ha])
      have h := ((header hutf8.1).append (nodeName _ rfl)).append (state _ rfl)
      have h := (h.append (tickCount _ rfl)).append (overruns _ rfl)
      exact congrArg parsed (internalParse_merges (h.append (wcetUs _ rfl)))
  · case isFalse hutf8 =>
      by_cases hgood : ∀ h ∈ m.header, h.Utf8 R
      · have stuck (a : Heartbeat) (rest : Bytes) :
            Stuck (R.tagged (Heartbeat.mergeField R)) a (R.putString 2 m.nodeName ++ rest) :=
          putString_stuck hR (by decide) (lt_of_le_maxSize hsize)
            (fun htext => hutf8 ⟨hgood, htext.2⟩) (fun s => { a with nodeName := s })
            (fun _ => rfl) rest
        simp only [Heartbeat.serialize, List.append_assoc]
        exact congrArg parsed (internalParse_stuck (header hgood) (stuck _ _))
      · obtain ⟨h, hh, hbad⟩ : ∃ h ∈ m.header, ¬ h.Utf8 R := by
          simpa only [not_forall, exists_prop] using hgood
        have hm : m.header = some h := hh
        have stuck (rest : Bytes) : Stuck (R.tagged (Heartbeat.mergeField R)) {}
            (R.putMessage 1 (some (h.serialize R)) ++ rest) :=
          putHeader_stuck hR hbad (hheader h hh) (fun h => { header := some h }) (fun _ => rfl) rest
        simp only [Heartbeat.serialize, List.append_assoc, hm, Option.map_some]
        exact congrArg parsed (internalParse_stuck (.nil _) (stuck _))

theorem headerSerialize_length (hR : R.Lawful) (m : Header) :
    (m.serialize R).length ≤ m.publisher.length + 34 := by
  have h1 := putUInt32_length hR 1 (by decide) m.schemaVersion
  have h2 := putString_length hR 2 (by decide) m.publisher
  have h3 := putUInt64_length hR 3 (by decide) m.sequence
  have h4 := putInt64_length hR 4 (by decide) m.publishTimeNs
  simp only [Header.serialize, List.length_append]
  omega

theorem heartbeatSerialize_length (hR : R.Lawful) {m : Heartbeat} {header : Header}
    (hheader : m.header = some header) :
    (m.serialize R).length ≤ header.publisher.length + m.nodeName.length + 85 := by
  have h1 : (R.putMessage 1 (m.header.map (Header.serialize R))).length ≤
      header.publisher.length + 40 := by
    have hh := headerSerialize_length hR header
    have hs := hR.writeDelimited_length (header.serialize R)
    have htag := hR.writeTag_length (show 8 * 1 + 2 < 128 by decide)
    rw [hheader, Option.map_some, putMessage, Option.elim_some, List.length_append, htag]
    omega
  have h2 := putString_length hR 2 (by decide) m.nodeName
  have h3 := putEnum_length hR 3 (by decide) m.state
  have h4 := putUInt64_length hR 4 (by decide) m.tickCount
  have h5 := putUInt64_length hR 5 (by decide) m.overruns
  have h6 := putUInt32_length hR 6 (by decide) m.wcetUs
  simp only [Heartbeat.serialize, List.length_append]
  omega

/-! ### Messages of other types -/

/-- A field that an `AnyHeader` passes over: anything but what it takes for its header. -/
def Foreign (R : ProtoRuntime) (field : Bytes) : Prop :=
  ∀ rest, ∃ tag after, R.readTag (field ++ rest) = some (tag, after) ∧
    tag ≠ 10 ∧ tag % 8 ≠ 4 ∧ tag ≠ 0 ∧ R.unknownField 0 tag after = some rest

/-- A message of a type that has its header, if it is set, among its other fields. -/
def message (R : ProtoRuntime) (before : List Bytes) (header : Option Header)
    (after : List Bytes) : Bytes :=
  before.flatten ++ R.putMessage 1 (header.map (Header.serialize R)) ++ after.flatten

theorem mergeField_unusual {m : AnyHeader} {tag : ℕ} (h : tag ≠ 10) (bs : Bytes) :
    m.mergeField R tag bs = R.unusual 0 m tag bs := by
  unfold AnyHeader.mergeField
  split
  · exact absurd rfl h
  · rfl

theorem mergeField_skipped {m : AnyHeader} {tag : ℕ} {bs rest : Bytes} (hheader : tag ≠ 10)
    (hend : tag % 8 ≠ 4) (hzero : tag ≠ 0) (hskip : R.unknownField 0 tag bs = some rest) :
    m.mergeField R tag bs = some (m, rest) := by
  have hgo : ¬ (tag % 8 = 4 ∨ tag = 0) := fun h => h.elim hend hzero
  rw [mergeField_unusual hheader, unusual, if_neg hgo, hskip, Option.map_some]

theorem merges_foreign (hR : R.Lawful) {f : Bytes} (hf : Foreign R f) (m : AnyHeader) :
    Merges (R.tagged (AnyHeader.mergeField R)) m f m := by
  refine Merges.one ?_ fun rest => ?_
  · rintro rfl
    obtain ⟨tag, after, hread, -⟩ := hf []
    exact absurd (hR.readTag_rest hread) (Nat.not_lt_zero _)
  · obtain ⟨tag, after, hread, hheader, hend, hzero, hskip⟩ := hf rest
    rw [tagged, hread, Option.bind_some]
    exact mergeField_skipped hheader hend hzero hskip

theorem merges_foreigns (hR : R.Lawful) {fields : List Bytes} (hf : ∀ f ∈ fields, Foreign R f)
    (m : AnyHeader) : Merges (R.tagged (AnyHeader.mergeField R)) m fields.flatten m := by
  induction fields with
  | nil => exact .nil m
  | cons f fields ih =>
    obtain ⟨hf, hfields⟩ := List.forall_mem_cons.mp hf
    exact (merges_foreign hR hf m).append (ih hfields)

theorem foreign_written (hR : R.Lawful) {tag : ℕ} {value : Bytes} (htag : tag < 2 ^ 32)
    (hheader : tag ≠ 10) (hend : tag % 8 ≠ 4) (hzero : tag ≠ 0)
    (hskip : ∀ rest, R.unknownField 0 tag (value ++ rest) = some rest) :
    Foreign R (R.writeTag tag ++ value) := by
  intro rest
  rw [List.append_assoc]
  exact ⟨tag, value ++ rest, hR.readTag_write _ htag, hheader, hend, hzero, hskip rest⟩

theorem foreign_varint (hR : R.Lawful) {number : ℕ} (hpos : 0 < number) (hsmall : number < 2 ^ 29)
    {value : Bytes} (hskip : ∀ rest, R.unknownField 0 (8 * number) (value ++ rest) = some rest) :
    Foreign R (R.writeTag (8 * number) ++ value) :=
  foreign_written hR (by omega) (by omega) (by omega) (by omega) hskip

theorem foreign_delimited (hR : R.Lawful) {number : ℕ} (hother : 1 < number)
    (hsmall : number < 2 ^ 29) {s : Bytes} (hlen : s.length ≤ maxSize) :
    Foreign R (R.writeTag (8 * number + 2) ++ R.writeDelimited s) := by
  refine foreign_written hR (by omega) (by omega) (by omega) (by omega) fun rest => ?_
  have hread := hR.readDelimited_write rest (lt_of_le_maxSize hlen)
  rw [if_pos hlen] at hread
  exact hR.unknownField_delimited (by omega) hsmall hread

theorem parseAnyHeader_eq (R : ProtoRuntime) {bytes : Bytes} (hlen : bytes.length < 2 ^ 31) :
    (envelopeProtobuf R).parseAnyHeader bytes (Int32.ofNat bytes.length) =
      parsed (R.internalParse (AnyHeader.mergeField R) bytes {}) := by
  have hsize := Int32.toInt_ofNat_of_lt hlen
  show (if _ then _ else _) = _
  rw [hsize, if_pos (by omega), Int.toNat_natCast, List.take_length]

theorem parseAnyHeader_message (hR : R.Lawful) {before after : List Bytes}
    {header : Option Header} (hbefore : ∀ f ∈ before, Foreign R f)
    (hafter : ∀ f ∈ after, Foreign R f)
    (hlen : (message R before header after).length ≤ maxSize) :
    (envelopeProtobuf R).parseAnyHeader (message R before header after)
      (Int32.ofNat (message R before header after).length) =
        if ∀ h ∈ header, h.Utf8 R then some { header := header } else none := by
  rw [parseAnyHeader_eq R (lt_of_le_maxSize hlen)]
  simp only [message, List.length_append] at hlen
  have hheader : ∀ h ∈ header, (h.serialize R).length ≤ maxSize := by
    intro h hh
    have hmessage := le_putMessage_length hR 1 (h.serialize R)
    rw [show header = some h from hh, Option.map_some] at hlen
    omega
  have hfront := merges_foreigns hR hbefore {}
  split
  · case isTrue hutf8 =>
      have hmerge : Merges (R.tagged (AnyHeader.mergeField R)) {}
          (R.putMessage 1 (header.map (Header.serialize R))) { header := header } :=
        merges_putHeader hR hutf8 hheader (fun h => ({ header := h } : AnyHeader)) (fun _ => rfl)
          rfl
      exact congrArg parsed (internalParse_merges
        ((hfront.append hmerge).append (merges_foreigns hR hafter _)))
  · case isFalse hutf8 =>
      obtain ⟨h, hh, hbad⟩ : ∃ h ∈ header, ¬ h.Utf8 R := by
        simpa only [not_forall, exists_prop] using hutf8
      have hm : header = some h := hh
      have stuck (rest : Bytes) : Stuck (R.tagged (AnyHeader.mergeField R)) {}
          (R.putMessage 1 (some (h.serialize R)) ++ rest) :=
        putHeader_stuck hR hbad (hheader h hh) (fun h => { header := some h }) (fun _ => rfl) rest
      simp only [message, List.append_assoc, hm, Option.map_some]
      exact congrArg parsed (internalParse_stuck hfront (stuck _))

/-- What a peek is to say of a message with this header, and what it is to leave in `out`. -/
def peekedHeader (R : ProtoRuntime) (header : Option Header) (out : Header) :
    HeaderStatus × Header :=
  header.elim (.missingHeader, out) fun h =>
    if ¬ h.Utf8 R then (.notParsable, out)
    else if h.schemaVersion = kSchemaVersion then (.ok, h)
    else if kSchemaVersion < h.schemaVersion then (.schemaTooNew, out)
    else (.schemaTooOld, out)

theorem peekHeader_parsed {P : EnvelopeProtobuf} {bytes : Bytes} {header : Option Header}
    (hparse : P.parseAnyHeader bytes (Int32.ofNat bytes.length) =
      if ∀ h ∈ header, h.Utf8 R then some { header := header } else none) (out : Header) :
    peekHeader P bytes out = peekedHeader R header out := by
  unfold peekHeader
  rw [hparse]
  cases header with
  | none =>
    rw [if_pos (by simp)]
    rfl
  | some h =>
    by_cases hutf8 : h.Utf8 R
    · rw [if_pos (by simpa using hutf8)]
      dsimp only [peekedHeader, Option.elim_some]
      rw [if_neg (not_not.mpr hutf8)]
      by_cases hnew : kSchemaVersion < h.schemaVersion
      · have hne : h.schemaVersion ≠ kSchemaVersion :=
          fun heq => UInt32.lt_irrefl _ (heq ▸ hnew)
        rw [if_pos hnew, if_neg hne, if_pos hnew]
      · by_cases hold : h.schemaVersion < kSchemaVersion
        · have hne : h.schemaVersion ≠ kSchemaVersion :=
            fun heq => UInt32.lt_irrefl _ (heq ▸ hold)
          rw [if_neg hnew, if_pos hold, if_neg hne, if_neg hnew]
        · have heq := UInt32.le_antisymm (UInt32.not_lt.mp hnew) (UInt32.not_lt.mp hold)
          rw [if_neg hnew, if_neg hold, if_pos heq]
    · rw [if_neg (by simpa using hutf8)]
      dsimp only [peekedHeader, Option.elim_some]
      rw [if_pos hutf8]

/-- The header of a message can be read without knowing its type, by whatever fields it stands. -/
theorem peekHeader_message (hR : R.Lawful) {before after : List Bytes} {header : Option Header}
    (hbefore : ∀ f ∈ before, Foreign R f) (hafter : ∀ f ∈ after, Foreign R f)
    (hlen : (message R before header after).length ≤ maxSize) (out : Header) :
    peekHeader (envelopeProtobuf R) (message R before header after) out =
      peekedHeader R header out :=
  peekHeader_parsed (parseAnyHeader_message hR hbefore hafter hlen) out

/-- A group that holds a number. -/
def groupNine : Bytes := bytes [75, 8, 5, 76]

theorem groupNine_foreign : Foreign reference groupNine := by
  intro rest
  have htag : takeTag (groupNine ++ rest) = some (75, bytes [8, 5, 76] ++ rest) := rfl
  have hvalue : takeTag (bytes [8, 5, 76] ++ rest) = some (8, bytes [5, 76] ++ rest) := rfl
  have hskip : skipValue 8 (bytes [5, 76] ++ rest) = some (bytes [76] ++ rest) := rfl
  have hend : takeTag (bytes [76] ++ rest) = some (76, rest) := rfl
  refine ⟨75, bytes [8, 5, 76] ++ rest, htag, by decide, by decide, by decide, ?_⟩
  show skipGroups (rest.length + 3) 0 [75] (bytes [8, 5, 76] ++ rest) = some rest
  simp [skipGroups, hvalue, hskip, hend, skipGroups_nil]

/-- A message of a later schema, its header between fields that nobody here knows. -/
def fromTheFuture : Bytes :=
  message reference [groupNine] (some ⟨2, bytes [97], 7, 8⟩)
    [reference.writeTag 162 ++ reference.writeDelimited (bytes [10, 0])]

theorem fromTheFuture_refused :
    peekHeader envelopeWireFormat fromTheFuture {} = (.schemaTooNew, {}) := by
  have hbefore : ∀ f ∈ [groupNine], Foreign reference f := by
    simpa using groupNine_foreign
  have hafter : ∀ f ∈ [reference.writeTag 162 ++ reference.writeDelimited (bytes [10, 0])],
      Foreign reference f := by
    have h : Foreign reference
        (reference.writeTag (8 * 20 + 2) ++ reference.writeDelimited (bytes [10, 0])) :=
      foreign_delimited reference_lawful (by decide) (by decide) (by decide)
    simpa using h
  exact peekHeader_message reference_lawful hbefore hafter (by decide) {}

/-! ### Heartbeats read as an AnyHeader -/

theorem unusual_header {m m' : Heartbeat} {tag : ℕ} {bs rest : Bytes}
    (h : R.unusual 0 m tag bs = some (m', rest)) :
    R.unusual 0 ({ header := m.header } : AnyHeader) tag bs =
      some ({ header := m'.header }, rest) := by
  unfold unusual at h ⊢
  split at h
  · cases h
  · case isFalse hgo =>
      obtain ⟨after, hskip, heq⟩ := Option.map_eq_some_iff.mp h
      cases heq
      rw [if_neg hgo, hskip, Option.map_some]

/-- The fields of a heartbeat have numbers from 1 to 6. -/
theorem mergeField_varint64 (hR : R.Lawful) (m : AnyHeader) (number : ℕ)
    (hn : 0 < number ∧ number < 7) {bs rest : Bytes} {v : UInt64}
    (hread : R.readVarint64 bs = some (v, rest)) :
    m.mergeField R (8 * number) bs = some (m, rest) :=
  mergeField_skipped (by omega) (by omega) (by omega)
    (hR.unknownField_varint64 hn.1 (by omega) hread)

theorem mergeField_varint32 (hR : R.Lawful) (m : AnyHeader) (number : ℕ)
    (hn : 0 < number ∧ number < 7) {bs rest : Bytes} {v : UInt32}
    (hread : R.readVarint32 bs = some (v, rest)) :
    m.mergeField R (8 * number) bs = some (m, rest) :=
  mergeField_skipped (by omega) (by omega) (by omega)
    (hR.unknownField_varint32 hn.1 (by omega) hread)

theorem mergeField_delimited (hR : R.Lawful) (m : AnyHeader) (number : ℕ)
    (hn : 1 < number ∧ number < 7) {bs rest s : Bytes}
    (hread : R.readDelimited bs = some (s, rest)) :
    m.mergeField R (8 * number + 2) bs = some (m, rest) :=
  mergeField_skipped (by omega) (by omega) (by omega)
    (hR.unknownField_delimited (by omega) (by omega) hread)

/-- An `AnyHeader` passes over what a heartbeat reads of a field that is not its header. -/
theorem mergeAnyHeaderField_of_heartbeat (hR : R.Lawful) {m m' : Heartbeat} {tag : ℕ}
    {bs rest : Bytes} (h : m.mergeField R tag bs = some (m', rest)) :
    AnyHeader.mergeField R { header := m.header } tag bs =
      some ({ header := m'.header }, rest) := by
  unfold Heartbeat.mergeField at h
  split at h
  case h_1 =>
    obtain ⟨⟨s, after⟩, hr, h⟩ := Option.bind_eq_some_iff.mp h
    obtain ⟨header, hheader, heq⟩ := Option.map_eq_some_iff.mp h
    cases heq
    show headerField R m.header bs _ = _
    rw [headerField, messageField, hr, Option.bind_some, hheader, Option.map_some]
  case h_2 =>
    obtain ⟨⟨s, after⟩, hr, h⟩ := Option.bind_eq_some_iff.mp h
    split at h
    · cases h
      exact mergeField_delimited hR _ 2 (by decide) hr
    · cases h
  case h_3 =>
    obtain ⟨r, hr, heq⟩ := Option.map_eq_some_iff.mp h
    cases heq
    exact mergeField_varint64 hR _ 3 (by decide) hr
  case h_4 =>
    obtain ⟨r, hr, heq⟩ := Option.map_eq_some_iff.mp h
    cases heq
    exact mergeField_varint64 hR _ 4 (by decide) hr
  case h_5 =>
    obtain ⟨r, hr, heq⟩ := Option.map_eq_some_iff.mp h
    cases heq
    exact mergeField_varint64 hR _ 5 (by decide) hr
  case h_6 =>
    obtain ⟨r, hr, heq⟩ := Option.map_eq_some_iff.mp h
    cases heq
    exact mergeField_varint32 hR _ 6 (by decide) hr
  case h_7 hheader _ _ _ _ _ =>
    rw [mergeField_unusual fun heq => hheader heq]
    exact unusual_header h

theorem parsed_eq_some {μ : Type} {r : Bool × μ} {m : μ} : parsed r = some m ↔ r = (true, m) := by
  obtain ⟨ok, result⟩ := r
  cases ok <;> simp [parsed]

/-- Whatever bytes parse as a heartbeat, the header it has is the one that peeking at them sees. -/
theorem heartbeat_header_peeked (hR : R.Lawful) {bytes : Bytes} {hb : Heartbeat}
    (h : (envelopeProtobuf R).parseHeartbeat bytes = some hb) (hlen : bytes.length < 2 ^ 31) :
    (envelopeProtobuf R).parseAnyHeader bytes (Int32.ofNat bytes.length) =
      some { header := hb.header } := by
  have hread (m : Heartbeat) (s : Bytes) (m' : Heartbeat) (rest : Bytes)
      (hr : R.tagged (Heartbeat.mergeField R) m s = some (m', rest)) :
      R.tagged (AnyHeader.mergeField R) { header := m.header } s =
        some ({ header := m'.header }, rest) := by
    obtain ⟨⟨tag, after⟩, htag, hfield⟩ := Option.bind_eq_some_iff.mp hr
    rw [tagged, htag, Option.bind_some]
    exact mergeAnyHeaderField_of_heartbeat hR hfield
  rw [parseAnyHeader_eq R hlen]
  exact parsed_eq_some.mpr
    (merge_map (fun m : Heartbeat => ({ header := m.header } : AnyHeader)) hread
      (parsed_eq_some.mp h))

/-- The name, a header of sequence 7, a group, then a tick count. -/
def nameFirst : Bytes := bytes [18, 1, 97, 10, 2, 24, 7, 75, 8, 5, 76, 32, 3]

theorem nameFirst_peeked :
    envelopeWireFormat.parseAnyHeader nameFirst (Int32.ofNat nameFirst.length) =
      some { header := some { sequence := 7 } } :=
  have hparse : envelopeWireFormat.parseHeartbeat nameFirst =
      some { header := some { sequence := 7 }, nodeName := bytes [97], tickCount := 3 } := by decide
  heartbeat_header_peeked reference_lawful hparse (by decide)

end AuvMiddleware.Mw
