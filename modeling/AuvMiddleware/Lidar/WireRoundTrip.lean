import AuvMiddleware.Lidar.WireFormat

/-!
# What the wire keeps of a scan (lidar_scan.pb.cc, scan_codec.cpp)

Over any runtime that keeps its laws, the generated parser undoes the generated serialiser, but for
what the format itself loses: a negative zero, a frame id that is not UTF-8, a field longer than is
read and a message longer than is written.
-/

namespace AuvMiddleware.Lidar
open FieldStream ProtoRuntime

variable {R : ProtoRuntime}

/-! ### Written and read back -/

abbrev LidarScan.fields (R : ProtoRuntime) : FieldReader Byte LidarScan :=
  R.tagged (LidarScan.mergeField R)

/-- The message as the other side gets it. -/
def LidarScan.plusZeros (m : LidarScan) : LidarScan :=
  { m with
    angleMin := plusZero m.angleMin
    angleMax := plusZero m.angleMax
    angleIncrement := plusZero m.angleIncrement
    rangeMin := plusZero m.rangeMin
    rangeMax := plusZero m.rangeMax }

def LidarScan.serializeHead (R : ProtoRuntime) (m : LidarScan) : Bytes :=
  R.putString 1 m.frameId ++ R.putInt64 2 m.stampNs ++ R.putInt64 3 m.scanTimeNs ++
  R.putInt64 4 m.timeIncrementNs ++ R.putFloat 5 m.angleMin ++ R.putFloat 6 m.angleMax ++
  R.putFloat 7 m.angleIncrement ++ R.putFloat 8 m.rangeMin ++ R.putFloat 9 m.rangeMax ++
  R.putUInt32 10 m.echoIndex ++ R.putUInt32 11 m.echoCount

theorem LidarScan.serialize_eq (m : LidarScan) : m.serialize R =
    m.serializeHead R ++ R.putPacked 12 m.ranges ++ R.putPacked 13 m.intensities := rfl

theorem serializeHead_merges (hR : R.Lawful) {m : LidarScan} (hlen : m.frameId.length < 2 ^ 31)
    (htext : R.Text m.frameId) : Merges (LidarScan.fields R) {}
      (m.serializeHead R) { m.plusZeros with ranges := [], intensities := [] } := by
  have frameId (a : LidarScan) (ha : a.frameId = []) : Merges (LidarScan.fields R) a
      (R.putString 1 m.frameId) { a with frameId := m.frameId } :=
    merges_putString hR (by decide) hlen htext (fun s => { a with frameId := s }) (fun _ => rfl)
      (by rw [← ha])
  have stampNs (a : LidarScan) (ha : a.stampNs = 0) : Merges (LidarScan.fields R) a
      (R.putInt64 2 m.stampNs) { a with stampNs := m.stampNs } :=
    merges_putInt64 hR (by decide) _ (fun z => { a with stampNs := z }) (fun _ => rfl)
      (by rw [← ha])
  have scanTimeNs (a : LidarScan) (ha : a.scanTimeNs = 0) :
      Merges (LidarScan.fields R) a
        (R.putInt64 3 m.scanTimeNs) { a with scanTimeNs := m.scanTimeNs } :=
    merges_putInt64 hR (by decide) _ (fun z => { a with scanTimeNs := z }) (fun _ => rfl)
      (by rw [← ha])
  have timeIncrementNs (a : LidarScan) (ha : a.timeIncrementNs = 0) :
      Merges (LidarScan.fields R) a
        (R.putInt64 4 m.timeIncrementNs) { a with timeIncrementNs := m.timeIncrementNs } :=
    merges_putInt64 hR (by decide) _ (fun z => { a with timeIncrementNs := z }) (fun _ => rfl)
      (by rw [← ha])
  have angleMin (a : LidarScan) (ha : a.angleMin = 0) :
      Merges (LidarScan.fields R) a
        (R.putFloat 5 m.angleMin) { a with angleMin := plusZero m.angleMin } :=
    merges_putFloat hR (by decide) _ (fun x => { a with angleMin := x }) (fun _ => rfl)
      (by rw [← ha])
  have angleMax (a : LidarScan) (ha : a.angleMax = 0) :
      Merges (LidarScan.fields R) a
        (R.putFloat 6 m.angleMax) { a with angleMax := plusZero m.angleMax } :=
    merges_putFloat hR (by decide) _ (fun x => { a with angleMax := x }) (fun _ => rfl)
      (by rw [← ha])
  have angleIncrement (a : LidarScan) (ha : a.angleIncrement = 0) :
      Merges (LidarScan.fields R) a
        (R.putFloat 7 m.angleIncrement) { a with angleIncrement := plusZero m.angleIncrement } :=
    merges_putFloat hR (by decide) _ (fun x => { a with angleIncrement := x }) (fun _ => rfl)
      (by rw [← ha])
  have rangeMin (a : LidarScan) (ha : a.rangeMin = 0) :
      Merges (LidarScan.fields R) a
        (R.putFloat 8 m.rangeMin) { a with rangeMin := plusZero m.rangeMin } :=
    merges_putFloat hR (by decide) _ (fun x => { a with rangeMin := x }) (fun _ => rfl)
      (by rw [← ha])
  have rangeMax (a : LidarScan) (ha : a.rangeMax = 0) :
      Merges (LidarScan.fields R) a
        (R.putFloat 9 m.rangeMax) { a with rangeMax := plusZero m.rangeMax } :=
    merges_putFloat hR (by decide) _ (fun x => { a with rangeMax := x }) (fun _ => rfl)
      (by rw [← ha])
  have echoIndex (a : LidarScan) (ha : a.echoIndex = 0) :
      Merges (LidarScan.fields R) a
        (R.putUInt32 10 m.echoIndex) { a with echoIndex := m.echoIndex } :=
    merges_putUInt32 hR (by decide) _ (fun v => { a with echoIndex := v }) (fun _ => rfl)
      (by rw [← ha])
  have echoCount (a : LidarScan) (ha : a.echoCount = 0) :
      Merges (LidarScan.fields R) a
        (R.putUInt32 11 m.echoCount) { a with echoCount := m.echoCount } :=
    merges_putUInt32 hR (by decide) _ (fun v => { a with echoCount := v }) (fun _ => rfl)
      (by rw [← ha])
  have h := (frameId {} rfl).append (stampNs _ rfl)
  have h := ((h.append (scanTimeNs _ rfl)).append (timeIncrementNs _ rfl)).append (angleMin _ rfl)
  have h := ((h.append (angleMax _ rfl)).append (angleIncrement _ rfl)).append (rangeMin _ rfl)
  exact ((h.append (rangeMax _ rfl)).append (echoIndex _ rfl)).append (echoCount _ rfl)

theorem ranges_merges (hR : R.Lawful) {xs : List (BitVec 32)} (hfits : 4 * xs.length ≤ maxSize)
    (a : LidarScan) : Merges (LidarScan.fields R) a (R.putPacked 12 xs)
      { a with ranges := a.ranges ++ xs } :=
  merges_putPacked hR (by decide) hfits (fun xs => { a with ranges := a.ranges ++ xs })
    (fun _ => rfl) (by rw [List.append_nil])

def LidarScan.Readable (m : LidarScan) : Prop :=
  ∀ size ∈ [m.frameId.length, 4 * m.ranges.length, 4 * m.intensities.length], size ≤ maxSize

theorem internalParse_serialize (hR : R.Lawful) {m : LidarScan} (hread : m.Readable)
    (hutf8 : R.verifyUtf8 m.frameId = true) :
    R.internalParse (LidarScan.mergeField R) (m.serialize R) {} = (true, m.plusZeros) := by
  have hid : m.frameId.length ≤ maxSize := hread _ (by simp)
  have hhead := serializeHead_merges hR (Nat.lt_of_le_of_lt hid (by decide)) ⟨hid, hutf8⟩
  have hfits : 4 * m.ranges.length ≤ maxSize := hread _ (by simp)
  have intensities (a : LidarScan) : Merges (LidarScan.fields R) a
      (R.putPacked 13 m.intensities) { a with intensities := a.intensities ++ m.intensities } :=
    merges_putPacked hR (by decide) (hread _ (by simp))
      (fun xs => { a with intensities := a.intensities ++ xs }) (fun _ => rfl)
      (by rw [List.append_nil])
  exact internalParse_merges ((hhead.append (ranges_merges hR hfits _)).append (intensities _))

/-- A message with a field that cannot be read stops the parser there. -/
theorem internalParse_serialize_refused (hR : R.Lawful) {m : LidarScan}
    (hlen : (m.serialize R).length < 2 ^ 31)
    (hbad : ¬ (m.Readable ∧ R.verifyUtf8 m.frameId = true)) :
    (R.internalParse (LidarScan.mergeField R) (m.serialize R) {}).1 = false := by
  have hid := le_putString_length hR 1 m.frameId
  have hranges := le_putPacked_length hR 12 m.ranges
  have hintensities := le_putPacked_length hR 13 m.intensities
  have hparts := hlen
  simp only [LidarScan.serialize, List.length_append] at hparts
  by_cases htext : R.Text m.frameId
  · have hhead := serializeHead_merges hR (by omega) htext
    by_cases hfits : 4 * m.ranges.length ≤ maxSize
    · have hlong : ¬ 4 * m.intensities.length ≤ maxSize := fun h => hbad
        ⟨by simp [LidarScan.Readable, htext.1, hfits, h], htext.2⟩
      have stuck (a : LidarScan) :
          Stuck (LidarScan.fields R) a (R.putPacked 13 m.intensities ++ []) :=
        putPacked_stuck hR (by decide) (by omega) hlong
          (fun xs => { a with intensities := a.intensities ++ xs }) (fun _ => rfl) []
      simp only [List.append_nil] at stuck
      rw [m.serialize_eq, internalParse_stuck (hhead.append (ranges_merges hR hfits _)) (stuck _)]
    · have stuck (a : LidarScan) : Stuck (LidarScan.fields R) a
          (R.putPacked 12 m.ranges ++ R.putPacked 13 m.intensities) :=
        putPacked_stuck hR (by decide) (by omega) hfits
          (fun xs => { a with ranges := a.ranges ++ xs }) (fun _ => rfl) _
      rw [m.serialize_eq, List.append_assoc, internalParse_stuck hhead (stuck _)]
  · have stuck (rest : Bytes) :
        Stuck (LidarScan.fields R) {} (R.putString 1 m.frameId ++ rest) :=
      putString_stuck hR (by decide) (by omega) htext (fun s => { frameId := s }) (fun _ => rfl) rest
    simp only [LidarScan.serialize, List.append_assoc]
    exact congrArg Prod.fst (internalParse_stuck (.nil _) (stuck _))

theorem plusZeros_eq_iff (m : LidarScan) : m.plusZeros = m ↔
    ∀ x ∈ [m.angleMin, m.angleMax, m.angleIncrement, m.rangeMin, m.rangeMax], x ≠ negZero := by
  obtain ⟨_⟩ := m
  simp [LidarScan.plusZeros, plusZero_eq_iff]

theorem protobuf_serializeAsString (hR : R.Lawful) (m : LidarScan) :
    (LidarScan.protobuf R).serializeAsString m =
      if (m.serialize R).length < 2 ^ 31 then m.serialize R else [] :=
  hR.serializeAsString_eq (m.serialize R)

/-- A message too long to serialise goes out as no bytes at all, which parse as an empty one. -/
theorem protobuf_roundTrip_iff (hR : R.Lawful) (m : LidarScan) :
    (LidarScan.protobuf R).parseFromString ((LidarScan.protobuf R).serializeAsString m) =
      (true, m) ↔ R.verifyUtf8 m.frameId = true ∧ m.plusZeros = m ∧ m.Readable ∧
        (m.serialize R).length < 2 ^ 31 := by
  have hparse (bs : Bytes) : (LidarScan.protobuf R).parseFromString bs =
      R.internalParse (LidarScan.mergeField R) bs {} := rfl
  rw [hparse, protobuf_serializeAsString hR]
  constructor
  · intro h
    by_cases hlen : (m.serialize R).length < 2 ^ 31
    · rw [if_pos hlen] at h
      by_cases hgood : m.Readable ∧ R.verifyUtf8 m.frameId = true
      · rw [internalParse_serialize hR hgood.1 hgood.2] at h
        exact ⟨hgood.2, (Prod.mk.inj h).2, hgood.1, hlen⟩
      · have hbad := internalParse_serialize_refused hR hlen hgood
        rw [h] at hbad
        cases hbad
    · rw [if_neg hlen] at h
      have hm : {} = m := (Prod.mk.inj h).2
      rw [← hm] at hlen
      exact absurd (show (([] : Bytes).length < 2 ^ 31) by decide) hlen
  · rintro ⟨hutf8, hzeros, hread, hlen⟩
    rw [if_pos hlen, internalParse_serialize hR hread hutf8, hzeros]

theorem protobuf_length (hR : R.Lawful) {m : LidarScan} (hlen : (m.serialize R).length < 2 ^ 31) :
    ((LidarScan.protobuf R).serializeAsString m).length < 2 ^ 31 := by
  rw [protobuf_serializeAsString hR, if_pos hlen]
  exact hlen

/-! ### Messages that parsed -/

/-- The bytes that the strings and arrays of a message take. -/
def LidarScan.held (m : LidarScan) : ℕ :=
  m.frameId.length + 4 * (m.ranges.length + m.intensities.length)

/-- No field brings more into the message than it takes off the input. -/
def LidarScan.Sound (R : ProtoRuntime) (size : ℕ) (m : LidarScan) (bs : Bytes) : Prop :=
  R.verifyUtf8 m.frameId = true ∧ m.held + bs.length ≤ size

theorem mergeField_sound (hR : R.Lawful) {size tag : ℕ} {m m' : LidarScan} {bs rest : Bytes}
    (hm : m.Sound R size bs) (h : m.mergeField R tag bs = some (m', rest)) :
    m'.Sound R size rest := by
  obtain ⟨hutf8, hsize⟩ := hm
  unfold LidarScan.held at hsize
  unfold LidarScan.mergeField at h
  split at h
  case h_1 =>
    obtain ⟨⟨s, after⟩, hr, h⟩ := Option.bind_eq_some_iff.mp h
    have hrest := hR.readDelimited_rest hr
    split at h
    · case isTrue hvalid =>
        cases h
        refine ⟨hvalid, ?_⟩
        simp only [LidarScan.held]
        omega
    · cases h
  case h_2 | h_3 | h_4 =>
    obtain ⟨⟨v, after⟩, hr, heq⟩ := Option.map_eq_some_iff.mp h
    cases heq
    have hrest := hR.readVarint64_rest hr
    refine ⟨hutf8, ?_⟩
    simp only [LidarScan.held]
    omega
  case h_10 | h_11 =>
    obtain ⟨⟨v, after⟩, hr, heq⟩ := Option.map_eq_some_iff.mp h
    cases heq
    have hrest := hR.readVarint32_rest hr
    refine ⟨hutf8, ?_⟩
    simp only [LidarScan.held]
    omega
  case h_5 | h_6 | h_7 | h_8 | h_9 | h_13 | h_15 =>
    obtain ⟨⟨x, after⟩, hr, heq⟩ := Option.map_eq_some_iff.mp h
    cases heq
    have hrest := hR.loadFloat_rest hr
    refine ⟨hutf8, ?_⟩
    simp only [LidarScan.held, List.length_append, List.length_singleton]
    omega
  case h_12 | h_14 =>
    obtain ⟨⟨xs, after⟩, hr, heq⟩ := Option.map_eq_some_iff.mp h
    cases heq
    have hrest := hR.packedFloatParser_rest hr
    refine ⟨hutf8, ?_⟩
    simp only [LidarScan.held, List.length_append]
    omega
  case h_16 =>
    unfold unusual at h
    split at h
    · cases h
    · obtain ⟨after, hr, heq⟩ := Option.map_eq_some_iff.mp h
      cases heq
      have hrest := hR.unknownField_rest hr
      refine ⟨hutf8, ?_⟩
      unfold LidarScan.held
      omega

theorem parse_sound (hR : R.Lawful) {bs : Bytes} {m : LidarScan}
    (h : (LidarScan.protobuf R).parseFromString bs = (true, m)) :
    R.verifyUtf8 m.frameId = true ∧ m.held ≤ bs.length := by
  have hstart : LidarScan.Sound R bs.length {} bs :=
    ⟨hR.verifyUtf8_nil, by simp [LidarScan.held]⟩
  have hstep (m : LidarScan) (s : Bytes) (m' : LidarScan) (rest : Bytes)
      (hm : m.Sound R bs.length s) (hr : LidarScan.fields R m s = some (m', rest)) :
      m'.Sound R bs.length rest := by
    obtain ⟨⟨tag, after⟩, htag, hfield⟩ := Option.bind_eq_some_iff.mp hr
    have hshort := hR.readTag_rest htag
    have hsize := hm.2
    exact mergeField_sound hR ⟨hm.1, by dsimp only; omega⟩ hfield
  obtain ⟨rest, hutf8, hsize⟩ := merge_invariant hstep bs.length hstart
  have hmerge : merge (LidarScan.fields R) bs.length bs {} = (true, m) := h
  rw [hmerge] at hutf8 hsize
  exact ⟨hutf8, by dsimp only at hsize; omega⟩

theorem serialize_length (hR : R.Lawful) (m : LidarScan) :
    (m.serialize R).length ≤ m.held + 88 := by
  have h1 := putString_length hR 1 (by decide) m.frameId
  have h2 := putInt64_length hR 2 (by decide) m.stampNs
  have h3 := putInt64_length hR 3 (by decide) m.scanTimeNs
  have h4 := putInt64_length hR 4 (by decide) m.timeIncrementNs
  have h5 := putFloat_length hR 5 (by decide) m.angleMin
  have h6 := putFloat_length hR 6 (by decide) m.angleMax
  have h7 := putFloat_length hR 7 (by decide) m.angleIncrement
  have h8 := putFloat_length hR 8 (by decide) m.rangeMin
  have h9 := putFloat_length hR 9 (by decide) m.rangeMax
  have h10 := putUInt32_length hR 10 (by decide) m.echoIndex
  have h11 := putUInt32_length hR 11 (by decide) m.echoCount
  have h12 := putPacked_length hR 12 (by decide) m.ranges
  have h13 := putPacked_length hR 13 (by decide) m.intensities
  simp only [LidarScan.serialize, List.length_append, LidarScan.held]
  omega

theorem undoes_scan_iff (hR : R.Lawful) (scan : Scan) :
    (LidarScan.protobuf R).Undoes scan ↔ R.verifyUtf8 scan.frameId = true ∧
      (∀ x ∈ [scan.angleMin, scan.angleMax, scan.angleIncrement, scan.rangeMin, scan.rangeMax],
        x ≠ negZero) ∧
      (∀ size ∈ [scan.frameId.length, 4 * scan.ranges.length, 4 * scan.intensities.length],
        size ≤ maxSize) ∧
      ((toProto scan {}).serialize R).length < 2 ^ 31 := by
  have hround := protobuf_roundTrip_iff hR (toProto scan {})
  rw [plusZeros_eq_iff] at hround
  constructor
  · intro h
    exact hround.mp h.parse
  · intro h
    exact ⟨hround.mpr h, protobuf_length hR h.2.2.2⟩

/-- A negative zero is kept among the ranges and lost as a bound. -/
theorem negZero_undone : wireFormat.Undoes { Scan.fresh with ranges := [negZero] } ∧
    ¬ wireFormat.Undoes { Scan.fresh with rangeMin := negZero } := by
  refine ⟨(undoes_scan_iff reference_lawful _).mpr ⟨by decide, ?_, by decide, by decide⟩, ?_⟩
  · simp [Scan.fresh, negZero]
  intro h
  exact ((undoes_scan_iff reference_lawful _).mp h).2.1 negZero (by simp) rfl

/-- A scan that was read from bytes, whoever wrote them, can be sent on: the 88 bytes are room for
its tags, lengths and numbers. -/
theorem parsed_scan_undoes (hR : R.Lawful) {bs : Bytes} {m : LidarScan}
    (hparse : (LidarScan.protobuf R).parseFromString bs = (true, m))
    (hlen : bs.length + 88 ≤ 2 ^ 31 - 1) :
    (LidarScan.protobuf R).Undoes (fromProto m) ↔
      ∀ x ∈ [m.angleMin, m.angleMax, m.angleIncrement, m.rangeMin, m.rangeMax], x ≠ negZero := by
  obtain ⟨hutf8, hheld⟩ := parse_sound hR hparse
  have hsize := serialize_length hR (toProto (fromProto m) {})
  have hsame : (toProto (fromProto m) {}).held = m.held := rfl
  have hround := protobuf_roundTrip_iff hR (toProto (fromProto m) {})
  rw [plusZeros_eq_iff] at hround
  have hread : (toProto (fromProto m) {}).Readable := by
    have hbound : m.held ≤ maxSize := by
      unfold maxSize
      omega
    unfold LidarScan.held at hbound
    simp only [LidarScan.Readable, List.forall_mem_cons, List.not_mem_nil, false_implies,
      implies_true, and_true]
    refine ⟨?_, ?_, ?_⟩
    · show m.frameId.length ≤ _
      omega
    · show 4 * m.ranges.length ≤ _
      omega
    · show 4 * m.intensities.length ≤ _
      omega
  constructor
  · intro h
    exact (hround.mp h.parse).2.1
  · intro hzeros
    exact ⟨hround.mpr ⟨hutf8, hzeros, hread, by omega⟩, protobuf_length hR (by omega)⟩

/-- A group of field 15, which no version of the schema has, then a stamp of 5 ns. -/
def unknownThenStamp : Bytes := bytes [123, 8, 1, 124, 16, 5]

theorem unknownThenStamp_undoes : wireFormat.Undoes (fromProto { stampNs := 5 }) :=
  have hparse : wireFormat.parseFromString unknownThenStamp = (true, { stampNs := 5 }) := by decide
  (parsed_scan_undoes reference_lawful hparse (by decide)).mpr (by simp [negZero])

end AuvMiddleware.Lidar
