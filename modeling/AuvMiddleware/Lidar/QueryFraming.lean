import AuvMiddleware.Lib.Framing
import AuvMiddleware.Lidar.QueryWire
import AuvMiddleware.Lidar.WireFormat

/-!
# Which replies decode_scans accepts (query_wire.cpp:42-71)

The loop over the frames against the frames themselves: it ends well exactly when the bytes begin
with the number of frames that the count announces, and each payload parses.
-/

namespace AuvMiddleware.Lidar
open Framing

/-! ### The loop -/

def payloadScan (P : Protobuf) (payload : Bytes) : Option Scan :=
  let parsed := P.parseFromArray payload payload.length
  if parsed.1 then some (fromProto parsed.2) else none

theorem getU32Le_of_drop {s : Bytes} {pos : ℕ} {b0 b1 b2 b3 : Byte} {rest : Bytes}
    (h : s.drop pos = b0 :: b1 :: b2 :: b3 :: rest) : getU32Le s pos = ofLe32 b0 b1 b2 b3 := by
  rw [getU32Le, h]
  rfl

theorem decodeFrames_noFrame (P : Protobuf) {s : Bytes} {pos : ℕ} (hpos : pos ≤ s.length)
    (h : takeFrame (s.drop pos) = none) (n : ℕ) (scans : List Scan) :
    ∃ w, decodeFrames P s (n + 1) pos scans = .error (.runtimeError w) := by
  have hlen : (s.drop pos).length = s.length - pos := List.length_drop
  unfold decodeFrames
  rcases takeFrame_eq_none h with hshort | ⟨b0, b1, b2, b3, rest, hs, hlong⟩
  · rw [if_pos (by omega)]
    exact ⟨_, rfl⟩
  · rw [hs, List.length_cons, List.length_cons, List.length_cons, List.length_cons] at hlen
    rw [if_neg (by omega), getU32Le_of_drop hs]
    simp only
    rw [if_pos (by omega)]
    exact ⟨_, rfl⟩

theorem decodeFrames_takeFrame (P : Protobuf) {s : Bytes} {pos : ℕ} {payload rest : Bytes}
    (hpos : pos ≤ s.length) (h : takeFrame (s.drop pos) = some (payload, rest)) (n : ℕ)
    (scans : List Scan) :
    pos + 4 + payload.length ≤ s.length ∧ s.drop (pos + 4 + payload.length) = rest ∧
    decodeFrames P s (n + 1) pos scans = match payloadScan P payload with
      | none => .error (.runtimeError "lidar::decode_scans: a scan's bytes did not parse as protobuf")
      | some scan => decodeFrames P s n (pos + 4 + payload.length) (scans ++ [scan]) := by
  obtain ⟨hsmall, hs⟩ := takeFrame_eq_some.mp h
  have hlen : (s.drop pos).length = s.length - pos := List.length_drop
  have hfour : s.drop (pos + 4) = payload ++ rest := by
    rw [← List.drop_drop, hs, framed, List.append_assoc]
    rfl
  have hget : getU32Le s pos = payload.length := by
    have h4 := getU32Le_of_drop hs
    rw [h4]
    exact ofLe32_le32 hsmall
  rw [hs, framed, List.length_append, List.length_append, le32_length] at hlen
  have hend : pos + 4 + payload.length ≤ s.length := by omega
  refine ⟨hend, ?_, ?_⟩
  · rw [← List.drop_drop, hfour, List.drop_left]
  · have hparse : P.parseFromArray (payload ++ rest) payload.length =
        P.parseFromArray payload payload.length := by
      unfold Protobuf.parseFromArray
      rw [List.take_left, List.take_length]
    rw [decodeFrames, if_neg (by omega), hget]
    simp only [if_neg (not_lt.mpr hend), gt_iff_lt, hfour, hparse]
    unfold payloadScan
    dsimp only
    cases (P.parseFromArray payload payload.length).1 <;> rfl

theorem decodeFrames_error {P : Protobuf} {s : Bytes} {n pos : ℕ} (hpos : pos ≤ s.length)
    {scans : List Scan} {e : Exn} (h : decodeFrames P s n pos scans = .error e) :
    ∃ w, e = .runtimeError w := by
  induction n generalizing pos scans with
  | zero => cases h
  | succ n ih =>
    cases hframe : takeFrame (s.drop pos) with
    | none =>
      obtain ⟨w, hw⟩ := decodeFrames_noFrame P hpos hframe n scans
      rw [hw] at h
      cases h
      exact ⟨w, rfl⟩
    | some r =>
      obtain ⟨hend, -, heq⟩ := decodeFrames_takeFrame P hpos hframe n scans
      rw [heq] at h
      cases hscan : payloadScan P r.1 with
      | none =>
        rw [hscan] at h
        cases h
        exact ⟨_, rfl⟩
      | some scan =>
        rw [hscan] at h
        exact ih hend h

theorem decodeFrames_succ_ok_iff {P : Protobuf} {s : Bytes} {n pos : ℕ} (hpos : pos ≤ s.length)
    {scans scans' : List Scan} :
    decodeFrames P s (n + 1) pos scans = .ok scans' ↔ ∃ payload rest scan,
      takeFrame (s.drop pos) = some (payload, rest) ∧ payloadScan P payload = some scan ∧
      decodeFrames P s n (pos + 4 + payload.length) (scans ++ [scan]) = .ok scans' := by
  cases hframe : takeFrame (s.drop pos) with
  | none =>
    obtain ⟨w, hw⟩ := decodeFrames_noFrame P hpos hframe n scans
    simp [hw]
  | some r =>
    obtain ⟨payload, rest⟩ := r
    obtain ⟨-, -, heq⟩ := decodeFrames_takeFrame P hpos hframe n scans
    rw [heq]
    constructor
    · intro h
      cases hscan : payloadScan P payload with
      | none =>
        rw [hscan] at h
        cases h
      | some scan =>
        rw [hscan] at h
        exact ⟨payload, rest, scan, rfl, hscan, h⟩
    · rintro ⟨payload', rest', scan, hsame, hscan, h⟩
      cases hsame
      rwa [hscan]

/-- The loop, from its position to its normal end. -/
theorem decodeFrames_ok_iff {P : Protobuf} {s : Bytes} {n pos : ℕ} (hpos : pos ≤ s.length)
    {scans scans' : List Scan} :
    decodeFrames P s n pos scans = .ok scans' ↔ ∃ payloads rest got,
      takeFrames n (s.drop pos) = some (payloads, rest) ∧
      payloads.mapM (payloadScan P) = some got ∧ scans' = scans ++ got := by
  induction n generalizing pos scans with
  | zero =>
    constructor
    · intro h
      cases h
      exact ⟨[], s.drop pos, [], rfl, rfl, (List.append_nil _).symm⟩
    · rintro ⟨payloads, rest, got, hframes, hgot, rfl⟩
      cases hframes
      cases hgot
      exact congrArg Except.ok (List.append_nil scans).symm
  | succ n ih =>
    rw [decodeFrames_succ_ok_iff hpos]
    constructor
    · rintro ⟨payload, tail, scan, hframe, hscan, h⟩
      obtain ⟨hend, hrest, -⟩ := decodeFrames_takeFrame P hpos hframe n scans
      obtain ⟨payloads, rest, got, hframes, hgot, rfl⟩ := (ih hend).mp h
      rw [hrest] at hframes
      refine ⟨payload :: payloads, rest, scan :: got,
        takeFrames_succ_eq_some.mpr ⟨payload, tail, payloads, hframe, hframes, rfl⟩, ?_, ?_⟩
      · rw [List.mapM_cons, hscan, hgot]
        rfl
      · rw [List.append_assoc]
        rfl
    · rintro ⟨payloads, rest, got, hframes, hgot, rfl⟩
      obtain ⟨payload, tail, others, hframe, hothers, rfl⟩ := takeFrames_succ_eq_some.mp hframes
      obtain ⟨hend, hrest, -⟩ := decodeFrames_takeFrame P hpos hframe n scans
      rw [List.mapM_cons] at hgot
      obtain ⟨scan, hscan, hgot⟩ := Option.bind_eq_some_iff.mp hgot
      obtain ⟨scans', hmap, hcons⟩ := Option.bind_eq_some_iff.mp hgot
      cases hcons
      refine ⟨payload, tail, scan, hframe, hscan, (ih hend).mpr ⟨others, rest, scans', ?_, hmap, ?_⟩⟩
      · rw [hrest]
        exact hothers
      · rw [List.append_assoc]
        rfl

/-! ### Whole replies -/

/-- A count, and as many frames, each the message of a scan. -/
def Framed (P : Protobuf) (reply : Bytes) (scans : List Scan) : Prop :=
  ∃ payloads : List Bytes, payloads.length < 2 ^ 32 ∧ (∀ p ∈ payloads, p.length < 2 ^ 32) ∧
    payloads.mapM (payloadScan P) = some scans ∧
    reply = le32 payloads.length ++ joined payloads

theorem decodeScans_short (P : Protobuf) {reply : Bytes} (h : reply.length < 4) :
    ∃ w, decodeScans P reply = .error (.runtimeError w) := by
  have hcount : ∃ w, decodeCount reply = .error (.runtimeError w) := by
    unfold decodeCount
    rw [if_pos h]
    exact ⟨_, rfl⟩
  obtain ⟨w, hw⟩ := hcount
  refine ⟨w, ?_⟩
  rw [decodeScans, hw]
  rfl

theorem decodeCount_cons (b0 b1 b2 b3 : Byte) (rest : Bytes) :
    decodeCount (b0 :: b1 :: b2 :: b3 :: rest) = .ok (ofLe32 b0 b1 b2 b3) := by
  unfold decodeCount
  rw [if_neg (by simp)]
  rfl

theorem decodeScans_error {P : Protobuf} {reply : Bytes} {e : Exn}
    (h : decodeScans P reply = .error e) : ∃ w, e = .runtimeError w := by
  by_cases hlen : reply.length < 4
  · obtain ⟨w, hw⟩ := decodeScans_short P hlen
    rw [hw] at h
    cases h
    exact ⟨w, rfl⟩
  · obtain ⟨b0, b1, b2, b3, rest, rfl⟩ := four_bytes (not_lt.mp hlen)
    rw [decodeScans, decodeCount_cons] at h
    exact decodeFrames_error (not_lt.mp hlen) h

/-- Whatever follows the frames that the count announces is not looked at. -/
theorem decodeScans_ok_iff {P : Protobuf} {reply : Bytes} {scans : List Scan} :
    decodeScans P reply = .ok scans ↔ ∃ front extra, Framed P front scans ∧ reply = front ++ extra := by
  by_cases hlen : reply.length < 4
  · obtain ⟨w, hw⟩ := decodeScans_short P hlen
    rw [hw]
    constructor
    · intro h
      cases h
    · rintro ⟨front, extra, ⟨payloads, -, -, -, rfl⟩, rfl⟩
      simp only [List.length_append, le32_length] at hlen
      omega
  · obtain ⟨b0, b1, b2, b3, rest, rfl⟩ := four_bytes (not_lt.mp hlen)
    rw [decodeScans, decodeCount_cons]
    show decodeFrames P _ _ 4 [] = _ ↔ _
    rw [decodeFrames_ok_iff (not_lt.mp hlen)]
    constructor
    · rintro ⟨payloads, extra, got, hframes, hgot, rfl⟩
      obtain ⟨hcount, hsmall, hrest⟩ := takeFrames_eq_some.mp hframes
      refine ⟨le32 payloads.length ++ joined payloads, extra, ⟨payloads, ?_, hsmall, hgot, rfl⟩, ?_⟩
      · rw [hcount]
        exact ofLe32_lt b0 b1 b2 b3
      · rw [hcount, le32_ofLe32, List.append_assoc, ← hrest]
        rfl
    · rintro ⟨front, extra, ⟨payloads, hn, hsmall, hgot, rfl⟩, hreply⟩
      rw [List.append_assoc] at hreply
      obtain ⟨hword, hrest⟩ := List.append_inj hreply (by simp : [b0, b1, b2, b3].length = _)
      have hcount : payloads.length = ofLe32 b0 b1 b2 b3 := by
        rw [← ofLe32_le32 hn]
        cases hword
        rfl
      exact ⟨payloads, extra, scans, takeFrames_eq_some.mpr ⟨hcount, hsmall, hrest⟩, hgot, rfl⟩

theorem Framed.append_eq_nil {P : Protobuf} {front extra : Bytes} {scans scans' : List Scan}
    (hfront : Framed P front scans) (hwhole : Framed P (front ++ extra) scans') : extra = [] := by
  obtain ⟨payloads, hn, hsmall, -, rfl⟩ := hfront
  obtain ⟨payloads', hn', hsmall', -, heq⟩ := hwhole
  rw [List.append_assoc] at heq
  obtain ⟨hword, hjoined⟩ := List.append_inj heq rfl
  have hcount : payloads'.length = payloads.length := (le32_inj hn hn' hword).symm
  by_contra hextra
  have hcut := takeFrames_cut hsmall' hextra hjoined
  have hframes : takeFrames payloads.length (joined payloads) = some (payloads, []) :=
    takeFrames_eq_some.mpr ⟨rfl, hsmall, (List.append_nil _).symm⟩
  rw [hcount, hframes] at hcut
  cases hcut

theorem frames_eq_joined {P : Protobuf} {scans : List Scan} (hP : ∀ s ∈ scans, P.Undoes s) :
    frames P scans = joined (scans.map P.bytesOf) := by
  unfold frames joined
  rw [List.flatMap_map]
  refine List.flatMap_congr fun scan hscan => ?_
  have hsize := (hP scan hscan).size_bytesOf
  rw [frame, framed, toU32_of_lt (by omega)]

/-- The scans come back, and from no cut of the bytes does anything come back. -/
theorem encodeScans_whole {P : Protobuf} {scans : List Scan} (hn : scans.length < 2 ^ 32)
    (hP : ∀ s ∈ scans, P.Undoes s) :
    decodeScans P (encodeScans P scans) = .ok scans ∧
    ∀ kept cut, cut ≠ [] → kept ++ cut = encodeScans P scans →
      ∃ w, decodeScans P kept = .error (.runtimeError w) := by
  refine ⟨decodeScans_encodeScans hn hP, fun kept cut hcut hkept => ?_⟩
  rw [encodeScans_eq, toU32_of_lt hn, frames_eq_joined hP] at hkept
  cases hdecode : decodeScans P kept with
  | error e =>
    obtain ⟨w, rfl⟩ := decodeScans_error hdecode
    exact ⟨w, rfl⟩
  | ok got =>
    obtain ⟨front, extra, ⟨payloads, hcount, hsmall, -, rfl⟩, rfl⟩ := decodeScans_ok_iff.mp hdecode
    rw [List.append_assoc, List.append_assoc] at hkept
    obtain ⟨hword, hjoined⟩ := List.append_inj hkept rfl
    have hlen : payloads.length = (scans.map P.bytesOf).length := by
      rw [List.length_map]
      exact le32_inj hcount hn hword
    have hbytes : ∀ p ∈ scans.map P.bytesOf, p.length < 2 ^ 32 := by
      intro p hp
      obtain ⟨scan, hscan, rfl⟩ := List.mem_map.mp hp
      have := (hP scan hscan).size_bytesOf
      omega
    rw [← List.append_assoc] at hjoined
    have hnone := takeFrames_cut hbytes hcut hjoined
    rw [← hlen, takeFrames_eq_some.mpr ⟨rfl, hsmall, rfl⟩] at hnone
    cases hnone

theorem encodeScans_whole_two :
    decodeScans wireFormat (encodeScans wireFormat [Scan.fresh, Scan.fresh]) =
        .ok [Scan.fresh, Scan.fresh] ∧
      ∃ w, decodeScans wireFormat (bytes [2, 0, 0]) = .error (.runtimeError w) := by
  have hP : ∀ s ∈ [Scan.fresh, Scan.fresh], wireFormat.Undoes s := by decide
  obtain ⟨hwhole, hcut⟩ := encodeScans_whole (by decide) hP
  exact ⟨hwhole, hcut (bytes [2, 0, 0]) _ (List.cons_ne_nil _ _) rfl⟩

/-- Only framed replies are accepted and all others refused, but for frames with bytes after
them. -/
theorem decodeScans_framed_iff (P : Protobuf) (reply : Bytes) :
    ((∀ scans, decodeScans P reply = .ok scans → Framed P reply scans) ∧
      ((∀ scans, ¬ Framed P reply scans) →
        ∃ w, decodeScans P reply = .error (.runtimeError w))) ↔
    ¬ ∃ front extra scans, Framed P front scans ∧ extra ≠ [] ∧ reply = front ++ extra := by
  constructor
  · rintro ⟨haccept, -⟩ ⟨front, extra, scans, hfront, hextra, rfl⟩
    have hok := decodeScans_ok_iff.mpr ⟨front, extra, hfront, rfl⟩
    exact hextra (hfront.append_eq_nil (haccept scans hok))
  · intro hnone
    have haccept : ∀ scans, decodeScans P reply = .ok scans → Framed P reply scans := by
      intro scans hok
      obtain ⟨front, extra, hfront, rfl⟩ := decodeScans_ok_iff.mp hok
      by_cases hextra : extra = []
      · rw [hextra, List.append_nil]
        exact hfront
      · exact absurd ⟨front, extra, scans, hfront, hextra, rfl⟩ hnone
    refine ⟨haccept, fun hrefuse => ?_⟩
    cases hdecode : decodeScans P reply with
    | ok scans => exact absurd (haccept scans hdecode) (hrefuse scans)
    | error e =>
      obtain ⟨w, rfl⟩ := decodeScans_error hdecode
      exact ⟨w, rfl⟩

theorem trailingByte_accepted :
    decodeScans wireFormat (bytes [0, 0, 0, 0, 7]) = .ok [] ∧
      ∀ scans, ¬ Framed wireFormat (bytes [0, 0, 0, 0, 7]) scans := by
  refine ⟨rfl, fun scans hframed => ?_⟩
  have hfront : Framed wireFormat (bytes [0, 0, 0, 0]) [] :=
    ⟨[], by decide, by simp, rfl, rfl⟩
  have hwhole : Framed wireFormat (bytes [0, 0, 0, 0] ++ bytes [7]) scans := hframed
  exact List.cons_ne_nil _ _ (hfront.append_eq_nil hwhole)

/-! ### Memory -/

/-- `reserve`, with room for `room` scans left. -/
def reserve (room count : ℕ) : Except Exn Unit :=
  if count ≤ room then pure () else throw (.exception "std::bad_alloc")

/-- `decode_scans` again, with what its `reserve` may throw. -/
def decodeScansWithin (P : Protobuf) (room : ℕ) (reply : Bytes) : Except Exn (List Scan) := do
  let count ← decodeCount reply
  reserve room count
  decodeFrames P reply count 4 []

theorem decodeScansWithin_eq (P : Protobuf) {room : ℕ} {reply : Bytes}
    (h : ∀ count, decodeCount reply = .ok count → count ≤ room) :
    decodeScansWithin P room reply = decodeScans P reply := by
  unfold decodeScansWithin decodeScans
  cases hcount : decodeCount reply with
  | error e => rfl
  | ok count =>
    show (reserve room count >>= fun _ => _) = _
    rw [reserve, if_pos (h count hcount)]
    rfl

/-- The reservation is one that the bytes can back exactly when the number in the first four
bytes is. -/
theorem reserve_backed_iff (P : Protobuf) (reply : Bytes) :
    ((∀ count, decodeCount reply = .ok count → count ≤ (reply.length - 4) / 4) ∧
      ∀ room e, (reply.length - 4) / 4 ≤ room → decodeScansWithin P room reply = .error e →
        ∃ w, e = .runtimeError w) ↔
    ∀ b0 b1 b2 b3 rest, reply = b0 :: b1 :: b2 :: b3 :: rest →
      b0.val + 2 ^ 8 * b1.val + 2 ^ 16 * b2.val + 2 ^ 24 * b3.val ≤ rest.length / 4 := by
  constructor
  · rintro ⟨hbacked, -⟩ b0 b1 b2 b3 rest rfl
    have hcount := hbacked _ (decodeCount_cons b0 b1 b2 b3 rest)
    rwa [ofLe32_eq] at hcount
  · intro hfirst
    have hbacked : ∀ count, decodeCount reply = .ok count → count ≤ (reply.length - 4) / 4 := by
      intro count hcount
      by_cases hlen : reply.length < 4
      · rw [decodeCount, if_pos hlen] at hcount
        cases hcount
      · obtain ⟨b0, b1, b2, b3, rest, rfl⟩ := four_bytes (not_lt.mp hlen)
        have hle := hfirst b0 b1 b2 b3 rest rfl
        rw [decodeCount_cons] at hcount
        cases hcount
        rwa [ofLe32_eq]
    refine ⟨hbacked, fun room e hroom herror => ?_⟩
    rw [decodeScansWithin_eq P fun count hcount => (hbacked count hcount).trans hroom] at herror
    exact decodeScans_error herror

theorem fourBytes_reserve :
    (∃ count, decodeCount (bytes [255, 255, 255, 255]) = .ok count ∧
      ((bytes [255, 255, 255, 255]).length - 4) / 4 < count) ∧
      decodeScansWithin wireFormat 4294967294 (bytes [255, 255, 255, 255]) =
        .error (.exception "std::bad_alloc") :=
  ⟨⟨4294967295, by decide, by decide⟩, by decide⟩

end AuvMiddleware.Lidar
