import AuvMiddleware.Base
import AuvMiddleware.Lidar.Scan

/-!
# The framing of query replies (query_wire.cpp)

A count, then for each scan its length and its bytes, all words four bytes little-endian.
-/

namespace AuvMiddleware.Lidar

def putU32Le (out : Bytes) (v : ℕ) : Bytes := out ++ le32 v

/-- `get_u32_le` (`query_wire.cpp:18-23`), on the four bytes from `at` on. -/
def getU32Le (bytes : Bytes) (pos : ℕ) : ℕ :=
  match (bytes.drop pos).take 4 with
  | [b0, b1, b2, b3] => ofLe32 b0 b1 b2 b3
  | _ => 0

def encodeFrames (P : Protobuf) : List Scan → Bytes → LidarScan → Bytes
  | [], out, _ => out
  | scan :: scans, out, wire =>
    let wire := toProto scan wire
    let bytes := P.serializeAsString wire
    encodeFrames P scans (putU32Le out (toU32 bytes.length) ++ bytes) wire

def encodeScans (P : Protobuf) (scans : List Scan) : Bytes :=
  encodeFrames P scans (putU32Le [] (toU32 scans.length)) {}

/-- `ParseFromArray`: a size that does not fit an `int` is no message. -/
def Protobuf.parseFromArray (P : Protobuf) (data : Bytes) (size : ℕ) : Bool × LidarScan :=
  if size < 2 ^ 31 then P.parseFromString (data.take size) else (false, {})

/-- The count that `decode_scans` reads and reserves room for (`query_wire.cpp:42-49`). -/
def decodeCount (bytes : Bytes) : Except Exn ℕ :=
  if bytes.length < 4 then
    throw (.runtimeError "lidar::decode_scans: response shorter than a count prefix")
  else pure (getU32Le bytes 0)

def decodeFrames (P : Protobuf) (bytes : Bytes) : ℕ → ℕ → List Scan → Except Exn (List Scan)
  | 0, _, scans => pure scans
  | n + 1, pos, scans =>
    if pos + 4 > bytes.length then
      throw (.runtimeError "lidar::decode_scans: truncated before a length prefix")
    else
      let length := getU32Le bytes pos
      if pos + 4 + length > bytes.length then
        throw (.runtimeError "lidar::decode_scans: truncated before a scan's declared end")
      else
        let parsed := P.parseFromArray (bytes.drop (pos + 4)) length
        if !parsed.1 then
          throw (.runtimeError "lidar::decode_scans: a scan's bytes did not parse as protobuf")
        else decodeFrames P bytes n (pos + 4 + length) (scans ++ [fromProto parsed.2])

def decodeScans (P : Protobuf) (bytes : Bytes) : Except Exn (List Scan) := do
  let count ← decodeCount bytes
  decodeFrames P bytes count 4 []

/-! ### The round trip -/

def frame (P : Protobuf) (scan : Scan) : Bytes := le32 (toU32 (P.bytesOf scan).length) ++ P.bytesOf scan

def frames (P : Protobuf) (scans : List Scan) : Bytes := scans.flatMap (frame P)

theorem encodeFrames_eq (P : Protobuf) (scans : List Scan) (out : Bytes) (wire : LidarScan) :
    encodeFrames P scans out wire = out ++ frames P scans := by
  induction scans generalizing out wire with
  | nil => simp [encodeFrames, frames]
  | cons scan scans ih =>
    rw [encodeFrames, ih, P.bytesOf_eq, putU32Le, frames, frames, List.flatMap_cons, frame]
    simp only [List.append_assoc]

theorem encodeScans_eq (P : Protobuf) (scans : List Scan) :
    encodeScans P scans = le32 (toU32 scans.length) ++ frames P scans := by
  rw [encodeScans, encodeFrames_eq, putU32Le, List.nil_append]

theorem getU32Le_append {v : ℕ} (hv : v < 2 ^ 32) (before after : Bytes) :
    getU32Le (before ++ (le32 v ++ after)) before.length = v := by
  rw [getU32Le, List.drop_left]
  exact ofLe32_le32 hv

theorem decodeFrames_frame {P : Protobuf} {scan : Scan} (hP : P.Undoes scan) (n : ℕ)
    (before after : Bytes) (scans : List Scan) :
    decodeFrames P (before ++ (frame P scan ++ after)) (n + 1) before.length scans =
      decodeFrames P (before ++ (frame P scan ++ after)) n (before ++ frame P scan).length
        (scans ++ [scan]) := by
  have hsize := hP.size_bytesOf
  have hu : toU32 ((P.bytesOf scan).length : ℤ) = (P.bytesOf scan).length :=
    toU32_of_lt (by omega)
  have hlen : (frame P scan).length = 4 + (P.bytesOf scan).length := by
    rw [frame, List.length_append, le32_length]
  have hget : getU32Le (before ++ (frame P scan ++ after)) before.length =
      (P.bytesOf scan).length := by
    rw [frame, hu, List.append_assoc]
    exact getU32Le_append (by omega) before _
  have hdrop : (before ++ (frame P scan ++ after)).drop (before.length + 4) =
      P.bytesOf scan ++ after := by
    rw [← List.drop_drop, List.drop_left, frame, List.append_assoc]
    rfl
  have hparse : P.parseFromArray (P.bytesOf scan ++ after) (P.bytesOf scan).length =
      (true, toProto scan {}) := by
    rw [Protobuf.parseFromArray, if_pos hsize, List.take_left, hP.parse_bytesOf]
  have hpos : before.length + 4 + (P.bytesOf scan).length = (before ++ frame P scan).length := by
    rw [List.length_append, hlen]
    omega
  rw [decodeFrames, if_neg (by simp only [List.length_append]; omega)]
  simp only [hget, hdrop, hparse, Bool.not_true, Bool.false_eq_true, if_false, fromProto_toProto,
    hpos]
  rw [if_neg (by simp only [List.length_append]; omega)]

theorem decodeFrames_frames {P : Protobuf} {scans : List Scan} (hP : ∀ s ∈ scans, P.Undoes s)
    (before : Bytes) (acc : List Scan) :
    decodeFrames P (before ++ frames P scans) scans.length before.length acc =
      .ok (acc ++ scans) := by
  induction scans generalizing before acc with
  | nil => rw [List.append_nil]; rfl
  | cons scan scans ih =>
    have hrest : ∀ s ∈ scans, P.Undoes s := fun s hs => hP s (List.mem_cons_of_mem _ hs)
    have hstep := decodeFrames_frame (hP scan (List.mem_cons_self ..)) scans.length before
      (frames P scans) acc
    have htail := ih hrest (before ++ frame P scan) (acc ++ [scan])
    rw [List.append_assoc] at htail
    rw [frames, List.flatMap_cons, ← frames, List.length_cons, hstep, htail, List.append_assoc]
    rfl

theorem decodeScans_encodeScans {P : Protobuf} {scans : List Scan}
    (hn : scans.length < 2 ^ 32) (hP : ∀ s ∈ scans, P.Undoes s) :
    decodeScans P (encodeScans P scans) = .ok scans := by
  have hu : toU32 (scans.length : ℤ) = scans.length := toU32_of_lt hn
  have hcount : decodeCount (le32 scans.length ++ frames P scans) = .ok scans.length := by
    have hget := getU32Le_append hn [] (frames P scans)
    rw [List.nil_append, List.length_nil] at hget
    rw [decodeCount, if_neg (by simp), hget]
    rfl
  rw [encodeScans_eq, hu, decodeScans, hcount]
  exact decodeFrames_frames hP (le32 scans.length) []

end AuvMiddleware.Lidar
