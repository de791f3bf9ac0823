import AuvMiddleware.Lib.ProtoReference

/-!
# The message header (message.hpp, message.cpp, envelope.pb.cc, heartbeat.pb.cc)

Stamping a message and peeking at its header, and the code that `protoc` generated from
`envelope.proto` and `heartbeat.proto`, over the calls it makes of the protobuf runtime.
-/

namespace AuvMiddleware.Mw
open ProtoRuntime

structure Header where
  schemaVersion : UInt32 := 0
  publisher : Bytes := []
  sequence : UInt64 := 0
  publishTimeNs : Int64 := 0
  deriving DecidableEq

structure AnyHeader where
  header : Option Header := none
  deriving DecidableEq

structure Heartbeat where
  header : Option Header := none
  nodeName : Bytes := []
  /-- Open, as proto3 enumerations are: any number on the wire is kept. -/
  state : Int32 := 0
  tickCount : UInt64 := 0
  overruns : UInt64 := 0
  wcetUs : UInt32 := 0
  deriving DecidableEq

/-- `ParseFromArray` of an `AnyHeader`, which takes the length as an `int`, and `ParseFromString`
of a `Heartbeat`. -/
structure EnvelopeProtobuf where
  parseAnyHeader : Bytes → Int32 → Option AnyHeader
  parseHeartbeat : Bytes → Option Heartbeat

def kSchemaVersion : UInt32 := 1

/-- `stamp` (`message.cpp:7-18`): the number used, the header filled in, and the caller's counter
after it. -/
def stamp (header : Header) (publisher : Bytes) (sequence : UInt64) (wallTimeNs : Int64) :
    UInt64 × Header × UInt64 :=
  let n := sequence
  let sequence := sequence + 1
  let header := { header with schemaVersion := kSchemaVersion }
  let header := { header with publisher := publisher }
  let header := { header with sequence := n }
  let header := { header with publishTimeNs := wallTimeNs }
  (n, header, sequence)

inductive HeaderStatus where
  | ok
  | notParsable
  | missingHeader
  | schemaTooNew
  | schemaTooOld
  deriving DecidableEq

def HeaderStatus.toString : HeaderStatus → String
  | .ok => "ok"
  | .notParsable => "not parsable"
  | .missingHeader => "missing header"
  | .schemaTooNew => "schema too new"
  | .schemaTooOld => "schema too old"

/-- `peek_header` (`message.cpp:20-42`); `out` is written only when the status is `ok`. -/
def peekHeader (P : EnvelopeProtobuf) (bytes : Bytes) (out : Header) : HeaderStatus × Header :=
  match P.parseAnyHeader bytes (Int32.ofNat bytes.length) with
  | none => (.notParsable, out)
  | some any =>
    match any.header with
    | none => (.missingHeader, out)
    | some header =>
      let v := header.schemaVersion
      if v > kSchemaVersion then (.schemaTooNew, out)
      else if v < kSchemaVersion then (.schemaTooOld, out)
      else (.ok, header)

/-- The bytes are a message whose field 1 is `header`, of whatever type. -/
def EnvelopeProtobuf.Carries (P : EnvelopeProtobuf) (bytes : Bytes) (header : Header) : Prop :=
  P.parseAnyHeader bytes (Int32.ofNat bytes.length) = some { header := some header }

instance (P : EnvelopeProtobuf) (bytes : Bytes) (header : Header) :
    Decidable (P.Carries bytes header) :=
  inferInstanceAs (Decidable (_ = _))

theorem peekHeader_carried {P : EnvelopeProtobuf} {bytes : Bytes} {header : Header}
    (h : P.Carries bytes header) (hv : header.schemaVersion = kSchemaVersion) (out : Header) :
    peekHeader P bytes out = (.ok, header) := by
  unfold peekHeader
  rw [show P.parseAnyHeader bytes (Int32.ofNat bytes.length) = _ from h]
  dsimp only
  rw [hv, if_neg (UInt32.lt_irrefl _), if_neg (UInt32.lt_irrefl _)]

/-- A message is refused with `out` as it was, or its header is handed out, of this version. -/
theorem peekHeader_cases (P : EnvelopeProtobuf) (bytes : Bytes) (out : Header) :
    ((peekHeader P bytes out).1 ≠ .ok ∧ (peekHeader P bytes out).2 = out) ∨
      ∃ header, P.Carries bytes header ∧ header.schemaVersion = kSchemaVersion ∧
        peekHeader P bytes out = (.ok, header) := by
  unfold peekHeader
  split
  · exact .inl ⟨nofun, rfl⟩
  · case h_2 any hparse =>
      split
      · exact .inl ⟨nofun, rfl⟩
      · case h_2 header hheader =>
          dsimp only
          split
          · exact .inl ⟨nofun, rfl⟩
          · split
            · exact .inl ⟨nofun, rfl⟩
            · case isFalse hnew hold =>
                obtain ⟨_⟩ := any
                cases hheader
                refine .inr ⟨header, hparse, ?_, rfl⟩
                exact UInt32.le_antisymm (UInt32.not_lt.mp hnew) (UInt32.not_lt.mp hold)

/-! ### The generated code -/

section Generated

variable (R : ProtoRuntime) {μ : Type}

/-- `Header::_InternalSerialize` (`envelope.pb.cc`). -/
def Header.serialize (m : Header) : Bytes :=
  R.putUInt32 1 m.schemaVersion ++ R.putString 2 m.publisher ++ R.putUInt64 3 m.sequence ++
  R.putInt64 4 m.publishTimeNs

/-- `Heartbeat::_InternalSerialize` (`heartbeat.pb.cc:286`). -/
def Heartbeat.serialize (m : Heartbeat) : Bytes :=
  R.putMessage 1 (m.header.map (Header.serialize R)) ++ R.putString 2 m.nodeName ++
  R.putEnum 3 m.state ++ R.putUInt64 4 m.tickCount ++ R.putUInt64 5 m.overruns ++
  R.putUInt32 6 m.wcetUs

/-- One field after its tag (`envelope.pb.cc:193`); a header stands inside another message. -/
def Header.mergeField (m : Header) (tag : ℕ) (bs : Bytes) : Option (Header × Bytes) :=
  match tag with
  | 8 => valueField R.readVarint32 bs fun v => { m with schemaVersion := v }
  | 18 => R.stringField bs fun s => { m with publisher := s }
  | 24 => valueField R.readVarint64 bs fun v => { m with sequence := v }
  | 32 => valueField R.readVarint64 bs fun v => { m with publishTimeNs := v.toInt64 }
  | _ => R.unusual 1 m tag bs

/-- A header that comes again is merged into what there is of it. -/
def headerField (old : Option Header) (bs : Bytes) (put : Header → μ) : Option (μ × Bytes) :=
  R.messageField (Header.mergeField R) bs (old.getD {}) put

def AnyHeader.mergeField (m : AnyHeader) (tag : ℕ) (bs : Bytes) : Option (AnyHeader × Bytes) :=
  match tag with
  | 10 => headerField R m.header bs fun h => { m with header := some h }
  | _ => R.unusual 0 m tag bs

/-- `heartbeat.pb.cc:211`. -/
def Heartbeat.mergeField (m : Heartbeat) (tag : ℕ) (bs : Bytes) : Option (Heartbeat × Bytes) :=
  match tag with
  | 10 => headerField R m.header bs fun h => { m with header := some h }
  | 18 => R.stringField bs fun s => { m with nodeName := s }
  | 24 => valueField R.readVarint64 bs fun v => { m with state := v.toUInt32.toInt32 }
  | 32 => valueField R.readVarint64 bs fun v => { m with tickCount := v }
  | 40 => valueField R.readVarint64 bs fun v => { m with overruns := v }
  | 48 => valueField R.readVarint32 bs fun v => { m with wcetUs := v }
  | _ => R.unusual 0 m tag bs

/-- `ParseFromArray` reads as many bytes as it is told. -/
def envelopeProtobuf : EnvelopeProtobuf where
  parseAnyHeader bytes size :=
    if 0 ≤ size.toInt then
      parsed (R.internalParse (AnyHeader.mergeField R) (bytes.take size.toInt.toNat) {})
    else none
  parseHeartbeat bytes := parsed (R.internalParse (Heartbeat.mergeField R) bytes {})

end Generated

/-- The generated code over a runtime that can be evaluated. -/
def envelopeWireFormat : EnvelopeProtobuf := envelopeProtobuf reference

/-- The message with this header and its other fields at their defaults. -/
def headerOnly (m : Header) : Bytes := reference.putMessage 1 (some (m.serialize reference))

example : envelopeWireFormat.Carries (headerOnly ⟨1, ascii ['a'], 300, -5⟩)
    ⟨1, ascii ['a'], 300, -5⟩ := by decide

end AuvMiddleware.Mw
