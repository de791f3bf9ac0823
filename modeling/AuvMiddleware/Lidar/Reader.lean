import AuvMiddleware.Lib.InStream
import AuvMiddleware.Lib.SnapshotConn
import AuvMiddleware.Lidar.Recorder

/-!
# ScanReader (reader.cpp)
-/

namespace AuvMiddleware.Lidar

/-! ### One record of the log -/

/-- `read_length_prefix` (`reader.cpp:18-21`). -/
def readLengthPrefix (b0 b1 b2 b3 : Byte) : ℕ := ofLe32 b0 b1 b2 b3

structure LogReader where
  stream : InStream := {}
  wire : LidarScan := {}
  deriving DecidableEq

def readLog (log : Bytes) (n : ℕ) : Call Exn LogReader Bytes := fun r =>
  let got := r.stream.read log n
  (.ok got.1, { r with stream := got.2 })

/-- `ScanReader::Impl::read_record` (`reader.cpp:99-133`). -/
def readRecord (P : Protobuf) (log : Bytes) (offset length : ℤ) : Call Exn LogReader Scan := do
  Call.modify fun r => { r with stream := r.stream.seekg offset }
  let r ← Call.get
  if !r.stream.good then
    Call.throw (.runtimeError ("ScanReader: seek to offset " ++ toString offset ++ " failed"))
  else
    let lead ← readLog log 4
    match lead with
    | [b0, b1, b2, b3] =>
      let declared := readLengthPrefix b0 b1 b2 b3
      if declared ≠ toU32 length then
        Call.throw (.runtimeError ("ScanReader: log's length prefix (" ++ toString declared ++
          ") does not match the index's length column (" ++ toString length ++ ") at offset " ++
          toString offset))
      else
        let payload ← readLog log declared
        if payload.length ≠ declared then
          Call.throw (.runtimeError
            "ScanReader: log is shorter than the index says -- truncated payload")
        else
          let parsed := P.parseFromString payload
          Call.modify fun r => { r with wire := parsed.2 }
          if !parsed.1 then
            Call.throw (.runtimeError ("ScanReader: payload at offset " ++ toString offset ++
              " does not parse as a LidarScan"))
          else pure (fromProto parsed.2)
    | _ =>
      Call.throw (.runtimeError
        "ScanReader: log is shorter than the index says -- truncated record")

/-- The scan a row with this offset and length leads to in the log, if it leads to one. -/
def decodeRecord (P : Protobuf) (log : Bytes) (offset length : ℤ) : Option Scan :=
  if offset < 0 then none
  else match (log.drop offset.toNat).take 4 with
    | [b0, b1, b2, b3] =>
      let declared := readLengthPrefix b0 b1 b2 b3
      let payload := (log.drop (offset.toNat + 4)).take declared
      let parsed := P.parseFromString payload
      if declared = toU32 length ∧ payload.length = declared ∧ parsed.1 = true then
        some (fromProto parsed.2)
      else none
    | _ => none

/-! ### The reader -/

inductive ReaderStmt where
  | count
  | get
  | range
  deriving DecidableEq, Repr

structure Reader where
  logReader : LogReader := {}
  conn : SnapshotConn Table ReaderStmt := .idle

/-- What a call on the reader meets: the log as it is, the committed rows, and the outcomes of
the `sqlite3_step` calls to come (a message is an error code; beyond the list they succeed). -/
structure ReadEnv where
  log : Bytes
  table : Table
  faults : List (Option String) := []

structure ReaderState where
  reader : Reader
  env : ReadEnv

namespace ReaderState

def halt (st : ReaderState) (i : ReaderStmt) : ReaderState :=
  { st with reader.conn := st.reader.conn.halt i }

def onRow (st : ReaderState) (i : ReaderStmt) : ReaderState :=
  { st with reader.conn := st.reader.conn.onRow i st.env.table }

def stepped (st : ReaderState) : ReaderState := { st with env.faults := st.env.faults.tail }

def view (st : ReaderState) : Table := st.reader.conn.view st.env.table

end ReaderState

inductive ReaderOpenCall where
  | logOpen
  | sqliteOpen
  | busyTimeout
  | prepareCount
  | prepareGet
  | prepareRange
  deriving DecidableEq, Repr

/-- `ScanReader::Impl::Impl` (`reader.cpp:35-77`). Without a table the first prepare fails. -/
def openReader (logPath : String) (fails : ReaderOpenCall → Option String) (f : Files) :
    Except Exn Reader := do
  let check (error : Option String) (what : String) : Except Exn Unit :=
    match error with
    | none => pure ()
    | some msg => throw (.runtimeError ("ScanReader: " ++ what ++ " failed: " ++ msg))
  if (fails .logOpen).isSome then
    throw (.runtimeError ("ScanReader: could not open log file " ++ logPath))
  check (fails .sqliteOpen) "sqlite3_open_v2"
  check (fails .busyTimeout) "sqlite3_busy_timeout"
  if f.index.isNone then
    throw (.runtimeError "ScanReader: sqlite3_prepare_v2(COUNT) failed: no such table: scans")
  check (fails .prepareCount) "sqlite3_prepare_v2(COUNT)"
  check (fails .prepareGet) "sqlite3_prepare_v2(GET)"
  check (fails .prepareRange) "sqlite3_prepare_v2(RANGE)"
  pure {}

def sqlReset (i : ReaderStmt) : Call Exn ReaderState Unit := Call.modify fun st => st.halt i

/-- `sqlite3_step` and `check_sqlite`: a row (`next` picks it from what the statement sees),
`SQLITE_DONE` (`none`), or an error, which is thrown. -/
def sqlStep {α : Type} (i : ReaderStmt) (what : String) (next : Table → Option α) :
    Call Exn ReaderState (Option α) := fun st =>
  match st.env.faults.head?.join with
  | some msg =>
    (.error (.runtimeError ("ScanReader: " ++ what ++ " failed: " ++ msg)), st.stepped.halt i)
  | none =>
    match next st.view with
    | some a => (.ok (some a), st.stepped.onRow i)
    | none => (.ok none, st.stepped.halt i)

def readRecordAt (P : Protobuf) (offset length : ℤ) : Call Exn ReaderState Scan := fun st =>
  let r := readRecord P st.env.log offset length st.reader.logReader
  (r.1, { st with reader.logReader := r.2 })

def count : Call Exn ReaderState ℕ := do
  sqlReset .count
  let n ← sqlStep .count "sqlite3_step(COUNT)" fun t => some t.count
  pure (n.getD 0)

/-- `ScanReader::get` (`reader.cpp:159-175`). `SQLITE_DONE` passes `check_sqlite`, and the
columns of a statement that is not on a row read as 0. -/
def get (P : Protobuf) (index : ℕ) : Call Exn ReaderState Scan := do
  let n ← count
  if index ≥ n then
    Call.throw (.outOfRange ("ScanReader::get: index " ++ toString index ++ " >= count()"))
  else
    let seq : ℤ := index + 1
    sqlReset .get
    let row ← sqlStep .get "sqlite3_step(GET)" fun t => t.bySeq seq
    match row with
    | some r => readRecordAt P r.offset r.length
    | none => readRecordAt P 0 0

def rangeLoop (P : Protobuf) : List Row → List Scan → Call Exn ReaderState (List Scan)
  | [], result => do
    let _ ← sqlStep .range "sqlite3_step(RANGE)" (fun _ => none : Table → Option Row)
    pure result
  | row :: rows, result => do
    let _ ← sqlStep .range "sqlite3_step(RANGE)" fun _ => some row
    let scan ← readRecordAt P row.offset row.length
    rangeLoop P rows (result ++ [scan])

def findByTimeRange (P : Protobuf) (start stop : Int64) : Call Exn ReaderState (List Scan) := do
  sqlReset .range
  let st ← Call.get
  rangeLoop P (st.view.inRange start stop) []

end AuvMiddleware.Lidar
