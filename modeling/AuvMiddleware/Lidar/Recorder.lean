import AuvMiddleware.Base
import AuvMiddleware.Lib.Call
import AuvMiddleware.Lidar.Scan

/-!
# The log, its index, and ScanRecorder (recorder.cpp)
-/

namespace AuvMiddleware.Lidar

/-! ### The index table -/

/-- A row of the table `scans` (`recorder.cpp:81-87`). -/
structure Row where
  seq : ℤ
  stampNs : Int64
  offset : ℤ
  length : ℤ
  sampleCount : ℤ
  deriving DecidableEq

/-- The table in primary-key order; `seq` is the rowid, so no two rows share one. -/
structure Table where
  rows : List Row
  sorted : rows.Pairwise fun a b => a.seq < b.seq
  deriving DecidableEq

namespace Table

def empty : Table := ⟨[], List.Pairwise.nil⟩

/-- The rowid SQLite assigns: one more than the largest in use, 1 in an empty table. -/
def nextSeq (t : Table) : ℤ := match t.rows.getLast? with
  | none => 1
  | some r => r.seq + 1

theorem seq_lt_nextSeq (t : Table) : ∀ r ∈ t.rows, r.seq < t.nextSeq := by
  intro r hr
  unfold nextSeq
  cases hl : t.rows.getLast? with
  | none =>
    rw [List.getLast?_eq_none_iff] at hl
    rw [hl] at hr
    cases hr
  | some m =>
    obtain ⟨init, hinit⟩ := List.getLast?_eq_some_iff.mp hl
    have hs := t.sorted
    rw [hinit] at hr hs
    rcases List.mem_append.mp hr with h | h
    · have hlt := (List.pairwise_append.mp hs).2.2 r h m (List.mem_singleton_self m)
      show r.seq < m.seq + 1
      omega
    · rw [List.mem_singleton.mp h]
      show m.seq < m.seq + 1
      omega

def insert (t : Table) (stampNs : Int64) (offset length sampleCount : ℤ) : Table where
  rows := t.rows ++ [⟨t.nextSeq, stampNs, offset, length, sampleCount⟩]
  sorted := by
    rw [List.pairwise_append]
    refine ⟨t.sorted, List.pairwise_singleton _ _, ?_⟩
    intro r hr b hb
    rw [List.mem_singleton.mp hb]
    exact t.seq_lt_nextSeq r hr

def count (t : Table) : ℕ := t.rows.length

def bySeq (t : Table) (seq : ℤ) : Option Row := t.rows.find? fun r => r.seq = seq

def inRange (t : Table) (start stop : Int64) : List Row :=
  t.rows.filter fun r => start ≤ r.stampNs ∧ r.stampNs ≤ stop

theorem rows_insert (t : Table) (stampNs : Int64) (offset length sampleCount : ℤ) :
    (t.insert stampNs offset length sampleCount).rows =
      t.rows ++ [⟨t.nextSeq, stampNs, offset, length, sampleCount⟩] := rfl

end Table

structure Files where
  log : Bytes := []
  index : Option Table := none
  deriving DecidableEq

/-! ### The recorder -/

/-- `write_length_prefix` (`recorder.cpp:19-26`). -/
def writeLengthPrefix (length : ℕ) : Bytes := le32 length

def logRecord (payload : Bytes) : Bytes := writeLengthPrefix (toU32 payload.length) ++ payload

theorem logRecord_length (payload : Bytes) : (logRecord payload).length = 4 + payload.length := by
  simp [logRecord, writeLengthPrefix]

/-- `ScanRecorder::Impl`: whether the log stream is still good, the count, the reused message. -/
structure Recorder where
  logGood : Bool := true
  scanCount : ℕ := 0
  wire : LidarScan := {}
  deriving DecidableEq

inductive OpenCall where
  | logOpen
  | sqliteOpen
  | journalMode
  | busyTimeout
  | createTable
  | prepareInsert
  | prepareCount
  | stepCount
  deriving DecidableEq, Repr

/-- `check_sqlite` (`recorder.cpp:28-34`): `error` is the message of a failed call. -/
def recorderCheckSqlite {σ : Type} (error : Option String) (what : String) : Call Exn σ Unit :=
  match error with
  | none => pure ()
  | some msg => Call.throw (.runtimeError ("ScanRecorder: " ++ what ++ " failed: " ++ msg))

/-- `ScanRecorder::Impl::Impl` (`recorder.cpp:39-113`). `fails` gives the message of each call
that fails; a failed COUNT step is not checked and leaves the count at 0. -/
def openRecorder (logPath : String) (fails : OpenCall → Option String) :
    Call Exn Files Recorder := do
  if (fails .logOpen).isSome then
    Call.throw (.runtimeError ("ScanRecorder: could not open log file " ++ logPath))
  recorderCheckSqlite (fails .sqliteOpen) "sqlite3_open"
  recorderCheckSqlite (fails .journalMode) "PRAGMA journal_mode=WAL"
  recorderCheckSqlite (fails .busyTimeout) "sqlite3_busy_timeout"
  match fails .createTable with
  | some msg => Call.throw (.runtimeError ("ScanRecorder: CREATE TABLE failed: " ++ msg))
  | none => Call.modify fun f => { f with index := some (f.index.getD Table.empty) }
  recorderCheckSqlite (fails .prepareInsert) "sqlite3_prepare_v2(INSERT)"
  recorderCheckSqlite (fails .prepareCount) "sqlite3_prepare_v2(COUNT)"
  let f ← Call.get
  pure { scanCount := if (fails .stepCount).isSome then 0 else (f.index.getD Table.empty).count }

/-- What can go wrong in one `record()`: the log write stops after some of its bytes, or the
INSERT fails with a message. -/
structure RecordFaults where
  landed : Option ℕ := none
  insertError : Option String := none
  deriving DecidableEq

structure Recording where
  recorder : Recorder
  files : Files
  deriving DecidableEq

/-- Bytes written and flushed to the log, which is open for append. A stream that has failed
once writes nothing any more. -/
def Recording.writeLog (bytes : Bytes) (landed : Option ℕ) (r : Recording) : Recording :=
  if r.recorder.logGood then
    match landed with
    | none => { r with files.log := r.files.log ++ bytes }
    | some k =>
      { r with files.log := r.files.log ++ bytes.take k, recorder.logGood := false }
  else r

/-- `seekp(0, end)` and `tellp()`; -1 on a failed stream. -/
def Recording.tellp (r : Recording) : ℤ := if r.recorder.logGood then r.files.log.length else -1

/-- `ScanRecorder::record` (`recorder.cpp:147-173`). -/
def record (P : Protobuf) (scan : Scan) (faults : RecordFaults) : Call Exn Recording Unit := do
  Call.modify fun r => { r with recorder.wire := toProto scan r.recorder.wire }
  let r ← Call.get
  let bytes := P.serializeAsString r.recorder.wire
  let offset := r.tellp
  Call.modify fun r => r.writeLog (logRecord bytes) faults.landed
  let r ← Call.get
  if !r.recorder.logGood then
    Call.throw (.runtimeError "ScanRecorder: write to log failed")
  else
    recorderCheckSqlite faults.insertError "sqlite3_step(INSERT)"
    match r.files.index with
    | none => recorderCheckSqlite (some "no such table: scans") "sqlite3_step(INSERT)"
    | some t =>
      Call.modify fun r =>
        { r with
          files.index := some (t.insert scan.stampNs offset bytes.length scan.ranges.length)
          recorder.scanCount := r.recorder.scanCount + 1 }

/-! ### What the two do -/

theorem openRecorder_ok (logPath : String) (f : Files) :
    openRecorder logPath (fun _ => none) f =
      (.ok { scanCount := (f.index.getD Table.empty).count },
        { f with index := some (f.index.getD Table.empty) }) := rfl

/-- However far opening a recorder gets, the log stays as it is, and the table at most appears. -/
theorem openRecorder_files (logPath : String) (fails : OpenCall → Option String) (f : Files) :
    (openRecorder logPath fails f).2.log = f.log ∧
      (openRecorder logPath fails f).2.index.getD Table.empty = f.index.getD Table.empty ∧
      ∀ r, (openRecorder logPath fails f).1 = .ok r →
        (openRecorder logPath fails f).2.index.isSome := by
  have herror (e : Exn) (r : Recorder) : (.error e : Except Exn Recorder) ≠ .ok r := by simp
  unfold openRecorder
  cases fails .logOpen with
  | some msg => exact ⟨rfl, rfl, fun r h => absurd h (herror _ r)⟩
  | none =>
    cases fails .sqliteOpen with
    | some msg => exact ⟨rfl, rfl, fun r h => absurd h (herror _ r)⟩
    | none =>
      cases fails .journalMode with
      | some msg => exact ⟨rfl, rfl, fun r h => absurd h (herror _ r)⟩
      | none =>
        cases fails .busyTimeout with
        | some msg => exact ⟨rfl, rfl, fun r h => absurd h (herror _ r)⟩
        | none =>
          cases fails .createTable with
          | some msg => exact ⟨rfl, rfl, fun r h => absurd h (herror _ r)⟩
          | none =>
            cases fails .prepareInsert with
            | some msg => exact ⟨rfl, rfl, fun r h => absurd h (herror _ r)⟩
            | none =>
              cases fails .prepareCount with
              | some msg => exact ⟨rfl, rfl, fun r h => absurd h (herror _ r)⟩
              | none => exact ⟨rfl, rfl, fun _ _ => rfl⟩

def Recording.afterWrite (P : Protobuf) (scan : Scan) (landed : Option ℕ) (r : Recording) :
    Recording :=
  { r with recorder.wire := toProto scan r.recorder.wire }.writeLog (logRecord (P.bytesOf scan))
    landed

theorem record_eq (P : Protobuf) (scan : Scan) (faults : RecordFaults) (r : Recording) :
    record P scan faults r =
      let w := r.afterWrite P scan faults.landed
      if w.recorder.logGood = false then
        (.error (.runtimeError "ScanRecorder: write to log failed"), w)
      else match faults.insertError, w.files.index with
        | some msg, _ =>
          (.error (.runtimeError ("ScanRecorder: sqlite3_step(INSERT) failed: " ++ msg)), w)
        | none, none =>
          (.error (.runtimeError
            "ScanRecorder: sqlite3_step(INSERT) failed: no such table: scans"), w)
        | none, some t => (.ok (), { w with
            files.index := some (t.insert scan.stampNs r.tellp (P.bytesOf scan).length
              scan.ranges.length)
            recorder.scanCount := w.recorder.scanCount + 1 }) := by
  unfold record Recording.afterWrite
  simp only [Call.modify_bind, Call.get_bind, P.bytesOf_eq]
  generalize Recording.writeLog (logRecord (P.bytesOf scan)) faults.landed
    { r with recorder.wire := toProto scan r.recorder.wire } = w
  by_cases hg : w.recorder.logGood = false
  · simp [hg]
  · have hn : ¬ (!w.recorder.logGood) = true := by simpa using hg
    rw [if_neg hn, if_neg hg]
    cases faults.insertError with
    | some msg => rfl
    | none => cases w.files.index <;> rfl

theorem afterWrite_spec (P : Protobuf) (scan : Scan) (landed : Option ℕ) (r : Recording) :
    let w := r.afterWrite P scan landed
    w.files.index = r.files.index ∧ w.recorder.scanCount = r.recorder.scanCount ∧
    (∃ k, w.files.log = r.files.log ++ (logRecord (P.bytesOf scan)).take k) ∧
    (w.recorder.logGood = true → r.recorder.logGood = true ∧
      w.files.log = r.files.log ++ logRecord (P.bytesOf scan)) := by
  cases hg : r.recorder.logGood with
  | false =>
    refine ⟨?_, ?_, ⟨0, ?_⟩, ?_⟩ <;> simp [Recording.afterWrite, Recording.writeLog, hg]
  | true =>
    cases landed with
    | none =>
      refine ⟨?_, ?_, ⟨(logRecord (P.bytesOf scan)).length, ?_⟩, ?_⟩ <;>
        simp [Recording.afterWrite, Recording.writeLog, hg]
    | some k =>
      refine ⟨?_, ?_, ⟨k, ?_⟩, ?_⟩ <;> simp [Recording.afterWrite, Recording.writeLog, hg]

/-- Everything a `record()` can do: it appends the whole record and a row that points at where
the log ended before, or it throws, with some prefix of the record appended and no row. -/
theorem record_cases (P : Protobuf) (scan : Scan) (faults : RecordFaults) (r : Recording) :
    (∃ t r', record P scan faults r = (.ok (), r') ∧ r.files.index = some t ∧
      r'.files.log = r.files.log ++ logRecord (P.bytesOf scan) ∧
      r'.files.index = some (t.insert scan.stampNs r.files.log.length (P.bytesOf scan).length
        scan.ranges.length) ∧
      r'.recorder.scanCount = r.recorder.scanCount + 1) ∨
    ∃ e k r', record P scan faults r = (.error e, r') ∧
      r'.files.log = r.files.log ++ (logRecord (P.bytesOf scan)).take k ∧
      r'.files.index = r.files.index ∧ r'.recorder.scanCount = r.recorder.scanCount := by
  obtain ⟨hindex, hcount, ⟨k, hlog⟩, hfull⟩ := afterWrite_spec P scan faults.landed r
  rw [record_eq]
  dsimp only
  by_cases hbad : (r.afterWrite P scan faults.landed).recorder.logGood = false
  · rw [if_pos hbad]
    exact Or.inr ⟨_, k, _, rfl, hlog, hindex, hcount⟩
  · rw [if_neg hbad]
    obtain ⟨hgood, hall⟩ := hfull (by simpa using hbad)
    have htell : r.tellp = r.files.log.length := by simp [Recording.tellp, hgood]
    cases faults.insertError with
    | some msg => exact Or.inr ⟨_, k, _, rfl, hlog, hindex, hcount⟩
    | none =>
      cases ht : (r.afterWrite P scan faults.landed).files.index with
      | none => exact Or.inr ⟨_, k, _, rfl, hlog, hindex, hcount⟩
      | some t =>
        refine Or.inl ⟨t, _, rfl, hindex.symm.trans ht, hall, ?_, ?_⟩
        · rw [htell]
        · rw [hcount]

end AuvMiddleware.Lidar
