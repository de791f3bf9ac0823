import Mathlib.Data.List.TakeWhile
import AuvMiddleware.Lidar.ReaderHistory
import AuvMiddleware.Lidar.PolledSource

/-!
# From the sensor to the files, and what is found there (record_live_scans.cpp, dump_scans.cpp)

A recording program polls the sensor's queue while the driver fills it, and can be killed at any
point and run again; a second program prints what it has left.
-/

namespace AuvMiddleware.Lidar
open Runs

/-! ### dump_scans -/

/-- What the program prints, as far as it gets, and what it returns. -/
structure Dump where
  total : Option ℕ := none
  printed : List Scan := []
  notShown : Option ℕ := none
  code : ℕ

/-- The lines of the loop, up to the first `get` that throws; and whether none did. -/
def dumpLoop (P : Protobuf) : List ℕ → ReaderState → List Scan × Bool
  | [], _ => ([], true)
  | i :: rest, st =>
    match get P i st with
    | (.error _, _) => ([], false)
    | (.ok scan, st') => (scan :: (dumpLoop P rest st').1, (dumpLoop P rest st').2)

def dumpLimit (maxScans total : ℕ) : ℕ :=
  if maxScans ≠ 0 ∧ maxScans < total then maxScans else total

def dumpScans (P : Protobuf) (logPath : String) (maxScans : ℕ) (f : Files) : Dump :=
  match openReader logPath (fun _ => none) f with
  | .error _ => { code := 1 }
  | .ok reader =>
    match count ⟨reader, { log := f.log, table := f.index.getD Table.empty }⟩ with
    | (.error _, _) => { code := 1 }
    | (.ok total, st) =>
      let limit := dumpLimit maxScans total
      let lines := dumpLoop P (List.range limit) st
      if lines.2 then {
        total := some total
        printed := lines.1
        notShown := if limit < total then some (total - limit) else none
        code := 0 }
      else { total := some total, printed := lines.1, code := 1 }

theorem dumpLimit_le (maxScans total : ℕ) : dumpLimit maxScans total ≤ total := by
  unfold dumpLimit
  split
  · omega
  · exact le_refl total

/-- On files at rest the loop prints what decodes, up to the first row that does not. -/
theorem dumpLoop_eq (P : Protobuf) {log : Bytes} {t : Table} (is : List ℕ)
    (hin : ∀ i ∈ is, i < t.count) {st : ReaderState} (hfiles : OnFiles log t st)
    (hst : st.Healthy) :
    dumpLoop P is st = (((is.map (scanAt P log t)).takeWhile Option.isSome).filterMap id,
      (is.map (scanAt P log t)).all Option.isSome) := by
  induction is generalizing st with
  | nil => rfl
  | cons i rest ih =>
    obtain ⟨hi, hrest⟩ := List.forall_mem_cons.mp hin
    obtain ⟨st', hget, hlog, hfiles'⟩ := Tracks.get P i st hfiles
    rw [if_neg (by omega)] at hget hlog
    cases hd : scanAt P log t i with
    | none =>
      obtain ⟨msg, r, hread⟩ := readRecord_of_none hst hd
      rw [hread] at hget
      simp [dumpLoop, hget, hd]
    | some scan =>
      obtain ⟨r, hread, hr⟩ := readRecord_of_some hst hd
      rw [hread] at hget hlog
      have hst' : st'.Healthy := by
        rw [ReaderState.Healthy, hlog]
        exact hr
      simp [dumpLoop, hget, hd, ih hrest hfiles' hst']

theorem dumpScans_eq (P : Protobuf) (logPath : String) (maxScans : ℕ) {f : Files} {t : Table}
    (ht : f.index = some t) :
    let limit := dumpLimit maxScans t.count
    let records := (List.range limit).map (scanAt P f.log t)
    dumpScans P logPath maxScans f =
      if records.all Option.isSome then {
        total := some t.count
        printed := (records.takeWhile Option.isSome).filterMap id
        notShown := if limit < t.count then some (t.count - limit) else none
        code := 0 }
      else {
        total := some t.count
        printed := (records.takeWhile Option.isSome).filterMap id
        code := 1 } := by
  have hstart : OnFiles f.log t ⟨{}, { log := f.log, table := t }⟩ := OnFiles.fresh f.log t
  obtain ⟨st, hcount, hlog, hfiles⟩ := Tracks.count _ hstart
  have hcount : count ⟨{}, { log := f.log, table := t }⟩ = (.ok t.count, st) := hcount
  have hst : st.Healthy := by
    rw [ReaderState.Healthy, hlog]
    rfl
  have hloop := dumpLoop_eq P (List.range (dumpLimit maxScans t.count)) (fun i hi =>
    Nat.lt_of_lt_of_le (List.mem_range.mp hi) (dumpLimit_le ..)) hfiles hst
  unfold dumpScans
  rw [openReader_ok logPath ht, ht]
  simp only [Option.getD_some, hcount, hloop]

/-- Whatever is in the files: what is printed are the first records, in order, up to the limit or
to the first one that is damaged, and only in that case the program fails. -/
theorem dump_to_first_damage (P : Protobuf) (logPath : String) (maxScans : ℕ) {f : Files}
    {t : Table} (ht : f.index = some t) :
    let limit := dumpLimit maxScans t.count
    let records := (List.range limit).map (scanAt P f.log t)
    (dumpScans P logPath maxScans f).total = some t.count ∧
      (dumpScans P logPath maxScans f).printed =
        (records.takeWhile Option.isSome).filterMap id ∧
      ((dumpScans P logPath maxScans f).code = 0 ↔ ∀ r ∈ records, r.isSome) ∧
      ((dumpScans P logPath maxScans f).code = 0 → limit +
        ((dumpScans P logPath maxScans f).notShown.getD 0) = t.count) := by
  have hle := dumpLimit_le maxScans t.count
  intro limit records
  have heq := dumpScans_eq P logPath maxScans ht
  dsimp only at heq
  rw [heq]
  by_cases hall : records.all Option.isSome = true
  · rw [if_pos hall]
    refine ⟨rfl, rfl, iff_of_true rfl (List.all_eq_true.mp hall), fun _ => ?_⟩
    dsimp only
    split
    · rw [Option.getD_some]
      omega
    · rw [Option.getD_none]
      omega
  · rw [if_neg hall]
    refine ⟨rfl, rfl, iff_of_false (by simp) fun h => hall (List.all_eq_true.mpr h), by simp⟩

/-- The second record is cut off in the log: the first is printed, and the program fails. -/
theorem cutRecord_dumped :
    let dump := dumpScans wireFormat "live_scans.log" 0 ⟨cutLog, some cutTable⟩
    dump.total = some 2 ∧ dump.printed = [Scan.fresh] ∧ dump.code ≠ 0 := by
  have hrecords : (List.range (dumpLimit 0 cutTable.count)).map
      (scanAt wireFormat cutLog cutTable) = [some Scan.fresh, none] := by decide
  obtain ⟨htotal, hprinted, hcode, -⟩ := dump_to_first_damage wireFormat "live_scans.log" 0
    (f := ⟨cutLog, some cutTable⟩) rfl
  dsimp only at hprinted hcode
  rw [hrecords] at hprinted hcode
  refine ⟨htotal, hprinted, fun hzero => ?_⟩
  have hshown := hcode.mp hzero none (by simp)
  cases hshown

/-- What is printed of files that hold the scans. -/
theorem dump_of_holds {P : Protobuf} (logPath : String) (maxScans : ℕ) {f : Files} {t : Table}
    {scans : List Scan} (ht : f.index = some t) (hholds : Holds P f.log t scans)
    (hP : ∀ scan ∈ scans, P.Undoes scan) :
    (dumpScans P logPath maxScans f).printed = scans.take (dumpLimit maxScans scans.length) ∧
      (dumpScans P logPath maxScans f).code = 0 := by
  have hcount := hholds.count_eq
  have hle := dumpLimit_le maxScans scans.length
  have hrecords : (List.range (dumpLimit maxScans t.count)).map (scanAt P f.log t) =
      (scans.take (dumpLimit maxScans scans.length)).map some := by
    rw [hcount]
    refine List.ext_getElem (by simp [hle]) fun i hi hi' => ?_
    have hlen : i < scans.length := by
      rw [List.length_map, List.length_range] at hi
      omega
    simp [hholds.scanAt_eq hP hlen]
  have heq := dumpScans_eq P logPath maxScans ht
  dsimp only at heq
  rw [hrecords] at heq
  have hall : ∀ r ∈ (scans.take (dumpLimit maxScans scans.length)).map some, r.isSome = true :=
    List.forall_mem_map.mpr fun _ _ => rfl
  rw [heq, if_pos (List.all_eq_true.mpr hall), List.takeWhile_eq_self_iff.mpr hall]
  exact ⟨by rw [List.filterMap_map]; exact List.filterMap_some, rfl⟩

/-! ### record_live_scans -/

/-- `main` from the construction of the source on; `returned` is what it ends with. -/
structure RecordingRun where
  recording : Recording
  source : PolledSource Scan ScanMsg
  alreadyRecorded : ℕ
  thrown : Bool := false
  recorded : ℕ := 0
  timeouts : ℕ := 0
  returned : Option ℕ := none

structure LiveRecording where
  files : Files := {}
  main : Option RecordingRun := none
  earlier : List RecordingRun := []

inductive LiveRecordingStep where
  /-- The recorder is opened and then the source; either may throw. -/
  | start (fails : OpenCall → Option String) (connects : Bool)
  /-- The driver's thread. -/
  | deliver (msg : ScanMsg)
  /-- `poll_scan` at the end of its wait, with time left before the deadline. -/
  | poll
  | record (faults : RecordFaults)
  /-- The deadline, or the end after an exception; a failed log may still flush `late` bytes. -/
  | finish (late : Bytes)
  /-- The process is killed; in `record()` it has `landed` bytes in the log. -/
  | kill (landed : ℕ)

namespace RecordingRun

/-- The scans that `record()` has returned for. -/
def saved (m : RecordingRun) : List Scan := m.source.done

def exitCode (m : RecordingRun) : ℕ := if m.thrown ∨ m.recorded = 0 then 1 else 0

def poll (m : RecordingRun) : RecordingRun :=
  { m with
    source := m.source.poll
    timeouts := if m.source.poll.inHand.isSome then m.timeouts else m.timeouts + 1 }

def record (P : Protobuf) (scan : Scan) (faults : RecordFaults) (m : RecordingRun) : RecordingRun :=
  match Lidar.record P scan faults m.recording with
  | (.ok _, r) => { m with recording := r, source := m.source.finish, recorded := m.recorded + 1 }
  | (.error _, r) => { m with recording := r, thrown := true }

end RecordingRun

namespace LiveRecording

def disk (s : LiveRecording) : Files := (s.main.map fun m => m.recording.files).getD s.files

/-- Every run of the program there has been, the one still running last. -/
def runs (s : LiveRecording) : List RecordingRun := s.earlier ++ s.main.toList

def ended (s : LiveRecording) (m : RecordingRun) (files : Files) : LiveRecording :=
  { files := files, main := none, earlier := s.earlier ++ [m] }

def start (cfg : SickScanConfig) (logPath : String) (s : LiveRecording)
    (fails : OpenCall → Option String) (connects : Bool) : LiveRecording :=
  match openRecorder logPath fails s.files, cfg.check with
  | (.ok recorder, files), .ok capacity =>
    if connects then
      { s with
        main := some {
          recording := ⟨recorder, files⟩
          alreadyRecorded := recorder.scanCount
          source := .start capacity } }
    else { s with files := files }
  | (_, files), _ => { s with files := files }

def step (P : Protobuf) (A : FloatArith F32) (cfg : SickScanConfig) (logPath : String)
    (s : LiveRecording) (i : LiveRecordingStep) : Option LiveRecording :=
  match i, s.main with
  | .start fails connects, none => some (s.start cfg logPath fails connects)
  | .deliver msg, some m =>
    some { s with main := some { m with source := m.source.deliver (cfg.convert A) msg } }
  | .poll, some m =>
    if m.source.inHand.isSome then none else some { s with main := some m.poll }
  | .record faults, some m =>
    if m.thrown then none
    else m.source.inHand.map fun scan => { s with main := some (m.record P scan faults) }
  | .finish late, some m =>
    if m.thrown ∨ m.source.inHand.isNone then
      some (s.ended { m with returned := some m.exitCode } { m.recording.files with
        log := m.recording.files.log ++ if m.recording.recorder.logGood then [] else late })
    else none
  | .kill landed, some m =>
    some (s.ended m
      (match m.source.inHand with
      | some scan =>
        if m.thrown then m.recording.files
        else (m.recording.afterWrite P scan (some landed)).files
      | none => m.recording.files))
  | _, _ => none

end LiveRecording

/-! ### One run of the program -/

structure RunInv (A : FloatArith F32) (cfg : SickScanConfig) (m : RecordingRun) : Prop where
  source : PolledInv (cfg.convert A) m.source
  recorded : m.recorded = m.saved.length
  counted : m.recording.recorder.scanCount = m.alreadyRecorded + m.recorded
  returned : m.returned = some 0 → m.saved ≠ []

section Run

variable {A : FloatArith F32} {P : Protobuf} {cfg : SickScanConfig} {m : RecordingRun}

/-- `record()` on the scan in hand: it is in the files as well, or the program is on its way out. -/
theorem RunInv.record (hi : RunInv A cfg m) {scan : Scan} (hscan : m.source.inHand = some scan)
    (hreturned : m.returned = none) (faults : RecordFaults) {t : Table} {before : List Scan}
    (ht : m.recording.files.index = some t)
    (hholds : Holds P m.recording.files.log t (before ++ m.saved)) :
    RunInv A cfg (m.record P scan faults) ∧
      ∃ t', (m.record P scan faults).recording.files.index = some t' ∧
        Holds P (m.record P scan faults).recording.files.log t'
          (before ++ (m.record P scan faults).saved) := by
  have hrecorded := hi.recorded
  have hcounted := hi.counted
  rcases record_cases P scan faults m.recording with
    ⟨t', r', hok, ht', hlog, hindex, hcount⟩ | ⟨e, k, r', herror, hlog, hindex, hcount⟩
  · cases ht.symm.trans ht'
    have hsaved : m.source.finish.done = m.saved ++ [scan] := by
      simp [PolledSource.finish, hscan, RecordingRun.saved]
    unfold RecordingRun.record
    rw [hok]
    refine ⟨⟨hi.source.finish, ?_, ?_, by simp [hreturned]⟩, _, hindex, ?_⟩
    · dsimp only [RecordingRun.saved]
      rw [hsaved, hrecorded, List.length_append, List.length_singleton]
    · dsimp only
      omega
    · dsimp only [RecordingRun.saved]
      rw [hlog, hsaved, ← List.append_assoc]
      exact hholds.record scan _
  · unfold RecordingRun.record
    rw [herror]
    refine ⟨⟨hi.source, hrecorded, ?_, hi.returned⟩, t, hindex.trans ht, ?_⟩
    · dsimp only
      omega
    · dsimp only
      rw [hlog]
      exact hholds.append _

end Run

/-! ### Runs, kills and runs again -/

structure LiveRecordingInv (P : Protobuf) (A : FloatArith F32) (cfg : SickScanConfig)
    (s : LiveRecording) : Prop where
  runs : ∀ m ∈ s.runs, RunInv A cfg m
  opened : ∀ m ∈ s.main, m.recording.files.index.isSome ∧ m.returned = none
  holds : Holds P s.disk.log (s.disk.index.getD Table.empty) (s.runs.flatMap RecordingRun.saved)

section Step

variable {P : Protobuf} {A : FloatArith F32} {cfg : SickScanConfig} {s : LiveRecording}
  {m : RecordingRun}

theorem LiveRecordingInv.main (hi : LiveRecordingInv P A cfg s) (hm : s.main = some m) :
    RunInv A cfg m ∧ m.returned = none ∧ ∃ t, m.recording.files.index = some t ∧
      Holds P m.recording.files.log t (s.earlier.flatMap RecordingRun.saved ++ m.saved) := by
  have hrun : RunInv A cfg m := hi.runs m (by simp [LiveRecording.runs, hm])
  obtain ⟨hopened, hreturned⟩ := hi.opened m hm
  obtain ⟨t, ht⟩ := Option.isSome_iff_exists.mp hopened
  have hholds := hi.holds
  simp only [LiveRecording.disk, LiveRecording.runs, hm, Option.map_some, Option.getD_some, ht,
    Option.toList_some, List.flatMap_append, List.flatMap_singleton] at hholds
  exact ⟨hrun, hreturned, t, ht, hholds⟩

/-- The program goes on: `m'` is what its run has become. -/
theorem LiveRecordingInv.goOn (hi : LiveRecordingInv P A cfg s) {m' : RecordingRun}
    (hrun : RunInv A cfg m') (hreturned : m'.returned = none) {t : Table} (ht : m'.recording.files.index = some t)
    (hholds : Holds P m'.recording.files.log t
      (s.earlier.flatMap RecordingRun.saved ++ m'.saved)) :
    LiveRecordingInv P A cfg { s with main := some m' } := by
  refine ⟨?_, ?_, ?_⟩
  · intro x hx
    rcases List.mem_append.mp hx with hx | hx
    · exact hi.runs x (List.mem_append_left _ hx)
    · rw [List.mem_singleton.mp hx]
      exact hrun
  · intro x hx
    cases hx
    exact ⟨by rw [ht]; rfl, hreturned⟩
  · simp only [LiveRecording.disk, LiveRecording.runs, Option.map_some, Option.getD_some, ht,
      Option.toList_some, List.flatMap_append, List.flatMap_singleton]
    exact hholds

theorem LiveRecordingInv.ended (hi : LiveRecordingInv P A cfg s) (hm : s.main = some m)
    {m' : RecordingRun} (hrun : RunInv A cfg m') (hsaved : m'.saved = m.saved) {files : Files}
    (more : Bytes) (hlog : files.log = m.recording.files.log ++ more)
    (hindex : files.index = m.recording.files.index) :
    LiveRecordingInv P A cfg (s.ended m' files) := by
  obtain ⟨-, -, t, ht, hholds⟩ := hi.main hm
  refine ⟨?_, ?_, ?_⟩
  · intro x hx
    simp only [LiveRecording.runs, LiveRecording.ended, Option.toList_none, List.append_nil] at hx
    rcases List.mem_append.mp hx with hx | hx
    · exact hi.runs x (List.mem_append_left _ hx)
    · rw [List.mem_singleton.mp hx]
      exact hrun
  · intro x hx
    cases hx
  · simp only [LiveRecording.ended, LiveRecording.disk, LiveRecording.runs, Option.map_none,
      Option.getD_none, Option.toList_none, List.append_nil, List.flatMap_append,
      List.flatMap_singleton, hlog, hindex, ht, Option.getD_some, hsaved]
    exact hholds.append more

theorem live_start_inv (logPath : String) (hi : LiveRecordingInv P A cfg s)
    (hnone : s.main = none) (fails : OpenCall → Option String) (connects : Bool) :
    LiveRecordingInv P A cfg (s.start cfg logPath fails connects) := by
  obtain ⟨hlog, hindex, hopened⟩ := openRecorder_files logPath fails s.files
  have hholds := hi.holds
  have hruns : s.runs = s.earlier := by
    rw [LiveRecording.runs, hnone]
    exact List.append_nil _
  simp only [LiveRecording.disk, hnone, Option.map_none, Option.getD_none] at hholds
  rw [← hlog, ← hindex] at hholds
  unfold LiveRecording.start
  generalize openRecorder logPath fails s.files = result at hholds hopened
  obtain ⟨recorder, files⟩ := result
  have hfailed : LiveRecordingInv P A cfg { s with files := files } := by
    have hdisk : ({ s with files := files } : LiveRecording).disk = files := by
      simp [LiveRecording.disk, hnone]
    refine ⟨hi.runs, hi.opened, ?_⟩
    rw [hdisk]
    exact hholds
  cases recorder with
  | error e => exact hfailed
  | ok recorder =>
    cases cfg.check with
    | error e => exact hfailed
    | ok capacity =>
      dsimp only
      split
      · obtain ⟨t, ht⟩ := Option.isSome_iff_exists.mp (hopened recorder rfl)
        refine LiveRecordingInv.goOn hi ⟨polled_start _ capacity, rfl, rfl, by simp⟩ rfl ht ?_
        rw [ht, hruns] at hholds
        dsimp only [RecordingRun.saved, PolledSource.start]
        rw [List.append_nil]
        exact hholds
      · exact hfailed

theorem live_step_inv (P : Protobuf) (A : FloatArith F32) (cfg : SickScanConfig) (logPath : String)
    (s : LiveRecording) (i : LiveRecordingStep) (s' : LiveRecording)
    (hi : LiveRecordingInv P A cfg s) (h : s.step P A cfg logPath i = some s') : LiveRecordingInv P A cfg s' := by
  cases hm : s.main with
  | none =>
    cases i with
    | start fails connects =>
      simp only [LiveRecording.step, hm] at h
      cases h
      exact live_start_inv logPath hi hm fails connects
    | deliver | poll | record | finish | kill => simp only [LiveRecording.step, hm] at h; cases h
  | some m =>
    obtain ⟨hrun, hreturned, t, ht, hholds⟩ := hi.main hm
    cases i with
    | start fails connects => simp only [LiveRecording.step, hm] at h; cases h
    | deliver msg =>
      simp only [LiveRecording.step, hm] at h
      cases h
      exact hi.goOn ⟨hrun.source.deliver msg, hrun.recorded, hrun.counted, hrun.returned⟩ hreturned
        ht hholds
    | poll =>
      simp only [LiveRecording.step, hm] at h
      obtain ⟨hnone, h⟩ := Option.ite_none_left_eq_some.mp h
      cases h
      have hsource := hrun.source.poll (Option.not_isSome_iff_eq_none.mp hnone)
      exact hi.goOn ⟨hsource, hrun.recorded, hrun.counted, hrun.returned⟩ hreturned ht hholds
    | record faults =>
      simp only [LiveRecording.step, hm] at h
      obtain ⟨-, h⟩ := Option.ite_none_left_eq_some.mp h
      obtain ⟨scan, hscan, rfl⟩ := Option.map_eq_some_iff.mp h
      obtain ⟨hrun', t', ht', hholds'⟩ := hrun.record hscan hreturned faults ht hholds
      refine hi.goOn hrun' ?_ ht' hholds'
      unfold RecordingRun.record
      split <;> exact hreturned
    | finish late =>
      simp only [LiveRecording.step, hm] at h
      obtain ⟨-, h⟩ := Option.ite_none_right_eq_some.mp h
      cases h
      have hexit (hempty : m.saved = []) : m.exitCode = 1 :=
        if_pos (.inr (hrun.recorded.trans (by rw [hempty]; rfl)))
      have hreturns : RunInv A cfg { m with returned := some m.exitCode } := by
        refine ⟨hrun.source, hrun.recorded, hrun.counted, ?_⟩
        intro (hzero : some m.exitCode = some 0) hempty
        rw [hexit hempty] at hzero
        cases hzero
      exact hi.ended hm hreturns rfl (if m.recording.recorder.logGood then [] else late) rfl rfl
    | kill landed =>
      simp only [LiveRecording.step, hm] at h
      cases h
      cases hscan : m.source.inHand with
      | none => exact hi.ended hm hrun rfl [] (List.append_nil _).symm rfl
      | some scan =>
        dsimp only
        split
        · exact hi.ended hm hrun rfl [] (List.append_nil _).symm rfl
        · obtain ⟨hindex, -, ⟨k, hlog⟩, -⟩ := afterWrite_spec P scan (some landed) m.recording
          exact hi.ended hm hrun rfl _ hlog hindex

end Step

/-- However often the program is run, killed or fails: each run has recorded, in order, what it
polled of the scans that came from the driver's messages, and of the rest every one is in hand,
queued, or counted as dropped; what is printed afterwards is what the runs have recorded. -/
theorem live_recording_dumped (P : Protobuf) (A : FloatArith F32) (cfg : SickScanConfig)
    (logPath : String) {steps : List LiveRecordingStep} {s : LiveRecording}
    (h : run (LiveRecording.step P A cfg logPath) {} steps = some s) :
    (∀ m ∈ s.runs, m.saved.Sublist (converted (cfg.convert A) m.source.messages) ∧
      (converted (cfg.convert A) m.source.messages).length = m.saved.length +
        m.source.inHand.toList.length + m.source.sensor.queue.dropped +
        m.source.sensor.queue.queue.length ∧
      m.recording.recorder.scanCount = m.alreadyRecorded + m.saved.length ∧
      (m.returned = some 0 → m.saved ≠ [])) ∧
    ∀ t, s.disk.index = some t → (∀ scan ∈ s.runs.flatMap RecordingRun.saved, P.Undoes scan) →
      ∀ maxScans, (dumpScans P logPath maxScans s.disk).code = 0 ∧
        (dumpScans P logPath maxScans s.disk).printed = (s.runs.flatMap RecordingRun.saved).take
          (dumpLimit maxScans (s.runs.flatMap RecordingRun.saved).length) := by
  have hstart : LiveRecordingInv P A cfg {} :=
    ⟨by simp [LiveRecording.runs], by simp, holds_empty P []⟩
  have hi := run_invariant (live_step_inv P A cfg logPath) hstart h
  constructor
  · intro m hm
    have hrun := hi.runs m hm
    obtain ⟨hsublist, hlength⟩ := hrun.source.accounts
    refine ⟨hsublist, hlength, ?_, hrun.returned⟩
    rw [hrun.counted, hrun.recorded]
  · intro t ht hP maxScans
    have hholds := hi.holds
    rw [ht, Option.getD_some] at hholds
    obtain ⟨hprinted, hcode⟩ := dump_of_holds logPath maxScans ht hholds hP
    exact ⟨hcode, hprinted⟩

/-- Enough for a message of one point, for which nothing is compared, added or divided. -/
def onePointArith : FloatArith F32 where
  ofBits := id
  ofCount _ := 0
  zero := 0
  lt a b := decide (floatValue a < floatValue b)
  add a _ := a
  sub a _ := a
  mul a _ := a
  div a _ := a

def onePointMsg (sec : UInt32) : ScanMsg where
  timestampSec := sec
  timestampNsec := 0
  width := 1
  height := 1
  pointStep := 8
  fields := [⟨ascii ['r', 'a', 'n', 'g', 'e'], 0⟩, ⟨ascii ['a', 'z', 'i', 'm', 'u', 't', 'h'], 4⟩]
  dataSize := 8
  buffer := some fun _ => lowByte 0
  numEchos := 1

def smallQueue : SickScanConfig where
  hostname := "10.0.0.2"
  udpReceiverIp := "10.0.0.1"
  launchFile := "sick_picoscan.launch"
  queueCapacity := 2

/-- The queue holds two, so the first scan is dropped. The process is killed in the middle of
recording the third, and the next run records one more. -/
def killedAndRunAgain : List LiveRecordingStep :=
  [.start (fun _ => none) true, .poll, .deliver (onePointMsg 1), .deliver (onePointMsg 2),
    .deliver (onePointMsg 3), .poll, .record {}, .poll, .deliver (onePointMsg 4), .kill 9,
    .start (fun _ => none) true, .deliver (onePointMsg 6), .poll, .record {}, .finish []]

theorem killedAndRunAgain_dumped :
    ∃ s t, run (LiveRecording.step wireFormat onePointArith smallQueue "live_scans.log") {}
        killedAndRunAgain = some s ∧ s.disk.index = some t ∧
      (dumpScans wireFormat "live_scans.log" 0 s.disk).code = 0 ∧
      (dumpScans wireFormat "live_scans.log" 0 s.disk).printed.map ScanOf.stampNs =
        [2000000000, 6000000000] := by
  have hrun : ∃ s t,
      run (LiveRecording.step wireFormat onePointArith smallQueue "live_scans.log") {}
        killedAndRunAgain = some s ∧ s.disk.index = some t ∧
      (s.runs.flatMap RecordingRun.saved).map ScanOf.stampNs = [2000000000, 6000000000] ∧
      ∀ scan ∈ s.runs.flatMap RecordingRun.saved, wireFormat.Undoes scan :=
    ⟨_, _, rfl, rfl, by decide, by decide⟩
  obtain ⟨s, t, hs, ht, hstamps, hundoes⟩ := hrun
  obtain ⟨-, hdump⟩ := live_recording_dumped wireFormat onePointArith smallQueue "live_scans.log" hs
  obtain ⟨hcode, hprinted⟩ := hdump t ht hundoes 0
  refine ⟨s, t, hs, ht, hcode, ?_⟩
  have hall : dumpLimit 0 (s.runs.flatMap RecordingRun.saved).length =
      (s.runs.flatMap RecordingRun.saved).length := if_neg (by simp)
  rw [hprinted, hall, List.take_length]
  exact hstamps

end AuvMiddleware.Lidar
