import AuvMiddleware.Lib.Runs
import AuvMiddleware.Lidar.ReaderSpec
import AuvMiddleware.Lidar.WireFormat
import Mathlib.Data.List.Forall2

/-!
# The recording behind the log and the index

A recording is a list of scans. The two files hold it when row `i` of the index points at an
intact record of scan `i`; whatever else is in the log (torn records, orphans, garbage) does not
matter. Recorder and reader meet in this relation: every way a recorder can run keeps it, and a
reader on files that are in it answers from the list.
-/

namespace AuvMiddleware.Lidar
open Runs

/-! ### Files that hold a recording -/

def HoldsAt (log : Bytes) (offset : ℤ) (bytes : Bytes) : Prop :=
  ∃ before after, log = before ++ bytes ++ after ∧ offset = before.length

structure RowFor (P : Protobuf) (log : Bytes) (r : Row) (scan : Scan) : Prop where
  stamp : r.stampNs = scan.stampNs
  length : r.length = (P.bytesOf scan).length
  record : HoldsAt log r.offset (logRecord (P.bytesOf scan))

/-- The primary keys are 1, 2, 3, .. without gaps (`reader.cpp:54-57`). -/
def Table.Numbered (t : Table) : Prop := ∀ (i : ℕ) (r : Row), t.rows[i]? = some r → r.seq = i + 1

/-- The log and the index hold the recording `scans`. -/
structure Holds (P : Protobuf) (log : Bytes) (t : Table) (scans : List Scan) : Prop where
  numbered : t.Numbered
  rows : List.Forall₂ (RowFor P log) t.rows scans

theorem HoldsAt.append {log : Bytes} {offset : ℤ} {bytes : Bytes} (h : HoldsAt log offset bytes)
    (more : Bytes) : HoldsAt (log ++ more) offset bytes := by
  obtain ⟨before, after, hlog, ho⟩ := h
  exact ⟨before, after ++ more, by simp [hlog], ho⟩

theorem RowFor.append {P : Protobuf} {log : Bytes} {r : Row} {scan : Scan}
    (h : RowFor P log r scan) (more : Bytes) : RowFor P (log ++ more) r scan :=
  ⟨h.stamp, h.length, h.record.append more⟩

theorem Holds.append {P : Protobuf} {log : Bytes} {t : Table} {scans : List Scan}
    (h : Holds P log t scans) (more : Bytes) : Holds P (log ++ more) t scans :=
  ⟨h.numbered, h.rows.imp fun _ _ hr => hr.append more⟩

theorem Holds.count_eq {P : Protobuf} {log : Bytes} {t : Table} {scans : List Scan}
    (h : Holds P log t scans) : t.count = scans.length := h.rows.length_eq

theorem holds_empty (P : Protobuf) (log : Bytes) : Holds P log Table.empty [] := by
  refine ⟨fun i r hr => ?_, List.Forall₂.nil⟩
  simp [Table.empty] at hr

theorem Table.Numbered.nextSeq_eq {t : Table} (h : t.Numbered) : t.nextSeq = t.count + 1 := by
  unfold nextSeq count
  cases hl : t.rows.getLast? with
  | none =>
    rw [List.getLast?_eq_none_iff] at hl
    simp [hl]
  | some r =>
    rw [List.getLast?_eq_getElem?] at hl
    have hlt := (List.getElem?_eq_some_iff.mp hl).1
    have hseq := h _ r hl
    show r.seq + 1 = _
    omega

theorem Table.Numbered.insert {t : Table} (h : t.Numbered) (stampNs : Int64)
    (offset length sampleCount : ℤ) : (t.insert stampNs offset length sampleCount).Numbered := by
  intro i r hr
  rw [rows_insert] at hr
  rcases Nat.lt_trichotomy i t.rows.length with hi | hi | hi
  · rw [List.getElem?_append_left hi] at hr
    exact h i r hr
  · rw [hi, List.getElem?_append_right (le_refl _), Nat.sub_self] at hr
    have hseq : r.seq = t.nextSeq := by
      rw [← Option.some.inj hr]
    rw [hseq, h.nextSeq_eq, count, hi]
  · rw [List.getElem?_eq_none (by simp; omega)] at hr
    cases hr

/-- With the keys numbered, `WHERE seq = i + 1` is the row at position `i`. -/
theorem Table.Numbered.bySeq_eq {t : Table} (h : t.Numbered) (i : ℕ) :
    t.bySeq (i + 1) = t.rows[i]? := by
  unfold bySeq
  cases hi : t.rows[i]? with
  | none =>
    rw [List.find?_eq_none]
    intro r hr hseq
    obtain ⟨j, hj⟩ := List.mem_iff_getElem?.mp hr
    have hjs := h j r hj
    have hji : j = i := by
      have := of_decide_eq_true hseq
      omega
    rw [hji, hi] at hj
    cases hj
  | some r =>
    have hlt := (List.getElem?_eq_some_iff.mp hi).1
    rw [List.find?_eq_some_iff_getElem]
    refine ⟨by simpa using h i r hi, i, hlt, (List.getElem?_eq_some_iff.mp hi).2, ?_⟩
    intro j hj
    have hjs := h j t.rows[j] (List.getElem?_eq_getElem (by omega))
    have hne : t.rows[j].seq ≠ i + 1 := by omega
    simpa using hne

theorem Holds.record {P : Protobuf} {log : Bytes} {t : Table} {scans : List Scan}
    (h : Holds P log t scans) (scan : Scan) (sampleCount : ℤ) :
    Holds P (log ++ logRecord (P.bytesOf scan))
      (t.insert scan.stampNs log.length (P.bytesOf scan).length sampleCount) (scans ++ [scan]) := by
  refine ⟨h.numbered.insert _ _ _ _, ?_⟩
  rw [Table.rows_insert]
  refine List.rel_append (h.append _).rows (List.Forall₂.cons ⟨rfl, rfl, ?_⟩ List.Forall₂.nil)
  exact ⟨log, [], by simp, rfl⟩

theorem RowFor.decode {P : Protobuf} {log : Bytes} {r : Row} {scan : Scan}
    (h : RowFor P log r scan) (hP : P.Undoes scan) :
    decodeRecord P log r.offset r.length = some scan := by
  obtain ⟨before, after, hlog, ho⟩ := h.record
  have hsize := hP.size_bytesOf
  have hn : toU32 ((P.bytesOf scan).length : ℤ) = (P.bytesOf scan).length := toU32_of_lt (by omega)
  have hdrop : log.drop r.offset.toNat =
      lowByte (P.bytesOf scan).length :: lowByte ((P.bytesOf scan).length >>> 8) ::
      lowByte ((P.bytesOf scan).length >>> 16) :: lowByte ((P.bytesOf scan).length >>> 24) ::
      (P.bytesOf scan ++ after) := by
    rw [ho, Int.toNat_natCast, hlog, List.append_assoc, List.drop_left, logRecord, hn]
    rfl
  rw [decodeRecord_of_four P r.length (by omega) hdrop]
  have hdecl : readLengthPrefix (lowByte (P.bytesOf scan).length)
      (lowByte ((P.bytesOf scan).length >>> 8)) (lowByte ((P.bytesOf scan).length >>> 16))
      (lowByte ((P.bytesOf scan).length >>> 24)) = (P.bytesOf scan).length :=
    ofLe32_le32 (by omega)
  simp only [hdecl, h.length, hn, List.take_left, hP.parse_bytesOf, List.length_append,
    Nat.le_add_right, and_self, if_true, fromProto_toProto]

/-! ### The reader on files that hold a recording -/

def scansIn (start stop : Int64) (scans : List Scan) : List Scan :=
  scans.filter fun s => start ≤ s.stampNs ∧ s.stampNs ≤ stop

section Held

variable {P : Protobuf} {log : Bytes} {t : Table} {scans : List Scan}

theorem Holds.scanAt_eq (h : Holds P log t scans) (hP : ∀ s ∈ scans, P.Undoes s) {i : ℕ}
    (hi : i < scans.length) : scanAt P log t i = some scans[i] := by
  have hlen := h.rows.length_eq
  have hrow : t.rows[i]? = some t.rows[i] := List.getElem?_eq_getElem (by omega)
  have hfor : RowFor P log t.rows[i] scans[i] := h.rows.get (by omega) hi
  unfold scanAt Table.place
  rw [h.numbered.bySeq_eq, hrow]
  exact hfor.decode (hP _ (List.getElem_mem hi))

theorem Holds.decodeRows_inRange (h : Holds P log t scans) (hP : ∀ s ∈ scans, P.Undoes s)
    (start stop : Int64) :
    decodeRows P log (t.inRange start stop) = some (scansIn start stop scans) := by
  have key : ∀ rows scans, List.Forall₂ (RowFor P log) rows scans → (∀ s ∈ scans, P.Undoes s) →
      decodeRows P log (rows.filter fun r => start ≤ r.stampNs ∧ r.stampNs ≤ stop) =
        some (scansIn start stop scans) := by
    intro rows scans hall hP
    induction hall with
    | nil => rfl
    | @cons r s rows scans hr hrest ih =>
      have hs := hP s (List.mem_cons_self ..)
      have hih := ih fun x hx => hP x (List.mem_cons_of_mem _ hx)
      unfold decodeRows scansIn at *
      by_cases hin : start ≤ s.stampNs ∧ s.stampNs ≤ stop
      · have hin' : start ≤ r.stampNs ∧ r.stampNs ≤ stop := by rw [hr.stamp]; exact hin
        rw [List.filter_cons_of_pos (by simpa using hin'), List.filter_cons_of_pos (by simpa using hin),
          List.mapM_cons, hr.decode hs, hih]
        rfl
      · have hin' : ¬ (start ≤ r.stampNs ∧ r.stampNs ≤ stop) := by rw [hr.stamp]; exact hin
        rw [List.filter_cons_of_neg (by simpa using hin'), List.filter_cons_of_neg (by simpa using hin), hih]
  exact key t.rows scans h.rows hP

end Held

def freshReader (log : Bytes) (t : Table) : ReaderState := ⟨{}, { log := log, table := t }⟩

theorem openReader_ok (logPath : String) {f : Files} {t : Table} (h : f.index = some t) :
    openReader logPath (fun _ => none) f = .ok {} := by
  unfold openReader
  rw [h]
  rfl

theorem openReader_fresh {logPath : String} {fails : ReaderOpenCall → Option String} {f : Files}
    {reader : Reader} : openReader logPath fails f = .ok reader → reader = {} := by
  have herror (e : Exn) : (.error e : Except Exn Reader) ≠ .ok reader := by simp
  unfold openReader
  cases fails .logOpen with
  | some msg => exact fun h => absurd h (herror _)
  | none =>
    cases fails .sqliteOpen with
    | some msg => exact fun h => absurd h (herror _)
    | none =>
      cases fails .busyTimeout with
      | some msg => exact fun h => absurd h (herror _)
      | none =>
        cases f.index with
        | none => exact fun h => absurd h (herror _)
        | some t =>
          cases fails .prepareCount with
          | some msg => exact fun h => absurd h (herror _)
          | none =>
            cases fails .prepareGet with
            | some msg => exact fun h => absurd h (herror _)
            | none =>
              cases fails .prepareRange with
              | some msg => exact fun h => absurd h (herror _)
              | none =>
                intro h
                cases h
                rfl

theorem freshReader_answers {P : Protobuf} {log : Bytes} {t : Table} {scans : List Scan}
    (h : Holds P log t scans) (hP : ∀ s ∈ scans, P.Undoes s) :
    (count (freshReader log t)).1 = .ok scans.length ∧
    (∀ i (hi : i < scans.length), (get P i (freshReader log t)).1 = .ok scans[i]) ∧
    (∀ i, scans.length ≤ i → ∃ msg, (get P i (freshReader log t)).1 = .error (.outOfRange msg)) ∧
    ∀ start stop, (findByTimeRange P start stop (freshReader log t)).1 =
      .ok (scansIn start stop scans) := by
  have hff (k : ℕ) : (freshReader log t).env.FaultFree k := ReadEnv.faultFree_of_nil rfl k
  have hsees (i : ReaderStmt) : (freshReader log t).sees i = t := rfl
  refine ⟨?_, fun i hi => ?_, fun i hi => ?_, fun start stop => ?_⟩
  · rw [count_ok _ (hff 1), hsees, h.count_eq]
  · obtain ⟨st', hget, -⟩ := get_ok i (freshReader log t) rfl (hff 2)
      (by rw [hsees, h.count_eq]; exact hi) (h.scanAt_eq hP hi)
    rw [hget]
  · exact ⟨_, by rw [get_outOfRange P (hff 1) (by rw [hsees, h.count_eq]; exact hi)]⟩
  · obtain ⟨st', hfind, -⟩ := findByTimeRange_ok (freshReader log t) rfl (hff _)
      (h.decodeRows_inRange hP start stop)
    rw [hfind]

/-! ### Runs of a recorder, with faults -/

inductive StoreStep where
  | openRecorder
  | record (scan : Scan) (faults : RecordFaults)
  /-- The process dies in `record(scan)` once `landed` bytes of the record are in the log: in the
  log write, or (all of them) before the INSERT. -/
  | crash (scan : Scan) (landed : ℕ)
  /-- The recorder is destroyed; a log stream that had failed may still flush `late` bytes. -/
  | close (late : Bytes)

/-- The files, the recorder if one is open, and the scans of the successful `record()` calls. -/
structure StoreState where
  files : Files := {}
  recorder : Option Recorder := none
  recorded : List Scan := []

def storeStep (P : Protobuf) (logPath : String) (s : StoreState) (i : StoreStep) :
    Option StoreState :=
  match i, s.recorder with
  | .openRecorder, none =>
    match openRecorder logPath (fun _ => none) s.files with
    | (.ok r, f) => some { s with files := f, recorder := some r }
    | (.error _, f) => some { s with files := f }
  | .record scan faults, some r =>
    match record P scan faults ⟨r, s.files⟩ with
    | (.ok _, r') =>
      some { files := r'.files, recorder := some r'.recorder, recorded := s.recorded ++ [scan] }
    | (.error _, r') => some { s with files := r'.files, recorder := some r'.recorder }
  | .crash scan landed, some r =>
    some { s with
      files := ((⟨r, s.files⟩ : Recording).afterWrite P scan (some landed)).files
      recorder := none }
  | .close late, some r =>
    some { s with
      files.log := s.files.log ++ (if r.logGood then [] else late)
      recorder := none }
  | _, _ => none

/-- What a step can do to files and count: the table appears, or a scan is recorded behind the
end of the log with a row that points there, or bytes no row points at are appended. -/
theorem storeStep_cases {P : Protobuf} {logPath : String} {s s' : StoreState} {i : StoreStep}
    (h : storeStep P logPath s i = some s') :
    (s.recorder = none ∧ s' = { s with
      files.index := some (s.files.index.getD Table.empty)
      recorder := some { scanCount := (s.files.index.getD Table.empty).count } }) ∨
    (∃ scan t r r', s.recorder = some r ∧ s.files.index = some t ∧
      s'.files.log = s.files.log ++ logRecord (P.bytesOf scan) ∧
      s'.files.index = some (t.insert scan.stampNs s.files.log.length (P.bytesOf scan).length
        scan.ranges.length) ∧
      s'.recorded = s.recorded ++ [scan] ∧ s'.recorder = some r' ∧
      r'.scanCount = r.scanCount + 1) ∨
    (∃ r more, s.recorder = some r ∧ s'.files.log = s.files.log ++ more ∧
      s'.files.index = s.files.index ∧ s'.recorded = s.recorded ∧
      ∀ r', s'.recorder = some r' → r'.scanCount = r.scanCount) := by
  cases hrec : s.recorder with
  | none =>
    cases i with
    | openRecorder =>
      simp only [storeStep, hrec, openRecorder_ok] at h
      exact Or.inl ⟨rfl, (Option.some.inj h).symm⟩
    | record scan faults => simp only [storeStep, hrec] at h; cases h
    | crash scan landed => simp only [storeStep, hrec] at h; cases h
    | close late => simp only [storeStep, hrec] at h; cases h
  | some r =>
    right
    cases i with
    | openRecorder => simp only [storeStep, hrec] at h; cases h
    | record scan faults =>
      rcases record_cases P scan faults ⟨r, s.files⟩ with
        ⟨t, r', hok, ht, hlog, hindex, hc⟩ | ⟨e, k, r', herr, hlog, hindex, hc⟩
      · simp only [storeStep, hrec, hok] at h
        cases h
        exact Or.inl ⟨scan, t, r, r'.recorder, rfl, ht, hlog, hindex, rfl, rfl, hc⟩
      · simp only [storeStep, hrec, herr] at h
        cases h
        exact Or.inr ⟨r, _, rfl, hlog, hindex, rfl, fun r2 hr2 => by cases hr2; exact hc⟩
    | crash scan landed =>
      simp only [storeStep, hrec] at h
      cases h
      obtain ⟨hindex, -, ⟨k, hlog⟩, -⟩ := afterWrite_spec P scan (some landed) ⟨r, s.files⟩
      exact Or.inr ⟨r, _, rfl, hlog, hindex, rfl, fun r2 hr2 => by cases hr2⟩
    | close late =>
      simp only [storeStep, hrec] at h
      cases h
      exact Or.inr ⟨r, _, rfl, rfl, rfl, rfl, fun r2 hr2 => by cases hr2⟩

structure StoreInv (P : Protobuf) (s : StoreState) : Prop where
  holds : Holds P s.files.log (s.files.index.getD Table.empty) s.recorded
  counted : ∀ r, s.recorder = some r → r.scanCount = s.recorded.length

theorem storeInv_start (P : Protobuf) : StoreInv P {} :=
  ⟨holds_empty P [], fun _ h => by cases h⟩

theorem storeStep_inv (P : Protobuf) (logPath : String) (s : StoreState) (i : StoreStep)
    (s' : StoreState) (hs : StoreInv P s) (h : storeStep P logPath s i = some s') :
    StoreInv P s' := by
  obtain ⟨hholds, hcounted⟩ := hs
  rcases storeStep_cases h with ⟨-, rfl⟩ | ⟨scan, t, r, r', hr, ht, hlog, hindex, hrec, hr', hc⟩ |
    ⟨r, more, hr, hlog, hindex, hrec, hc⟩
  · exact ⟨hholds, fun r hr => by cases hr; exact hholds.count_eq⟩
  · rw [ht, Option.getD_some] at hholds
    refine ⟨?_, fun r2 hr2 => ?_⟩
    · rw [hlog, hindex, hrec]
      exact hholds.record scan _
    · rw [hr'] at hr2
      cases hr2
      rw [hc, hcounted r hr, hrec, List.length_append, List.length_singleton]
  · refine ⟨?_, fun r2 hr2 => ?_⟩
    · rw [hlog, hindex, hrec]
      exact hholds.append more
    · rw [hc r2 hr2, hcounted r hr, hrec]

theorem storeStep_index (P : Protobuf) (logPath : String) (s : StoreState) (i : StoreStep)
    (s' : StoreState) (hs : s.files.index.isSome) (h : storeStep P logPath s i = some s') :
    s'.files.index.isSome := by
  rcases storeStep_cases h with ⟨-, rfl⟩ | ⟨_, _, _, _, -, -, -, hindex, -⟩ |
    ⟨_, _, -, -, hindex, -⟩
  · rfl
  · rw [hindex]; rfl
  · rw [hindex]; exact hs

theorem storeStep_open (P : Protobuf) (logPath : String) (s s' : StoreState)
    (h : storeStep P logPath s .openRecorder = some s') : s'.files.index.isSome := by
  cases hrec : s.recorder with
  | none =>
    simp only [storeStep, hrec, openRecorder_ok] at h
    cases h
    rfl
  | some r => simp only [storeStep, hrec] at h; cases h

theorem store_run_holds (P : Protobuf) (logPath : String) {steps : List StoreStep}
    {s : StoreState} (hrun : run (storeStep P logPath) {} steps = some s)
    (hopened : StoreStep.openRecorder ∈ steps) :
    StoreInv P s ∧ ∃ t, s.files.index = some t ∧ Holds P s.files.log t s.recorded := by
  have hinv := run_invariant (storeStep_inv P logPath) (storeInv_start P) hrun
  have hindex : s.files.index.isSome :=
    run_established (storeStep_open P logPath) (storeStep_index P logPath) hopened hrun
  obtain ⟨t, ht⟩ := Option.isSome_iff_exists.mp hindex
  have hholds := hinv.holds
  rw [ht, Option.getD_some] at hholds
  exact ⟨hinv, t, ht, hholds⟩

/-- A fresh reader on the files of a run answers from exactly the scans whose `record()` call
succeeded, in order, whatever failures and crashes the run went through. -/
theorem store_run_answers (P : Protobuf) (logPath : String) {steps : List StoreStep}
    {s : StoreState} (hrun : run (storeStep P logPath) {} steps = some s)
    (hopened : StoreStep.openRecorder ∈ steps) (hP : ∀ scan ∈ s.recorded, P.Undoes scan) :
    (∀ r, s.recorder = some r → r.scanCount = s.recorded.length) ∧
    ∃ t, s.files.index = some t ∧ openReader logPath (fun _ => none) s.files = .ok {} ∧
      (count (freshReader s.files.log t)).1 = .ok s.recorded.length ∧
      (∀ i (hi : i < s.recorded.length),
        (get P i (freshReader s.files.log t)).1 = .ok s.recorded[i]) ∧
      (∀ i, s.recorded.length ≤ i →
        ∃ msg, (get P i (freshReader s.files.log t)).1 = .error (.outOfRange msg)) ∧
      ∀ start stop, (findByTimeRange P start stop (freshReader s.files.log t)).1 =
        .ok (scansIn start stop s.recorded) := by
  obtain ⟨hinv, t, ht, hholds⟩ := store_run_holds P logPath hrun hopened
  exact ⟨hinv.counted, t, ht, openReader_ok logPath ht, freshReader_answers hholds hP⟩

def stamped (stampNs : Int64) : Scan := { Scan.fresh with stampNs := stampNs }

def roughRun : List StoreStep :=
  [.openRecorder, .record (stamped 3) { landed := some 5 }, .close [lowByte 0], .openRecorder,
    .record (stamped 5) {}, .record (stamped 7) { insertError := some "disk I/O error" },
    .crash (stamped 8) 2, .openRecorder, .record (stamped 6) {}]

theorem roughRun_recorded : ∃ s, run (storeStep wireFormat "scans.log") {} roughRun = some s ∧
    s.recorded = [stamped 5, stamped 6] := ⟨_, rfl, by decide⟩

theorem store_run_answers_rough :
    ∃ s t, run (storeStep wireFormat "scans.log") {} roughRun = some s ∧
      s.recorded = [stamped 5, stamped 6] ∧
      (findByTimeRange wireFormat 6 9 (freshReader s.files.log t)).1 = .ok [stamped 6] := by
  obtain ⟨s, hs, hrec⟩ := roughRun_recorded
  obtain ⟨-, t, -, -, -, -, -, hrange⟩ := store_run_answers wireFormat "scans.log" hs
    (by simp [roughRun]) (by rw [hrec]; decide)
  refine ⟨s, t, hs, hrec, ?_⟩
  rw [hrange, hrec]
  decide

end AuvMiddleware.Lidar
