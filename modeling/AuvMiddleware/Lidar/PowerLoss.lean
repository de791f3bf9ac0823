import AuvMiddleware.Lidar.Store

/-!
# Rows that outlive their records

`record()` flushes the log stream but never syncs the file, while SQLite syncs its commits. A
power loss can therefore take the end of the log and leave the rows that point there, and
nothing compares the two files when a recorder is opened again.
-/

namespace AuvMiddleware.Lidar
open Runs

/-! ### The place of a row in the log -/

namespace Row

def placeIn (r : Row) (log : Bytes) : Bytes :=
  (log.drop r.offset.toNat).take (4 + r.length.toNat)

def Lost (r : Row) (log : Bytes) : Prop := (r.placeIn log).length < 4 + r.length.toNat

/-- The log fills the row's place and has the row's length at its start: `read_record` goes on to
parse what is there. -/
def Shown (r : Row) (log : Bytes) : Prop :=
  (r.placeIn log).length = 4 + r.length.toNat ∧
    (r.placeIn log).take 4 = writeLengthPrefix (toU32 r.length)

instance (r : Row) (log : Bytes) : Decidable (r.Lost log) :=
  inferInstanceAs (Decidable (_ < _))

instance (r : Row) (log : Bytes) : Decidable (r.Shown log) :=
  inferInstanceAs (Decidable (_ ∧ _))

theorem placeIn_length (r : Row) (log : Bytes) :
    (r.placeIn log).length = min (4 + r.length.toNat) (log.length - r.offset.toNat) := by
  rw [placeIn, List.length_take, List.length_drop]

theorem placeIn_take {r : Row} {log : Bytes} {keep : ℕ}
    (h : (r.placeIn (log.take keep)).length = 4 + r.length.toNat) :
    r.placeIn (log.take keep) = r.placeIn log := by
  rw [placeIn_length, List.length_take] at h
  rw [placeIn, placeIn, List.drop_take, List.take_take, Nat.min_eq_left (by omega)]

theorem Shown.of_take {r : Row} {log : Bytes} {keep : ℕ} (h : r.Shown (log.take keep)) :
    r.Shown log ∧ r.placeIn (log.take keep) = r.placeIn log := by
  have heq := placeIn_take h.1
  unfold Shown at h ⊢
  rw [heq] at h
  exact ⟨h, heq⟩

theorem placeIn_append {r : Row} {log : Bytes} (h : ¬ r.Lost log) (more : Bytes) :
    r.placeIn (log ++ more) = r.placeIn log := by
  have hlen : (r.placeIn ((log ++ more).take log.length)).length = 4 + r.length.toNat := by
    rw [List.take_left]
    unfold Lost at h
    have := r.placeIn_length log
    omega
  have := placeIn_take hlen
  rw [List.take_left] at this
  exact this.symm

theorem shown_of_decode {P : Protobuf} {r : Row} {log : Bytes} {scan : Scan} {size : ℕ}
    (hsize : r.length = size) (hlt : size < 2 ^ 31)
    (h : decodeRecord P log r.offset r.length = some scan) : 0 ≤ r.offset ∧ r.Shown log := by
  have ho : ¬ r.offset < 0 := by
    intro ho
    rw [decodeRecord, if_pos ho] at h
    cases h
  rcases four_bytes_cases (log.drop r.offset.toNat) with ⟨b0, b1, b2, b3, rest, hb⟩ | hshort
  · rw [decodeRecord_of_four P r.length ho hb] at h
    dsimp only at h
    split at h
    · rename_i hc
      have hu : toU32 r.length = size := by
        rw [hsize]
        exact toU32_of_lt (by omega)
      have hn : r.length.toNat = size := by omega
      have hfull : size ≤ rest.length := by
        rw [← hu, ← hc.1]
        exact hc.2.1
      refine ⟨by omega, ?_, ?_⟩
      · rw [placeIn, hb, List.length_take, hn]
        simp only [List.length_cons]
        omega
      · rw [placeIn, hb, List.take_take, Nat.min_eq_left (by omega), ← hc.1, writeLengthPrefix,
          readLengthPrefix, le32_ofLe32]
        rfl
    · cases h
  · rw [decodeRecord, if_neg ho] at h
    rcases hshort with hs | ⟨_, hs⟩ | ⟨_, _, hs⟩ | ⟨_, _, _, hs⟩ <;> rw [hs] at h <;> cases h

end Row

/-- The row was made for `scan`, and what the log shows for it is the record of `scan`. -/
structure RowOwn (P : Protobuf) (log : Bytes) (r : Row) (scan : Scan) : Prop where
  stamp : r.stampNs = scan.stampNs
  length : r.length = (P.bytesOf scan).length
  own : r.Shown log → r.placeIn log = logRecord (P.bytesOf scan)

theorem RowOwn.take {P : Protobuf} {log : Bytes} {r : Row} {scan : Scan}
    (h : RowOwn P log r scan) (keep : ℕ) : RowOwn P (log.take keep) r scan := by
  refine ⟨h.stamp, h.length, fun hs => ?_⟩
  obtain ⟨hshown, heq⟩ := hs.of_take
  rw [heq, h.own hshown]

theorem RowOwn.decode {P : Protobuf} {log : Bytes} {r : Row} {scan x : Scan}
    (h : RowOwn P log r scan) (hP : P.Undoes scan)
    (hx : decodeRecord P log r.offset r.length = some x) : x = scan := by
  obtain ⟨ho, hshown⟩ := Row.shown_of_decode h.length hP.size_bytesOf hx
  have hplace := h.own hshown
  have hfor : RowFor P log r scan := by
    refine ⟨h.stamp, h.length, log.take r.offset.toNat,
      log.drop (r.offset.toNat + (4 + r.length.toNat)), ?_, ?_⟩
    · rw [← hplace, Row.placeIn, List.append_assoc, ← List.drop_drop, List.take_append_drop,
        List.take_append_drop]
    · have hlen := hshown.1
      rw [Row.placeIn_length] at hlen
      rw [List.length_take]
      omega
  rw [hfor.decode hP] at hx
  exact (Option.some.inj hx).symm

/-! ### Runs with power losses -/

inductive PowerStep where
  | openRecorder
  | record (scan : Scan)
  | sync
  | close
  /-- The log comes back with its first `keep` bytes, the index with every row. -/
  | powerLoss (keep : ℕ)
  deriving DecidableEq

/-- The files, how much of the log is on the disk, and the scan that each row was made for. -/
structure PowerState where
  files : Files := {}
  recorder : Option Recorder := none
  synced : ℕ := 0
  created : List Scan := []

def PowerState.table (s : PowerState) : Table := s.files.index.getD Table.empty

def powerStep (P : Protobuf) (logPath : String) (s : PowerState) (i : PowerStep) :
    Option PowerState :=
  match i, s.recorder with
  | .openRecorder, none =>
    match openRecorder logPath (fun _ => none) s.files with
    | (.ok r, f) => some { s with files := f, recorder := some r }
    | (.error _, _) => none
  | .record scan, some r =>
    match record P scan {} ⟨r, s.files⟩ with
    | (.ok _, r') => some { s with
        files := r'.files
        recorder := some r'.recorder
        created := s.created ++ [scan] }
    | (.error _, _) => none
  | .sync, _ => some { s with synced := s.files.log.length }
  | .close, some _ => some { s with recorder := none }
  | .powerLoss keep, _ =>
    if s.synced ≤ keep ∧ keep ≤ s.files.log.length then
      some { s with files.log := s.files.log.take keep, recorder := none, synced := keep }
    else none
  | _, _ => none

/-- If the step is a `record()`, its bytes do not complete the place of a lost row under that
row's own length, unless they complete the lost record itself. -/
def KeepsLost (P : Protobuf) (s : PowerState) (i : PowerStep) : Prop :=
  match i with
  | .record scan => ∀ row ∈ s.table.rows.zip s.created, row.1.Lost s.files.log →
      row.1.Shown (s.files.log ++ logRecord (P.bytesOf scan)) →
      row.1.placeIn (s.files.log ++ logRecord (P.bytesOf scan)) = logRecord (P.bytesOf row.2)
  | _ => True

instance (P : Protobuf) (s : PowerState) (i : PowerStep) : Decidable (KeepsLost P s i) :=
  match i with
  | .record _ => List.decidableBAll _ _
  | .openRecorder | .sync | .close | .powerLoss _ => isTrue trivial

/-- What a step does to files and rows: nothing to either (a recorder may make the table), a scan
recorded at the end of the log, or a shorter log. -/
theorem powerStep_cases {P : Protobuf} {logPath : String} {s s' : PowerState} {i : PowerStep}
    (h : powerStep P logPath s i = some s') :
    (s'.files.log = s.files.log ∧ s'.table = s.table ∧ s'.created = s.created) ∨
    (∃ scan, i = .record scan ∧ s'.files.log = s.files.log ++ logRecord (P.bytesOf scan) ∧
      s'.table = s.table.insert scan.stampNs s.files.log.length (P.bytesOf scan).length
        scan.ranges.length ∧ s'.created = s.created ++ [scan]) ∨
    (∃ keep, s'.files.log = s.files.log.take keep ∧ s'.table = s.table ∧
      s'.created = s.created) := by
  cases i with
  | openRecorder =>
    cases hrec : s.recorder with
    | none =>
      simp only [powerStep, hrec, openRecorder_ok] at h
      cases h
      exact Or.inl ⟨rfl, rfl, rfl⟩
    | some r => simp only [powerStep, hrec] at h; cases h
  | record scan =>
    cases hrec : s.recorder with
    | none => simp only [powerStep, hrec] at h; cases h
    | some r =>
      rcases record_cases P scan {} ⟨r, s.files⟩ with
        ⟨t, r', hok, ht, hlog, hindex, -⟩ | ⟨e, k, r', herr, -⟩
      · simp only [powerStep, hrec, hok] at h
        cases h
        refine Or.inr (Or.inl ⟨scan, rfl, hlog, ?_, rfl⟩)
        rw [PowerState.table, PowerState.table, hindex, ht, Option.getD_some, Option.getD_some]
      · simp only [powerStep, hrec, herr] at h
        cases h
  | sync =>
    cases h
    exact Or.inl ⟨rfl, rfl, rfl⟩
  | close =>
    cases hrec : s.recorder with
    | none => simp only [powerStep, hrec] at h; cases h
    | some r =>
      simp only [powerStep, hrec] at h
      cases h
      exact Or.inl ⟨rfl, rfl, rfl⟩
  | powerLoss keep =>
    simp only [powerStep] at h
    split at h
    · cases h
      exact Or.inr (Or.inr ⟨keep, rfl, rfl, rfl⟩)
    · cases h

structure PowerInv (P : Protobuf) (s : PowerState) : Prop where
  numbered : s.table.Numbered
  rows : List.Forall₂ (RowOwn P s.files.log) s.table.rows s.created

theorem powerInv_start (P : Protobuf) : PowerInv P {} :=
  ⟨(holds_empty P []).numbered, List.Forall₂.nil⟩

theorem powerStep_inv (P : Protobuf) (logPath : String) (s : PowerState) (i : PowerStep)
    (s' : PowerState) (hs : PowerInv P s) (hc : KeepsLost P s i)
    (h : powerStep P logPath s i = some s') : PowerInv P s' := by
  obtain ⟨hnum, hrows⟩ := hs
  rcases powerStep_cases h with ⟨hlog, ht, hcr⟩ | ⟨scan, rfl, hlog, ht, hcr⟩ | ⟨keep, hlog, ht, hcr⟩
  · exact ⟨by rw [ht]; exact hnum, by rw [hlog, ht, hcr]; exact hrows⟩
  · refine ⟨by rw [ht]; exact hnum.insert _ _ _ _, ?_⟩
    rw [hlog, ht, hcr, Table.rows_insert]
    refine List.rel_append ?_ (List.Forall₂.cons ⟨rfl, rfl, fun _ => ?_⟩ List.Forall₂.nil)
    · refine List.forall₂_iff_zip.mpr ⟨hrows.length_eq, fun {r own} hmem => ?_⟩
      have hr : RowOwn P s.files.log r own := (List.forall₂_iff_zip.mp hrows).2 hmem
      refine ⟨hr.stamp, hr.length, fun hshown => ?_⟩
      by_cases hlost : r.Lost s.files.log
      · exact hc (r, own) hmem hlost hshown
      · have heq := Row.placeIn_append hlost (logRecord (P.bytesOf scan))
        rw [Row.Shown, heq] at hshown
        rw [heq, hr.own hshown]
    · simp only [Row.placeIn, Int.toNat_natCast, List.drop_left]
      exact List.take_of_length_le (logRecord_length _).le
  · exact ⟨by rw [ht]; exact hnum, by
      rw [hlog, ht, hcr]
      exact hrows.imp fun _ _ hr => hr.take keep⟩

/-! ### Any reader on the files -/

/-- A reader on these files, whatever its stream, its statements and the failures to come; what
its statements see may be an older state of the table. -/
structure ReaderOn (f : Files) (st : ReaderState) : Prop where
  log : st.env.log = f.log
  sees : ∀ stmt, (st.sees stmt).rows <+: (f.index.getD Table.empty).rows

theorem ReaderOn.row {f : Files} {st : ReaderState} (h : ReaderOn f st) {stmt : ReaderStmt}
    {i : ℕ} {r : Row} (hr : (st.sees stmt).rows[i]? = some r) :
    (f.index.getD Table.empty).rows[i]? = some r := by
  obtain ⟨later, heq⟩ := h.sees stmt
  rw [← heq, List.getElem?_append_left (List.getElem?_eq_some_iff.mp hr).1, hr]

theorem freshReader_on {f : Files} {t : Table} (h : f.index = some t) :
    ReaderOn f (freshReader f.log t) :=
  ⟨rfl, fun _ => by rw [h]; exact List.prefix_rfl⟩

section Own

variable {P : Protobuf} {s : PowerState} {st : ReaderState}

theorem PowerInv.row_own (hs : PowerInv P s) (hP : ∀ scan ∈ s.created, P.Undoes scan) {i : ℕ}
    {r : Row} {scan : Scan} (hr : s.table.rows[i]? = some r)
    (hd : decodeRecord P s.files.log r.offset r.length = some scan) :
    s.created[i]? = some scan ∧ r.stampNs = scan.stampNs := by
  obtain ⟨hi, hri⟩ := List.getElem?_eq_some_iff.mp hr
  have hi' : i < s.created.length := by
    have := hs.rows.length_eq
    omega
  have hown : RowOwn P s.files.log s.table.rows[i] s.created[i] := hs.rows.get hi hi'
  rw [hri] at hown
  rw [hown.decode (hP _ (List.getElem_mem hi')) hd]
  exact ⟨List.getElem?_eq_getElem hi', hown.stamp⟩

theorem PowerInv.get_own (hs : PowerInv P s) (hP : ∀ scan ∈ s.created, P.Undoes scan)
    (hon : ReaderOn s.files st) {i : ℕ} {scan : Scan} (h : (get P i st).1 = .ok scan) :
    s.created[i]? = some scan := by
  obtain ⟨-, hi, hd⟩ := get_eq_ok (Prod.ext h rfl)
  have hnum : (st.sees .count).Numbered := fun j r hj => hs.numbered j r (hon.row hj)
  unfold scanAt Table.place at hd
  rw [hnum.bySeq_eq, hon.log] at hd
  cases hrow : (st.sees .count).rows[i]? with
  | none => exact absurd hi (Nat.not_lt.mpr (List.getElem?_eq_none_iff.mp hrow))
  | some r =>
    rw [hrow] at hd
    exact (hs.row_own hP (hon.row hrow) hd).1

theorem PowerInv.range_own (hs : PowerInv P s) (hP : ∀ scan ∈ s.created, P.Undoes scan)
    (hon : ReaderOn s.files st) {start stop : Int64} {scans : List Scan}
    (h : (findByTimeRange P start stop st).1 = .ok scans) :
    ∀ scan ∈ scans, start ≤ scan.stampNs ∧ scan.stampNs ≤ stop := by
  obtain ⟨-, hd⟩ := findByTimeRange_eq_ok (Prod.ext h rfl)
  intro scan hmem
  obtain ⟨r, hr, hscan⟩ := row_of_mem_decodeRows hd hmem
  obtain ⟨hr, hin⟩ := List.mem_filter.mp hr
  obtain ⟨i, hi⟩ := List.mem_iff_getElem?.mp ((hon.sees .range).subset hr)
  rw [hon.log] at hscan
  rw [← (hs.row_own hP hi hscan).2]
  simpa using hin

end Own

/-- While no `record()` completes the place of a lost row, every reader throws for a row or returns
the scan the row was made for, and a range query returns nothing from outside the range. -/
theorem power_run_own (P : Protobuf) (logPath : String) {steps : List PowerStep} {s : PowerState}
    (hrun : run (powerStep P logPath) {} steps = some s)
    (hkeeps : Throughout (powerStep P logPath) (KeepsLost P) {} steps)
    (hP : ∀ scan ∈ s.created, P.Undoes scan) {st : ReaderState} (hon : ReaderOn s.files st) :
    (∀ i scan, (get P i st).1 = .ok scan → s.created[i]? = some scan) ∧
    ∀ start stop scans, (findByTimeRange P start stop st).1 = .ok scans →
      ∀ scan ∈ scans, start ≤ scan.stampNs ∧ scan.stampNs ≤ stop := by
  have hinv : PowerInv P s := run_invariant_of (powerStep_inv P logPath) (powerInv_start P) hkeeps hrun
  exact ⟨fun i scan => hinv.get_own hP hon, fun start stop scans => hinv.range_own hP hon⟩

def lostRun : List PowerStep :=
  [.openRecorder, .record (stamped 1), .sync, .record (stamped 2),
    .powerLoss (logRecord (wireFormat.bytesOf (stamped 1))).length, .openRecorder,
    .record (stamped 300), .record (stamped 2)]

theorem power_run_own_lost :
    ∃ s t, run (powerStep wireFormat "scans.log") {} lostRun = some s ∧
      s.created = [stamped 1, stamped 2, stamped 300, stamped 2] ∧
      ∀ scan, (get wireFormat 1 (freshReader s.files.log t)).1 = .ok scan → scan = stamped 2 := by
  have hrun : ∃ s, run (powerStep wireFormat "scans.log") {} lostRun = some s ∧
      s.created = [stamped 1, stamped 2, stamped 300, stamped 2] ∧ s.files.index.isSome :=
    ⟨_, rfl, by decide, by decide⟩
  obtain ⟨s, hs, hcr, hindex⟩ := hrun
  obtain ⟨t, ht⟩ := Option.isSome_iff_exists.mp hindex
  refine ⟨s, t, hs, hcr, fun scan hget => ?_⟩
  obtain ⟨hown, -⟩ := power_run_own wireFormat "scans.log" hs (by decide) (by rw [hcr]; decide)
    (freshReader_on ht)
  have := hown 1 scan hget
  rw [hcr] at this
  exact (Option.some.inj this).symm

theorem power_run_other :
    ∃ s t, run (powerStep wireFormat "scans.log") {}
        [.openRecorder, .record (stamped 1), .powerLoss 0, .openRecorder,
          .record (stamped 2)] = some s ∧
      s.files.index = some t ∧ s.created = [stamped 1, stamped 2] ∧
      (get wireFormat 0 (freshReader s.files.log t)).1 = .ok (stamped 2) ∧
      (findByTimeRange wireFormat 1 1 (freshReader s.files.log t)).1 = .ok [stamped 2] :=
  ⟨_, _, rfl, rfl, by decide, by decide, by decide⟩

end AuvMiddleware.Lidar
