import AuvMiddleware.Lidar.Store
import AuvMiddleware.Lidar.WireFormat

/-!
# One reader over many calls (reader.cpp:99-196)

The files do not change and SQLite does not fail; what a call leaves behind for the next one is the
stream with its flags, the statements on their rows, and the message that is parsed into.
-/

namespace AuvMiddleware.Lidar

inductive ReadCall where
  | get (index : ℕ)
  | findByTimeRange (start stop : Int64)

/-- `get()` and `find_by_time_range()`, with a single scan as a list of one. -/
def readCall (P : Protobuf) : ReadCall → Call Exn ReaderState (List Scan)
  | .get index => do
    let scan ← get P index
    pure [scan]
  | .findByTimeRange start stop => findByTimeRange P start stop

/-- What the calls return or throw, one after the other on one reader. -/
def results (P : Protobuf) : ReaderState → List ReadCall → List (Except Exn (List Scan))
  | _, [] => []
  | st, c :: cs => (readCall P c st).1 :: results P (readCall P c st).2 cs

/-! ### The records that a call reads -/

/-- The rows of a call, as the offset and the length that it reads at. -/
def ReadCall.rows (t : Table) : ReadCall → List (ℤ × ℤ)
  | .get index => if index < t.count then [t.place index] else []
  | .findByTimeRange start stop => (t.inRange start stop).map fun r => (r.offset, r.length)

/-- The log ends before the record does, or the row does not point into it at all. -/
def CutShort (log : Bytes) (row : ℤ × ℤ) : Prop :=
  row.1 < 0 ∨ match log.drop row.1.toNat with
    | b0 :: b1 :: b2 :: b3 :: rest =>
      readLengthPrefix b0 b1 b2 b3 = toU32 row.2 ∧ rest.length < readLengthPrefix b0 b1 b2 b3
    | _ => True

/-- The first record that does not come back is one that is cut short. -/
def Poisons (P : Protobuf) (log : Bytes) : List (ℤ × ℤ) → Prop
  | [] => False
  | row :: rows =>
    CutShort log row ∨ (decodeRecord P log row.1 row.2).isSome = true ∧ Poisons P log rows

/-- The first row leads to the log. -/
def Touches (rows : List (ℤ × ℤ)) : Prop := ∃ row ∈ rows.head?, 0 ≤ row.1

def readRows (P : Protobuf) (log : Bytes) :
    List (ℤ × ℤ) → List Scan → Call Exn LogReader (List Scan)
  | [], result => pure result
  | row :: rows, result => do
    let scan ← readRecord P log row.1 row.2
    readRows P log rows (result ++ [scan])

theorem recordOutcome_failed_iff (P : Protobuf) (log : Bytes) (row : ℤ × ℤ) :
    (recordOutcome P log row.1 row.2).2 = true ↔ CutShort log row := by
  unfold recordOutcome CutShort
  by_cases ho : row.1 < 0
  · simp [ho]
  rw [if_neg ho]
  rcases four_bytes_cases (log.drop row.1.toNat) with ⟨b0, b1, b2, b3, rest, hb⟩ | h
  · rw [hb]
    dsimp only
    by_cases hdecl : readLengthPrefix b0 b1 b2 b3 = toU32 row.2
    swap
    · simp [hdecl, ho]
    by_cases hsize : rest.length < readLengthPrefix b0 b1 b2 b3
    · rw [if_neg (not_not_intro hdecl), if_pos hsize]
      exact iff_of_true rfl (Or.inr ⟨hdecl, hsize⟩)
    · rw [if_neg (not_not_intro hdecl), if_neg hsize]
      cases (P.parseFromString (rest.take (readLengthPrefix b0 b1 b2 b3))).1 <;>
        simp [ho, hsize]
  · rcases h with h | ⟨_, h⟩ | ⟨_, _, h⟩ | ⟨_, _, _, h⟩ <;> rw [h] <;> simp

/-! ### The reader, as far as the log goes -/

/-- The files are the given ones, and no statement holds on to any other rows. -/
structure OnFiles (log : Bytes) (t : Table) (st : ReaderState) : Prop where
  env : st.env = { log := log, table := t }
  view : st.reader.conn.view t = t

namespace OnFiles

variable {log : Bytes} {t : Table} {st : ReaderState}

theorem halt (h : OnFiles log t st) (i : ReaderStmt) : OnFiles log t (st.halt i) :=
  ⟨h.env, (SnapshotConn.view_halt_eq_iff _ _ _).mpr (Or.inr h.view)⟩

theorem stepped (h : OnFiles log t st) : OnFiles log t st.stepped :=
  ⟨by rw [ReaderState.stepped_env, h.env]; rfl, h.view⟩

theorem onRow (h : OnFiles log t st) (i : ReaderStmt) : OnFiles log t (st.onRow i) := by
  refine ⟨h.env, ?_⟩
  rw [ReaderState.onRow, h.env, SnapshotConn.view_onRow]
  exact h.view

theorem view_eq (h : OnFiles log t st) : st.view = t := by
  rw [ReaderState.view, h.env]
  exact h.view

theorem fresh (log : Bytes) (t : Table) : OnFiles log t (freshReader log t) := ⟨rfl, rfl⟩

end OnFiles

/-- On the files, a call of the reader comes to a call on its log stream. -/
def Tracks {α : Type} (log : Bytes) (t : Table) (x : Call Exn ReaderState α)
    (y : Call Exn LogReader α) : Prop :=
  ∀ st, OnFiles log t st → ∃ st', x st = ((y st.reader.logReader).1, st') ∧
    st'.reader.logReader = (y st.reader.logReader).2 ∧ OnFiles log t st'

namespace Tracks

variable {α β : Type} {log : Bytes} {t : Table}

theorem pure (a : α) : Tracks log t (pure a) (pure a) := fun st h => ⟨st, rfl, rfl, h⟩

theorem throw (e : Exn) : Tracks log t (Call.throw e : Call Exn ReaderState α) (Call.throw e) :=
  fun st h => ⟨st, rfl, rfl, h⟩

theorem bind {x : Call Exn ReaderState α} {y : Call Exn LogReader α}
    {f : α → Call Exn ReaderState β} {g : α → Call Exn LogReader β} (hx : Tracks log t x y)
    (hf : ∀ a, Tracks log t (f a) (g a)) : Tracks log t (x >>= f) (y >>= g) := by
  intro st h
  obtain ⟨st', hst', hlog, h'⟩ := hx st h
  cases hy : y st.reader.logReader with
  | mk got r =>
    rw [hy] at hst' hlog
    cases got with
    | error e =>
      refine ⟨st', ?_, ?_, h'⟩
      · rw [Call.bind_of_error hst', Call.bind_of_error hy]
      · rw [Call.bind_of_error hy]
        exact hlog
    | ok a =>
      obtain ⟨st'', hst'', hlog', h''⟩ := hf a st' h'
      rw [hlog] at hst'' hlog'
      refine ⟨st'', ?_, ?_, h''⟩
      · rw [Call.bind_of_ok hst', Call.bind_of_ok hy]
        exact hst''
      · rw [Call.bind_of_ok hy]
        exact hlog'

theorem sqlReset (i : ReaderStmt) : Tracks log t (Lidar.sqlReset i) (Pure.pure ()) :=
  fun st h => ⟨st.halt i, rfl, rfl, h.halt i⟩

theorem sqlStep (i : ReaderStmt) (what : String) (next : Table → Option α) :
    Tracks log t (Lidar.sqlStep i what next) (Pure.pure (next t)) := by
  intro st h
  have hf : st.env.FaultFree 1 := ReadEnv.faultFree_of_nil (by rw [h.env]) 1
  cases hn : next t with
  | none =>
    exact ⟨_, sqlStep_done i what next st hf (by rw [h.view_eq]; exact hn), rfl, h.stepped.halt i⟩
  | some a =>
    exact ⟨_, sqlStep_row i what next st hf (by rw [h.view_eq]; exact hn), rfl, h.stepped.onRow i⟩

theorem readRecordAt (P : Protobuf) (offset length : ℤ) :
    Tracks log t (Lidar.readRecordAt P offset length) (readRecord P log offset length) := by
  intro st h
  refine ⟨{ st with reader.logReader := (readRecord P log offset length st.reader.logReader).2 },
    ?_, rfl, h.env, h.view⟩
  unfold Lidar.readRecordAt
  rw [h.env]

theorem count : Tracks log t Lidar.count (Pure.pure t.count) :=
  (sqlReset .count).bind fun _ => (sqlStep .count _ fun t => some t.count).bind fun n =>
    pure (n.getD 0)

theorem get (P : Protobuf) (index : ℕ) : Tracks log t (Lidar.get P index)
    (if index ≥ t.count then
      Call.throw (.outOfRange ("ScanReader::get: index " ++ toString index ++ " >= count()"))
    else readRecord P log (t.place index).1 (t.place index).2) := by
  have hplace : readRecord P log (t.place index).1 (t.place index).2 =
      (t.bySeq (index + 1)).elim (readRecord P log 0 0) fun r =>
        readRecord P log r.offset r.length := by
    unfold Table.place
    cases t.bySeq (index + 1) <;> rfl
  rw [hplace]
  refine count.bind (g := fun n => if index ≥ n then _ else _) fun n => ?_
  split
  · exact throw _
  · refine (sqlReset .get).bind (g := fun _ => _) fun _ => ?_
    refine (sqlStep .get _ fun t => t.bySeq (index + 1)).bind (g := fun row =>
      row.elim (readRecord P log 0 0) fun r => readRecord P log r.offset r.length) fun row => ?_
    cases row with
    | some r => exact readRecordAt P r.offset r.length
    | none => exact readRecordAt P 0 0

theorem rangeLoop (P : Protobuf) (rows : List Row) (result : List Scan) :
    Tracks log t (Lidar.rangeLoop P rows result)
      (readRows P log (rows.map fun r => (r.offset, r.length)) result) := by
  induction rows generalizing result with
  | nil => exact (sqlStep .range _ fun _ => (none : Option Row)).bind fun _ => pure result
  | cons row rows ih =>
    exact (sqlStep .range _ fun _ => some row).bind fun _ =>
      (readRecordAt P row.offset row.length).bind fun scan => ih (result ++ [scan])

end Tracks

/-- What a call throws before it reads any row. -/
def ReadCall.refused (t : Table) : ReadCall → Option Exn
  | .get index =>
    if index ≥ t.count then
      some (.outOfRange ("ScanReader::get: index " ++ toString index ++ " >= count()"))
    else none
  | .findByTimeRange _ _ => none

theorem ReadCall.rows_of_refused {t : Table} {c : ReadCall} {e : Exn} (h : c.refused t = some e) :
    c.rows t = [] := by
  cases c with
  | get index =>
    rw [refused] at h
    split at h
    · rw [rows, if_neg (by omega)]
    · cases h
  | findByTimeRange start stop => cases h

def logCall (P : Protobuf) (log : Bytes) (t : Table) (c : ReadCall) : Call Exn LogReader (List Scan) :=
  match c.refused t with
  | some e => Call.throw e
  | none => readRows P log (c.rows t) []

theorem tracks_readCall (P : Protobuf) (log : Bytes) (t : Table) (c : ReadCall) :
    Tracks log t (readCall P c) (logCall P log t c) := by
  unfold logCall
  cases c with
  | get index =>
    have hget : Tracks log t (readCall P (.get index)) _ :=
      (Tracks.get P index).bind fun scan => Tracks.pure [scan]
    rw [ReadCall.refused, ReadCall.rows]
    by_cases hi : index ≥ t.count
    · rw [if_pos hi] at hget
      rw [if_pos hi]
      exact hget
    · rw [if_neg hi] at hget
      rw [if_neg hi, if_pos (by omega)]
      exact hget
  | findByTimeRange start stop =>
    intro st h
    have hview := (h.halt .range).view_eq
    obtain ⟨st', hst', hlog, h'⟩ :=
      Tracks.rangeLoop P (t.inRange start stop) [] (st.halt .range) (h.halt .range)
    refine ⟨st', ?_, hlog, h'⟩
    show Lidar.rangeLoop P ((st.halt .range).view.inRange start stop) [] (st.halt .range) = _
    rw [hview]
    exact hst'

/-! ### Healthy and failed streams -/

/-- What reading the rows comes to on a stream that has not failed. -/
def rowsOutcome (P : Protobuf) (log : Bytes) :
    List (ℤ × ℤ) → List Scan → Except Exn (List Scan)
  | [], result => .ok result
  | row :: rows, result =>
    match (recordOutcome P log row.1 row.2).1 with
    | .ok scan => rowsOutcome P log rows (result ++ [scan])
    | .error e => .error e

theorem readRows_healthy (P : Protobuf) (log : Bytes) (rows : List (ℤ × ℤ)) (result : List Scan)
    {r : LogReader} (hr : r.Healthy) :
    ∃ r', readRows P log rows result r = (rowsOutcome P log rows result, r') ∧
      (r'.stream.failbit = true ↔ Poisons P log rows) := by
  induction rows generalizing result r with
  | nil =>
    refine ⟨r, rfl, ?_⟩
    rw [show r.stream.failbit = false from hr]
    exact iff_of_false Bool.false_ne_true id
  | cons row rows ih =>
    obtain ⟨m, hread, hfail⟩ := readRecord_healthy P log row.1 row.2 hr
    have hcut := recordOutcome_failed_iff P log row
    unfold readRows rowsOutcome Poisons
    rcases recordOutcome_cases P log row.1 row.2 with ⟨scan, ho, hd⟩ | ⟨msg, failed, ho, hd⟩
    · rw [ho] at hread hfail hcut
      obtain ⟨r', hrows, hpoison⟩ := ih (result ++ [scan]) (show m.Healthy from hfail)
      refine ⟨r', ?_, ?_⟩
      · rw [Call.bind_of_ok hread, hrows, ho]
      · rw [hpoison, ← hcut, hd]
        simp
    · rw [ho] at hread hfail hcut
      refine ⟨m, ?_, ?_⟩
      · rw [Call.bind_of_error hread, ho]
      · rw [hfail, ← hcut, hd]
        simp

theorem readRows_failed (P : Protobuf) (log : Bytes) (row : ℤ × ℤ) (rows : List (ℤ × ℤ))
    (result : List Scan) {r : LogReader} (hr : r.stream.failbit = true) :
    ∃ r', readRows P log (row :: rows) result r = (.error (seekFailed row.1), r') ∧
      r'.stream.failbit = true := by
  obtain ⟨r', hread, hfail⟩ := readRecord_failed P log row.1 row.2 hr
  exact ⟨r', Call.bind_of_error hread _, hfail⟩

/-! ### The text of a failed seek -/

theorem minus_not_mem_toString (n : ℕ) : '-' ∉ (toString (n : ℤ)).toList := by
  intro h
  rw [show toString (n : ℤ) = Nat.repr n from rfl, Nat.toList_repr] at h
  have hdigit := Nat.isDigit_of_mem_toDigits (by decide) (by decide) h
  exact absurd hdigit (by decide)

theorem minus_mem_toString {z : ℤ} (h : z < 0) : '-' ∈ (toString z).toList := by
  obtain ⟨n, rfl⟩ := Int.eq_negSucc_of_lt_zero h
  rw [show toString (Int.negSucc n) = "-" ++ Nat.repr (n + 1) from rfl, String.toList_append]
  exact List.mem_append_left _ (by decide)

theorem seekFailed_ne_of_sign {a b : ℤ} (ha : a < 0) (hb : 0 ≤ b) : seekFailed a ≠ seekFailed b := by
  intro h
  unfold seekFailed at h
  injection h with h
  have hlist := congrArg String.toList h
  simp only [String.toList_append] at hlist
  have hoffset := List.append_cancel_left (List.append_cancel_right hlist)
  obtain ⟨n, rfl⟩ := Int.eq_ofNat_of_zero_le hb
  have hminus := minus_mem_toString ha
  rw [hoffset] at hminus
  exact minus_not_mem_toString n hminus

theorem twelfth_append {front : String} (h : 12 < front.toList.length) (rest : String) :
    (front ++ rest).toList[12]? = front.toList[12]? := by
  rw [String.toList_append, List.getElem?_append_left h]

/-- The errors of a record that was reached are told from a failed seek by the first letter after
the name of the class. -/
theorem ne_seekFailed {msg : String} (h : msg.toList[12]? ≠ some 's') (offset : ℤ) :
    Exn.runtimeError msg ≠ seekFailed offset := by
  intro he
  unfold seekFailed at he
  injection he with he
  rw [he, String.append_assoc, twelfth_append (by decide)] at h
  exact h (by decide)

theorem recordOutcome_ne_seekFailed {P : Protobuf} {log : Bytes} {row : ℤ × ℤ} {e : Exn}
    (h : (recordOutcome P log row.1 row.2).1 = .error e) {offset : ℤ} (ho : 0 ≤ offset) :
    e ≠ seekFailed offset := by
  unfold recordOutcome at h
  split at h
  · rename_i hneg
    cases h
    exact seekFailed_ne_of_sign hneg ho
  · split at h
    · dsimp only at h
      split at h
      · cases h
        refine ne_seekFailed ?_ offset
        simp only [String.append_assoc]
        rw [twelfth_append (by decide)]
        decide
      · split at h
        · cases h
          exact ne_seekFailed (by decide) offset
        · split at h
          · cases h
          · cases h
            refine ne_seekFailed ?_ offset
            simp only [String.append_assoc]
            rw [twelfth_append (by decide)]
            decide
    · cases h
      exact ne_seekFailed (by decide) offset

theorem rowsOutcome_ne_seekFailed {P : Protobuf} {log : Bytes} {rows : List (ℤ × ℤ)}
    {result : List Scan} {offset : ℤ} (ho : 0 ≤ offset) :
    rowsOutcome P log rows result ≠ .error (seekFailed offset) := by
  induction rows generalizing result with
  | nil =>
    intro h
    cases h
  | cons row rows ih =>
    intro h
    unfold rowsOutcome at h
    split at h
    · exact ih h
    · rename_i e he
      injection h with h
      exact recordOutcome_ne_seekFailed he ho h

/-! ### Sequences of calls -/

def callOutcome (P : Protobuf) (log : Bytes) (t : Table) (c : ReadCall) : Except Exn (List Scan) :=
  match c.refused t with
  | some e => .error e
  | none => rowsOutcome P log (c.rows t) []

theorem logCall_healthy (P : Protobuf) (log : Bytes) (t : Table) (c : ReadCall) {r : LogReader}
    (hr : r.Healthy) : ∃ r', logCall P log t c r = (callOutcome P log t c, r') ∧
      (r'.stream.failbit = true ↔ Poisons P log (c.rows t)) := by
  unfold logCall callOutcome
  cases hrefused : c.refused t with
  | none => exact readRows_healthy P log _ _ hr
  | some e =>
    rw [ReadCall.rows_of_refused hrefused]
    refine ⟨r, rfl, ?_⟩
    rw [show r.stream.failbit = false from hr]
    exact iff_of_false Bool.false_ne_true id

/-- A failed stream makes a difference exactly to the calls that get as far as the log. -/
theorem logCall_failed (P : Protobuf) (log : Bytes) (t : Table) (c : ReadCall) {r : LogReader}
    (hr : r.stream.failbit = true) :
    ∃ got r', logCall P log t c r = (got, r') ∧ r'.stream.failbit = true ∧
      (got = callOutcome P log t c ↔ ¬ Touches (c.rows t)) := by
  have hnil : ¬ Touches [] := by
    rintro ⟨row, hrow, -⟩
    cases hrow
  unfold logCall callOutcome
  cases hrefused : c.refused t with
  | some e =>
    rw [ReadCall.rows_of_refused hrefused]
    exact ⟨_, r, rfl, hr, iff_of_true rfl hnil⟩
  | none =>
    cases hrows : c.rows t with
    | nil => exact ⟨_, r, rfl, hr, iff_of_true rfl hnil⟩
    | cons row rows =>
      obtain ⟨r', hread, hfail⟩ := readRows_failed P log row rows [] hr
      refine ⟨_, r', hread, hfail, ?_⟩
      have htouches : Touches (row :: rows) ↔ 0 ≤ row.1 := by simp [Touches]
      rw [htouches]
      by_cases ho : 0 ≤ row.1
      · refine iff_of_false ?_ (not_not_intro ho)
        exact fun h => rowsOutcome_ne_seekFailed ho h.symm
      · refine iff_of_true ?_ ho
        rw [rowsOutcome, recordOutcome, if_pos (by omega)]

theorem readCall_fresh (P : Protobuf) (log : Bytes) (t : Table) (c : ReadCall) :
    (readCall P c (freshReader log t)).1 = callOutcome P log t c := by
  obtain ⟨st', hst', -, -⟩ := tracks_readCall P log t c _ (OnFiles.fresh log t)
  have hfresh : (freshReader log t).reader.logReader.Healthy := rfl
  obtain ⟨r', hcall, -⟩ := logCall_healthy P log t c hfresh
  rw [hst', hcall]

/-- Once the stream has failed it stays so, and every later call shows it or does not get there. -/
theorem results_failed (P : Protobuf) {log : Bytes} {t : Table} {st : ReaderState}
    (h : OnFiles log t st) (hst : st.reader.logReader.stream.failbit = true)
    (calls : List ReadCall) :
    results P st calls = calls.map (callOutcome P log t) ↔
      ∀ c ∈ calls, ¬ Touches (c.rows t) := by
  induction calls generalizing st with
  | nil => exact iff_of_true rfl fun c hc => by cases hc
  | cons c cs ih =>
    obtain ⟨st', hcall, hlog, h'⟩ := tracks_readCall P log t c st h
    obtain ⟨got, r', hgot, hfail, hiff⟩ := logCall_failed P log t c hst
    rw [hgot] at hcall hlog
    have hrest := ih h' (by rw [hlog]; exact hfail)
    rw [results, hcall, List.map_cons, List.cons.injEq, hrest, hiff, List.forall_mem_cons]

theorem results_healthy (P : Protobuf) {log : Bytes} {t : Table} {st : ReaderState}
    (h : OnFiles log t st) (hst : st.Healthy) (calls : List ReadCall) :
    results P st calls = calls.map (callOutcome P log t) ↔
      calls.Pairwise fun b c => Poisons P log (b.rows t) → ¬ Touches (c.rows t) := by
  induction calls generalizing st with
  | nil => exact iff_of_true rfl List.Pairwise.nil
  | cons c cs ih =>
    obtain ⟨st', hcall, hlog, h'⟩ := tracks_readCall P log t c st h
    obtain ⟨r', hgot, hpoison⟩ := logCall_healthy P log t c hst
    rw [hgot] at hcall hlog
    rw [results, hcall, List.map_cons, List.cons.injEq, List.pairwise_cons]
    by_cases hp : Poisons P log (c.rows t)
    · have hrest := results_failed P h' (by rw [hlog]; exact hpoison.mpr hp) cs
      rw [hrest]
      constructor
      · rintro ⟨-, hnone⟩
        exact ⟨fun b hb _ => hnone b hb, List.Pairwise.imp_of_mem
          (fun _ hc _ _ => hnone _ hc) (List.pairwise_of_forall fun _ _ => trivial)⟩
      · rintro ⟨hnone, -⟩
        exact ⟨rfl, fun b hb => hnone b hb hp⟩
    · have hhealthy : st'.Healthy := by
        show st'.reader.logReader.stream.failbit = false
        rw [hlog]
        exact Bool.eq_false_iff.mpr fun hfail => hp (hpoison.mp hfail)
      rw [ih h' hhealthy]
      constructor
      · rintro ⟨-, hpair⟩
        exact ⟨fun _ _ hpoisons => absurd hpoisons hp, hpair⟩
      · rintro ⟨-, hpair⟩
        exact ⟨rfl, hpair⟩

/-- The calls on one reader are answered as on fresh ones exactly when none that reads the log comes
after one that has met a record cut short. -/
theorem reader_history_iff (P : Protobuf) (log : Bytes) (t : Table) (calls : List ReadCall) :
    results P (freshReader log t) calls =
        calls.map (fun c => (readCall P c (freshReader log t)).1) ↔
      calls.Pairwise fun b c => Poisons P log (b.rows t) → ¬ Touches (c.rows t) := by
  have hfresh : calls.map (fun c => (readCall P c (freshReader log t)).1) =
      calls.map (callOutcome P log t) :=
    List.map_congr_left fun c _ => readCall_fresh P log t c
  rw [hfresh]
  exact results_healthy P (OnFiles.fresh log t) rfl calls

/-- Two rows, and a log that ends inside the second record. -/
def cutLog : Bytes := logRecord (wireFormat.bytesOf Scan.fresh) ++ bytes [2, 0]

def cutTable : Table := (Table.empty.insert 0 0 2 0).insert 0 6 2 0

/-- After a try at the second record the intact first one is not returned either. -/
theorem intactRecord_lost :
    results wireFormat (freshReader cutLog cutTable) [.get 1, .get 0] =
      [.error (.runtimeError "ScanReader: log is shorter than the index says -- truncated record"),
        .error (seekFailed 0)] ∧
    (readCall wireFormat (.get 0) (freshReader cutLog cutTable)).1 = .ok [Scan.fresh] := by
  decide

end AuvMiddleware.Lidar
