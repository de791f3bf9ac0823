import AuvMiddleware.Lidar.Reader

/-!
# What the reader's calls do

One lemma for each way a call can end. A reader is healthy while its stream has not failed; on
a healthy reader `read_record` is the function `decodeRecord` of the log.
-/

namespace AuvMiddleware.Lidar

/-! ### read_record -/

def LogReader.Healthy (r : LogReader) : Prop := r.stream.failbit = false

theorem four_bytes_cases (l : Bytes) :
    (∃ b0 b1 b2 b3 rest, l = b0 :: b1 :: b2 :: b3 :: rest) ∨
    l = [] ∨ (∃ b0, l = [b0]) ∨ (∃ b0 b1, l = [b0, b1]) ∨ ∃ b0 b1 b2, l = [b0, b1, b2] := by
  match l with
  | [] => exact Or.inr (Or.inl rfl)
  | [b0] => exact Or.inr (Or.inr (Or.inl ⟨b0, rfl⟩))
  | [b0, b1] => exact Or.inr (Or.inr (Or.inr (Or.inl ⟨b0, b1, rfl⟩)))
  | [b0, b1, b2] => exact Or.inr (Or.inr (Or.inr (Or.inr ⟨b0, b1, b2, rfl⟩)))
  | b0 :: b1 :: b2 :: b3 :: rest => exact Or.inl ⟨b0, b1, b2, b3, rest, rfl⟩

theorem readLog_take (log : Bytes) (pos n : ℕ) (wire : LidarScan)
    (hn : n ≤ (log.drop pos).length) :
    readLog log n ⟨{ pos := pos }, wire⟩ = (.ok ((log.drop pos).take n), ⟨{ pos := pos + n }, wire⟩) := by
  unfold readLog
  rw [InStream.read_full rfl hn]

theorem readLog_short (log : Bytes) (pos n : ℕ) (wire : LidarScan)
    (hn : (log.drop pos).length < n) :
    readLog log n ⟨{ pos := pos }, wire⟩ = (.ok (log.drop pos),
      ⟨{ pos := pos + (log.drop pos).length, eofbit := true, failbit := true }, wire⟩) := by
  unfold readLog
  rw [InStream.read_short rfl hn]

theorem decodeRecord_of_four (P : Protobuf) {log : Bytes} {offset : ℤ} (length : ℤ)
    (ho : ¬ offset < 0) {b0 b1 b2 b3 : Byte} {rest : Bytes}
    (hb : log.drop offset.toNat = b0 :: b1 :: b2 :: b3 :: rest) :
    decodeRecord P log offset length =
      let declared := readLengthPrefix b0 b1 b2 b3
      let parsed := P.parseFromString (rest.take declared)
      if declared = toU32 length ∧ declared ≤ rest.length ∧ parsed.1 = true then
        some (fromProto parsed.2)
      else none := by
  have hrest : log.drop (offset.toNat + 4) = rest := by
    rw [← List.drop_drop, hb]
    rfl
  have hsize (n : ℕ) : (rest.take n).length = n ↔ n ≤ rest.length := by
    rw [List.length_take]
    omega
  unfold decodeRecord
  simp only [if_neg ho, hb, hrest, hsize, List.take_succ_cons, List.take_zero]

def seekFailed (offset : ℤ) : Exn :=
  .runtimeError ("ScanReader: seek to offset " ++ toString offset ++ " failed")

/-- What `read_record` returns or throws on a stream that has not failed, and whether it leaves the
stream failed. -/
def recordOutcome (P : Protobuf) (log : Bytes) (offset length : ℤ) : Except Exn Scan × Bool :=
  if offset < 0 then (.error (seekFailed offset), true)
  else match log.drop offset.toNat with
    | b0 :: b1 :: b2 :: b3 :: rest =>
      let declared := readLengthPrefix b0 b1 b2 b3
      let parsed := P.parseFromString (rest.take declared)
      if declared ≠ toU32 length then
        (.error (.runtimeError ("ScanReader: log's length prefix (" ++ toString declared ++
          ") does not match the index's length column (" ++ toString length ++ ") at offset " ++
          toString offset)), false)
      else if rest.length < declared then
        (.error (.runtimeError
          "ScanReader: log is shorter than the index says -- truncated payload"), true)
      else if parsed.1 then (.ok (fromProto parsed.2), false)
      else
        (.error (.runtimeError ("ScanReader: payload at offset " ++ toString offset ++
          " does not parse as a LidarScan")), false)
    | _ =>
      (.error (.runtimeError
        "ScanReader: log is shorter than the index says -- truncated record"), true)

theorem readRecord_healthy (P : Protobuf) (log : Bytes) (offset length : ℤ) {r : LogReader}
    (hr : r.Healthy) :
    ∃ r', readRecord P log offset length r = ((recordOutcome P log offset length).1, r') ∧
      r'.stream.failbit = (recordOutcome P log offset length).2 := by
  unfold readRecord recordOutcome
  rw [Call.modify_bind, Call.get_bind]
  by_cases ho : offset < 0
  · rw [InStream.seekg_of_neg hr ho, if_pos (by simp [InStream.good]), if_pos ho]
    exact ⟨_, rfl, rfl⟩
  rw [InStream.seekg_of_nonneg hr (by omega), if_neg (by simp [InStream.good]), if_neg ho]
  rcases four_bytes_cases (log.drop offset.toNat) with ⟨b0, b1, b2, b3, rest, hb⟩ | h
  · have hrest : log.drop (offset.toNat + 4) = rest := by
      rw [← List.drop_drop, hb]
      rfl
    have hlead := readLog_take log offset.toNat 4 r.wire (by rw [hb]; simp)
    rw [hb] at hlead
    rw [Call.bind_of_ok hlead, hb]
    simp only [List.take_succ_cons, List.take_zero]
    by_cases hdecl : readLengthPrefix b0 b1 b2 b3 = toU32 length
    swap
    · rw [if_pos hdecl, if_pos hdecl]
      exact ⟨_, rfl, rfl⟩
    rw [if_neg (not_not_intro hdecl), if_neg (not_not_intro hdecl)]
    by_cases hsize : rest.length < readLengthPrefix b0 b1 b2 b3
    · have hload := readLog_short log (offset.toNat + 4) (readLengthPrefix b0 b1 b2 b3) r.wire
        (by rw [hrest]; exact hsize)
      rw [hrest] at hload
      rw [Call.bind_of_ok hload, if_pos (by omega), if_pos hsize]
      exact ⟨_, rfl, rfl⟩
    · have hload := readLog_take log (offset.toNat + 4) (readLengthPrefix b0 b1 b2 b3) r.wire
        (by rw [hrest]; omega)
      have htake : (rest.take (readLengthPrefix b0 b1 b2 b3)).length =
          readLengthPrefix b0 b1 b2 b3 := by
        rw [List.length_take]
        omega
      rw [hrest] at hload
      rw [Call.bind_of_ok hload, if_neg (not_not_intro htake), Call.modify_bind, if_neg hsize]
      cases (P.parseFromString (rest.take (readLengthPrefix b0 b1 b2 b3))).1 with
      | false => exact ⟨_, rfl, rfl⟩
      | true => exact ⟨_, rfl, rfl⟩
  · -- fewer than four bytes are left
    have hlead := readLog_short log offset.toNat 4 r.wire (by
      rcases h with h | ⟨_, h⟩ | ⟨_, _, h⟩ | ⟨_, _, _, h⟩ <;> rw [h] <;> simp)
    rw [Call.bind_of_ok hlead]
    rcases h with h | ⟨_, h⟩ | ⟨_, _, h⟩ | ⟨_, _, _, h⟩ <;> rw [h] <;> exact ⟨_, rfl, rfl⟩

/-- The ways a record can end, against what decodes. -/
theorem recordOutcome_cases (P : Protobuf) (log : Bytes) (offset length : ℤ) :
    (∃ scan, recordOutcome P log offset length = (.ok scan, false) ∧
      decodeRecord P log offset length = some scan) ∨
    ∃ msg failed, recordOutcome P log offset length = (.error (.runtimeError msg), failed) ∧
      decodeRecord P log offset length = none := by
  unfold recordOutcome
  by_cases ho : offset < 0
  · rw [if_pos ho, decodeRecord, if_pos ho]
    exact Or.inr ⟨_, _, rfl, rfl⟩
  rw [if_neg ho]
  rcases four_bytes_cases (log.drop offset.toNat) with ⟨b0, b1, b2, b3, rest, hb⟩ | h
  · rw [decodeRecord_of_four P length ho hb, hb]
    dsimp only
    by_cases hdecl : readLengthPrefix b0 b1 b2 b3 = toU32 length
    swap
    · rw [if_pos hdecl, if_neg fun h => hdecl h.1]
      exact Or.inr ⟨_, _, rfl, rfl⟩
    rw [if_neg (not_not_intro hdecl)]
    by_cases hsize : rest.length < readLengthPrefix b0 b1 b2 b3
    · rw [if_pos hsize, if_neg fun h => absurd h.2.1 (by omega)]
      exact Or.inr ⟨_, _, rfl, rfl⟩
    rw [if_neg hsize]
    by_cases hparse : (P.parseFromString (rest.take (readLengthPrefix b0 b1 b2 b3))).1 = true
    · rw [if_pos hparse, if_pos ⟨hdecl, by omega, hparse⟩]
      exact Or.inl ⟨_, rfl, rfl⟩
    · rw [if_neg hparse, if_neg fun h => hparse h.2.2]
      exact Or.inr ⟨_, _, rfl, rfl⟩
  · rw [decodeRecord, if_neg ho]
    rcases h with h | ⟨_, h⟩ | ⟨_, _, h⟩ | ⟨_, _, _, h⟩ <;> rw [h] <;> exact Or.inr ⟨_, _, rfl, rfl⟩

theorem readRecord_of_some {P : Protobuf} {log : Bytes} {offset length : ℤ} {scan : Scan}
    {r : LogReader} (hr : r.Healthy) (hd : decodeRecord P log offset length = some scan) :
    ∃ r', readRecord P log offset length r = (.ok scan, r') ∧ r'.Healthy := by
  obtain ⟨r', hread, hfail⟩ := readRecord_healthy P log offset length hr
  rcases recordOutcome_cases P log offset length with ⟨s, ho, hs⟩ | ⟨_, _, _, hnone⟩
  · rw [ho] at hread hfail
    rw [hd] at hs
    cases hs
    exact ⟨r', hread, hfail⟩
  · rw [hd] at hnone
    cases hnone

theorem readRecord_of_none {P : Protobuf} {log : Bytes} {offset length : ℤ}
    {r : LogReader} (hr : r.Healthy) (hd : decodeRecord P log offset length = none) :
    ∃ msg r', readRecord P log offset length r = (.error (.runtimeError msg), r') := by
  obtain ⟨r', hread, -⟩ := readRecord_healthy P log offset length hr
  rcases recordOutcome_cases P log offset length with ⟨_, _, hs⟩ | ⟨msg, _, ho, -⟩
  · rw [hd] at hs
    cases hs
  · rw [ho] at hread
    exact ⟨msg, r', hread⟩

/-- Nothing in `read_record` clears the flag that a read at the end of the file has set. -/
theorem readRecord_failed (P : Protobuf) (log : Bytes) (offset length : ℤ) {r : LogReader}
    (hr : r.stream.failbit = true) :
    ∃ r', readRecord P log offset length r = (.error (seekFailed offset), r') ∧
      r'.stream.failbit = true := by
  have hseek := InStream.seekg_failed offset hr
  unfold readRecord
  rw [Call.modify_bind, Call.get_bind, if_pos (by simp [InStream.good, hseek])]
  exact ⟨_, rfl, hseek⟩

/-- Whatever state the stream is in, what `read_record` returns is what decodes. -/
theorem readRecord_decodes {P : Protobuf} {log : Bytes} {offset length : ℤ} {scan : Scan}
    {r r' : LogReader} (h : readRecord P log offset length r = (.ok scan, r')) :
    decodeRecord P log offset length = some scan := by
  by_cases hr : r.Healthy
  · cases hd : decodeRecord P log offset length with
    | none =>
      obtain ⟨msg, m, hm⟩ := readRecord_of_none hr hd
      rw [hm] at h
      cases h
    | some s =>
      obtain ⟨m, hm, -⟩ := readRecord_of_some hr hd
      rw [hm] at h
      cases h
      rfl
  · obtain ⟨m, hm, -⟩ := readRecord_failed P log offset length
      (show r.stream.failbit = true by simpa [LogReader.Healthy] using hr)
    rw [hm] at h
    cases h

/-! ### The statements -/

/-- The next `k` steps of the reader's statements succeed. -/
def ReadEnv.FaultFree (k : ℕ) (env : ReadEnv) : Prop := ∀ f ∈ env.faults.take k, f = none

def ReadEnv.later (k : ℕ) (env : ReadEnv) : ReadEnv := { env with faults := env.faults.drop k }

namespace ReadEnv

@[simp] theorem later_log (k : ℕ) (env : ReadEnv) : (env.later k).log = env.log := rfl

@[simp] theorem later_later (j k : ℕ) (env : ReadEnv) :
    (env.later j).later k = env.later (j + k) := by
  simp [later, List.drop_drop]

theorem faultFree_zero (env : ReadEnv) : env.FaultFree 0 := by
  intro f hf
  simp at hf

theorem faultFree_one_iff (env : ReadEnv) : env.FaultFree 1 ↔ env.faults.head?.join = none := by
  unfold FaultFree
  cases env.faults with
  | nil => simp
  | cons f fs => cases f <;> simp

theorem faultFree_add (j k : ℕ) (env : ReadEnv) :
    env.FaultFree (j + k) ↔ env.FaultFree j ∧ (env.later j).FaultFree k := by
  unfold FaultFree later
  rw [List.take_add]
  simp only [List.mem_append]
  constructor
  · exact fun h => ⟨fun f hf => h f (Or.inl hf), fun f hf => h f (Or.inr hf)⟩
  · rintro ⟨h1, h2⟩ f (hf | hf)
    · exact h1 f hf
    · exact h2 f hf

theorem faultFree_of_nil {env : ReadEnv} (h : env.faults = []) (k : ℕ) : env.FaultFree k := by
  intro f hf
  rw [h, List.take_nil] at hf
  cases hf

theorem later_of_nil {env : ReadEnv} (h : env.faults = []) (k : ℕ) : env.later k = env := by
  unfold later
  rw [h, List.drop_nil, ← h]

end ReadEnv

section Step

variable {α : Type} (i : ReaderStmt) (what : String) (next : Table → Option α) (st : ReaderState)

theorem sqlStep_fault (h : ¬ st.env.FaultFree 1) :
    ∃ e st', sqlStep i what next st = (.error e, st') := by
  rw [ReadEnv.faultFree_one_iff] at h
  unfold sqlStep
  cases hf : st.env.faults.head?.join with
  | none => exact absurd hf h
  | some msg => exact ⟨_, _, rfl⟩

theorem sqlStep_row {a : α} (h : st.env.FaultFree 1) (hn : next st.view = some a) :
    sqlStep i what next st = (.ok (some a), st.stepped.onRow i) := by
  rw [ReadEnv.faultFree_one_iff] at h
  unfold sqlStep
  simp only [h, hn]

theorem sqlStep_done (h : st.env.FaultFree 1) (hn : next st.view = none) :
    sqlStep i what next st = (.ok none, st.stepped.halt i) := by
  rw [ReadEnv.faultFree_one_iff] at h
  unfold sqlStep
  simp only [h, hn]

theorem sqlStep_eq_ok {row : Option α} {st' : ReaderState}
    (h : sqlStep i what next st = (.ok row, st')) :
    st.env.FaultFree 1 ∧ row = next st.view ∧ st'.env = st.env.later 1 := by
  have henv : st.stepped.env = st.env.later 1 := by simp [ReaderState.stepped, ReadEnv.later]
  by_cases hf : st.env.FaultFree 1
  · cases hn : next st.view with
    | some a =>
      rw [sqlStep_row i what next st hf hn] at h
      cases h
      exact ⟨hf, rfl, henv⟩
    | none =>
      rw [sqlStep_done i what next st hf hn] at h
      cases h
      exact ⟨hf, rfl, henv⟩
  · obtain ⟨e, m, hm⟩ := sqlStep_fault i what next st hf
    rw [hm] at h
    cases h

end Step

namespace ReaderState

theorem stepped_env (st : ReaderState) : st.stepped.env = st.env.later 1 := by
  simp [stepped, ReadEnv.later]

@[simp] theorem onRow_env (st : ReaderState) (i : ReaderStmt) : (st.onRow i).env = st.env := rfl

def sees (st : ReaderState) (i : ReaderStmt) : Table := (st.halt i).view

def counted (st : ReaderState) : ReaderState := (st.halt .count).stepped.onRow .count

theorem counted_sees_count (st : ReaderState) : st.counted.sees .count = st.sees .count :=
  SnapshotConn.view_restart _ _ _

theorem counted_sees {i : ReaderStmt} (hi : i ≠ .count) (st : ReaderState) :
    st.counted.sees i = st.sees .count :=
  SnapshotConn.view_halt_onRow _ hi.symm _

theorem counted_env (st : ReaderState) : st.counted.env = st.env.later 1 := stepped_env _

end ReaderState

/-! ### count, get, find_by_time_range -/

/-- Where `get(index)` reads: the row with `seq = index + 1`, or the zeros of no row. -/
def Table.place (t : Table) (index : ℕ) : ℤ × ℤ :=
  match t.bySeq (index + 1) with
  | some r => (r.offset, r.length)
  | none => (0, 0)

def scanAt (P : Protobuf) (log : Bytes) (t : Table) (index : ℕ) : Option Scan :=
  decodeRecord P log (t.place index).1 (t.place index).2

theorem count_ok (st : ReaderState) (h : st.env.FaultFree 1) :
    count st = (.ok (st.sees .count).count, st.counted) := by
  have hstep := sqlStep_row .count "sqlite3_step(COUNT)" (fun t => some t.count)
    (st.halt .count) h rfl
  exact Call.bind_of_ok hstep _

theorem count_fault {st : ReaderState} (h : ¬ st.env.FaultFree 1) :
    ∃ e st', count st = (.error e, st') := by
  obtain ⟨e, st', hs⟩ := sqlStep_fault .count "sqlite3_step(COUNT)" (fun t => some t.count)
    (st.halt .count) h
  exact ⟨e, st', Call.bind_of_error hs _⟩

def ReaderState.Healthy (st : ReaderState) : Prop := st.reader.logReader.Healthy

theorem readRecordAt_of_some {P : Protobuf} {offset length : ℤ} {scan : Scan}
    (st : ReaderState) (hst : st.Healthy) (hd : decodeRecord P st.env.log offset length = some scan) :
    ∃ st', readRecordAt P offset length st = (.ok scan, st') ∧ st'.Healthy ∧ st'.env = st.env ∧
      st'.reader.conn = st.reader.conn := by
  obtain ⟨r', hr, hh⟩ := readRecord_of_some hst hd
  refine ⟨{ st with reader.logReader := r' }, ?_, hh, rfl, rfl⟩
  simp only [readRecordAt, hr]

theorem readRecordAt_decodes {P : Protobuf} {offset length : ℤ} {scan : Scan}
    {st st' : ReaderState} (h : readRecordAt P offset length st = (.ok scan, st')) :
    decodeRecord P st.env.log offset length = some scan ∧ st'.env = st.env := by
  unfold readRecordAt at h
  cases hr : readRecord P st.env.log offset length st.reader.logReader with
  | mk got r' =>
    rw [hr] at h
    cases h
    exact ⟨readRecord_decodes hr, rfl⟩

theorem get_inRange {P : Protobuf} {index : ℕ} {st : ReaderState} (h1 : st.env.FaultFree 1)
    (hi : index < (st.sees .count).count) :
    get P index st =
      (sqlStep .get "sqlite3_step(GET)" (fun t => t.bySeq (index + 1)) >>= fun row =>
        match row with
        | some r => readRecordAt P r.offset r.length
        | none => readRecordAt P 0 0) (st.counted.halt .get) := by
  unfold get
  rw [Call.bind_of_ok (count_ok st h1), if_neg (by omega)]
  rfl

theorem get_ok {P : Protobuf} {scan : Scan} (index : ℕ) (st : ReaderState)
    (hst : st.Healthy) (hf : st.env.FaultFree 2) (hi : index < (st.sees .count).count)
    (hd : scanAt P st.env.log (st.sees .count) index = some scan) :
    ∃ st', get P index st = (.ok scan, st') ∧ st'.Healthy ∧ st'.env = st.env.later 2 ∧
      st'.sees .range = st.sees .count := by
  obtain ⟨h1, h2⟩ := (ReadEnv.faultFree_add 1 1 st.env).mp hf
  rw [← st.counted_env] at h2
  have hview : (st.counted.halt .get).view = st.sees .count := st.counted_sees (by decide)
  have henv (s : ReaderState) (hs : s.env = st.env.later 1) : s.stepped.env = st.env.later 2 := by
    rw [s.stepped_env, hs, ReadEnv.later_later]
  have hcount : ReaderStmt.count ∈ (st.counted.halt .get).reader.conn.active :=
    Finset.mem_erase.mpr ⟨by decide, Finset.mem_insert_self _ _⟩
  rw [get_inRange h1 hi]
  unfold scanAt Table.place at hd
  cases hrow : (st.sees .count).bySeq (index + 1) with
  | some r =>
    have hstep := sqlStep_row .get "sqlite3_step(GET)" (fun t => t.bySeq (index + 1))
      (st.counted.halt .get) h2 (by rw [hview]; exact hrow)
    rw [hrow] at hd
    obtain ⟨st', hread, hh, he, hc⟩ := readRecordAt_of_some
      ((st.counted.halt .get).stepped.onRow .get) hst hd
    refine ⟨st', by rw [Call.bind_of_ok hstep]; exact hread, hh, ?_, ?_⟩
    · rw [he]
      exact henv _ st.counted_env
    · rw [← hview, ReaderState.sees, ReaderState.view, ReaderState.halt, hc, he]
      exact SnapshotConn.view_halt_onRow _ (by decide) _
  | none =>
    have hstep := sqlStep_done .get "sqlite3_step(GET)" (fun t => t.bySeq (index + 1))
      (st.counted.halt .get) h2 (by rw [hview]; exact hrow)
    rw [hrow] at hd
    obtain ⟨st', hread, hh, he, hc⟩ := readRecordAt_of_some
      ((st.counted.halt .get).stepped.halt .get) hst hd
    refine ⟨st', by rw [Call.bind_of_ok hstep]; exact hread, hh, ?_, ?_⟩
    · rw [he]
      exact henv _ st.counted_env
    · have hstill : ReaderStmt.count ∈ ((st.counted.halt .get).stepped.halt .get).reader.conn.active :=
        Finset.mem_erase.mpr ⟨by decide, hcount⟩
      rw [← hview, ReaderState.sees, ReaderState.view, ReaderState.halt, hc, he]
      exact (SnapshotConn.view_halt_of_other hstill (by decide) _).trans
        (SnapshotConn.view_halt_of_other hcount (by decide) _)

theorem get_outOfRange (P : Protobuf) {index : ℕ} {st : ReaderState} (h1 : st.env.FaultFree 1)
    (hi : (st.sees .count).count ≤ index) :
    get P index st = (.error (.outOfRange
      ("ScanReader::get: index " ++ toString index ++ " >= count()")), st.counted) := by
  unfold get
  rw [Call.bind_of_ok (count_ok st h1), if_pos hi]
  rfl

theorem get_eq_ok {P : Protobuf} {index : ℕ} {scan : Scan} {st st' : ReaderState}
    (h : get P index st = (.ok scan, st')) :
    st.env.FaultFree 2 ∧ index < (st.sees .count).count ∧
      scanAt P st.env.log (st.sees .count) index = some scan := by
  have h1 : st.env.FaultFree 1 := by
    by_contra h1
    obtain ⟨e, m, hc⟩ := count_fault h1
    unfold get at h
    rw [Call.bind_of_error hc] at h
    cases h
  have hi : index < (st.sees .count).count := by
    by_contra hi
    rw [get_outOfRange P h1 (by omega)] at h
    cases h
  rw [get_inRange h1 hi] at h
  obtain ⟨row, m, hstep, hread⟩ := Call.bind_eq_ok h
  obtain ⟨h2, hrow, henv⟩ := sqlStep_eq_ok _ _ _ _ hstep
  have hview : (st.counted.halt .get).view = st.sees .count := st.counted_sees (by decide)
  have hlog : m.env.log = st.env.log := by
    rw [henv, ReadEnv.later_log]
    rfl
  rw [hview] at hrow
  refine ⟨(ReadEnv.faultFree_add 1 1 st.env).mpr ⟨h1, by rw [← st.counted_env]; exact h2⟩, hi, ?_⟩
  unfold scanAt Table.place
  rw [← hrow, ← hlog]
  cases row with
  | some r => exact (readRecordAt_decodes hread).1
  | none => exact (readRecordAt_decodes hread).1

def decodeRows (P : Protobuf) (log : Bytes) (rows : List Row) : Option (List Scan) :=
  rows.mapM fun r => decodeRecord P log r.offset r.length

theorem row_of_mem_decodeRows {P : Protobuf} {log : Bytes} {rows : List Row} {scans : List Scan}
    (h : decodeRows P log rows = some scans) {scan : Scan} (hmem : scan ∈ scans) :
    ∃ r ∈ rows, decodeRecord P log r.offset r.length = some scan := by
  induction rows generalizing scans with
  | nil =>
    cases h
    cases hmem
  | cons r rows ih =>
    unfold decodeRows at h
    rw [List.mapM_cons] at h
    obtain ⟨first, hfirst, h⟩ := Option.bind_eq_some_iff.mp h
    obtain ⟨rest, hrest, hcons⟩ := Option.bind_eq_some_iff.mp h
    cases hcons
    rcases List.mem_cons.mp hmem with rfl | hmem
    · exact ⟨r, List.mem_cons_self .., hfirst⟩
    · obtain ⟨r', hr', hd⟩ := ih hrest hmem
      exact ⟨r', List.mem_cons_of_mem _ hr', hd⟩

theorem rangeLoop_ok {P : Protobuf} {rows : List Row} {scans : List Scan} (st : ReaderState)
    (acc : List Scan) (hst : st.Healthy) (hf : st.env.FaultFree (rows.length + 1))
    (hd : decodeRows P st.env.log rows = some scans) :
    ∃ st', rangeLoop P rows acc st = (.ok (acc ++ scans), st') ∧ st'.Healthy ∧
      st'.env = st.env.later (rows.length + 1) := by
  induction rows generalizing st acc scans with
  | nil =>
    have hs : [] = scans := Option.some.inj hd
    have hstep := sqlStep_done .range "sqlite3_step(RANGE)"
      (fun _ => none : Table → Option Row) st hf rfl
    refine ⟨st.stepped.halt .range, ?_, hst, st.stepped_env⟩
    rw [← hs, List.append_nil]
    exact Call.bind_of_ok hstep _
  | cons row rows ih =>
    rw [List.length_cons, Nat.add_comm] at hf
    obtain ⟨h1, h2⟩ := (ReadEnv.faultFree_add 1 _ st.env).mp hf
    unfold decodeRows at hd
    rw [List.mapM_cons] at hd
    obtain ⟨scan, hscan, hrest⟩ := Option.bind_eq_some_iff.mp hd
    obtain ⟨rest, hdecode, hcons⟩ := Option.bind_eq_some_iff.mp hrest
    cases hcons
    have hstep := sqlStep_row .range "sqlite3_step(RANGE)" (fun _ => some row) st h1 rfl
    obtain ⟨m, hread, hm, henv, -⟩ := readRecordAt_of_some (st.stepped.onRow .range) hst
      hscan
    rw [ReaderState.onRow_env, st.stepped_env] at henv
    obtain ⟨st', hloop, hh, he⟩ := ih m (acc ++ [scan]) hm
      (by rw [henv]; exact h2) (by rw [henv]; exact hdecode)
    refine ⟨st', ?_, hh, ?_⟩
    · unfold rangeLoop
      rw [Call.bind_of_ok hstep, Call.bind_of_ok hread, hloop, List.append_assoc]
      rfl
    · rw [he, henv, ReadEnv.later_later, List.length_cons, Nat.add_comm 1]

theorem rangeLoop_eq_ok {P : Protobuf} {rows : List Row} {st st' : ReaderState}
    {acc result : List Scan} (h : rangeLoop P rows acc st = (.ok result, st')) :
    st.env.FaultFree (rows.length + 1) ∧
      ∃ scans, decodeRows P st.env.log rows = some scans ∧ result = acc ++ scans := by
  induction rows generalizing st acc with
  | nil =>
    unfold rangeLoop at h
    obtain ⟨row, m, hstep, hpure⟩ := Call.bind_eq_ok h
    cases hpure
    exact ⟨(sqlStep_eq_ok _ _ _ _ hstep).1, [], rfl, (List.append_nil _).symm⟩
  | cons row rows ih =>
    unfold rangeLoop at h
    obtain ⟨row', m, hstep, h⟩ := Call.bind_eq_ok h
    obtain ⟨scan, m', hread, h⟩ := Call.bind_eq_ok h
    obtain ⟨h1, -, henv⟩ := sqlStep_eq_ok _ _ _ _ hstep
    obtain ⟨hscan, henv'⟩ := readRecordAt_decodes hread
    obtain ⟨hrest, scans, hd, hresult⟩ := ih h
    rw [henv', henv] at hrest hd
    refine ⟨?_, scan :: scans, ?_, ?_⟩
    · rw [List.length_cons, Nat.add_comm]
      exact (ReadEnv.faultFree_add 1 _ st.env).mpr ⟨h1, hrest⟩
    · rw [henv] at hscan
      unfold decodeRows at hd ⊢
      rw [List.mapM_cons]
      exact Option.bind_eq_some_iff.mpr ⟨scan, hscan, Option.bind_eq_some_iff.mpr ⟨scans, hd, rfl⟩⟩
    · rw [hresult, List.append_assoc]
      rfl

theorem findByTimeRange_ok {P : Protobuf} {start stop : Int64} {scans : List Scan}
    (st : ReaderState) (hst : st.Healthy)
    (hf : st.env.FaultFree (((st.sees .range).inRange start stop).length + 1))
    (hd : decodeRows P st.env.log ((st.sees .range).inRange start stop) = some scans) :
    ∃ st', findByTimeRange P start stop st = (.ok scans, st') ∧ st'.Healthy ∧
      st'.env = st.env.later (((st.sees .range).inRange start stop).length + 1) :=
  rangeLoop_ok (st.halt .range) [] hst hf hd

theorem findByTimeRange_eq_ok {P : Protobuf} {start stop : Int64} {scans : List Scan}
    {st st' : ReaderState} (h : findByTimeRange P start stop st = (.ok scans, st')) :
    st.env.FaultFree (((st.sees .range).inRange start stop).length + 1) ∧
      decodeRows P st.env.log ((st.sees .range).inRange start stop) = some scans := by
  obtain ⟨hf, scans', hd, hs⟩ := rangeLoop_eq_ok (show rangeLoop P _ [] (st.halt .range) = _ from h)
  rw [hs]
  exact ⟨hf, hd⟩

end AuvMiddleware.Lidar
