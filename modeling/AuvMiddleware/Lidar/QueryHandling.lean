import AuvMiddleware.Lib.Script
import AuvMiddleware.Lidar.QueryClient

/-!
# handle(), a reader call at a time (query_server.cpp:65-97, reader.cpp:153-195)

Another process may commit between two calls that a request makes on the reader. A call by itself
has one snapshot: the inner count of `get()` is on its row when GET starts, and RANGE stays on one
until it is done. The log only grows, so when its bytes are read does not matter.
-/

namespace AuvMiddleware.Lidar
open Decimal Mw Runs

/-! ### The calls of a request -/

inductive ReaderCall where
  | count
  | get (index : ℕ)
  | range (startNs endNs : Int64)

namespace ReaderCall

def Result : ReaderCall → Type
  | .count => ℕ
  | .get _ => Scan
  | .range _ _ => List Scan

def call (P : Protobuf) : (c : ReaderCall) → Call Exn ReaderState c.Result
  | .count => Lidar.count
  | .get index => Lidar.get P index
  | .range startNs endNs => findByTimeRange P startNs endNs

end ReaderCall

abbrev Handling := Script ReaderCall ReaderCall.Result (List Scan)

/-- `reader.get(reader.count() - 1)`, and what follows. -/
def getLastThen (next : Scan → Handling) : Handling :=
  .call .count fun n : ℕ => .call (.get (n - 1)) next

def handling (command : Bytes) : Handling :=
  if command = kLatest then
    .call .count fun n : ℕ => if n > 0 then getLastThen fun scan => .done [scan] else .done []
  else
    match parseRange command with
    | some (startNs, endNs) => .call (.range startNs endNs) .done
    | none =>
      match parseRecent command with
      | some windowNs =>
        .call .count fun n : ℕ =>
          if n = 0 then .done []
          else getLastThen fun newest =>
            .call (.range (newest.stampNs - windowNs) newest.stampNs) .done
      | none => .done []

def looksUp : Handling → Bool
  | .call (.get _) _ => true
  | _ => false

/-- With nothing in between, its calls are those of `dispatch`. -/
theorem exec_handling (P : Protobuf) (command : Bytes) :
    (handling command).exec (ReaderCall.call P) = dispatch P command := by
  have hrange (startNs endNs : Int64) :
      (Script.call (.range startNs endNs) .done : Handling).exec (ReaderCall.call P) =
        findByTimeRange P startNs endNs := Call.bind_pure _
  unfold handling dispatch
  by_cases hl : command = kLatest
  · rw [if_pos hl, if_pos hl]
    refine congrArg (count >>= ·) (funext fun n : ℕ => ?_)
    dsimp only
    split
    · have hlast := Call.bind_assoc count (fun n => get P (n - 1)) fun scan => pure [scan]
      exact hlast.symm
    · rfl
  rw [if_neg hl, if_neg hl]
  cases parseRange command with
  | some bounds => exact hrange _ _
  | none =>
    cases parseRecent command with
    | none => rfl
    | some windowNs =>
      refine congrArg (count >>= ·) (funext fun n : ℕ => ?_)
      dsimp only
      split
      · rfl
      · refine Eq.trans ?_ (Call.bind_assoc _ _ _).symm
        refine congrArg (count >>= ·) (funext fun n : ℕ => ?_)
        exact congrArg (get P (n - 1) >>= ·) (funext fun newest => hrange _ _)

/-! ### What a call leaves active -/

section Conn

variable {P : Protobuf} {st st' : ReaderState}

/-- Statement `i` reset and stepped to a row. -/
def restarted (c : SnapshotConn Table ReaderStmt) (i : ReaderStmt) (t : Table) :
    SnapshotConn Table ReaderStmt := (c.halt i).onRow i t

theorem readRecordAt_conn {offset length : ℤ} {r : Except Exn Scan}
    (h : readRecordAt P offset length st = (r, st')) : st'.reader.conn = st.reader.conn := by
  unfold readRecordAt at h
  cases h
  rfl

theorem rangeLoop_conn {rows : List Row} {acc result : List Scan}
    (h : rangeLoop P rows acc st = (.ok result, st')) :
    st'.reader.conn = st.reader.conn.halt .range := by
  induction rows generalizing st acc with
  | nil =>
    obtain ⟨row, m, hstep, hpure⟩ := Call.bind_eq_ok h
    cases hpure
    obtain ⟨hf, -, -⟩ := sqlStep_eq_ok _ _ _ _ hstep
    have hdone := sqlStep_done .range "sqlite3_step(RANGE)"
      (fun _ => none : Table → Option Row) st hf rfl
    cases hdone.symm.trans hstep
    rfl
  | cons row rows ih =>
    obtain ⟨row', m, hstep, hrest⟩ := Call.bind_eq_ok h
    obtain ⟨scan, m', hread, hloop⟩ := Call.bind_eq_ok hrest
    obtain ⟨hf, -, -⟩ := sqlStep_eq_ok _ _ _ _ hstep
    have hrow := sqlStep_row .range "sqlite3_step(RANGE)" (fun _ => some row) st hf rfl
    cases hrow.symm.trans hstep
    rw [ih hloop, readRecordAt_conn hread]
    exact SnapshotConn.halt_onRow_self _ _ _

theorem findByTimeRange_conn {start stop : Int64} {scans : List Scan}
    (h : findByTimeRange P start stop st = (.ok scans, st')) :
    st'.reader.conn = st.reader.conn.halt .range := by
  have hloop := rangeLoop_conn (show rangeLoop P _ [] (st.halt .range) = _ from h)
  rw [hloop]
  exact SnapshotConn.halt_halt _ _

theorem get_conn {index : ℕ} {scan : Scan} (h : get P index st = (.ok scan, st'))
    (hrow : ((st.sees .count).bySeq (index + 1)).isSome) :
    st'.reader.conn = restarted (restarted st.reader.conn .count st.env.table) .get st.env.table := by
  obtain ⟨hf, hi, -⟩ := get_eq_ok h
  obtain ⟨h1, h2⟩ := (ReadEnv.faultFree_add 1 1 st.env).mp hf
  obtain ⟨row, hrow⟩ := Option.isSome_iff_exists.mp hrow
  rw [← st.counted_env] at h2
  have hview : (st.counted.halt .get).view = st.sees .count := st.counted_sees (by decide)
  rw [get_inRange h1 hi] at h
  rw [Call.bind_of_ok (sqlStep_row .get "sqlite3_step(GET)" (fun t => t.bySeq (index + 1))
    (st.counted.halt .get) h2 (by rw [hview]; exact hrow))] at h
  exact readRecordAt_conn h

end Conn

/-! ### What the reader holds, as scans -/

/-- What the statements of the reader hold: nothing, the recording as it was at the last count, or
for good the recording as it was when a scan was first looked up by its number. -/
inductive Held where
  | nothing
  | counted (scans : List Scan)
  | pinned (scans : List Scan)
  deriving DecidableEq

namespace Held

/-- The scans that a count sees, and a `get()` with it. -/
def counts (recorded : List Scan) : Held → List Scan
  | .nothing | .counted _ => recorded
  | .pinned scans => scans

/-- The scans that a range query sees. -/
def ranges (recorded : List Scan) : Held → List Scan
  | .nothing => recorded
  | .counted scans | .pinned scans => scans

def afterCount (recorded : List Scan) : Held → Held
  | .nothing | .counted _ => .counted recorded
  | .pinned scans => .pinned scans

def Within (recorded : List Scan) : Held → Prop
  | .nothing => True
  | .counted scans | .pinned scans => scans <+: recorded

variable {recorded recorded' : List Scan} {held : Held}

theorem counts_grows (hrec : recorded <+: recorded') :
    held.counts recorded <+: held.counts recorded' := by
  cases held with
  | nothing => exact hrec
  | counted scans => exact hrec
  | pinned scans => exact List.prefix_rfl

theorem counts_afterCount : (held.afterCount recorded).counts recorded = held.counts recorded := by
  cases held <;> rfl

theorem Within.grows (h : held.Within recorded) (hrec : recorded <+: recorded') :
    held.Within recorded' := by
  cases held with
  | nothing => trivial
  | counted scans => exact List.IsPrefix.trans h hrec
  | pinned scans => exact List.IsPrefix.trans h hrec

theorem Within.counts (h : held.Within recorded) : held.counts recorded <+: recorded := by
  cases held with
  | nothing => exact List.prefix_rfl
  | counted scans => exact List.prefix_rfl
  | pinned scans => exact h

theorem Within.ranges (h : held.Within recorded) : held.ranges recorded <+: recorded := by
  cases held with
  | nothing => exact List.prefix_rfl
  | counted scans => exact h
  | pinned scans => exact h

theorem Within.afterCount (h : held.Within recorded) :
    (held.afterCount recorded).Within recorded := by
  cases held with
  | nothing => exact List.prefix_rfl
  | counted scans => exact List.prefix_rfl
  | pinned scans => exact h

end Held

/-- What a call answers, and what it leaves held; a scan that is not there is not answered. -/
def ReaderCall.answer (recorded : List Scan) (held : Held) :
    (c : ReaderCall) → Option (c.Result × Held)
  | .count => some ((held.counts recorded).length, held.afterCount recorded)
  | .get index => (held.counts recorded)[index]?.map fun scan =>
      (scan, .pinned (held.counts recorded))
  | .range startNs endNs => some (scansIn startNs endNs (held.ranges recorded), held)

/-- The connection is as `held` says, and its snapshot holds those scans. -/
def HeldOn (P : Protobuf) (log : Bytes) (c : SnapshotConn Table ReaderStmt) : Held → Prop
  | .nothing => c.active = ∅
  | .counted scans => c.active = {.count} ∧ ∃ t, c.snapshot = some t ∧ Holds P log t scans
  | .pinned scans => .count ∈ c.active ∧ .get ∈ c.active ∧
      ∃ t, c.snapshot = some t ∧ Holds P log t scans

theorem HeldOn.append {P : Protobuf} {log : Bytes} {c : SnapshotConn Table ReaderStmt}
    {held : Held} (h : HeldOn P log c held) (more : Bytes) : HeldOn P (log ++ more) c held := by
  cases held with
  | nothing => exact h
  | counted scans =>
    obtain ⟨hactive, t, ht, hholds⟩ := h
    exact ⟨hactive, t, ht, hholds.append more⟩
  | pinned scans =>
    obtain ⟨hcount, hget, t, ht, hholds⟩ := h
    exact ⟨hcount, hget, t, ht, hholds.append more⟩

theorem HeldOn.range {P : Protobuf} {log : Bytes} {c : SnapshotConn Table ReaderStmt} {held : Held}
    (h : HeldOn P log c held) : HeldOn P log (c.halt .range) held := by
  cases held with
  | nothing =>
    show c.active.erase .range = ∅
    rw [show c.active = ∅ from h]
    rfl
  | counted scans =>
    obtain ⟨hactive, hsnapshot⟩ := h
    have hcount : .count ∈ c.active := by
      rw [hactive]
      exact Finset.mem_singleton_self _
    refine ⟨?_, ?_⟩
    · show c.active.erase .range = _
      rw [hactive]
      rfl
    · rw [SnapshotConn.snapshot_halt_of_other hcount (by decide)]
      exact hsnapshot
  | pinned scans =>
    obtain ⟨hcount, hget, hsnapshot⟩ := h
    refine ⟨Finset.mem_erase.mpr ⟨by decide, hcount⟩, Finset.mem_erase.mpr ⟨by decide, hget⟩, ?_⟩
    rw [SnapshotConn.snapshot_halt_of_other hcount (by decide)]
    exact hsnapshot

/-! ### One call -/

section OneCall

variable {P : Protobuf} {st : ReaderState} {recorded : List Scan} {held : Held}

theorem HeldOn.sees_count (h : HeldOn P st.env.log st.reader.conn held)
    (ht : Holds P st.env.log st.env.table recorded) :
    Holds P st.env.log (st.sees .count) (held.counts recorded) := by
  have alone (hactive : st.reader.conn.active ⊆ {.count}) :
      Holds P st.env.log (st.sees .count) recorded := by
    have hview := SnapshotConn.view_halt_of_alone hactive st.env.table
    show Holds P _ ((st.reader.conn.halt .count).view st.env.table) _
    rw [hview]
    exact ht
  cases held with
  | nothing =>
    exact alone (by rw [show st.reader.conn.active = ∅ from h]; exact Finset.empty_subset _)
  | counted scans => exact alone (by rw [h.1])
  | pinned scans =>
    obtain ⟨-, hget, t, hsnapshot, hholds⟩ := h
    have hview := SnapshotConn.view_halt_of_other (i := .count) hget (by decide) st.env.table
    show Holds P _ ((st.reader.conn.halt .count).view st.env.table) _
    rw [hview, SnapshotConn.view, hsnapshot]
    exact hholds

theorem HeldOn.sees_range (h : HeldOn P st.env.log st.reader.conn held)
    (ht : Holds P st.env.log st.env.table recorded) :
    Holds P st.env.log (st.sees .range) (held.ranges recorded) := by
  have other {scans : List Scan} (hcount : .count ∈ st.reader.conn.active)
      (hsnapshot : ∃ t, st.reader.conn.snapshot = some t ∧ Holds P st.env.log t scans) :
      Holds P st.env.log (st.sees .range) scans := by
    obtain ⟨t, hsnapshot, hholds⟩ := hsnapshot
    have hview := SnapshotConn.view_halt_of_other (i := .range) hcount (by decide) st.env.table
    show Holds P _ ((st.reader.conn.halt .range).view st.env.table) _
    rw [hview, SnapshotConn.view, hsnapshot]
    exact hholds
  cases held with
  | nothing =>
    have hview := SnapshotConn.view_halt_of_alone (c := st.reader.conn) (i := .range)
      (by rw [show st.reader.conn.active = ∅ from h]; exact Finset.empty_subset _) st.env.table
    show Holds P _ ((st.reader.conn.halt .range).view st.env.table) _
    rw [hview]
    exact ht
  | counted scans =>
    have hcount : .count ∈ st.reader.conn.active := by
      rw [h.1]
      exact Finset.mem_singleton_self _
    exact other hcount h.2
  | pinned scans => exact other h.1 h.2.2

theorem HeldOn.afterCount (h : HeldOn P st.env.log st.reader.conn held)
    (ht : Holds P st.env.log st.env.table recorded) :
    HeldOn P st.env.log (restarted st.reader.conn .count st.env.table)
      (held.afterCount recorded) := by
  have hholds := h.sees_count ht
  cases held with
  | nothing =>
    refine ⟨?_, st.sees .count, rfl, hholds⟩
    show insert .count (st.reader.conn.active.erase .count) = _
    rw [show st.reader.conn.active = ∅ from h]
    rfl
  | counted scans =>
    refine ⟨?_, st.sees .count, rfl, hholds⟩
    show insert .count (st.reader.conn.active.erase .count) = _
    rw [h.1]
    rfl
  | pinned scans =>
    exact ⟨Finset.mem_insert_self _ _,
      Finset.mem_insert_of_mem (Finset.mem_erase.mpr ⟨by decide, h.2.1⟩), st.sees .count, rfl, hholds⟩

theorem HeldOn.afterGet (h : HeldOn P st.env.log st.reader.conn held)
    (ht : Holds P st.env.log st.env.table recorded) :
    HeldOn P st.env.log
      (restarted (restarted st.reader.conn .count st.env.table) .get st.env.table)
      (.pinned (held.counts recorded)) := by
  have hview : ((restarted st.reader.conn .count st.env.table).halt .get).view st.env.table =
      st.sees .count := SnapshotConn.view_halt_onRow _ (by decide) _
  exact ⟨Finset.mem_insert_of_mem (Finset.mem_erase.mpr ⟨by decide, Finset.mem_insert_self _ _⟩),
    Finset.mem_insert_self _ _, st.sees .count, congrArg some hview, h.sees_count ht⟩

/-- The reader answers a call from the scans that it sees, and holds on to them. -/
theorem call_answers (hst : st.Healthy) (hf : st.env.faults = [])
    (h : HeldOn P st.env.log st.reader.conn held)
    (ht : Holds P st.env.log st.env.table recorded) (hw : held.Within recorded)
    (hP : ∀ s ∈ recorded, P.Undoes s) {c : ReaderCall} {r : c.Result} {held' : Held}
    (ha : c.answer recorded held = some (r, held')) :
    ∃ st', c.call P st = (.ok r, st') ∧ st'.Healthy ∧ st'.env = st.env ∧
      HeldOn P st.env.log st'.reader.conn held' := by
  have hff (k : ℕ) : st.env.FaultFree k := ReadEnv.faultFree_of_nil hf k
  have hlater (k : ℕ) : st.env.later k = st.env := ReadEnv.later_of_nil hf k
  have hcount := h.sees_count ht
  cases c with
  | count =>
    cases ha
    refine ⟨st.counted, ?_, hst, st.counted_env.trans (hlater 1), h.afterCount ht⟩
    rw [← hcount.count_eq]
    exact count_ok st (hff 1)
  | get index =>
    obtain ⟨scan, hscan, heq⟩ := Option.map_eq_some_iff.mp ha
    cases heq
    obtain ⟨hlt, rfl⟩ := List.getElem?_eq_some_iff.mp hscan
    have hundoes (s : Scan) (hs : s ∈ held.counts recorded) : P.Undoes s :=
      hP s (hw.counts.subset hs)
    have hindex : index < (st.sees .count).count := by
      rw [hcount.count_eq]
      exact hlt
    obtain ⟨st', hget, hh, henv, -⟩ :=
      get_ok index st hst (hff 2) hindex (hcount.scanAt_eq hundoes hlt)
    refine ⟨st', hget, hh, henv.trans (hlater 2), ?_⟩
    have hrow : ((st.sees .count).bySeq (index + 1)).isSome := by
      rw [hcount.numbered.bySeq_eq]
      exact Option.isSome_iff_exists.mpr ⟨_, List.getElem?_eq_getElem hindex⟩
    rw [get_conn hget hrow]
    exact h.afterGet ht
  | range startNs endNs =>
    cases ha
    have hundoes (s : Scan) (hs : s ∈ held.ranges recorded) : P.Undoes s :=
      hP s (hw.ranges.subset hs)
    obtain ⟨st', hfind, hh, henv⟩ := findByTimeRange_ok st hst (hff _)
      ((h.sees_range ht).decodeRows_inRange hundoes startNs endNs)
    refine ⟨st', hfind, hh, henv.trans (hlater _), ?_⟩
    rw [findByTimeRange_conn hfind]
    exact h.range

end OneCall

end AuvMiddleware.Lidar
