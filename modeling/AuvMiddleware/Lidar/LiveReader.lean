import AuvMiddleware.Lidar.Store

/-!
# A long-lived reader beside a running recorder

The way `ScanQueryServer` reads: one reader, opened once, while `record()` goes on. Each call
reads the rows of a snapshot; `count()` and `get()` leave their statements on a row, so that the
snapshot of one call can outlive it.
-/

namespace AuvMiddleware.Lidar
open Runs

inductive LiveStep where
  | record (scan : Scan)
  | count
  | get (index : ℕ)
  | range (start stop : Int64)
  deriving DecidableEq

structure LiveState where
  recording : Recording
  reader : Reader
  recorded : List Scan

namespace LiveState

def table (s : LiveState) : Table := s.recording.files.index.getD Table.empty

/-- What a call on the reader works on now; SQLite and the disk do not fail. -/
def readerState (s : LiveState) : ReaderState :=
  ⟨s.reader, { log := s.recording.files.log, table := s.table }⟩

end LiveState

def liveStep (P : Protobuf) (s : LiveState) : LiveStep → Option LiveState
  | .record scan =>
    match record P scan {} s.recording with
    | (.ok _, r) => some { s with recording := r, recorded := s.recorded ++ [scan] }
    | (.error _, _) => none
  | .count => some { s with reader := (count s.readerState).2.reader }
  | .get index => some { s with reader := (get P index s.readerState).2.reader }
  | .range start stop => some { s with reader := (findByTimeRange P start stop s.readerState).2.reader }

def LiveStep.first : LiveStep → Option ReaderStmt
  | .record _ => none
  | .count => some .count
  | .get _ => some .count
  | .range _ _ => some .range

/-- When the call begins, no statement but the one it resets is on a row, or nothing has been
committed since the snapshot was taken that those statements hold. -/
def Unpinned (s : LiveState) (i : LiveStep) : Prop :=
  ∀ stmt, i.first = some stmt →
    s.reader.conn.active ⊆ {stmt} ∨ s.reader.conn.view s.table = s.table

instance (s : LiveState) (i : LiveStep) : Decidable (Unpinned s i) :=
  match hi : i.first with
  | none => isTrue fun stmt h => by rw [hi] at h; cases h
  | some stmt => decidable_of_iff
      (s.reader.conn.active ⊆ {stmt} ∨ s.reader.conn.view s.table = s.table)
      ⟨fun h stmt' h' => by rw [hi] at h'; cases h'; exact h, fun h => h stmt hi⟩

/-- The call reads every row committed before it began, and answers accordingly. -/
def Fresh (P : Protobuf) (s : LiveState) (i : LiveStep) : Prop :=
  (∀ stmt, i.first = some stmt → s.readerState.sees stmt = s.table) ∧
  match i with
  | .record _ => True
  | .count => (count s.readerState).1 = .ok s.recorded.length
  | .get index =>
    (∀ h : index < s.recorded.length, (get P index s.readerState).1 = .ok s.recorded[index]) ∧
    (s.recorded.length ≤ index → ∃ msg, (get P index s.readerState).1 = .error (.outOfRange msg))
  | .range start stop =>
    (findByTimeRange P start stop s.readerState).1 = .ok (scansIn start stop s.recorded)

structure LiveInv (P : Protobuf) (s : LiveState) : Prop where
  holds : Holds P s.recording.files.log s.table s.recorded
  undoes : ∀ scan ∈ s.recorded, P.Undoes scan
  healthy : s.reader.logReader.Healthy

theorem unpinned_iff (s : LiveState) (i : LiveStep) :
    Unpinned s i ↔ ∀ stmt, i.first = some stmt → s.readerState.sees stmt = s.table := by
  have h (stmt : ReaderStmt) : s.readerState.sees stmt = s.table ↔
      s.reader.conn.active ⊆ {stmt} ∨ s.reader.conn.view s.table = s.table :=
    SnapshotConn.view_halt_eq_iff _ _ _
  simp only [Unpinned, h]

theorem fresh_iff_unpinned (P : Protobuf) (s : LiveState) (i : LiveStep) (hs : LiveInv P s) :
    Fresh P s i ↔ Unpinned s i := by
  rw [unpinned_iff]
  constructor
  · exact fun h => h.1
  · intro hsees
    refine ⟨hsees, ?_⟩
    have hff (k : ℕ) : s.readerState.env.FaultFree k := ReadEnv.faultFree_of_nil rfl k
    have hlen := hs.holds.count_eq
    cases i with
    | record scan => trivial
    | count =>
      have ht := hsees .count rfl
      show (count s.readerState).1 = .ok s.recorded.length
      rw [count_ok _ (hff 1), ht, hlen]
    | get index =>
      have ht := hsees .count rfl
      refine ⟨fun hi => ?_, fun hi => ?_⟩
      · obtain ⟨st', hget, -⟩ := get_ok index s.readerState hs.healthy
          (hff 2) (by rw [ht, hlen]; exact hi) (by rw [ht]; exact hs.holds.scanAt_eq hs.undoes hi)
        rw [hget]
      · exact ⟨_, by rw [get_outOfRange P (hff 1) (by rw [ht, hlen]; exact hi)]⟩
    | range start stop =>
      have ht := hsees .range rfl
      obtain ⟨st', hfind, -⟩ := findByTimeRange_ok s.readerState hs.healthy
        (hff _) (by rw [ht]; exact hs.holds.decodeRows_inRange hs.undoes start stop)
      show (findByTimeRange P start stop s.readerState).1 = .ok (scansIn start stop s.recorded)
      rw [hfind]

def LiveStep.Undone (P : Protobuf) (i : LiveStep) : Prop :=
  ∀ scan, i = .record scan → P.Undoes scan

theorem liveStep_inv (P : Protobuf) (s : LiveState) (i : LiveStep) (s' : LiveState)
    (hi : i.Undone P) (hs : LiveInv P s) (hc : Unpinned s i) (h : liveStep P s i = some s') :
    LiveInv P s' := by
  rw [unpinned_iff] at hc
  have hff (k : ℕ) : s.readerState.env.FaultFree k := ReadEnv.faultFree_of_nil rfl k
  have hlen := hs.holds.count_eq
  cases i with
  | record scan =>
    have hholds := hs.holds
    rcases record_cases P scan {} s.recording with
      ⟨t, r, hok, ht, hlog, hindex, -⟩ | ⟨e, k, r, herr, -⟩
    · simp only [liveStep, hok] at h
      cases h
      rw [LiveState.table, ht, Option.getD_some] at hholds
      refine ⟨?_, ?_, hs.healthy⟩
      · simp only [LiveState.table, hlog, hindex, Option.getD_some]
        exact hholds.record scan _
      · intro x hx
        rcases List.mem_append.mp hx with hx | hx
        · exact hs.undoes x hx
        · rw [List.mem_singleton.mp hx]
          exact hi scan rfl
    · simp only [liveStep, herr] at h
      cases h
  | count =>
    cases h
    have hst := count_ok s.readerState (hff 1)
    exact ⟨hs.holds, hs.undoes, by rw [hst]; exact hs.healthy⟩
  | get index =>
    cases h
    refine ⟨hs.holds, hs.undoes, ?_⟩
    have ht := hc .count rfl
    rcases Nat.lt_or_ge index s.recorded.length with hlt | hge
    · obtain ⟨st', hget, hh, -⟩ := get_ok index s.readerState hs.healthy (hff 2) (by rw [ht, hlen]; exact hlt)
        (by rw [ht]; exact hs.holds.scanAt_eq hs.undoes hlt)
      rw [hget]
      exact hh
    · rw [get_outOfRange P (hff 1) (by rw [ht, hlen]; exact hge)]
      exact hs.healthy
  | range start stop =>
    cases h
    refine ⟨hs.holds, hs.undoes, ?_⟩
    have ht := hc .range rfl
    obtain ⟨st', hfind, hh, -⟩ := findByTimeRange_ok s.readerState hs.healthy
      (hff _) (by rw [ht]; exact hs.holds.decodeRows_inRange hs.undoes start stop)
    rw [hfind]
    exact hh

def LiveState.opened (recording : Recording) (recorded : List Scan) : LiveState :=
  ⟨recording, {}, recorded⟩

/-- The calls of a run all answer from everything committed exactly when each of them begins
with no other statement on a row that pins an older snapshot. -/
theorem live_fresh_iff (P : Protobuf) {recording : Recording} {recorded : List Scan}
    (hholds : Holds P recording.files.log (recording.files.index.getD Table.empty) recorded)
    (hrecorded : ∀ scan ∈ recorded, P.Undoes scan) {steps : List LiveStep}
    (hsteps : ∀ i ∈ steps, i.Undone P) :
    Throughout (liveStep P) (Fresh P) (.opened recording recorded) steps ↔
      Throughout (liveStep P) Unpinned (.opened recording recorded) steps :=
  throughout_congr (LiveInv P) (liveStep_inv P)
    (fun s i _ hs => fresh_iff_unpinned P s i hs) hsteps ⟨hholds, hrecorded, rfl⟩

def newRecording : Recording := ⟨{}, { index := some Table.empty }⟩

theorem live_fresh_iff_counting :
    Throughout (liveStep wireFormat) (Fresh wireFormat) (.opened newRecording [])
      [.record (stamped 1), .count, .record (stamped 2), .count] := by
  refine (live_fresh_iff wireFormat (holds_empty wireFormat []) (fun _ h => by cases h) ?_).mpr
    (by decide)
  intro i hi scan hscan
  subst hscan
  simp only [List.mem_cons, LiveStep.record.injEq, reduceCtorEq, List.not_mem_nil, or_false,
    false_or] at hi
  rcases hi with rfl | rfl <;> decide

theorem live_count_stale :
    ∃ s, run (liveStep wireFormat) (.opened newRecording [])
        [.record (stamped 1), .get 0, .record (stamped 2)] = some s ∧
      s.recorded.length = 2 ∧ s.table.count = 2 ∧ (count s.readerState).1 = .ok 1 :=
  ⟨_, rfl, by decide, by decide, by decide⟩

end AuvMiddleware.Lidar
