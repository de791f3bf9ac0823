import AuvMiddleware.Lidar.Backfill

/-!
# The monitor beside the vehicle (lidar_monitor_main.cpp:46-138)

It prints what its subscription brings and, every two seconds, the number of scans in the index and
the newest scan a query server knows. Its reader is only ever asked to count.
-/

namespace AuvMiddleware.Lidar
open QueryClient Runs

/-- A printed line. Of a scan `print_scan` writes the header and the number of its points. -/
inductive MonitorLine where
  | live (scan : Scan)
  | unreachable (dbCount : ℕ)
  | nothingRecorded (dbCount : ℕ)
  | latest (dbCount : ℕ) (scan : Scan)
  | noLiveScans
  | stopped (liveReceived : ℕ)
  | failed (what : String)

namespace MonitorLine

def status (dbCount : ℕ) (latest : Option Scan) (client : QueryClient) : MonitorLine :=
  if !client.lastOk then .unreachable dbCount
  else match latest with
    | none => .nothingRecorded dbCount
    | some scan => .latest dbCount scan

def liveScan : MonitorLine → Option Scan
  | .live scan => some scan
  | _ => none

/-- The number behind `[DB]`. -/
def indexed : MonitorLine → Option ℕ
  | .unreachable dbCount | .nothingRecorded dbCount | .latest dbCount _ => some dbCount
  | _ => none

@[simp] theorem indexed_status (dbCount : ℕ) (latest : Option Scan) (client : QueryClient) :
    (status dbCount latest client).indexed = some dbCount := by
  unfold status
  split
  · rfl
  · split <;> rfl

@[simp] theorem liveScan_status (dbCount : ℕ) (latest : Option Scan) (client : QueryClient) :
    (status dbCount latest client).liveScan = none := by
  unfold status
  split
  · rfl
  · split <;> rfl

end MonitorLine

/-- `main` behind its constructors; `polled` is between `poll_scan` and the end of a pass. -/
structure MonitorRun where
  reader : Reader
  queryClient : QueryClient := {}
  liveReceived : ℕ := 0
  polled : Bool := false

/-- The vehicle, whose subscriber is the monitor's, and all that monitors have printed. `counted`
is not the program's: what had been recorded when each printed count was taken. -/
structure Monitored where
  vehicle : Vehicle
  main : Option MonitorRun := none
  output : List MonitorLine := []
  counted : List (List Scan) := []

inductive MonitoredStep where
  | vehicle (i : VehicleStep)
  /-- The constructors; `connects` is what that of the subscriber or the client throws. -/
  | start (fails : ReaderOpenCall → Option String) (connects : Option Exn)
  | poll (ready : Bool)
  /-- The last status line is less than two seconds old. -/
  | wait
  | status (faults : List (Option String)) (request : Bytes → Option Bytes)
  /-- The loop ends after a signal. -/
  | stop
  | kill

/-- A new subscription, which nothing sent before it reaches. -/
def Vehicle.subscribe (P : Protobuf) (s : Vehicle) : Vehicle :=
  { s with feed := { LiveFeed.start (scanCodec P) with publisher := s.feed.publisher } }

/-- What a call on a reader of the vehicle's files works on. -/
def Vehicle.readerState (s : Vehicle) (reader : Reader) (faults : List (Option String)) :
    ReaderState :=
  ⟨reader, { log := s.disk.log, table := s.disk.index.getD Table.empty, faults := faults }⟩

namespace Monitored

def start (P : Protobuf) (logPath : String) (s : Monitored)
    (fails : ReaderOpenCall → Option String) (connects : Option Exn) : Monitored :=
  match openReader logPath fails s.vehicle.disk, connects with
  | .error e, _ => { s with output := s.output ++ [.failed e.what] }
  | .ok _, some e => { s with output := s.output ++ [.failed e.what] }
  | .ok reader, none =>
    { s with vehicle := s.vehicle.subscribe P, main := some { reader := reader } }

def poll (P : Protobuf) (logPath : String) (s : Monitored) (m : MonitorRun) (ready : Bool) :
    Option Monitored :=
  (s.vehicle.step P logPath (.poll ready Scan.fresh)).map fun vehicle =>
    let got := vehicle.feed.returned.drop s.vehicle.feed.returned.length
    { s with
      vehicle := vehicle
      main := some { m with liveReceived := m.liveReceived + got.length, polled := true }
      output := s.output ++ got.map .live }

/-- The status line: the count first, then the query. -/
def status (P : Protobuf) (s : Monitored) (m : MonitorRun) (faults : List (Option String))
    (request : Bytes → Option Bytes) : Monitored :=
  match count (s.vehicle.readerState m.reader faults) with
  | (.error e, _) => { s with main := none, output := s.output ++ [.failed e.what] }
  | (.ok dbCount, st) =>
    let r := QueryClient.latest P request
    { s with
      main := some { m with reader := st.reader, queryClient := r.2, polled := false }
      output := s.output ++ .status dbCount r.1 r.2 ::
        if m.liveReceived = 0 then [.noLiveScans] else []
      counted := s.counted ++ [s.vehicle.allRecorded] }

def step (P : Protobuf) (logPath : String) (s : Monitored) (i : MonitoredStep) :
    Option Monitored :=
  match i, s.main with
  | .vehicle (.poll _ _), _ => none
  | .vehicle i, _ =>
    (s.vehicle.step P logPath i).map fun vehicle => { s with vehicle := vehicle }
  | .start fails connects, none => some (s.start P logPath fails connects)
  | .poll ready, some m => if m.polled then none else s.poll P logPath m ready
  | .wait, some m =>
    if m.polled then some { s with main := some { m with polled := false } } else none
  | .status faults request, some m =>
    if m.polled then some (s.status P m faults request) else none
  | .stop, some m =>
    if m.polled then none
    else some { s with main := none, output := s.output ++ [.stopped m.liveReceived] }
  | .kill, some _ => some { s with main := none }
  | _, _ => none

/-- The scans shown as live, by any monitor. -/
def shown (s : Monitored) : List Scan := s.output.filterMap MonitorLine.liveScan

end Monitored

/-- What the subscription has still to bring. -/
def Vehicle.unread (P : Protobuf) (s : Vehicle) : List Scan :=
  s.feed.transit.filterMap (scanCodec P).decode

/-- Every number that was printed covers the scans that had been shown live before it. -/
def Covers (recorded : List Scan) (output : List MonitorLine) : Prop :=
  ∀ before line after n, output = before ++ line :: after → line.indexed = some n →
    (before.filterMap MonitorLine.liveScan).Sublist (recorded.take n)

/-! ### What a step of the vehicle moves -/

section Vehicle

variable {P : Protobuf} {logPath : String} {s s' : Vehicle}

theorem step_recorded {v v' : Service} {i : ServiceStep} (h : v.step P i = some v') :
    v.recorded <+: v'.recorded := by
  cases step_move h with
  | record => exact List.prefix_append ..
  | _ => exact List.prefix_refl _

theorem boot_same (logPath : String) (hnone : s.service = none)
    (fails : OpenCall → Option String) (bound : Bool) :
    (s.boot logPath fails bound).allRecorded = s.allRecorded ∧
      (s.boot logPath fails bound).allHanded = s.allHanded ∧
      (s.boot logPath fails bound).feed.transit = s.feed.transit := by
  unfold Vehicle.boot
  split
  · exact ⟨rfl, rfl, rfl⟩
  · split
    · simp [Vehicle.allRecorded, Vehicle.allHanded, hnone]
    · exact ⟨rfl, rfl, rfl⟩

theorem ended_same {v : Service} (hv : s.service = some v) (files : Files) :
    (s.ended v files).allRecorded = s.allRecorded ∧
      (s.ended v files).allHanded = s.allHanded := by
  simp [Vehicle.ended, Vehicle.allRecorded, Vehicle.allHanded, hv]

/-- A step of the vehicle but for its subscriber's poll: nothing that was recorded goes, and at
most the scan that is handed over is put on the wire. -/
theorem vehicle_step_moves {i : VehicleStep} (hpoll : ∀ ready out, i ≠ .poll ready out)
    (h : s.step P logPath i = some s') :
    s.allRecorded <+: s'.allRecorded ∧
      ((s'.allHanded = s.allHanded ∧ s'.unread P = s.unread P) ∨
        ∃ scan, s'.allHanded = s.allHanded ++ [scan] ∧
          ((scanCodec P).Undoes scan → s'.unread P = s.unread P ∨
            s'.unread P = s.unread P ++ [scan])) := by
  cases i with
  | boot fails bound =>
    cases hv : s.service with
    | some v => simp only [Vehicle.step, hv] at h; cases h
    | none =>
      simp only [Vehicle.step, hv] at h
      cases h
      obtain ⟨hrecorded, hhanded, htransit⟩ := boot_same logPath hv fails bound
      exact ⟨by rw [hrecorded], .inl ⟨hhanded, by
        rw [Vehicle.unread, htransit, Vehicle.unread]⟩⟩
  | service i lost =>
    cases hv : s.service with
    | none => simp only [Vehicle.step, hv] at h; cases h
    | some v =>
      simp only [Vehicle.step, hv] at h
      obtain ⟨v', hstep, ⟨sent, feed, rfl, hhanded, hfeed, rfl⟩ | ⟨hhanded, rfl⟩⟩ := serve_cases h
      · refine ⟨?_, .inr ⟨v.scan, ?_, fun hundoes => ?_⟩⟩
        · simp only [Vehicle.allRecorded, hv, Option.map_some, Option.getD_some]
          exact (List.prefix_append_right_inj s.recorded).mpr (step_recorded hstep)
        · simp only [Vehicle.allHanded, hv, Option.map_some, Option.getD_some, hhanded,
            List.append_assoc]
        · cases hlost : lost || !sent with
          | true =>
            rw [hlost] at hfeed
            cases hfeed
            exact .inl rfl
          | false =>
            rw [hlost] at hfeed
            cases hfeed
            refine .inr ?_
            simp [Vehicle.unread, decode_serialized hundoes]
      · refine ⟨?_, .inl ⟨?_, rfl⟩⟩
        · simp only [Vehicle.allRecorded, hv, Option.map_some, Option.getD_some]
          exact (List.prefix_append_right_inj s.recorded).mpr (step_recorded hstep)
        · simp only [Vehicle.allHanded, hv, Option.map_some, Option.getD_some, hhanded]
  | finish late =>
    cases hv : s.service with
    | none => simp only [Vehicle.step, hv] at h; cases h
    | some v =>
      simp only [Vehicle.step, hv] at h
      obtain ⟨-, h⟩ := Option.ite_none_right_eq_some.mp h
      cases h
      obtain ⟨hrecorded, hhanded⟩ := ended_same hv _
      exact ⟨by rw [hrecorded], .inl ⟨hhanded, rfl⟩⟩
  | kill landed =>
    cases hv : s.service with
    | none => simp only [Vehicle.step, hv] at h; cases h
    | some v =>
      simp only [Vehicle.step, hv] at h
      cases h
      obtain ⟨hrecorded, hhanded⟩ := ended_same hv _
      exact ⟨by rw [hrecorded], .inl ⟨hhanded, rfl⟩⟩
  | junk payload =>
    simp only [Vehicle.step] at h
    obtain ⟨feed, hfeed, rfl⟩ := Option.map_eq_some_iff.mp h
    refine ⟨List.prefix_refl _, .inl ⟨rfl, ?_⟩⟩
    unfold LiveFeed.step at hfeed
    dsimp only at hfeed
    split at hfeed
    · case h_1 hd =>
        cases hfeed
        simp [Vehicle.unread, hd]
    · cases hfeed
  | poll ready out => exact absurd rfl (hpoll ready out)

/-- A poll takes from the wire what it returns, and what does not parse. -/
theorem feed_poll_moves {α μ : Type} {C : Codec α μ} {s s' : LiveFeed α μ} {ready : Bool} {out : α}
    (h : s.step C (.poll ready out) = some s') :
    ∃ got, s'.returned = s.returned ++ got ∧
      s.transit.filterMap C.decode = got ++ s'.transit.filterMap C.decode := by
  unfold LiveFeed.step at h
  dsimp only at h
  split at h
  · case h_1 payload rest htransit =>
      cases h
      cases hd : C.decode payload with
      | none =>
        obtain ⟨wire, hp⟩ := poll_undecodable hd out s.subscriber
        exact ⟨[], by simp [LiveFeed.poll, hp], by simp [LiveFeed.poll, hp, htransit, hd]⟩
      | some x =>
        obtain ⟨wire, hp⟩ := poll_decoded hd out s.subscriber
        exact ⟨[x], by simp [LiveFeed.poll, hp], by simp [LiveFeed.poll, hp, htransit, hd]⟩
  · cases h
    exact ⟨[], (List.append_nil _).symm, rfl⟩
  · cases h
    exact ⟨[], (List.append_nil _).symm, rfl⟩

end Vehicle

/-! ### What a step of the monitor keeps -/

structure MonitoredInv (P : Protobuf) (s : Monitored) : Prop where
  vehicle : VehicleInv P s.vehicle
  /-- So that the count reads the rows committed by then. -/
  alone : ∀ m ∈ s.main, m.reader.conn.active ⊆ {.count}
  counts : s.output.filterMap MonitorLine.indexed = s.counted.map List.length
  grew : (s.counted ++ [s.vehicle.allRecorded]).Pairwise (· <+: ·)

structure ShownInv (P : Protobuf) (s : Monitored) : Prop where
  order : (s.shown ++ s.vehicle.unread P).Sublist s.vehicle.allHanded
  covers : Covers s.vehicle.allRecorded s.output

section Covers

variable {recorded recorded' : List Scan} {output new : List MonitorLine}

theorem Covers.grow (h : Covers recorded output) (hgrew : recorded <+: recorded') :
    Covers recorded' output := by
  intro before line after n heq hn
  exact (h before line after n heq hn).trans (hgrew.take n).sublist

theorem Covers.append (h : Covers recorded output)
    (hnew : ∀ before line after n, new = before ++ line :: after → line.indexed = some n →
      ((output ++ before).filterMap MonitorLine.liveScan).Sublist (recorded.take n)) :
    Covers recorded (output ++ new) := by
  intro before line after n heq hn
  rcases List.append_eq_append_iff.mp heq with ⟨mid, rfl, hmid⟩ | ⟨mid, hmid, hnewMid⟩
  · exact hnew mid line after n hmid hn
  · cases mid with
    | nil =>
      rw [List.append_nil] at hmid
      have h0 := hnew [] line after n hnewMid.symm hn
      rwa [List.append_nil, hmid] at h0
    | cons line' mid =>
      cases hnewMid
      exact h before line mid n hmid hn

theorem Covers.uncounted (h : Covers recorded output) (hnew : ∀ line ∈ new, line.indexed = none) :
    Covers recorded (output ++ new) := by
  refine h.append fun before line after n heq hn => ?_
  rw [hnew line (by rw [heq]; simp)] at hn
  cases hn

end Covers

section Step

variable {P : Protobuf} {logPath : String} {s s' : Monitored}

/-- A count on a connection with no other statement on a row: all that has been recorded. -/
theorem count_recorded (hi : MonitoredInv P s) {m : MonitorRun} (hm : s.main = some m)
    (faults : List (Option String)) :
    (∃ e st, count (s.vehicle.readerState m.reader faults) = (.error e, st)) ∨
      ∃ st, count (s.vehicle.readerState m.reader faults) =
          (.ok s.vehicle.allRecorded.length, st) ∧ st.reader.conn.active ⊆ {.count} := by
  have halone := hi.alone m hm
  by_cases hf : (s.vehicle.readerState m.reader faults).env.FaultFree 1
  · right
    have hsees : (s.vehicle.readerState m.reader faults).sees .count =
        s.vehicle.disk.index.getD Table.empty := SnapshotConn.view_halt_of_alone halone _
    refine ⟨(s.vehicle.readerState m.reader faults).counted, ?_, ?_⟩
    · rw [count_ok _ hf, hsees, hi.vehicle.holds.count_eq]
    · show insert .count (m.reader.conn.active.erase .count) ⊆ {.count}
      exact Finset.insert_subset (Finset.mem_singleton_self _)
        ((Finset.erase_subset _ _).trans halone)
  · obtain ⟨e, st, hcount⟩ := count_fault hf
    exact .inl ⟨e, st, hcount⟩

theorem start_cases (P : Protobuf) (logPath : String) (s : Monitored)
    (fails : ReaderOpenCall → Option String) (connects : Option Exn) :
    (∃ e : Exn, s.start P logPath fails connects =
        { s with output := s.output ++ [.failed e.what] }) ∨
      s.start P logPath fails connects =
        { s with vehicle := s.vehicle.subscribe P, main := some { reader := {} } } := by
  unfold Monitored.start
  cases hopen : openReader logPath fails s.vehicle.disk with
  | error e => exact .inl ⟨e, rfl⟩
  | ok reader =>
    cases connects with
    | some e => exact .inl ⟨e, rfl⟩
    | none =>
      right
      rw [openReader_fresh hopen]

theorem monitor_poll_cases {m : MonitorRun} {ready : Bool}
    (h : s.poll P logPath m ready = some s') :
    ∃ feed got, s.vehicle.feed.step (scanCodec P) (.poll ready Scan.fresh) = some feed ∧
      s.vehicle.unread P = got ++ { s.vehicle with feed := feed }.unread P ∧
      s' = { s with
        vehicle := { s.vehicle with feed := feed }
        main := some { m with liveReceived := m.liveReceived + got.length, polled := true }
        output := s.output ++ got.map .live } := by
  obtain ⟨vehicle, hvehicle, rfl⟩ := Option.map_eq_some_iff.mp h
  obtain ⟨feed, hfeed, rfl⟩ := Option.map_eq_some_iff.mp hvehicle
  obtain ⟨got, hreturned, hunread⟩ := feed_poll_moves hfeed
  refine ⟨feed, got, hfeed, hunread, ?_⟩
  dsimp only
  rw [hreturned, List.drop_left]

theorem subscribe_inv {v : Vehicle} (hi : VehicleInv P v) : VehicleInv P (v.subscribe P) :=
  ⟨hi.holds, hi.opened, hi.ordered, hi.recorded, hi.handed, List.nil_sublist _,
    fun _ => ⟨rfl, rfl⟩⟩

/-- What a step of the system comes to. -/
inductive MonitorMove (P : Protobuf) (logPath : String) (s : Monitored) : Monitored → Prop
  | moves (i : VehicleStep) (vehicle : Vehicle) (hpoll : ∀ ready out, i ≠ .poll ready out)
    (hstep : s.vehicle.step P logPath i = some vehicle) :
    MonitorMove P logPath s { s with vehicle := vehicle }
  | starts :
    MonitorMove P logPath s { s with
      vehicle := s.vehicle.subscribe P, main := some { reader := {} } }
  | polls (m m' : MonitorRun) (ready : Bool) (feed : LiveFeed Scan LidarScan) (got : List Scan)
    (hm : s.main = some m) (hreader : m'.reader = m.reader)
    (hfeed : s.vehicle.feed.step (scanCodec P) (.poll ready Scan.fresh) = some feed)
    (hgot : s.vehicle.unread P = got ++ { s.vehicle with feed := feed }.unread P) :
    MonitorMove P logPath s { s with
      vehicle := { s.vehicle with feed := feed }
      main := some m'
      output := s.output ++ got.map .live }
  | counts (m : MonitorRun) (latest : Option Scan) (client : QueryClient)
    (hint : List MonitorLine) (halone : m.reader.conn.active ⊆ {.count})
    (hhint : hint = [] ∨ hint = [.noLiveScans]) :
    MonitorMove P logPath s { s with
      main := some m
      output := s.output ++ .status s.vehicle.allRecorded.length latest client :: hint
      counted := s.counted ++ [s.vehicle.allRecorded] }
  | prints (lines : List MonitorLine) (main : Option MonitorRun)
    (hmain : ∀ m ∈ main, m.reader.conn.active ⊆ {.count})
    (hlines : ∀ line ∈ lines, line.indexed = none ∧ line.liveScan = none) :
    MonitorMove P logPath s { s with main := main, output := s.output ++ lines }

theorem vehicle_label_move {i : VehicleStep} (h : s.step P logPath (.vehicle i) = some s') :
    MonitorMove P logPath s s' := by
  unfold Monitored.step at h
  cases i with
  | poll ready out => cases h
  | _ =>
    obtain ⟨vehicle, hstep, rfl⟩ := Option.map_eq_some_iff.mp h
    exact .moves _ vehicle (by simp) hstep

theorem monitor_step_move {i : MonitoredStep} (hi : MonitoredInv P s)
    (h : s.step P logPath i = some s') : MonitorMove P logPath s s' := by
  have hsilent {line : MonitorLine} (hline : line.indexed = none ∧ line.liveScan = none) :
      ∀ l ∈ [line], l.indexed = none ∧ l.liveScan = none := List.forall_mem_singleton.mpr hline
  cases i with
  | vehicle i => exact vehicle_label_move h
  | start fails connects =>
    cases hm : s.main with
    | some m => simp only [Monitored.step, hm] at h; cases h
    | none =>
      simp only [Monitored.step, hm] at h
      cases h
      rcases start_cases P logPath s fails connects with ⟨e, heq⟩ | heq
      · rw [heq]
        exact .prints [.failed e.what] s.main hi.alone (hsilent ⟨rfl, rfl⟩)
      · rw [heq]
        exact .starts
  | poll ready =>
    cases hm : s.main with
    | none => simp only [Monitored.step, hm] at h; cases h
    | some m =>
      simp only [Monitored.step, hm] at h
      obtain ⟨-, h⟩ := Option.ite_none_left_eq_some.mp h
      obtain ⟨feed, got, hfeed, hgot, rfl⟩ := monitor_poll_cases h
      exact .polls m _ ready feed got hm rfl hfeed hgot
  | wait =>
    cases hm : s.main with
    | none => simp only [Monitored.step, hm] at h; cases h
    | some m =>
      simp only [Monitored.step, hm] at h
      obtain ⟨-, h⟩ := Option.ite_none_right_eq_some.mp h
      cases h
      have hidle : MonitorMove P logPath s { s with
          main := some { m with polled := false }, output := s.output ++ [] } :=
        .prints [] _ (by rintro _ ⟨⟩; exact hi.alone m hm) (by simp)
      rwa [List.append_nil] at hidle
  | status faults request =>
    cases hm : s.main with
    | none => simp only [Monitored.step, hm] at h; cases h
    | some m =>
      simp only [Monitored.step, hm] at h
      obtain ⟨-, h⟩ := Option.ite_none_right_eq_some.mp h
      cases h
      unfold Monitored.status
      rcases count_recorded hi hm faults with ⟨e, st, hcount⟩ | ⟨st, hcount, halone⟩
      · rw [hcount]
        exact .prints [.failed e.what] none (by simp) (hsilent ⟨rfl, rfl⟩)
      · rw [hcount]
        refine .counts _ _ _ _ halone ?_
        split
        · exact .inr rfl
        · exact .inl rfl
  | stop =>
    cases hm : s.main with
    | none => simp only [Monitored.step, hm] at h; cases h
    | some m =>
      simp only [Monitored.step, hm] at h
      obtain ⟨-, h⟩ := Option.ite_none_left_eq_some.mp h
      cases h
      exact .prints [.stopped m.liveReceived] none (by simp) (hsilent ⟨rfl, rfl⟩)
  | kill =>
    cases hm : s.main with
    | none => simp only [Monitored.step, hm] at h; cases h
    | some m =>
      simp only [Monitored.step, hm] at h
      cases h
      have hgone : MonitorMove P logPath s { s with main := none, output := s.output ++ [] } :=
        .prints [] none (by simp) (by simp)
      rwa [List.append_nil] at hgone

theorem monitored_step_inv (s : Monitored) (i : MonitoredStep) (s' : Monitored)
    (hi : MonitoredInv P s) (h : s.step P logPath i = some s') : MonitoredInv P s' := by
  cases monitor_step_move hi h with
  | moves i vehicle hpoll hstep =>
    refine ⟨vehicle_step_inv P logPath _ i _ hi.vehicle hstep, hi.alone, hi.counts, ?_⟩
    have hgrew := (vehicle_step_moves hpoll hstep).1
    obtain ⟨hbefore, -, hlast⟩ := List.pairwise_append.mp hi.grew
    refine List.pairwise_append.mpr ⟨hbefore, List.pairwise_singleton .., ?_⟩
    intro scans hscans recorded hrecorded
    obtain rfl := List.mem_singleton.mp hrecorded
    exact (hlast scans hscans _ (List.mem_singleton_self _)).trans hgrew
  | starts =>
    refine ⟨subscribe_inv hi.vehicle, ?_, hi.counts, hi.grew⟩
    intro m hm
    cases hm
    exact Finset.empty_subset _
  | polls m m' ready feed got hm hreader hfeed hgot =>
    refine ⟨?_, ?_, ?_, hi.grew⟩
    · refine vehicle_step_inv P logPath s.vehicle (.poll ready Scan.fresh) _ hi.vehicle ?_
      simp only [Vehicle.step, hfeed, Option.map_some]
    · intro w hw
      cases hw
      rw [hreader]
      exact hi.alone m hm
    · have hnone : (got.map MonitorLine.live).filterMap MonitorLine.indexed = [] := by
        refine List.filterMap_eq_nil_iff.mpr fun line hline => ?_
        obtain ⟨scan, -, rfl⟩ := List.mem_map.mp hline
        rfl
      rw [List.filterMap_append, hi.counts, hnone, List.append_nil]
  | counts m latest client hint halone hhint =>
    refine ⟨hi.vehicle, ?_, ?_, ?_⟩
    · intro w hw
      cases hw
      exact halone
    · have hnone : hint.filterMap MonitorLine.indexed = [] := by
        rcases hhint with rfl | rfl <;> rfl
      rw [List.filterMap_append, hi.counts, List.filterMap_cons, MonitorLine.indexed_status, hnone,
        List.map_append, List.map_singleton]
    · refine List.pairwise_append.mpr ⟨hi.grew, List.pairwise_singleton .., ?_⟩
      intro scans hscans recorded hrecorded
      obtain rfl := List.mem_singleton.mp hrecorded
      rcases List.mem_append.mp hscans with hscans | hscans
      · exact (List.pairwise_append.mp hi.grew).2.2 scans hscans _ (List.mem_singleton_self _)
      · rw [List.mem_singleton.mp hscans]
  | prints lines main hmain hlines =>
    refine ⟨hi.vehicle, hmain, ?_, hi.grew⟩
    rw [List.filterMap_append, hi.counts,
      List.filterMap_eq_nil_iff.mpr fun line hline => (hlines line hline).1, List.append_nil]

theorem monitored_step_recorded {i : MonitoredStep} (hi : MonitoredInv P s)
    (h : s.step P logPath i = some s') : s.vehicle.allRecorded <+: s'.vehicle.allRecorded := by
  cases monitor_step_move hi h with
  | moves i vehicle hpoll hstep => exact (vehicle_step_moves hpoll hstep).1
  | _ => exact List.prefix_refl _

theorem shown_step_inv {i : MonitoredStep} (hi : MonitoredInv P s) (hshown : ShownInv P s)
    (h : s.step P logPath i = some s') (hP : ∀ scan ∈ s'.vehicle.allRecorded, P.Undoes scan) :
    ShownInv P s' := by
  have hinv' := monitored_step_inv s i s' hi h
  have horder := hshown.order
  cases monitor_step_move hi h with
  | moves i vehicle hpoll hstep =>
    obtain ⟨hgrew, hmoves⟩ := vehicle_step_moves hpoll hstep
    refine ⟨?_, hshown.covers.grow hgrew⟩
    show (s.shown ++ vehicle.unread P).Sublist vehicle.allHanded
    rcases hmoves with ⟨hhanded, hunread⟩ | ⟨scan, hhanded, hsent⟩
    · rw [hhanded, hunread]
      exact horder
    · have hscan : scan ∈ vehicle.allHanded := by
        rw [hhanded]
        exact List.mem_append_right _ (List.mem_singleton_self scan)
      rw [hhanded]
      rcases hsent (hP scan (hinv'.vehicle.all_handed.subset hscan)).parse with hunread | hunread
      · rw [hunread]
        exact horder.trans (List.sublist_append_left ..)
      · rw [hunread, ← List.append_assoc]
        exact horder.append (List.Sublist.refl _)
  | starts =>
    refine ⟨?_, hshown.covers⟩
    show (s.shown ++ []).Sublist s.vehicle.allHanded
    rw [List.append_nil]
    exact (List.sublist_append_left ..).trans horder
  | polls m m' ready feed got hm hreader hfeed hgot =>
    refine ⟨?_, hshown.covers.uncounted ?_⟩
    · have hgotShown : (got.map MonitorLine.live).filterMap MonitorLine.liveScan = got := by
        rw [List.filterMap_map]
        exact List.filterMap_some
      show ((s.output ++ got.map MonitorLine.live).filterMap MonitorLine.liveScan ++ _).Sublist _
      rw [List.filterMap_append, hgotShown, List.append_assoc, ← hgot]
      exact horder
    · intro line hline
      obtain ⟨scan, -, rfl⟩ := List.mem_map.mp hline
      rfl
  | counts m latest client hint halone hhint =>
    have hquiet : (MonitorLine.status s.vehicle.allRecorded.length latest client
        :: hint).filterMap MonitorLine.liveScan = [] := by
      rw [List.filterMap_cons, MonitorLine.liveScan_status]
      rcases hhint with rfl | rfl <;> rfl
    refine ⟨?_, hshown.covers.append ?_⟩
    · show ((s.output ++ _).filterMap MonitorLine.liveScan ++ s.vehicle.unread P).Sublist _
      rw [List.filterMap_append, hquiet, List.append_nil]
      exact horder
    · intro before line after n heq hn
      cases before with
      | nil =>
        cases heq
        rw [MonitorLine.indexed_status] at hn
        cases hn
        rw [List.append_nil, List.take_length]
        exact ((List.sublist_append_left ..).trans horder).trans hi.vehicle.all_handed
      | cons first before =>
        -- the hint gives no number
        have hline : line ∈ hint := by
          rw [(List.cons.inj heq).2]
          simp
        rcases hhint with rfl | rfl
        · cases hline
        · rw [List.mem_singleton.mp hline] at hn
          cases hn
  | prints lines main hmain hlines =>
    refine ⟨?_, hshown.covers.uncounted fun line hline => (hlines line hline).1⟩
    show ((s.output ++ lines).filterMap MonitorLine.liveScan ++ s.vehicle.unread P).Sublist _
    rw [List.filterMap_append,
      List.filterMap_eq_nil_iff.mpr fun line hline => (hlines line hline).2, List.append_nil]
    exact horder

end Step

/-! ### What the numbers say -/

/-- Unlike a query server's, the monitor's reader never holds a snapshot against its own next call:
each number it prints is that of the scans recorded by then, and they never go down. Every scan it
has shown live before a number, in any of its runs, is among the scans that number counts. -/
theorem monitor_counts_fresh (P : Protobuf) (logPath : String) {steps : List MonitoredStep}
    {s : Monitored}
    (h : run (Monitored.step P logPath) { vehicle := Vehicle.start P } steps = some s) :
    s.output.filterMap MonitorLine.indexed = s.counted.map List.length ∧
      (s.counted ++ [s.vehicle.allRecorded]).Pairwise (· <+: ·) ∧
      ((∀ scan ∈ s.vehicle.allRecorded, P.Undoes scan) →
        s.shown.Sublist s.vehicle.allHanded ∧ Covers s.vehicle.allRecorded s.output) := by
  have hstart : MonitoredInv P { vehicle := Vehicle.start P } :=
    ⟨vehicle_start_inv P, by simp, rfl, List.pairwise_singleton ..⟩
  have hshownStart : ShownInv P { vehicle := Vehicle.start P } :=
    ⟨List.Sublist.refl _, by intro before line after n heq; simp at heq⟩
  have hstep (m : Monitored) (i : MonitoredStep) (m' : Monitored)
      (hm : MonitoredInv P m ∧
        ((∀ scan ∈ m.vehicle.allRecorded, P.Undoes scan) → ShownInv P m))
      (hi : m.step P logPath i = some m') : MonitoredInv P m' ∧
        ((∀ scan ∈ m'.vehicle.allRecorded, P.Undoes scan) → ShownInv P m') := by
    refine ⟨monitored_step_inv m i m' hm.1 hi, fun hP => shown_step_inv hm.1 ?_ hi hP⟩
    exact hm.2 fun scan hscan => hP scan ((monitored_step_recorded hm.1 hi).subset hscan)
  have hkept := run_invariant hstep ⟨hstart, fun _ => hshownStart⟩ h
  refine ⟨hkept.1.counts, hkept.1.grew, fun hP => ?_⟩
  exact ⟨(List.sublist_append_left ..).trans (hkept.2 hP).order, (hkept.2 hP).covers⟩

def served (steps : List ServiceStep) : List MonitoredStep :=
  steps.map fun i => .vehicle (.service i false)

/-- The first monitor finds no index. One scan is lost before the first count and one is shown before
the second; the service is killed and run again, and so is the monitor. -/
def watchedDive : List MonitoredStep :=
  .start (fun _ => none) none :: .vehicle (.boot (fun _ => none) true) ::
    .start (fun _ => none) none ::
    (served [.go, .attemptSucceeds, .go, .go, .pollReturns (some (stamped 5)), .recordReturns {}] ++
    .vehicle (.service (.publishReturns true) true) :: .poll true :: .status [] (fun _ => none) ::
    (served [.go, .go, .pollReturns (some (stamped 7)), .recordReturns {}, .publishReturns true] ++
    [.poll true, .status [] fun _ => some (encodeScans wireFormat [stamped 7]), .kill,
      .vehicle (.kill 0), .vehicle (.boot (fun _ => none) true), .start (fun _ => none) none,
      .poll false, .status [] fun _ => some (encodeScans wireFormat []), .poll false, .wait, .stop]))

theorem watchedDive_counts :
    ∃ s, run (Monitored.step wireFormat "scans.log") { vehicle := Vehicle.start wireFormat }
        watchedDive = some s ∧
      s.output.filterMap MonitorLine.indexed = [1, 2, 2] ∧ s.shown = [stamped 7] ∧
      (s.counted ++ [s.vehicle.allRecorded]).Pairwise (· <+: ·) ∧
      Covers [stamped 5, stamped 7] s.output := by
  have hrun : ∃ s, run (Monitored.step wireFormat "scans.log")
        { vehicle := Vehicle.start wireFormat } watchedDive = some s ∧
      s.output.filterMap MonitorLine.indexed = [1, 2, 2] ∧ s.shown = [stamped 7] ∧
      s.vehicle.allRecorded = [stamped 5, stamped 7] := ⟨_, rfl, by decide, by decide, by decide⟩
  obtain ⟨s, hs, hindexed, hshown, hrecorded⟩ := hrun
  obtain ⟨-, hgrew, hcovers⟩ := monitor_counts_fresh wireFormat "scans.log" hs
  have hP : ∀ scan ∈ s.vehicle.allRecorded, wireFormat.Undoes scan := by
    rw [hrecorded]
    decide
  have hcovered := (hcovers hP).2
  rw [hrecorded] at hcovered
  exact ⟨s, hs, hindexed, hshown, hgrew, hcovered⟩

end AuvMiddleware.Lidar
