import AuvMiddleware.Lidar.LiveStream
import AuvMiddleware.Lidar.QueryClient
import AuvMiddleware.Lidar.RecordFirst

/-!
# The live path and the query path of one vehicle (scan_publisher_recorder_main.cpp,
scan_query_server_main.cpp, query_client.cpp)

The service publishes over a link that may lose anything, and is started again after it has ended
or was killed; the files stay. What the live path has lost can be asked for.
-/

namespace AuvMiddleware.Lidar
open QueryClient Runs

/-- `service` is `main` while it runs, `files` the disk while it does not; the lists are those of
the services that are over, one after another. -/
structure Vehicle where
  files : Files := {}
  service : Option Service := none
  feed : LiveFeed Scan LidarScan
  polled : List Scan := []
  recorded : List Scan := []
  handed : List Scan := []

inductive VehicleStep where
  /-- `main` opens the recorder and binds the publisher, or fails at one of them. -/
  | boot (fails : OpenCall → Option String) (bound : Bool)
  /-- A step of `main`; a scan that was sent may be lost on the way. -/
  | service (i : ServiceStep) (lost : Bool)
  /-- `main` is over; a log stream that had failed may still flush `late` bytes. -/
  | finish (late : Bytes)
  /-- The process is killed; in `record()` it has `landed` bytes in the log. -/
  | kill (landed : ℕ)
  | junk (payload : Bytes)
  | poll (ready : Bool) (out : Scan)

def Service.over (s : Service) : Bool :=
  match s.pc with
  | .returned _ | .exited | .terminated => true
  | _ => false

namespace Vehicle

def start (P : Protobuf) : Vehicle := { feed := LiveFeed.start (scanCodec P) }

def disk (s : Vehicle) : Files := (s.service.map fun v => v.recording.files).getD s.files

def allPolled (s : Vehicle) : List Scan := s.polled ++ (s.service.map Service.polled).getD []

def allRecorded (s : Vehicle) : List Scan := s.recorded ++ (s.service.map Service.recorded).getD []

def allHanded (s : Vehicle) : List Scan := s.handed ++ (s.service.map Service.handed).getD []

/-- The process is gone and has left `files`. -/
def ended (s : Vehicle) (v : Service) (files : Files) : Vehicle :=
  { s with
    files := files
    service := none
    polled := s.polled ++ v.polled
    recorded := s.recorded ++ v.recorded
    handed := s.handed ++ v.handed }

def boot (logPath : String) (s : Vehicle) (fails : OpenCall → Option String) (bound : Bool) :
    Vehicle :=
  match openRecorder logPath fails s.files with
  | (.error _, files) => { s with files := files }
  | (.ok recorder, files) =>
    if bound then
      { s with
        service := some { recording := ⟨recorder, files⟩ }, feed.publisher := { wire := {} } }
    else { s with files := files }

/-- A step of `main`, and what it puts on the wire. -/
def serve (P : Protobuf) (s : Vehicle) (v : Service) (i : ServiceStep) (lost : Bool) :
    Option Vehicle :=
  match v.step P i with
  | none => none
  | some v' =>
    match i with
    | .publishReturns sent =>
      (s.feed.step (scanCodec P) (.publish v.scan (lost || !sent))).map fun feed =>
        { s with service := some v', feed := feed }
    | _ => some { s with service := some v' }

def step (P : Protobuf) (logPath : String) (s : Vehicle) (i : VehicleStep) : Option Vehicle :=
  match i, s.service with
  | .boot fails bound, none => some (s.boot logPath fails bound)
  | .service i lost, some v => s.serve P v i lost
  | .finish late, some v =>
    if v.over then
      some (s.ended v { v.recording.files with
        log := v.recording.files.log ++ if v.recording.recorder.logGood then [] else late })
    else none
  | .kill landed, some v =>
    some (s.ended v (if v.pc = .record then
      (v.recording.afterWrite P v.scan (some landed)).files else v.recording.files))
  | .junk payload, _ =>
    (s.feed.step (scanCodec P) (.junk payload)).map fun feed => { s with feed := feed }
  | .poll ready out, _ =>
    (s.feed.step (scanCodec P) (.poll ready out)).map fun feed => { s with feed := feed }
  | _, _ => none

end Vehicle

/-! ### One step -/

theorem step_handed {P : Protobuf} {v v' : Service} {i : ServiceStep}
    (h : v.step P i = some v') :
    (∃ sent, i = .publishReturns sent ∧ v'.handed = v.handed ++ [v.scan]) ∨
      (∀ sent, i ≠ .publishReturns sent) ∧ v'.handed = v.handed := by
  cases step_move h with
  | publish sent hpc => exact .inl ⟨sent, rfl, rfl⟩
  | _ => exact .inr ⟨by simp, rfl⟩

theorem stream_step_kept {C : Codec Scan LidarScan} {s s' : LiveFeed Scan LidarScan}
    {i : LiveFeedStep Scan LidarScan} (hs : StreamKept C s) (h : s.step C i = some s') :
    StreamKept C s' := by
  intro hu
  have hi : StreamInv C s := hs fun x hx => hu x (stream_step_delivered h hx)
  exact stream_step_inv s i s' hi hu h

theorem stream_step_undelivered {C : Codec Scan LidarScan} {s s' : LiveFeed Scan LidarScan}
    {i : LiveFeedStep Scan LidarScan} (h : s.step C i = some s')
    (hi : ∀ x lost, i ≠ .publish x lost) : s'.delivered = s.delivered := by
  cases i with
  | publish x lost => exact absurd rfl (hi x lost)
  | publishThrows wire =>
    cases h
    rfl
  | junk payload =>
    unfold LiveFeed.step at h
    dsimp only at h
    split at h
    · cases h
      rfl
    · cases h
  | poll ready out =>
    unfold LiveFeed.step at h
    dsimp only at h
    split at h <;> cases h <;> exact poll_delivered ..

structure VehicleInv (P : Protobuf) (s : Vehicle) : Prop where
  holds : Holds P s.disk.log (s.disk.index.getD Table.empty) s.allRecorded
  opened : ∀ v ∈ s.service, v.recording.files.index.isSome
  ordered : ∀ v ∈ s.service, v.Ordered
  recorded : s.recorded.Sublist s.polled
  handed : s.handed.Sublist s.recorded
  delivered : s.feed.delivered.Sublist s.allHanded
  stream : StreamKept (scanCodec P) s.feed

section Step

variable {P : Protobuf} {s s' : Vehicle}

theorem Service.Ordered.recorded_sublist {v : Service} (hv : v.Ordered) :
    v.recorded.Sublist v.polled := by
  rcases hv.polled_eq with h | ⟨-, h⟩
  · rw [h]
  · rw [h]
    exact List.sublist_append_left ..

theorem VehicleInv.all_recorded (hi : VehicleInv P s) : s.allRecorded.Sublist s.allPolled := by
  cases hv : s.service with
  | none =>
    simp only [Vehicle.allRecorded, Vehicle.allPolled, hv, Option.map_none, Option.getD_none,
      List.append_nil]
    exact hi.recorded
  | some v =>
    simp only [Vehicle.allRecorded, Vehicle.allPolled, hv, Option.map_some, Option.getD_some]
    exact hi.recorded.append (hi.ordered v hv).recorded_sublist

theorem VehicleInv.all_handed (hi : VehicleInv P s) : s.allHanded.Sublist s.allRecorded := by
  cases hv : s.service with
  | none =>
    simp only [Vehicle.allRecorded, Vehicle.allHanded, hv, Option.map_none, Option.getD_none,
      List.append_nil]
    exact hi.handed
  | some v =>
    simp only [Vehicle.allRecorded, Vehicle.allHanded, hv, Option.map_some, Option.getD_some]
    exact hi.handed.append (hi.ordered v hv).handed_sublist

theorem boot_inv (logPath : String) (hi : VehicleInv P s) (hnone : s.service = none)
    (fails : OpenCall → Option String) (bound : Bool) :
    VehicleInv P (s.boot logPath fails bound) := by
  obtain ⟨files, service, feed, polled, recorded, handed⟩ := s
  cases hnone
  obtain ⟨hlog, hindex, hopened⟩ := openRecorder_files logPath fails files
  have hholds := hi.holds
  have hdelivered := hi.delivered
  simp only [Vehicle.disk, Vehicle.allRecorded, Vehicle.allHanded, Option.map_none,
    Option.getD_none, List.append_nil] at hholds hdelivered
  unfold Vehicle.boot
  dsimp only
  rw [← hlog, ← hindex] at hholds
  generalize openRecorder logPath fails files = opened at hholds hopened
  obtain ⟨result, files'⟩ := opened
  have hidle : VehicleInv P ⟨files', none, feed, polled, recorded, handed⟩ := by
    refine ⟨?_, ?_, ?_, hi.recorded, hi.handed, ?_, hi.stream⟩
    · simpa only [Vehicle.disk, Vehicle.allRecorded, Option.map_none, Option.getD_none,
        List.append_nil] using hholds
    · intro v hv
      cases hv
    · intro v hv
      cases hv
    · simpa only [Vehicle.allHanded, Option.map_none, Option.getD_none, List.append_nil]
        using hdelivered
  cases result with
  | error e => exact hidle
  | ok recorder =>
    dsimp only
    split
    · refine ⟨?_, ?_, ?_, hi.recorded, hi.handed, ?_, ?_⟩
      · simpa only [Vehicle.disk, Vehicle.allRecorded, Option.map_some, Option.getD_some,
          List.append_nil] using hholds
      · intro v hv
        cases hv
        exact hopened recorder rfl
      · intro v hv
        cases hv
        exact ⟨rfl, rfl⟩
      · simpa only [Vehicle.allHanded, Option.map_some, Option.getD_some, List.append_nil]
          using hdelivered
      · intro hu
        have hstream := hi.stream hu
        exact ⟨hstream.samples, hstream.malformed⟩
    · exact hidle

theorem ended_inv (hi : VehicleInv P s) {v : Service} (hv : s.service = some v) {files : Files}
    {more : Bytes} (hlog : files.log = v.recording.files.log ++ more)
    (hindex : files.index = v.recording.files.index) : VehicleInv P (s.ended v files) := by
  have hholds := hi.holds
  have hdelivered := hi.delivered
  simp only [Vehicle.disk, Vehicle.allRecorded, Vehicle.allHanded, hv, Option.map_some,
    Option.getD_some] at hholds hdelivered
  have hordered := hi.ordered v hv
  refine ⟨?_, ?_, ?_, ?_, ?_, ?_, hi.stream⟩
  · simp only [Vehicle.ended, Vehicle.disk, Vehicle.allRecorded, Option.map_none, Option.getD_none,
      List.append_nil]
    rw [hlog, hindex]
    exact hholds.append more
  · intro w hw
    cases hw
  · intro w hw
    cases hw
  · exact hi.recorded.append hordered.recorded_sublist
  · exact hi.handed.append hordered.handed_sublist
  · simpa only [Vehicle.ended, Vehicle.allHanded, Option.map_none, Option.getD_none,
      List.append_nil] using hdelivered

theorem feed_inv (hi : VehicleInv P s) {i : LiveFeedStep Scan LidarScan}
    (hpublish : ∀ x lost, i ≠ .publish x lost)
    (h : (s.feed.step (scanCodec P) i).map (fun feed => { s with feed := feed }) = some s') :
    VehicleInv P s' := by
  obtain ⟨feed, hfeed, rfl⟩ := Option.map_eq_some_iff.mp h
  refine ⟨hi.holds, hi.opened, hi.ordered, hi.recorded, hi.handed, ?_, ?_⟩
  · exact stream_step_undelivered hfeed hpublish ▸ hi.delivered
  · exact stream_step_kept hi.stream hfeed

theorem main_inv (hi : VehicleInv P s) {v v' : Service} {i : ServiceStep}
    (hv : s.service = some v) (h : v.step P i = some v') {feed : LiveFeed Scan LidarScan}
    (hdelivered : feed.delivered.Sublist (s.handed ++ v'.handed))
    (hstream : StreamKept (scanCodec P) feed) :
    VehicleInv P { s with service := some v', feed := feed } := by
  have hholds := hi.holds
  simp only [Vehicle.disk, Vehicle.allRecorded, hv, Option.map_some, Option.getD_some] at hholds
  obtain ⟨t, ht⟩ := Option.isSome_iff_exists.mp (hi.opened v hv)
  rw [ht, Option.getD_some] at hholds
  obtain ⟨t', ht', hholds'⟩ := step_indexed P v i v' ⟨t, ht, hholds⟩ h
  refine ⟨?_, ?_, ?_, hi.recorded, hi.handed, hdelivered, hstream⟩
  · simp only [Vehicle.disk, Vehicle.allRecorded, Option.map_some, Option.getD_some, ht']
    exact hholds'
  · intro w hw
    cases hw
    rw [ht']
    rfl
  · intro w hw
    cases hw
    exact step_ordered P v i v' (hi.ordered v hv) h

theorem serve_cases {v : Service} {i : ServiceStep} {lost : Bool}
    (h : s.serve P v i lost = some s') :
    ∃ v', v.step P i = some v' ∧
      ((∃ sent feed, i = .publishReturns sent ∧ v'.handed = v.handed ++ [v.scan] ∧
        s.feed.step (scanCodec P) (.publish v.scan (lost || !sent)) = some feed ∧
        s' = { s with service := some v', feed := feed }) ∨
      (v'.handed = v.handed ∧ s' = { s with service := some v' })) := by
  unfold Vehicle.serve at h
  cases hstep : v.step P i with
  | none => rw [hstep] at h; cases h
  | some v' =>
    rw [hstep] at h
    refine ⟨v', rfl, ?_⟩
    rcases step_handed hstep with ⟨sent, rfl, hhanded⟩ | ⟨hother, hhanded⟩
    · obtain ⟨feed, hfeed, rfl⟩ := Option.map_eq_some_iff.mp h
      exact .inl ⟨sent, feed, rfl, hhanded, hfeed, rfl⟩
    · refine .inr ⟨hhanded, ?_⟩
      cases i with
      | publishReturns sent => exact absurd rfl (hother sent)
      | _ => exact (Option.some.inj h).symm

theorem serve_inv (hi : VehicleInv P s) {v : Service} {i : ServiceStep} {lost : Bool}
    (hv : s.service = some v) (h : s.serve P v i lost = some s') : VehicleInv P s' := by
  have hdelivered := hi.delivered
  simp only [Vehicle.allHanded, hv, Option.map_some, Option.getD_some] at hdelivered
  obtain ⟨v', hstep, ⟨sent, feed, rfl, hhanded, hfeed, rfl⟩ | ⟨hhanded, rfl⟩⟩ := serve_cases h
  · refine main_inv hi hv hstep ?_ (stream_step_kept hi.stream hfeed)
    rw [hhanded, ← List.append_assoc]
    cases hlost : lost || !sent with
    | true =>
      rw [hlost] at hfeed
      cases hfeed
      exact hdelivered.trans (List.sublist_append_left ..)
    | false =>
      rw [hlost] at hfeed
      cases hfeed
      exact hdelivered.append (List.Sublist.refl _)
  · refine main_inv hi hv hstep ?_ hi.stream
    rw [hhanded]
    exact hdelivered

theorem vehicle_step_inv (P : Protobuf) (logPath : String) (s : Vehicle) (i : VehicleStep)
    (s' : Vehicle) (hi : VehicleInv P s) (h : s.step P logPath i = some s') :
    VehicleInv P s' := by
  cases i with
  | boot fails bound =>
    cases hv : s.service with
    | some v => simp only [Vehicle.step, hv] at h; cases h
    | none =>
      simp only [Vehicle.step, hv] at h
      cases h
      exact boot_inv logPath hi hv fails bound
  | service i lost =>
    cases hv : s.service with
    | none => simp only [Vehicle.step, hv] at h; cases h
    | some v =>
      simp only [Vehicle.step, hv] at h
      exact serve_inv hi hv h
  | finish late =>
    cases hv : s.service with
    | none => simp only [Vehicle.step, hv] at h; cases h
    | some v =>
      simp only [Vehicle.step, hv] at h
      obtain ⟨-, h⟩ := Option.ite_none_right_eq_some.mp h
      cases h
      exact ended_inv hi hv rfl rfl
  | kill landed =>
    cases hv : s.service with
    | none => simp only [Vehicle.step, hv] at h; cases h
    | some v =>
      simp only [Vehicle.step, hv] at h
      cases h
      split
      · obtain ⟨hindex, -, ⟨k, hlog⟩, -⟩ := afterWrite_spec P v.scan (some landed) v.recording
        exact ended_inv hi hv hlog hindex
      · exact ended_inv hi hv (List.append_nil _).symm rfl
  | junk payload =>
    simp only [Vehicle.step] at h
    exact feed_inv hi (by simp) h
  | poll ready out =>
    simp only [Vehicle.step] at h
    exact feed_inv hi (by simp) h

theorem vehicle_start_inv (P : Protobuf) : VehicleInv P (Vehicle.start P) := by
  refine ⟨holds_empty P [], ?_, ?_, List.Sublist.refl _, List.Sublist.refl _, List.Sublist.refl _,
    fun _ => ⟨rfl, rfl⟩⟩
  · intro v hv
    cases hv
  · intro v hv
    cases hv

end Step

/-! ### What can be asked for -/

/-- Whatever was lost, killed or started again: a server that opens the files answers a range with
every scan in it that was ever handed to the publisher, in order, with every one a subscriber has
seen, and with none that the sensor did not give. -/
theorem backfill_complete (P : Protobuf) (logPath : String) {steps : List VehicleStep} {s : Vehicle}
    (h : run (Vehicle.step P logPath) (Vehicle.start P) steps = some s)
    (hP : ∀ scan ∈ s.allRecorded, P.Undoes scan) (hn : s.allRecorded.length < 2 ^ 32) {t : Table}
    (ht : s.disk.index = some t) (startNs endNs : Int64) :
    ∃ answer, range P (answeredBy P s.disk.log t) startNs endNs = (answer, { lastOk := true }) ∧
      (scansIn startNs endNs s.allHanded).Sublist answer ∧
      answer.Sublist (scansIn startNs endNs s.allPolled) ∧
      ∀ scan ∈ s.feed.returned, startNs ≤ scan.stampNs → scan.stampNs ≤ endNs →
        scan ∈ answer := by
  have hi := run_invariant (vehicle_step_inv P logPath) (vehicle_start_inv P) h
  have hholds := hi.holds
  rw [ht, Option.getD_some] at hholds
  have hlen : (scansIn startNs endNs s.allRecorded).length ≤ s.allRecorded.length :=
    List.length_filter_le _ _
  have hask := ask_answeredBy (hholds.outcome_range hP startNs endNs) (by omega)
    fun scan hscan => hP scan (List.mem_filter.mp hscan).1
  refine ⟨scansIn startNs endNs s.allRecorded, ?_, hi.all_handed.filter _, hi.all_recorded.filter _,
    ?_⟩
  · simp only [range, hask, Option.getD_some]
  · intro scan hscan hstart hend
    have hdelivered := hi.delivered.trans hi.all_handed
    have hstream := hi.stream fun x hx => (hP x (hdelivered.subset hx)).parse
    have hmem : scan ∈ s.feed.delivered := by
      rw [← hstream.samples]
      exact List.mem_append_left _ hscan
    exact List.mem_filter.mpr ⟨hdelivered.subset hmem, by simp [hstart, hend]⟩

/-- A scan is lost on the way, one arrives, and the process is killed in the middle of a third. -/
def lostThenKilled : List VehicleStep :=
  [.boot (fun _ => none) true, .service .go false, .service .attemptSucceeds false,
    .service .go false, .service .go false, .service (.pollReturns (some (stamped 5))) false,
    .service (.recordReturns {}) false, .service (.publishReturns true) true,
    .service .go false, .service .go false, .service (.pollReturns (some (stamped 7))) false,
    .service (.recordReturns {}) false, .service (.publishReturns true) false,
    .service .go false, .service .go false, .service (.pollReturns (some (stamped 8))) false,
    .poll true Scan.fresh, .kill 5, .boot (fun _ => none) true]

theorem lostThenKilled_answered :
    ∃ s t, run (Vehicle.step wireFormat "scans.log") (Vehicle.start wireFormat) lostThenKilled =
        some s ∧
      s.disk.index = some t ∧ s.feed.returned = [stamped 7] ∧
      ∃ answer, range wireFormat (answeredBy wireFormat s.disk.log t) 4 9 =
          (answer, { lastOk := true }) ∧
        [stamped 5, stamped 7].Sublist answer ∧
        answer.Sublist [stamped 5, stamped 7, stamped 8] := by
  have hrun : ∃ s t, run (Vehicle.step wireFormat "scans.log") (Vehicle.start wireFormat)
        lostThenKilled = some s ∧
      s.disk.index = some t ∧ s.feed.returned = [stamped 7] ∧
      s.allRecorded = [stamped 5, stamped 7] ∧ s.allHanded = [stamped 5, stamped 7] ∧
      s.allPolled = [stamped 5, stamped 7, stamped 8] := ⟨_, _, rfl, rfl, by decide⟩
  obtain ⟨s, t, hs, ht, hreturned, hrecorded, hhanded, hpolled⟩ := hrun
  obtain ⟨answer, hrange, hall, hnone, -⟩ := backfill_complete wireFormat "scans.log" hs
    (by rw [hrecorded]; decide) (by rw [hrecorded]; decide) ht 4 9
  rw [hhanded] at hall
  rw [hpolled] at hnone
  exact ⟨s, t, hs, ht, hreturned, answer, hrange, hall, hnone⟩

end AuvMiddleware.Lidar
