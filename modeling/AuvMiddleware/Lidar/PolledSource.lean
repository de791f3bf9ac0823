import AuvMiddleware.Lidar.RevolutionTiming
import AuvMiddleware.Lidar.SensorQueue
import AuvMiddleware.Lidar.SickSources

/-!
# A source and the loop that polls it (sick_scan_source.cpp:179-193, 318-334,
sick_cloud_source.cpp:150-161, 234-247)

The programs take one sample after another from a source of scans or of clouds, and are through
with one before they poll for the next. The driver's thread goes on in the meantime.
-/

namespace AuvMiddleware.Lidar

variable {α M : Type}

/-! ### Messages converted one after another -/

/-- `last_stamp_ns` after the messages. -/
def stampAfter (convert : M → ℤ → Converted α) (lastStampNs : ℤ) (msgs : List M) : ℤ :=
  msgs.foldl (fun last msg => (convert msg last).lastStampNs) lastStampNs

/-- The samples that the conversion makes of the messages, in their order. -/
def converted (convert : M → ℤ → Converted α) (msgs : List M) : List α :=
  (conversions convert 0 msgs).filterMap fun x => x.2.output

theorem stampAfter_append (convert : M → ℤ → Converted α) (lastStampNs : ℤ) (msgs : List M)
    (msg : M) : stampAfter convert lastStampNs (msgs ++ [msg]) =
      (convert msg (stampAfter convert lastStampNs msgs)).lastStampNs :=
  List.foldl_append

theorem conversions_append (convert : M → ℤ → Converted α) (lastStampNs : ℤ) (msgs : List M)
    (msg : M) : conversions convert lastStampNs (msgs ++ [msg]) =
      conversions convert lastStampNs msgs ++
        [(msg, convert msg (stampAfter convert lastStampNs msgs))] := by
  induction msgs generalizing lastStampNs with
  | nil => rfl
  | cons m msgs ih =>
    rw [List.cons_append, conversions, conversions, ih]
    rfl

theorem converted_append (convert : M → ℤ → Converted α) (msgs : List M) (msg : M) :
    converted convert (msgs ++ [msg]) =
      converted convert msgs ++ (convert msg (stampAfter convert 0 msgs)).output.toList := by
  unfold converted
  rw [conversions_append, List.filterMap_append]
  cases hout : (convert msg (stampAfter convert 0 msgs)).output <;> simp [hout]

/-! ### The source -/

/-- `messages` and `done` are not the source's: what the driver has sent, and what the loop is
through with. -/
structure PolledSource (α M : Type) where
  sensor : Sensor α
  lastStampNs : ℤ := 0
  messages : List M := []
  inHand : Option α := none
  done : List α := []

namespace PolledSource

def start (capacity : ℕ+) : PolledSource α M := { sensor := { queue := { capacity := capacity } } }

def deliver (convert : M → ℤ → Converted α) (msg : M) (s : PolledSource α M) : PolledSource α M :=
  { s with
    lastStampNs := (convert msg s.lastStampNs).lastStampNs
    messages := s.messages ++ [msg]
    sensor :=
      match (convert msg s.lastStampNs).output with
      | some x => s.sensor.step (.deliver x)
      | none => s.sensor }

/-- `poll_scan` or `poll_cloud`, at the end of its wait. -/
def poll (s : PolledSource α M) : PolledSource α M :=
  { s with sensor := s.sensor.step .poll, inHand := s.sensor.queue.poll.1 }

def finish (s : PolledSource α M) : PolledSource α M :=
  { s with inHand := none, done := s.done ++ s.inHand.toList }

end PolledSource

/-! ### The sources of the library -/

/-- What a source makes of the driver's messages. -/
def SickScanConfig.convert {F : Type} (A : FloatArith F) (cfg : SickScanConfig) :
    ScanMsg → ℤ → Converted (ScanOf F) :=
  toScan A ⟨cfg.frameId, cfg.rangeMin, cfg.rangeMax⟩

def SickCloudConfig.convert (cfg : SickCloudConfig) : PointCloudMsg → ℤ → Converted PointCloud :=
  toCloud ⟨cfg.frameId, cfg.rangeMin, cfg.rangeMax⟩

/-- What a loop has to do with of a source. -/
def Backs (queue : SensorQueue α) (lastStampNs : ℤ) (s : PolledSource α M) : Prop :=
  s.sensor.queue = queue ∧ s.lastStampNs = lastStampNs

theorem SickScanSource.enqueue_backs {F : Type} (A : FloatArith F) (msg : ScanMsg)
    {source : SickScanSource F} {s : PolledSource (ScanOf F) ScanMsg}
    (h : Backs source.queue source.lastStampNs s) :
    Backs (source.enqueue A msg).2.queue (source.enqueue A msg).2.lastStampNs
      (s.deliver (toScan A source.cfg) msg) := by
  obtain ⟨hqueue, hlast⟩ := h
  unfold Backs PolledSource.deliver SickScanSource.enqueue Converted.output
  rw [hlast]
  cases hresult : (toScan A source.cfg msg source.lastStampNs).result with
  | error e => simp only [hresult, hqueue, and_self]
  | ok out => cases out <;> simp only [hresult, Sensor.step, hqueue, and_self]

theorem SickCloudSource.enqueue_backs (msg : PointCloudMsg) {source : SickCloudSource}
    {s : PolledSource PointCloud PointCloudMsg} (h : Backs source.queue source.lastStampNs s) :
    Backs (source.enqueue msg).2.queue (source.enqueue msg).2.lastStampNs
      (s.deliver (toCloud source.cfg) msg) := by
  obtain ⟨hqueue, hlast⟩ := h
  unfold Backs PolledSource.deliver SickCloudSource.enqueue Converted.output
  rw [hlast]
  cases hresult : (toCloud source.cfg msg source.lastStampNs).result with
  | error e => simp only [hresult, hqueue, and_self]
  | ok out => cases out <;> simp only [hresult, Sensor.step, hqueue, and_self]

theorem poll_backs {queue : SensorQueue α} {lastStampNs : ℤ} {s : PolledSource α M}
    (h : Backs queue lastStampNs s) :
    s.poll.inHand = queue.poll.1 ∧ Backs queue.poll.2 lastStampNs s.poll := by
  obtain ⟨rfl, rfl⟩ := h
  refine ⟨rfl, ?_, rfl⟩
  unfold PolledSource.poll SensorQueue.poll
  cases hqueue : s.sensor.queue.queue with
  | nil => simp [Sensor.step, SensorQueue.poll, hqueue]
  | cons x rest => simp [Sensor.step, SensorQueue.poll, hqueue]

/-! ### What the loop has seen of the messages -/

structure PolledInv (convert : M → ℤ → Converted α) (s : PolledSource α M) : Prop where
  sensor : SensorInv s.sensor.queue.capacity s.sensor
  polled : s.sensor.polled = s.done ++ s.inHand.toList
  stamp : s.lastStampNs = stampAfter convert 0 s.messages
  deliveries : s.sensor.deliveries = converted convert s.messages

section Loop

variable {convert : M → ℤ → Converted α} {s : PolledSource α M}

theorem polled_start (convert : M → ℤ → Converted α) (capacity : ℕ+) :
    PolledInv convert (.start capacity) where
  sensor := sensor_run_inv capacity []
  polled := rfl
  stamp := rfl
  deliveries := rfl

theorem step_capacity {t : Sensor α} (i : SensorStep α) :
    (t.step i).queue.capacity = t.queue.capacity := by
  cases i with
  | deliver x => rfl
  | poll =>
    unfold Sensor.step SensorQueue.poll
    cases t.queue.queue <;> rfl

theorem PolledInv.deliver (hi : PolledInv convert s) (msg : M) :
    PolledInv convert (s.deliver convert msg) := by
  have hconverted := converted_append convert s.messages msg
  have hstamp := stampAfter_append convert 0 s.messages msg
  rw [← hi.stamp] at hconverted hstamp
  rw [← hi.deliveries] at hconverted
  unfold PolledSource.deliver
  cases hout : (convert msg s.lastStampNs).output with
  | none =>
    rw [hout, Option.toList_none, List.append_nil] at hconverted
    exact ⟨hi.sensor, hi.polled, hstamp.symm, hconverted.symm⟩
  | some x =>
    rw [hout, Option.toList_some] at hconverted
    have hsensor := sensor_deliver_inv hi.sensor x
    rw [← step_capacity (.deliver x)] at hsensor
    exact ⟨hsensor, hi.polled, hstamp.symm, hconverted.symm⟩

theorem PolledInv.poll (hi : PolledInv convert s) (hnone : s.inHand = none) :
    PolledInv convert s.poll := by
  have hsensor := sensor_poll_inv hi.sensor
  rw [← step_capacity .poll] at hsensor
  have hpolled := hi.polled
  rw [hnone, Option.toList_none, List.append_nil] at hpolled
  refine ⟨hsensor, ?_, hi.stamp, ?_⟩
  · unfold PolledSource.poll SensorQueue.poll
    cases hqueue : s.sensor.queue.queue with
    | nil => simp [Sensor.step, SensorQueue.poll, hqueue, hpolled]
    | cons x rest => simp [Sensor.step, SensorQueue.poll, hqueue, hpolled]
  · have hdeliveries : (s.sensor.step .poll).deliveries = s.sensor.deliveries := by
      unfold Sensor.step SensorQueue.poll
      cases s.sensor.queue.queue <;> rfl
    exact hdeliveries.trans hi.deliveries

theorem PolledInv.finish (hi : PolledInv convert s) : PolledInv convert s.finish where
  sensor := hi.sensor
  polled := hi.polled.trans (List.append_nil _).symm
  stamp := hi.stamp
  deliveries := hi.deliveries

/-- The loop is through with samples of the messages, in their order; of the others one may be in
hand, and the rest wait in the queue or are counted as dropped. -/
theorem PolledInv.accounts (hi : PolledInv convert s) :
    s.done.Sublist (converted convert s.messages) ∧
      (converted convert s.messages).length = s.done.length + s.inHand.toList.length +
        s.sensor.queue.dropped + s.sensor.queue.queue.length := by
  have horder := hi.sensor.order
  have hpolled := hi.sensor.polled
  have hgone := hi.sensor.dropped
  rw [hi.deliveries] at horder
  rw [hi.polled] at hpolled hgone
  rw [List.length_append] at hgone
  constructor
  · have hdone : s.done.Sublist (s.done ++ s.inHand.toList) := List.sublist_append_left ..
    rw [hpolled] at hdone
    rw [horder]
    exact (hdone.trans (List.filter_sublist.map Prod.fst)).trans (List.sublist_append_left ..)
  · rw [horder, List.length_append, List.length_map, hgone]

end Loop

end AuvMiddleware.Lidar
