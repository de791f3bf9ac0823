import AuvMiddleware.Lidar.VendorScan

/-!
# Revolution times over a stream of messages (sick_scan_source.cpp:250-279,
sick_cloud_source.cpp:203-209)

Messages are converted one after another, each with the `last_stamp_ns` the one before left. The
sensor's clock may jump either way, and messages that are refused or throw come in between.
-/

namespace AuvMiddleware.Lidar

variable {α M : Type}

/-- What a conversion stores; nothing when the message is refused or it throws. -/
def Converted.output (c : Converted α) : Option α :=
  match c.result with
  | .ok out => out
  | .error _ => none

def conversions (convert : M → ℤ → Converted α) (lastStampNs : ℤ) :
    List M → List (M × Converted α)
  | [] => []
  | msg :: rest =>
    (msg, convert msg lastStampNs) ::
      conversions convert (convert msg lastStampNs).lastStampNs rest

def Produced (x : M × Converted α) : Bool := x.2.output.isSome

def exactStampNs (msg : PointCloudMsg) : ℤ :=
  msg.timestampSec.toNat * 10 ^ 9 + msg.timestampNsec.toNat

/-- From the stamp of the accepted message before, if there is one, to this one. -/
def revolutionNs (previous : Option ℤ) (stamp : ℤ) : ℤ :=
  match previous with
  | none => 0
  | some p => if 0 < p ∧ 0 < stamp - p ∧ stamp - p ≤ 5 * 10 ^ 9 then stamp - p else 0

/-- Each conversion of a stream measures from the accepted message before it; `previous` is that
message's stamp. -/
def Timed (header : M → PointCloudMsg) (scanTime : α → ℤ) :
    Option ℤ → List (M × Converted α) → Prop
  | _, [] => True
  | previous, (msg, c) :: rest =>
    c.overflow = false ∧
      (∀ out ∈ c.output, scanTime out = revolutionNs previous (exactStampNs (header msg)) ∧
        0 ≤ scanTime out ∧ scanTime out ≤ 5 * 10 ^ 9) ∧
      Timed header scanTime
        (if c.output.isSome then some (exactStampNs (header msg)) else previous) rest

/-! ### Arithmetic on stamps -/

theorem exactStampNs_range (msg : PointCloudMsg) :
    0 ≤ exactStampNs msg ∧ exactStampNs msg < 2 ^ 62 := by
  have hsec := msg.timestampSec.toNat_lt
  have hnsec := msg.timestampNsec.toNat_lt
  unfold exactStampNs
  omega

theorem stampNs_eq (msg : PointCloudMsg) : stampNs msg = pure (exactStampNs msg) := by
  have hsec := msg.timestampSec.toNat_lt
  have hstamp := exactStampNs_range msg
  unfold stampNs
  rw [Checked.int64_of_in (by unfold InInt64; omega), Checked.pure_bind',
    Checked.int64_of_in]
  · rfl
  · unfold InInt64 exactStampNs at *
    omega

theorem revolutionNs_range (previous : Option ℤ) (stamp : ℤ) :
    0 ≤ revolutionNs previous stamp ∧ revolutionNs previous stamp ≤ 5 * 10 ^ 9 := by
  unfold revolutionNs
  split
  · omega
  · split <;> omega

/-- A stamp of zero stands for no accepted message yet. -/
theorem scanTimeNs_eq {previous : Option ℤ} {stamp : ℤ} (hstamp : 0 ≤ stamp ∧ stamp < 2 ^ 62)
    (hprevious : ∀ p ∈ previous, 0 ≤ p ∧ p < 2 ^ 62) :
    scanTimeNs stamp (previous.getD 0) = pure (revolutionNs previous stamp) := by
  unfold scanTimeNs
  cases previous with
  | none =>
    rw [Option.getD_none, Checked.int64_of_in (by unfold InInt64; omega), Checked.pure_bind']
    rfl
  | some p =>
    have hp := hprevious p rfl
    rw [Option.getD_some, Checked.int64_of_in (by unfold InInt64; omega), Checked.pure_bind']
    rfl

/-! ### One conversion -/

structure Converted.Measures (scanTime : α → ℤ) (msg : PointCloudMsg) (previous : Option ℤ)
    (c : Converted α) : Prop where
  overflow : c.overflow = false
  produced : ∀ out ∈ c.output, c.lastStampNs = exactStampNs msg ∧
    scanTime out = revolutionNs previous (exactStampNs msg)
  refused : c.output = none → c.lastStampNs = previous.getD 0

theorem measures_unproduced {scanTime : α → ℤ} {msg : PointCloudMsg} {previous : Option ℤ}
    {c : Converted α} (hflag : c.overflow = false) (hout : c.output = none)
    (hlast : c.lastStampNs = previous.getD 0) : c.Measures scanTime msg previous where
  overflow := hflag
  produced out h := by
    rw [hout] at h
    cases h
  refused _ := hlast

theorem toInt_revolutionNs (previous : Option ℤ) (stamp : ℤ) :
    (Int64.ofInt (revolutionNs previous stamp)).toInt = revolutionNs previous stamp := by
  have h := revolutionNs_range previous stamp
  exact Int64.toInt_ofInt_of_le (by omega) (by omega)

theorem toCloud_measures (cfg : CloudConfig) (msg : PointCloudMsg) {previous : Option ℤ}
    (hprevious : ∀ p ∈ previous, 0 ≤ p ∧ p < 2 ^ 62) :
    (toCloud cfg msg (previous.getD 0)).Measures (fun cloud => cloud.scanTimeNs.toInt) msg
      previous := by
  have htime := scanTimeNs_eq (exactStampNs_range msg) hprevious
  unfold toCloud
  refine checks_cases (measures_unproduced rfl rfl rfl) (measures_unproduced rfl rfl rfl)
    (fun memory _ => ?_)
  rw [stampNs_eq]
  dsimp only
  have hvalue : (pure (exactStampNs msg) : Checked ℤ).value = exactStampNs msg := rfl
  rw [hvalue, htime]
  refine ⟨rfl, fun out hout => ?_, fun hnone => by cases hnone⟩
  cases hout
  exact ⟨rfl, toInt_revolutionNs previous _⟩

theorem toScan_measures {F : Type} (A : FloatArith F) (cfg : ScanConfig) (msg : ScanMsg)
    {previous : Option ℤ} (hprevious : ∀ p ∈ previous, 0 ≤ p ∧ p < 2 ^ 62) :
    (toScan A cfg msg (previous.getD 0)).Measures (fun scan => scan.scanTimeNs.toInt)
      msg.toPointCloudMsg previous := by
  have htime := scanTimeNs_eq (exactStampNs_range msg.toPointCloudMsg) hprevious
  unfold toScan
  refine checks_cases (measures_unproduced rfl rfl rfl) (measures_unproduced rfl rfl rfl)
    (fun memory _ => ?_)
  rw [stampNs_eq]
  dsimp only
  have hvalue : (pure (exactStampNs msg.toPointCloudMsg) : Checked ℤ).value =
    exactStampNs msg.toPointCloudMsg := rfl
  rw [hvalue, htime]
  refine ⟨rfl, fun out hout => ?_, fun hnone => by cases hnone⟩
  cases hout
  exact ⟨rfl, toInt_revolutionNs previous _⟩

theorem scanTimeNs_range (stamp previous : ℤ) :
    0 ≤ (scanTimeNs stamp previous).value ∧
      (scanTimeNs stamp previous).value ≤ 5 * 10 ^ 9 := by
  unfold scanTimeNs
  generalize Checked.int64 (stamp - previous) = delta
  show 0 ≤ (if _ then _ else _ : ℤ) ∧ (if _ then _ else _ : ℤ) ≤ _
  split
  · case isTrue h =>
      obtain ⟨-, hpos, hle⟩ := h
      unfold kMaxPlausibleScanTimeNs at hle
      omega
  · omega

/-- The step in time is rounded down, so that all of them together do not exceed the revolution. -/
theorem timeIncrement_range {time : ℤ} (h : 0 ≤ time ∧ time ≤ 5 * 10 ^ 9) (size : ℕ) :
    let increment := if size = 0 then 0 else Int64.ofInt (time.tdiv size)
    0 ≤ increment.toInt * size ∧ increment.toInt * size ≤ (Int64.ofInt time).toInt := by
  have htime : (Int64.ofInt time).toInt = time :=
    Int64.toInt_ofInt_of_le (by omega) (by omega)
  dsimp only
  rw [htime]
  by_cases hsize : size = 0
  · simp [hsize, h.1]
  · have hnonneg : 0 ≤ time / (size : ℤ) := Int.ediv_nonneg h.1 (by omega)
    have hle : time / (size : ℤ) ≤ time := Int.ediv_le_self _ h.1
    have hproduct := Int.ediv_mul_le time (b := size) (by omega)
    rw [if_neg hsize, Int.tdiv_eq_ediv_of_nonneg h.1,
      Int64.toInt_ofInt_of_le (by omega) (by omega)]
    exact ⟨Int.mul_nonneg hnonneg (by omega), hproduct⟩

theorem toScan_increment {F : Type} (A : FloatArith F) (cfg : ScanConfig) (msg : ScanMsg)
    (lastStampNs : ℤ) : ∀ scan ∈ (toScan A cfg msg lastStampNs).output,
      0 ≤ scan.timeIncrementNs.toInt * scan.ranges.length ∧
        scan.timeIncrementNs.toInt * scan.ranges.length ≤ scan.scanTimeNs.toInt := by
  unfold toScan
  refine checks_cases (P := fun c : Converted (ScanOf F) => ∀ scan ∈ c.output,
    0 ≤ scan.timeIncrementNs.toInt * scan.ranges.length ∧
      scan.timeIncrementNs.toInt * scan.ranges.length ≤ scan.scanTimeNs.toInt) ?_ ?_ ?_
  · intro scan hscan
    cases hscan
  · intro scan hscan
    cases hscan
  · intro memory _ scan hscan
    cases hscan
    exact timeIncrement_range (scanTimeNs_range _ _) _

/-! ### A stream -/

section Stream
variable {convert : M → ℤ → Converted α} {header : M → PointCloudMsg} {scanTime : α → ℤ}

def Measuring (convert : M → ℤ → Converted α) (header : M → PointCloudMsg) (scanTime : α → ℤ) :
    Prop :=
  ∀ msg (previous : Option ℤ), (∀ p ∈ previous, 0 ≤ p ∧ p < 2 ^ 62) →
    (convert msg (previous.getD 0)).Measures scanTime (header msg) previous

theorem timed_conversions (h : Measuring convert header scanTime) (previous : Option ℤ)
    (hprevious : ∀ p ∈ previous, 0 ≤ p ∧ p < 2 ^ 62) (msgs : List M) :
    Timed header scanTime previous (conversions convert (previous.getD 0) msgs) := by
  induction msgs generalizing previous with
  | nil => trivial
  | cons msg msgs ih =>
    have hc := h msg previous hprevious
    refine ⟨hc.overflow, fun out hout => ?_, ?_⟩
    · rw [(hc.produced out hout).2]
      exact ⟨rfl, revolutionNs_range previous _⟩
    · cases hout : (convert msg (previous.getD 0)).output with
      | none =>
        rw [hc.refused hout]
        exact ih previous hprevious
      | some out =>
        rw [(hc.produced out hout).1]
        exact ih (some (exactStampNs (header msg))) fun p hp => by
          cases hp
          exact exactStampNs_range _

theorem timed_stream (h : Measuring convert header scanTime) (msgs : List M) :
    Timed header scanTime none (conversions convert 0 msgs) :=
  timed_conversions h none (by simp) msgs

theorem conversions_produced (h : Measuring convert header scanTime) (previous : Option ℤ)
    (hprevious : ∀ p ∈ previous, 0 ≤ p ∧ p < 2 ^ 62) (msgs : List M) :
    conversions convert (previous.getD 0)
        (((conversions convert (previous.getD 0) msgs).filter Produced).map Prod.fst) =
      (conversions convert (previous.getD 0) msgs).filter Produced := by
  induction msgs generalizing previous with
  | nil => rfl
  | cons msg msgs ih =>
    have hc := h msg previous hprevious
    cases hout : (convert msg (previous.getD 0)).output with
    | none =>
      have hskip : Produced (msg, convert msg (previous.getD 0)) = false := by
        simp [Produced, hout]
      simp only [conversions, List.filter_cons, hskip, Bool.false_eq_true, if_false,
        hc.refused hout]
      exact ih previous hprevious
    | some out =>
      have hkeep : Produced (msg, convert msg (previous.getD 0)) = true := by
        simp [Produced, hout]
      have hrest := ih (some (exactStampNs (header msg))) fun p hp => by
        cases hp
        exact exactStampNs_range _
      simp only [conversions, List.filter_cons, hkeep, if_true, List.map_cons,
        (hc.produced out hout).1]
      exact congrArg _ hrest

/-- Without the messages that came to nothing the stream gives the same. -/
theorem produced_stream (h : Measuring convert header scanTime) (msgs : List M) :
    conversions convert 0 (((conversions convert 0 msgs).filter Produced).map Prod.fst) =
      (conversions convert 0 msgs).filter Produced :=
  conversions_produced h none (by simp) msgs

end Stream

theorem mem_conversions {convert : M → ℤ → Converted α} {lastStampNs : ℤ} {msgs : List M}
    {x : M × Converted α} (h : x ∈ conversions convert lastStampNs msgs) :
    ∃ last, x.2 = convert x.1 last := by
  induction msgs generalizing lastStampNs with
  | nil => cases h
  | cons msg msgs ih =>
    rcases List.mem_cons.mp h with rfl | h
    · exact ⟨lastStampNs, rfl⟩
    · exact ih h

/-- Whatever the stamps do and whatever comes in between: every revolution is timed from the last
accepted message, and messages that came to nothing leave no trace in the others. -/
theorem revolution_timing {F : Type} (A : FloatArith F) (scanCfg : ScanConfig)
    (cloudCfg : CloudConfig) (scanMsgs : List ScanMsg) (cloudMsgs : List PointCloudMsg) :
    let scans := conversions (toScan A scanCfg) 0 scanMsgs
    let clouds := conversions (toCloud cloudCfg) 0 cloudMsgs
    Timed ScanMsg.toPointCloudMsg (fun scan => scan.scanTimeNs.toInt) none scans ∧
      Timed id (fun cloud => cloud.scanTimeNs.toInt) none clouds ∧
      conversions (toScan A scanCfg) 0 ((scans.filter Produced).map Prod.fst) =
        scans.filter Produced ∧
      conversions (toCloud cloudCfg) 0 ((clouds.filter Produced).map Prod.fst) =
        clouds.filter Produced ∧
      ∀ x ∈ scans, ∀ scan ∈ x.2.output,
        0 ≤ scan.timeIncrementNs.toInt * scan.ranges.length ∧
          scan.timeIncrementNs.toInt * scan.ranges.length ≤ scan.scanTimeNs.toInt := by
  have hscan : Measuring (toScan A scanCfg) ScanMsg.toPointCloudMsg
      fun scan => scan.scanTimeNs.toInt :=
    fun msg previous hprevious => toScan_measures A scanCfg msg hprevious
  have hcloud : Measuring (toCloud cloudCfg) id fun cloud => cloud.scanTimeNs.toInt :=
    fun msg previous hprevious => toCloud_measures cloudCfg msg hprevious
  refine ⟨timed_stream hscan scanMsgs, timed_stream hcloud cloudMsgs,
    produced_stream hscan scanMsgs, produced_stream hcloud cloudMsgs, ?_⟩
  intro x hx scan hout
  obtain ⟨last, hconvert⟩ := mem_conversions hx
  rw [hconvert] at hout
  exact toScan_increment A scanCfg x.1 last scan hout

end AuvMiddleware.Lidar
