import AuvMiddleware.Lib.Int64Ops
import AuvMiddleware.Lidar.QueryClient

/-!
# RECENT (query_server.cpp:79-91)

The lower end of the window is a difference of two 64-bit numbers that are both free, taken in 64
bits.
-/

namespace AuvMiddleware.Lidar
open Decimal Runs QueryClient

/-! ### The window -/

/-- The scans of the last `windowNs` before the newest stamp, in exact integers. -/
def recentScans (newestNs windowNs : Int64) (scans : List Scan) : List Scan :=
  scans.filter fun s =>
    newestNs.toInt - windowNs.toInt ≤ s.stampNs.toInt ∧ s.stampNs.toInt ≤ newestNs.toInt

theorem scansIn_eq_recentScans_iff {scans : List Scan} {newest : Scan} (h : newest ∈ scans)
    (windowNs : Int64) :
    scansIn (newest.stampNs - windowNs) newest.stampNs scans =
        recentScans newest.stampNs windowNs scans ↔
      InInt64 (newest.stampNs.toInt - windowNs.toInt) := by
  have hhi := newest.stampNs.toInt_lt
  have hlo := newest.stampNs.le_toInt
  have whi := windowNs.toInt_lt
  have wlo := windowNs.le_toInt
  unfold scansIn recentScans
  simp only [Int64.le_iff_toInt_le]
  constructor
  · -- the newest scan itself tells the two windows apart
    intro heq
    have hnewest := (congrArg (newest ∈ ·) heq).to_iff
    simp only [List.mem_filter, h, true_and, decide_eq_true_eq, le_refl, and_true] at hnewest
    by_contra hout
    unfold InInt64 at hout
    rcases Int.lt_or_le (newest.stampNs.toInt - windowNs.toInt) (-2 ^ 63) with hsmall | hlarge
    · rw [toInt_sub_of_small hsmall] at hnewest
      omega
    · rw [toInt_sub_of_large (by omega)] at hnewest
      omega
  · intro hin
    rw [toInt_sub_of_in hin]

/-! ### The command -/

theorem parseRecent_recentCommand (windowNs : Int64) :
    parseRecent (recentCommand windowNs) = some windowNs := by
  have htake : (recentCommand windowNs).take 7 = kRecent := rfl
  have hdrop : (recentCommand windowNs).drop 7 = toText windowNs.toInt := rfl
  have hwindow : fromChars (toText windowNs.toInt ++ []) = .ok windowNs.toInt [] :=
    fromChars_toText windowNs (by simp)
  rw [List.append_nil] at hwindow
  unfold parseRecent
  rw [if_neg (not_not_intro htake), hdrop, hwindow]
  simp only [Int64.ofInt_toInt]

theorem parseRange_recentCommand (windowNs : Int64) :
    parseRange (recentCommand windowNs) = none := by
  have htake : (recentCommand windowNs).take 6 = kRecent.take 6 := rfl
  unfold parseRange
  rw [htake, if_pos (by decide)]

theorem recentCommand_ne_kLatest (windowNs : Int64) : recentCommand windowNs ≠ kLatest := by
  intro h
  have hhead : some (lowByte 'R'.toNat) = some (lowByte 'L'.toNat) := congrArg List.head? h
  exact absurd hhead (by decide)

section Held

variable {P : Protobuf} {log : Bytes} {t : Table} {scans : List Scan} {newest : Scan}

theorem Holds.outcome_recent (h : Holds P log t scans) (hP : ∀ s ∈ scans, P.Undoes s)
    (hnewest : scans.getLast? = some newest) (windowNs : Int64) :
    (outcome P (recentCommand windowNs) (freshReader log t)).scans =
      some (scansIn (newest.stampNs - windowNs) newest.stampNs scans) := by
  rw [List.getLast?_eq_getElem?] at hnewest
  obtain ⟨hlt, hscan⟩ := List.getElem?_eq_some_iff.mp hnewest
  unfold outcome
  rw [if_neg (recentCommand_ne_kLatest _), parseRange_recentCommand, parseRecent_recentCommand]
  show (recentOutcome P windowNs log t).scans = _
  unfold recentOutcome newestOutcome
  rw [h.count_eq, if_neg (by omega), h.scanAt_eq hP hlt, hscan]
  exact h.decodeRows_inRange hP _ _

theorem Holds.dispatch_recent (h : Holds P log t scans) (hP : ∀ s ∈ scans, P.Undoes s)
    (hnewest : scans.getLast? = some newest) (windowNs : Int64) :
    (dispatch P (recentCommand windowNs) (freshReader log t)).1 =
      .ok (scansIn (newest.stampNs - windowNs) newest.stampNs scans) := by
  have hfresh : (freshReader log t).Healthy := rfl
  obtain ⟨st', hdispatch, -⟩ := (computes_dispatch P (recentCommand windowNs) hfresh).returns
    (ReadEnv.faultFree_of_nil rfl _) (h.outcome_recent hP hnewest windowNs)
  rw [hdispatch]

end Held

/-- The answer is the window exactly when its lower end can be represented. -/
theorem recent_exact_iff (P : Protobuf) (logPath : String) {steps : List StoreStep} {s : StoreState}
    (hrun : run (storeStep P logPath) {} steps = some s)
    (hopened : StoreStep.openRecorder ∈ steps) (hP : ∀ scan ∈ s.recorded, P.Undoes scan)
    {newest : Scan} (hnewest : s.recorded.getLast? = some newest) (windowNs : Int64) :
    ∃ t, s.files.index = some t ∧
      ((dispatch P (recentCommand windowNs) (freshReader s.files.log t)).1 =
          .ok (recentScans newest.stampNs windowNs s.recorded) ↔
        InInt64 (newest.stampNs.toInt - windowNs.toInt)) ∧
      (s.recorded.length < 2 ^ 32 →
        (recent P (answeredBy P s.files.log t) windowNs =
            (recentScans newest.stampNs windowNs s.recorded, { lastOk := true }) ↔
          InInt64 (newest.stampNs.toInt - windowNs.toInt))) := by
  obtain ⟨-, t, ht, hholds⟩ := store_run_holds P logPath hrun hopened
  have hmem : newest ∈ s.recorded := List.mem_of_getLast? hnewest
  refine ⟨t, ht, ?_, fun hn => ?_⟩
  · rw [hholds.dispatch_recent hP hnewest, Except.ok.injEq]
    exact scansIn_eq_recentScans_iff hmem windowNs
  · have hlen : (scansIn (newest.stampNs - windowNs) newest.stampNs s.recorded).length ≤
        s.recorded.length := List.length_filter_le _ _
    have hask := ask_answeredBy (hholds.outcome_recent hP hnewest windowNs) (by omega)
      fun scan hscan => hP scan (List.mem_filter.mp hscan).1
    simp only [recent, hask, Option.getD_some, Prod.mk.injEq, and_true]
    exact scansIn_eq_recentScans_iff hmem windowNs

theorem recent_exact_iff_rough :
    ∃ s t, run (storeStep wireFormat "scans.log") {} roughRun = some s ∧ s.files.index = some t ∧
      (dispatch wireFormat (recentCommand 0) (freshReader s.files.log t)).1 = .ok [stamped 6] := by
  obtain ⟨s, hs, hrec⟩ := roughRun_recorded
  have hnewest : s.recorded.getLast? = some (stamped 6) := by
    rw [hrec]
    rfl
  obtain ⟨t, ht, hexact, -⟩ := recent_exact_iff wireFormat "scans.log" hs (by simp [roughRun])
    (by rw [hrec]; decide) hnewest 0
  refine ⟨s, t, hs, ht, ?_⟩
  rw [hexact.mpr (by decide), hrec]
  decide

/-- The most negative window ends before it begins, and yet it is answered with both scans. -/
theorem recent_wraps :
    ∃ s t, run (storeStep wireFormat "scans.log") {} roughRun = some s ∧ s.files.index = some t ∧
      s.recorded.getLast? = some (stamped 6) ∧
      (dispatch wireFormat (recentCommand Int64.minValue) (freshReader s.files.log t)).1 =
        .ok [stamped 5, stamped 6] ∧
      recentScans 6 Int64.minValue s.recorded = [] := by
  obtain ⟨s, hs, hrec⟩ := roughRun_recorded
  have hnewest : s.recorded.getLast? = some (stamped 6) := by
    rw [hrec]
    rfl
  obtain ⟨-, t, ht, hholds⟩ := store_run_holds wireFormat "scans.log" hs (by simp [roughRun])
  refine ⟨s, t, hs, ht, hnewest, ?_, ?_⟩
  · rw [hholds.dispatch_recent (by rw [hrec]; decide) hnewest, hrec]
    decide
  · rw [hrec]
    decide

end AuvMiddleware.Lidar
