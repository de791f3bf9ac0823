import AuvMiddleware.Lidar.QueryServing

/-!
# ScanQueryClient (query_client.cpp)

`request` is the transport: the reply to a request, or nothing in time.
-/

namespace AuvMiddleware.Lidar
open Decimal Runs

structure QueryClient where
  lastOk : Bool := false
  deriving DecidableEq

/-- What the three queries do with the reply to a command: without one, or with one that is
malformed, there is nothing and `ok()` is false. -/
def ask (P : Protobuf) (request : Bytes → Option Bytes) (command : Bytes) :
    Option (List Scan) × QueryClient :=
  match request command with
  | none => (none, { lastOk := false })
  | some reply =>
    match decodeScans P reply with
    | .ok scans => (some scans, { lastOk := true })
    | .error _ => (none, { lastOk := false })

namespace QueryClient

def latest (P : Protobuf) (request : Bytes → Option Bytes) : Option Scan × QueryClient :=
  let r := ask P request kLatest
  (r.1.bind fun scans => scans.head?, r.2)

def rangeCommand (startNs endNs : Int64) : Bytes :=
  kRange ++ toText startNs.toInt ++ [space] ++ toText endNs.toInt

def range (P : Protobuf) (request : Bytes → Option Bytes) (startNs endNs : Int64) :
    List Scan × QueryClient :=
  let r := ask P request (rangeCommand startNs endNs)
  (r.1.getD [], r.2)

def recentCommand (windowNs : Int64) : Bytes := kRecent ++ toText windowNs.toInt

def recent (P : Protobuf) (request : Bytes → Option Bytes) (windowNs : Int64) :
    List Scan × QueryClient :=
  let r := ask P request (recentCommand windowNs)
  (r.1.getD [], r.2)

end QueryClient
open QueryClient

/-! ### The server reads what the client writes -/

theorem not_isDigit_space : isDigit space = false := by decide

theorem fromChars_toText (z : Int64) {rest : Bytes} (hr : ∀ b ∈ rest.head?, isDigit b = false) :
    fromChars (toText z.toInt ++ rest) = .ok z.toInt rest :=
  parse_toText z.minValue_le_toInt z.toInt_le hr

theorem dropWhile_space_toText (z : ℤ) :
    (space :: toText z).dropWhile (fun b => b = space) = toText z := by
  obtain ⟨b, s, hs, hb⟩ := (toText_numeral z).head
  have hne : b ≠ space := by
    rcases hb with rfl | hb
    · decide
    · intro he
      rw [he, not_isDigit_space] at hb
      cases hb
  simp [hs, hne]

theorem parseRange_rangeCommand (startNs endNs : Int64) :
    parseRange (rangeCommand startNs endNs) = some (startNs, endNs) := by
  have hsplit : rangeCommand startNs endNs =
      kRange ++ (toText startNs.toInt ++ (space :: toText endNs.toInt)) := by
    simp [rangeCommand]
  have htake : (rangeCommand startNs endNs).take 6 = kRange := by
    rw [hsplit]
    rfl
  have hdrop : (rangeCommand startNs endNs).drop 6 =
      toText startNs.toInt ++ (space :: toText endNs.toInt) := by
    rw [hsplit]
    rfl
  have hstart : fromChars (toText startNs.toInt ++ (space :: toText endNs.toInt)) =
      .ok startNs.toInt (space :: toText endNs.toInt) :=
    fromChars_toText startNs (by simp [not_isDigit_space])
  have hstop : fromChars (toText endNs.toInt ++ []) = .ok endNs.toInt [] :=
    fromChars_toText endNs (by simp)
  rw [List.append_nil] at hstop
  unfold parseRange
  rw [if_neg (not_not_intro htake), hdrop, hstart]
  simp only [dropWhile_space_toText, hstop, Int64.ofInt_toInt]

theorem rangeCommand_ne_kLatest (startNs endNs : Int64) :
    rangeCommand startNs endNs ≠ kLatest := by
  intro h
  have hhead : some (lowByte 'R'.toNat) = some (lowByte 'L'.toNat) := congrArg List.head? h
  exact absurd hhead (by decide)

/-! ### A query, there and back -/

/-- The reply to a command that reaches a server freshly opened on the files. -/
def answeredBy (P : Protobuf) (log : Bytes) (t : Table) (command : Bytes) : Option Bytes :=
  let waiting : QueryServer := { socket := { inbox := [(0, command)] } }
  (waiting.serveOne P { log := log, table := t }).2.socket.sent.head?.map Prod.snd

theorem ask_answeredBy {P : Protobuf} {log : Bytes} {t : Table} {command : Bytes}
    {scans : List Scan} (ho : (outcome P command (freshReader log t)).scans = some scans)
    (hn : scans.length < 2 ^ 32) (hP : ∀ s ∈ scans, P.Undoes s) :
    ask P (answeredBy P log t) command = (some scans, { lastOk := true }) := by
  have hinv : ServeInv { socket := { inbox := [(0, command)] } } := ⟨⟨rfl, rfl⟩, rfl, rfl⟩
  have hreply : answeredBy P log t command = some (encodeScans P scans) := by
    rcases serveOne_cases P hinv { log := log, table := t } rfl with
      ⟨-, scans', reader, ho', -, hr⟩ | ⟨hno, -⟩
    · rw [show outcome P command ⟨{}, _⟩ = outcome P command (freshReader log t) from rfl, ho] at ho'
      cases ho'
      simp only [answeredBy, hr, List.nil_append, List.head?_cons, Option.map_some]
    · exact absurd ⟨ReadEnv.faultFree_of_nil rfl _, Option.isSome_iff_exists.mpr ⟨scans, ho⟩⟩ hno
  simp only [ask, hreply, decodeScans_encodeScans hn hP]

section Held

variable {P : Protobuf} {log : Bytes} {t : Table} {scans : List Scan}

theorem Holds.latestOutcome_eq (h : Holds P log t scans) (hP : ∀ s ∈ scans, P.Undoes s) :
    (latestOutcome P log t).scans = some scans.getLast?.toList := by
  unfold latestOutcome newestOutcome
  rw [h.count_eq]
  cases hl : scans.getLast? with
  | none =>
    rw [List.getLast?_eq_none_iff] at hl
    rw [hl]
    rfl
  | some newest =>
    rw [List.getLast?_eq_getElem?] at hl
    obtain ⟨hlt, hscan⟩ := List.getElem?_eq_some_iff.mp hl
    rw [if_neg (by omega), h.scanAt_eq hP hlt, hscan]
    rfl

theorem Holds.outcome_latest (h : Holds P log t scans) (hP : ∀ s ∈ scans, P.Undoes s) :
    (outcome P kLatest (freshReader log t)).scans = some scans.getLast?.toList :=
  h.latestOutcome_eq hP

theorem Holds.outcome_range (h : Holds P log t scans) (hP : ∀ s ∈ scans, P.Undoes s)
    (startNs endNs : Int64) :
    (outcome P (rangeCommand startNs endNs) (freshReader log t)).scans =
      some (scansIn startNs endNs scans) := by
  unfold outcome
  rw [if_neg (rangeCommand_ne_kLatest _ _), parseRange_rangeCommand]
  exact h.decodeRows_inRange hP startNs endNs

end Held

/-- What a client is told by a server on the files of a run is what the run has recorded. -/
theorem query_run_answers (P : Protobuf) (logPath : String) {steps : List StoreStep}
    {s : StoreState} (hrun : run (storeStep P logPath) {} steps = some s)
    (hopened : StoreStep.openRecorder ∈ steps) (hP : ∀ scan ∈ s.recorded, P.Undoes scan)
    (hn : s.recorded.length < 2 ^ 32) :
    ∃ t, s.files.index = some t ∧
      (∀ startNs endNs, range P (answeredBy P s.files.log t) startNs endNs =
        (scansIn startNs endNs s.recorded, { lastOk := true })) ∧
      latest P (answeredBy P s.files.log t) = (s.recorded.getLast?, { lastOk := true }) := by
  obtain ⟨-, t, ht, hholds⟩ := store_run_holds P logPath hrun hopened
  refine ⟨t, ht, fun startNs endNs => ?_, ?_⟩
  · have hlen : (scansIn startNs endNs s.recorded).length ≤ s.recorded.length :=
      List.length_filter_le _ _
    have hask := ask_answeredBy (hholds.outcome_range hP startNs endNs) (by omega)
      fun scan hscan => hP scan (List.mem_filter.mp hscan).1
    simp only [range, hask, Option.getD_some]
  · have hask := ask_answeredBy (hholds.outcome_latest hP)
      (by cases s.recorded.getLast? <;> simp) fun scan hscan =>
        hP scan (List.mem_of_getLast? (by simpa using hscan))
    simp only [latest, hask, Option.bind_some]
    cases s.recorded.getLast? <;> rfl

theorem query_run_answers_rough :
    ∃ s t, run (storeStep wireFormat "scans.log") {} roughRun = some s ∧
      s.files.index = some t ∧
      range wireFormat (answeredBy wireFormat s.files.log t) (-4) 5 =
        ([stamped 5], { lastOk := true }) ∧
      latest wireFormat (answeredBy wireFormat s.files.log t) =
        (some (stamped 6), { lastOk := true }) := by
  obtain ⟨s, hs, hrec⟩ := roughRun_recorded
  obtain ⟨t, ht, hrange, hlatest⟩ := query_run_answers wireFormat "scans.log" hs
    (by simp [roughRun]) (by rw [hrec]; decide) (by rw [hrec]; decide)
  refine ⟨s, t, hs, ht, ?_, ?_⟩
  · rw [hrange, hrec]
    decide
  · rw [hlatest, hrec]
    decide

end AuvMiddleware.Lidar
