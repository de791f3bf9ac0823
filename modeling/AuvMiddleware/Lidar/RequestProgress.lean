import AuvMiddleware.Lidar.QueryHandling

/-!
# Requests beside a running recorder (query_server.cpp, reader.cpp)

What the calls of one request may see when the recording grows between them, said of lists of scans.
A request that starts from the newest scan looks at the recording twice: the newest scan is the one
of the first look, and a window back from it is taken out of the second.
-/

namespace AuvMiddleware.Lidar
open Decimal

/-! ### What a command says of the recording -/

/-- LATEST and RECENT start from the newest scan. -/
def AsksNewest (command : Bytes) : Prop :=
  command = kLatest ∨ (parseRange command = none ∧ (parseRecent command).isSome)

instance (command : Bytes) : Decidable (AsksNewest command) := inferInstanceAs (Decidable (_ ∨ _))

/-- The answer when the newest scan is that of `first` and what is around it is that of `second`. -/
def answerBetween (first second : List Scan) (command : Bytes) : List Scan :=
  if command = kLatest then first.getLast?.toList
  else
    match parseRange command with
    | some (startNs, endNs) => scansIn startNs endNs second
    | none =>
      match parseRecent command with
      | some windowNs => first.getLast?.elim [] fun newest =>
          scansIn (newest.stampNs - windowNs) newest.stampNs second
      | none => []

/-- The answer from a recording that stays as it is. -/
def answerFrom (scans : List Scan) (command : Bytes) : List Scan :=
  answerBetween scans scans command

/-- `RECENT 5` finds a newest scan before an older one is recorded, which then is in its window. -/
example : answerBetween [stamped 3] [stamped 3, stamped 2] (kRecent ++ ascii ['5']) =
    [stamped 3, stamped 2] := by decide

/-- What the command says of the recording as it was at one moment, and at one not before it. -/
def Consistent (recorded : List Scan) (command : Bytes) (scans : List Scan) : Prop :=
  ∃ first second, first <+: second ∧ second <+: recorded ∧
    scans = answerBetween first second command

theorem Consistent.grows {recorded recorded' : List Scan} {command : Bytes} {scans : List Scan}
    (h : Consistent recorded command scans) (hrec : recorded <+: recorded') :
    Consistent recorded' command scans := by
  obtain ⟨first, second, hfirst, hsecond, hscans⟩ := h
  exact ⟨first, second, hfirst, hsecond.trans hrec, hscans⟩

theorem Consistent.sublist {recorded : List Scan} {command : Bytes} {scans : List Scan}
    (h : Consistent recorded command scans) : scans.Sublist recorded := by
  obtain ⟨first, second, hfirst, hsecond, rfl⟩ := h
  unfold answerBetween
  split
  · cases hlast : first.getLast? with
    | none => exact List.nil_sublist _
    | some newest =>
      exact List.singleton_sublist.mpr
        ((hfirst.trans hsecond).subset (List.mem_of_getLast? hlast))
  · split
    · exact List.filter_sublist.trans hsecond.sublist
    · split
      · cases first.getLast? with
        | none => exact List.nil_sublist _
        | some newest => exact List.filter_sublist.trans hsecond.sublist
      · exact List.nil_sublist _

/-! ### The shape of a request -/

/-- What is left to do comes to `scans`, once its window, if it has one, is taken out of `second`. -/
def Closes (second scans : List Scan) : Handling → Prop
  | .done scans' => scans' = scans
  | .call (.range startNs endNs) next => next = .done ∧ scansIn startNs endNs second = scans
  | .call _ _ => False

/-- What is left once the newest scan is known finds the answer. -/
def Finishes (command : Bytes) (finish : Scan → Handling) : Prop :=
  ∀ first second newest, first.getLast? = some newest →
    Closes second (answerBetween first second command) (finish newest)

theorem handling_newest {command : Bytes} (h : AsksNewest command) :
    ∃ finish, Finishes command finish ∧ handling command =
      .call .count fun n : ℕ => if n = 0 then .done [] else getLastThen finish := by
  unfold handling
  by_cases hl : command = kLatest
  · refine ⟨fun scan => .done [scan], ?_, ?_⟩
    · intro first second newest hnewest
      show [newest] = answerBetween first second command
      unfold answerBetween
      rw [if_pos hl, hnewest]
      rfl
    · rw [if_pos hl]
      refine congrArg (Script.call ReaderCall.count) (funext fun n : ℕ => ?_)
      rcases Nat.eq_zero_or_pos n with rfl | hn
      · rfl
      · rw [if_pos hn, if_neg (Nat.ne_of_gt hn)]
  · obtain ⟨hrange, hrecent⟩ := h.resolve_left hl
    obtain ⟨windowNs, hwindow⟩ := Option.isSome_iff_exists.mp hrecent
    refine ⟨fun newest => .call (.range (newest.stampNs - windowNs) newest.stampNs) .done, ?_, ?_⟩
    · intro first second newest hnewest
      refine ⟨rfl, ?_⟩
      unfold answerBetween
      rw [if_neg hl, hrange, hwindow, hnewest]
      rfl
    · rw [if_neg hl, hrange, hwindow]

theorem handling_other {command : Bytes} (h : ¬ AsksNewest command) :
    (∃ startNs endNs, handling command = .call (.range startNs endNs) .done ∧
      ∀ first second, answerBetween first second command = scansIn startNs endNs second) ∨
    (handling command = .done [] ∧ ∀ first second, answerBetween first second command = []) := by
  have hl : command ≠ kLatest := fun hl => h (.inl hl)
  unfold handling answerBetween
  simp only [if_neg hl]
  cases hrange : parseRange command with
  | some bounds => exact .inl ⟨bounds.1, bounds.2, rfl, fun _ _ => rfl⟩
  | none =>
    have hrecent : parseRecent command = none := by
      by_contra hsome
      exact h (.inr ⟨hrange, Option.isSome_iff_ne_none.mpr hsome⟩)
    rw [hrecent]
    exact .inr ⟨rfl, fun _ _ => rfl⟩

theorem answerBetween_nil {command : Bytes} (h : AsksNewest command) (second : List Scan) :
    answerBetween [] second command = [] := by
  unfold answerBetween
  by_cases hl : command = kLatest
  · rw [if_pos hl]
    rfl
  · obtain ⟨hrange, hrecent⟩ := h.resolve_left hl
    obtain ⟨windowNs, hwindow⟩ := Option.isSome_iff_exists.mp hrecent
    rw [if_neg hl, hrange, hwindow]
    rfl

/-! ### A request under way -/

/-- How far a request has come, and what its calls have seen of the recording. -/
inductive Under (recorded : List Scan) (held : Held) (command : Bytes) (rest : Handling) : Prop
  | asked (h : rest = handling command)
  | counted (finish : Scan → Handling) (hfinish : Finishes command finish)
      (hsome : held.counts recorded ≠ []) (h : rest = getLastThen finish)
  | found (finish : Scan → Handling) (hfinish : Finishes command finish) (first : List Scan)
      (hsome : first ≠ []) (hfirst : first <+: held.counts recorded)
      (h : rest = .call (.get (first.length - 1)) finish)
  | pinned (first second : List Scan) (hheld : held = .pinned second) (hfirst : first <+: second)
      (hsecond : second <+: recorded)
      (h : Closes second (answerBetween first second command) rest)
  | answered (scans : List Scan) (hscans : Consistent recorded command scans)
      (hheld : AsksNewest command → scans ≠ [] → ∃ snapshot, held = .pinned snapshot)
      (h : rest = .done scans)

namespace Under

variable {recorded recorded' : List Scan} {held : Held} {command : Bytes} {rest : Handling}

theorem grows (h : Under recorded held command rest) (hrec : recorded <+: recorded') :
    Under recorded' held command rest := by
  have hcounts : held.counts recorded <+: held.counts recorded' := Held.counts_grows hrec
  cases h with
  | asked h => exact .asked h
  | counted finish hfinish hsome h =>
    refine .counted finish hfinish (fun hnil => hsome ?_) h
    rw [hnil] at hcounts
    exact List.prefix_nil.mp hcounts
  | found finish hfinish first hsome hfirst h =>
    exact .found finish hfinish first hsome (hfirst.trans hcounts) h
  | pinned first second hheld hfirst hsecond h =>
    exact .pinned first second hheld hfirst (hsecond.trans hrec) h
  | answered scans hscans hheld h => exact .answered scans (hscans.grows hrec) hheld h

/-- A call is answered: what a `get()` asks for is there. -/
theorem call {c : ReaderCall} {next : c.Result → Handling}
    (h : Under recorded held command (.call c next)) (hw : held.Within recorded) :
    ∃ r held', c.answer recorded held = some (r, held') ∧
      Under recorded held' command (next r) := by
  cases h with
  | asked h =>
    by_cases hasks : AsksNewest command
    · obtain ⟨finish, hfinish, hhandling⟩ := handling_newest hasks
      cases h.trans hhandling
      refine ⟨_, _, rfl, ?_⟩
      dsimp only
      split
      · case isTrue hzero =>
          refine .answered [] ⟨[], [], List.prefix_rfl, List.nil_prefix, ?_⟩ ?_ rfl
          · exact (answerBetween_nil hasks []).symm
          · exact fun _ hne => absurd rfl hne
      · case isFalse hsome =>
          refine .counted finish hfinish ?_ rfl
          rw [Held.counts_afterCount]
          exact fun hnil => hsome (List.length_eq_zero_iff.mpr hnil)
    · rcases handling_other hasks with ⟨startNs, endNs, hhandling, hanswer⟩ | ⟨hhandling, -⟩
      · cases h.trans hhandling
        refine ⟨_, _, rfl, .answered _ ⟨_, _, List.prefix_rfl, hw.ranges, ?_⟩ ?_ rfl⟩
        · exact (hanswer _ _).symm
        · exact fun hyes => absurd hyes hasks
      · cases h.trans hhandling
  | counted finish hfinish hsome h =>
    cases h
    refine ⟨_, _, rfl, .found finish hfinish (held.counts recorded) hsome ?_ rfl⟩
    rw [Held.counts_afterCount]
  | found finish hfinish first hsome hfirst h =>
    cases h
    have hlast := List.getLast?_eq_getElem? (l := first)
    have hlt : first.length - 1 < first.length :=
      Nat.sub_lt (List.length_pos_iff.mpr hsome) Nat.one_pos
    have hget : (held.counts recorded)[first.length - 1]? = some first[first.length - 1] := by
      rw [List.getElem?_eq_getElem (hlt.trans_le hfirst.length_le), hfirst.getElem hlt]
    rw [List.getElem?_eq_getElem hlt] at hlast
    refine ⟨first[first.length - 1], .pinned (held.counts recorded), ?_, ?_⟩
    · show ((held.counts recorded)[first.length - 1]?).map _ = _
      rw [hget]
      rfl
    · exact .pinned first _ rfl hfirst hw.counts (hfinish first _ _ hlast)
  | pinned first second hheld hfirst hsecond h =>
    cases c with
    | count => exact h.elim
    | get index => exact h.elim
    | range startNs endNs =>
      obtain ⟨rfl, hscans⟩ := h
      refine ⟨_, _, rfl, .answered _ ⟨first, second, hfirst, hsecond, hscans⟩ ?_ ?_⟩
      · exact fun _ _ => ⟨second, hheld⟩
      · rw [hheld]
        rfl
  | answered scans hscans hheld h => cases h

theorem done {scans : List Scan} (h : Under recorded held command (.done scans)) :
    Consistent recorded command scans ∧
      (AsksNewest command → scans ≠ [] → ∃ snapshot, held = .pinned snapshot) := by
  cases h with
  | asked h =>
    by_cases hasks : AsksNewest command
    · obtain ⟨finish, -, hhandling⟩ := handling_newest hasks
      cases h.trans hhandling
    · rcases handling_other hasks with ⟨_, _, hhandling, -⟩ | ⟨hhandling, hanswer⟩
      · cases h.trans hhandling
      · cases h.trans hhandling
        refine ⟨⟨[], [], List.prefix_rfl, List.nil_prefix, (hanswer [] []).symm⟩, ?_⟩
        exact fun hyes => absurd hyes hasks
  | counted finish hfinish hsome h => cases h
  | found finish hfinish first hsome hfirst h => cases h
  | pinned first second hheld hfirst hsecond h =>
    exact ⟨⟨first, second, hfirst, hsecond, h⟩, fun _ _ => ⟨second, hheld⟩⟩
  | answered scans' hscans hheld h =>
    cases h
    exact ⟨hscans, hheld⟩

end Under

theorem ReaderCall.answer_within {recorded : List Scan} {held held' : Held} {c : ReaderCall}
    {r : c.Result} (hw : held.Within recorded) (h : c.answer recorded held = some (r, held')) :
    held'.Within recorded := by
  cases c with
  | count =>
    cases h
    exact hw.afterCount
  | get index =>
    obtain ⟨scan, -, heq⟩ := Option.map_eq_some_iff.mp h
    cases heq
    exact hw.counts
  | range startNs endNs =>
    cases h
    exact hw

/-! ### Requests on a snapshot that stays -/

def valueOn (scans : List Scan) : Handling → Option (List Scan)
  | .done scans' => some scans'
  | .call c next => (c.answer scans (.pinned scans)).bind fun r => valueOn scans (next r.1)

theorem Closes.valueOn {second scans : List Scan} {rest : Handling} (h : Closes second scans rest) :
    valueOn second rest = some scans := by
  cases rest with
  | done scans' => exact congrArg some h
  | call c next =>
    cases c with
    | count => exact h.elim
    | get index => exact h.elim
    | range startNs endNs =>
      obtain ⟨rfl, hscans⟩ := h
      exact congrArg some hscans

theorem valueOn_handling (scans : List Scan) (command : Bytes) :
    valueOn scans (handling command) = some (answerFrom scans command) := by
  unfold answerFrom
  by_cases hasks : AsksNewest command
  · obtain ⟨finish, hfinish, hhandling⟩ := handling_newest hasks
    rw [hhandling]
    show valueOn scans (if scans.length = 0 then _ else _) = _
    split
    · case isTrue hzero =>
        rw [List.length_eq_zero_iff.mp hzero, answerBetween_nil hasks]
        rfl
    · case isFalse hsome =>
        have hlt : scans.length - 1 < scans.length := by omega
        have hget := List.getElem?_eq_getElem hlt
        have hlast := List.getLast?_eq_getElem? (l := scans)
        rw [hget] at hlast
        show (scans[scans.length - 1]?.map fun scan => (scan, Held.pinned scans)).bind
          (fun r => valueOn scans (finish r.1)) = _
        rw [hget]
        exact (hfinish scans scans _ hlast).valueOn
  · rcases handling_other hasks with ⟨startNs, endNs, hhandling, hanswer⟩ | ⟨hhandling, hanswer⟩
    · rw [hhandling, hanswer]
      rfl
    · rw [hhandling, hanswer]
      rfl

/-- A reader that holds a snapshot for good answers from it, and holds it. -/
theorem ReaderCall.answer_pinned (scans recorded : List Scan) (c : ReaderCall) :
    c.answer recorded (.pinned scans) = c.answer scans (.pinned scans) ∧
      ∀ r held, c.answer recorded (.pinned scans) = some (r, held) → held = .pinned scans := by
  cases c with
  | count =>
    refine ⟨rfl, fun r held h => ?_⟩
    cases h
    rfl
  | get index =>
    refine ⟨rfl, fun r held h => ?_⟩
    obtain ⟨scan, -, heq⟩ := Option.map_eq_some_iff.mp h
    cases heq
    rfl
  | range startNs endNs =>
    refine ⟨rfl, fun r held h => ?_⟩
    cases h
    rfl

theorem valueOn_call {scans recorded : List Scan} {c : ReaderCall} {next : c.Result → Handling}
    {r : c.Result} {held : Held} (h : c.answer recorded (.pinned scans) = some (r, held)) :
    valueOn scans (.call c next) = valueOn scans (next r) := by
  rw [(c.answer_pinned scans recorded).1] at h
  rw [valueOn, h, Option.bind_some]

end AuvMiddleware.Lidar
