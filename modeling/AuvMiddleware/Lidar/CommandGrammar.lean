import AuvMiddleware.Lidar.QueryClient

/-!
# The commands a server takes (query_server.cpp:13-47)

`from_chars` stops at the first character it does not like and leaves the rest to its caller; the
callers here skip spaces that need not be there and do not look at what is left at the end.
-/

namespace AuvMiddleware.Lidar
open Decimal Mw QueryClient

/-! ### The grammar -/

def Int64Text (text : Bytes) (z : Int64) : Prop := Numeral text z.toInt

def Spaces (gap : Bytes) : Prop := ∀ b ∈ gap, b = space

/-- `RANGE`, a space, a number, spaces, a number. -/
def RangeCommand (command : Bytes) (startNs endNs : Int64) : Prop :=
  ∃ start gap stop, command = kRange ++ (start ++ (gap ++ stop)) ∧ Int64Text start startNs ∧
    Spaces gap ∧ gap ≠ [] ∧ Int64Text stop endNs

/-- `RECENT`, a space, a number. -/
def RecentCommand (command : Bytes) (windowNs : Int64) : Prop :=
  ∃ window, command = kRecent ++ window ∧ Int64Text window windowNs

/-! ### What the parsers accept -/

theorem fromChars_eq_ok_iff {s rest : Bytes} {z : ℤ} :
    fromChars s = .ok z rest ↔ ∃ text v, s = text ++ rest ∧ Int64Text text v ∧ z = v.toInt ∧
      NoDigit rest := by
  unfold fromChars
  rw [parse_eq_ok_iff]
  constructor
  · rintro ⟨text, hs, htext, hlo, hhi, hrest⟩
    have hz : (Int64.ofInt z).toInt = z := Int64.toInt_ofInt_of_le hlo (by
      rw [Int64.toInt_maxValue] at hhi
      omega)
    refine ⟨text, Int64.ofInt z, hs, ?_, hz.symm, hrest⟩
    unfold Int64Text
    rwa [hz]
  · rintro ⟨text, v, hs, htext, rfl, hrest⟩
    exact ⟨text, hs, htext, v.minValue_le_toInt, v.toInt_le, hrest⟩

theorem Int64Text.head {text : Bytes} {z : Int64} (h : Int64Text text z) :
    ∃ b s, text = b :: s ∧ (b = minus ∨ isDigit b = true) ∧ b ≠ space := by
  obtain ⟨b, s, hs, hb⟩ := Numeral.head h
  refine ⟨b, s, hs, hb, ?_⟩
  rintro rfl
  rcases hb with hb | hb
  · exact absurd hb (by decide)
  · rw [not_isDigit_space] at hb
    cases hb

theorem noDigit_minus {text : Bytes} (h : text.head? = some minus) (rest : Bytes) :
    NoDigit (text ++ rest) := by
  cases text with
  | nil => cases h
  | cons c text =>
    cases h
    intro b hb
    cases hb
    exact not_isDigit_minus

theorem noDigit_spaces {gap : Bytes} (hgap : Spaces gap) (hne : gap ≠ []) (rest : Bytes) :
    NoDigit (gap ++ rest) := by
  cases gap with
  | nil => exact absurd rfl hne
  | cons c gap =>
    intro b hb
    cases hb
    rw [hgap c (List.mem_cons_self ..)]
    exact not_isDigit_space

theorem dropWhile_spaces {gap text : Bytes} {z : Int64} (hgap : Spaces gap)
    (htext : Int64Text text z) (rest : Bytes) :
    (gap ++ (text ++ rest)).dropWhile (fun b => b = space) = text ++ rest := by
  obtain ⟨b, s, rfl, -, hb⟩ := htext.head
  rw [List.dropWhile_append_of_pos fun b hb => decide_eq_true (hgap b hb), List.cons_append,
    List.dropWhile_cons_of_neg (by simpa using hb)]

theorem parseRecent_kRecent (s : Bytes) : parseRecent (kRecent ++ s) =
    match fromChars s with
    | .ok window _ => some (Int64.ofInt window)
    | _ => none := by
  have htake : (kRecent ++ s).take 7 = kRecent := rfl
  unfold parseRecent
  exact if_neg (not_not_intro htake)

theorem parseRecent_eq_some_iff {command : Bytes} {windowNs : Int64} :
    parseRecent command = some windowNs ↔ ∃ window rest,
      command = kRecent ++ (window ++ rest) ∧ Int64Text window windowNs ∧ NoDigit rest := by
  constructor
  · intro h
    by_cases htake : command.take 7 = kRecent
    · have hcommand : command = kRecent ++ command.drop 7 := by
        rw [← htake, List.take_append_drop]
      rw [hcommand, parseRecent_kRecent] at h
      split at h
      · rename_i z rest hz
        obtain ⟨text, v, hs, htext, rfl, hrest⟩ := fromChars_eq_ok_iff.mp hz
        rw [Int64.ofInt_toInt] at h
        cases h
        exact ⟨text, rest, by rw [← hs]; exact hcommand, htext, hrest⟩
      · cases h
    · rw [parseRecent, if_pos htake] at h
      cases h
  · rintro ⟨window, rest, rfl, hwindow, hrest⟩
    have hchars := fromChars_eq_ok_iff.mpr ⟨window, windowNs, rfl, hwindow, rfl, hrest⟩
    rw [parseRecent_kRecent, hchars]
    simp only [Int64.ofInt_toInt]

theorem parseRange_kRange (s : Bytes) : parseRange (kRange ++ s) =
    match fromChars s with
    | .ok start rest =>
      match fromChars (rest.dropWhile fun b => b = space) with
      | .ok stop _ => some (Int64.ofInt start, Int64.ofInt stop)
      | _ => none
    | _ => none := by
  have htake : (kRange ++ s).take 6 = kRange := rfl
  unfold parseRange
  exact if_neg (not_not_intro htake)

/-- Skipping spaces that need not be there: without one, the number after them must begin with
what a number before them cannot contain. -/
theorem exists_gap {tail stop rest : Bytes} {z : Int64} (htail : NoDigit tail)
    (hstop : Int64Text stop z) (hdrop : tail.dropWhile (fun b => b = space) = stop ++ rest) :
    ∃ gap, tail = gap ++ (stop ++ rest) ∧ Spaces gap ∧ (gap = [] → stop.head? = some minus) := by
  have hsplit : tail = tail.takeWhile (fun b => b = space) ++ (stop ++ rest) := by
    rw [← hdrop, List.takeWhile_append_dropWhile]
  refine ⟨tail.takeWhile (fun b => b = space), hsplit, fun b hb => ?_, fun hgap => ?_⟩
  · exact of_decide_eq_true (List.all_eq_true.mp List.all_takeWhile b hb)
  · rw [hgap, List.nil_append] at hsplit
    obtain ⟨b, s, rfl, hb, -⟩ := hstop.head
    rcases hb with rfl | hb
    · rfl
    · rw [htail b (by rw [hsplit]; rfl)] at hb
      cases hb

theorem noDigit_gap {gap stop : Bytes} (hgap : Spaces gap)
    (hminus : gap = [] → stop.head? = some minus) (rest : Bytes) :
    NoDigit (gap ++ (stop ++ rest)) := by
  by_cases hnil : gap = []
  · rw [hnil, List.nil_append]
    exact noDigit_minus (hminus hnil) rest
  · exact noDigit_spaces hgap hnil _

/-- The gap may be empty where the second number brings its own first character, and anything but
a digit may follow. -/
theorem parseRange_eq_some_iff {command : Bytes} {startNs endNs : Int64} :
    parseRange command = some (startNs, endNs) ↔ ∃ start gap stop rest,
      command = kRange ++ (start ++ (gap ++ (stop ++ rest))) ∧ Int64Text start startNs ∧
      Spaces gap ∧ (gap = [] → stop.head? = some minus) ∧ Int64Text stop endNs ∧ NoDigit rest := by
  constructor
  · intro h
    by_cases htake : command.take 6 = kRange
    · have hcommand : command = kRange ++ command.drop 6 := by
        rw [← htake, List.take_append_drop]
      rw [hcommand, parseRange_kRange] at h
      split at h
      · rename_i z tail hz
        obtain ⟨start, v, hs, hstart, rfl, htail⟩ := fromChars_eq_ok_iff.mp hz
        split at h
        · rename_i z' rest hz'
          obtain ⟨stop, v', hs', hstop, rfl, hrest⟩ := fromChars_eq_ok_iff.mp hz'
          rw [Int64.ofInt_toInt, Int64.ofInt_toInt] at h
          cases h
          obtain ⟨gap, rfl, hgap, hminus⟩ := exists_gap htail hstop hs'
          refine ⟨start, gap, stop, rest, ?_, hstart, hgap, hminus, hstop, hrest⟩
          rw [← hs]
          exact hcommand
        · cases h
      · cases h
    · rw [parseRange, if_pos htake] at h
      cases h
  · rintro ⟨start, gap, stop, rest, rfl, hstart, hgap, hminus, hstop, hrest⟩
    have hfirst := fromChars_eq_ok_iff.mpr
      ⟨start, startNs, rfl, hstart, rfl, noDigit_gap hgap hminus rest⟩
    have hsecond := fromChars_eq_ok_iff.mpr ⟨stop, endNs, rfl, hstop, rfl, hrest⟩
    rw [parseRange_kRange, hfirst]
    simp only [dropWhile_spaces hgap hstop rest, hsecond, Int64.ofInt_toInt]

/-! ### Beyond the grammar -/

/-- Two numbers with nothing between them but the minus sign of the second, or with something
after them. -/
def SloppyRange (command : Bytes) : Prop :=
  ∃ startNs endNs start gap stop rest, command = kRange ++ (start ++ (gap ++ (stop ++ rest))) ∧
    Int64Text start startNs ∧ Spaces gap ∧ (gap = [] → stop.head? = some minus) ∧
    Int64Text stop endNs ∧ NoDigit rest ∧ (gap = [] ∨ rest ≠ [])

def SloppyRecent (command : Bytes) : Prop :=
  ∃ windowNs window rest, command = kRecent ++ (window ++ rest) ∧ Int64Text window windowNs ∧
    NoDigit rest ∧ rest ≠ []

theorem noDigit_nil : NoDigit [] := by
  intro b hb
  cases hb

/-- A number at the front ends in one place only. -/
theorem Int64Text.unique {text text' rest rest' : Bytes} {z z' : Int64} (h : Int64Text text z)
    (hrest : NoDigit rest) (h' : Int64Text text' z') (hrest' : NoDigit rest')
    (heq : text ++ rest = text' ++ rest') : rest = rest' := by
  have hchars := fromChars_eq_ok_iff.mpr ⟨text, z, rfl, h, rfl, hrest⟩
  have hchars' := fromChars_eq_ok_iff.mpr ⟨text', z', rfl, h', rfl, hrest'⟩
  rw [heq, hchars'] at hchars
  injection hchars with _ hr
  exact hr.symm

theorem RangeCommand.accepted {command : Bytes} {startNs endNs : Int64}
    (h : RangeCommand command startNs endNs) : parseRange command = some (startNs, endNs) := by
  obtain ⟨start, gap, stop, rfl, hstart, hgap, hne, hstop⟩ := h
  refine parseRange_eq_some_iff.mpr ⟨start, gap, stop, [], ?_, hstart, hgap,
    fun h => absurd h hne, hstop, noDigit_nil⟩
  rw [List.append_nil]

theorem RecentCommand.accepted {command : Bytes} {windowNs : Int64}
    (h : RecentCommand command windowNs) : parseRecent command = some windowNs := by
  obtain ⟨window, rfl, hwindow⟩ := h
  refine parseRecent_eq_some_iff.mpr ⟨window, [], ?_, hwindow, noDigit_nil⟩
  rw [List.append_nil]

theorem SloppyRange.not_rangeCommand {command : Bytes} (h : SloppyRange command)
    (startNs endNs : Int64) : ¬ RangeCommand command startNs endNs := by
  rintro ⟨start', gap', stop', heq, hstart', hgap', hne, hstop'⟩
  obtain ⟨_, _, start, gap, stop, rest, rfl, hstart, hgap, hminus, hstop, hrest, hsloppy⟩ := h
  have hnumbers := List.append_cancel_left heq
  by_cases hnil : gap = []
  · -- the first number is followed by a minus sign here and by a space there
    subst hnil
    obtain ⟨b, s, rfl, -, -⟩ := hstop.head
    have hb : b = minus := Option.some.inj (hminus rfl)
    subst hb
    rw [List.nil_append] at hnumbers
    have hrest := hstart.unique (noDigit_minus rfl rest) hstart' (noDigit_spaces hgap' hne _)
      hnumbers
    cases gap' with
    | nil => exact hne rfl
    | cons c gap' =>
      have hc : minus = c := List.head_eq_of_cons_eq hrest
      rw [hgap' c (List.mem_cons_self ..)] at hc
      exact absurd hc (by decide)
  · have hgaps := hstart.unique (noDigit_spaces hgap hnil _) hstart'
      (noDigit_spaces hgap' hne _) hnumbers
    have hdrop := congrArg (List.dropWhile fun b => decide (b = space)) hgaps
    have hwhole := dropWhile_spaces hgap' hstop' []
    rw [List.append_nil] at hwhole
    rw [dropWhile_spaces hgap hstop rest, hwhole] at hdrop
    have hend := hstop.unique hrest hstop' noDigit_nil (by rw [List.append_nil]; exact hdrop)
    rcases hsloppy with hgapNil | hne'
    · exact hnil hgapNil
    · exact hne' hend

theorem SloppyRecent.not_recentCommand {command : Bytes} (h : SloppyRecent command)
    (windowNs : Int64) : ¬ RecentCommand command windowNs := by
  rintro ⟨window', heq, hwindow'⟩
  obtain ⟨_, window, rest, rfl, hwindow, hrest, hne⟩ := h
  refine hne (hwindow.unique hrest hwindow' noDigit_nil ?_)
  rw [List.append_nil]
  exact List.append_cancel_left heq

theorem SloppyRange.accepted {command : Bytes} (h : SloppyRange command) :
    ∃ startNs endNs, parseRange command = some (startNs, endNs) := by
  obtain ⟨startNs, endNs, start, gap, stop, rest, hsplit, hstart, hgap, hminus, hstop, hrest, -⟩ := h
  exact ⟨startNs, endNs, parseRange_eq_some_iff.mpr
    ⟨start, gap, stop, rest, hsplit, hstart, hgap, hminus, hstop, hrest⟩⟩

theorem SloppyRecent.accepted {command : Bytes} (h : SloppyRecent command) :
    ∃ windowNs, parseRecent command = some windowNs := by
  obtain ⟨windowNs, window, rest, hsplit, hwindow, hrest, -⟩ := h
  exact ⟨windowNs, parseRecent_eq_some_iff.mpr ⟨window, rest, hsplit, hwindow, hrest⟩⟩

theorem parseRange_neat_iff {command : Bytes} (hneat : ¬ SloppyRange command)
    (startNs endNs : Int64) :
    parseRange command = some (startNs, endNs) ↔ RangeCommand command startNs endNs := by
  refine ⟨fun h => ?_, RangeCommand.accepted⟩
  obtain ⟨start, gap, stop, rest, hsplit, hstart, hgap, hminus, hstop, hrest⟩ :=
    parseRange_eq_some_iff.mp h
  have hends : ¬ (gap = [] ∨ rest ≠ []) := fun hsloppy => hneat
    ⟨startNs, endNs, start, gap, stop, rest, hsplit, hstart, hgap, hminus, hstop, hrest, hsloppy⟩
  rw [not_or, not_not] at hends
  refine ⟨start, gap, stop, ?_, hstart, hgap, hends.1, hstop⟩
  rwa [hends.2, List.append_nil] at hsplit

theorem parseRecent_neat_iff {command : Bytes} (hneat : ¬ SloppyRecent command)
    (windowNs : Int64) : parseRecent command = some windowNs ↔ RecentCommand command windowNs := by
  refine ⟨fun h => ?_, RecentCommand.accepted⟩
  obtain ⟨window, rest, hsplit, hwindow, hrest⟩ := parseRecent_eq_some_iff.mp h
  have hend : rest = [] := by
    by_contra hne
    exact hneat ⟨windowNs, window, rest, hsplit, hwindow, hrest, hne⟩
  refine ⟨window, ?_, hwindow⟩
  rwa [hend, List.append_nil] at hsplit

theorem handle_unrecognised (P : Protobuf) {command : Bytes} (hlatest : command ≠ kLatest)
    (hrange : parseRange command = none) (hrecent : parseRecent command = none) (s : ServerState) :
    (handle P command s).1 = .ok (encodeScans P []) := by
  have hdispatch : dispatch P command = pure [] := by
    unfold dispatch
    rw [if_neg hlatest, hrange, hrecent]
  unfold handle
  rw [hdispatch]
  rfl

/-- The parsers take exactly the commands of the grammar, and all others are answered with
nothing, but for the sloppy ones. -/
theorem commands_exact_iff (P : Protobuf) (command : Bytes) :
    ((∀ startNs endNs, parseRange command = some (startNs, endNs) ↔
        RangeCommand command startNs endNs) ∧
      (∀ windowNs, parseRecent command = some windowNs ↔ RecentCommand command windowNs) ∧
      (command ≠ kLatest → (∀ startNs endNs, ¬ RangeCommand command startNs endNs) →
        (∀ windowNs, ¬ RecentCommand command windowNs) →
          ∀ s, (handle P command s).1 = .ok (encodeScans P []))) ↔
    ¬ SloppyRange command ∧ ¬ SloppyRecent command := by
  constructor
  · rintro ⟨hrange, hrecent, -⟩
    constructor
    · intro hsloppy
      obtain ⟨startNs, endNs, haccepted⟩ := hsloppy.accepted
      exact hsloppy.not_rangeCommand _ _ ((hrange startNs endNs).mp haccepted)
    · intro hsloppy
      obtain ⟨windowNs, haccepted⟩ := hsloppy.accepted
      exact hsloppy.not_recentCommand _ ((hrecent windowNs).mp haccepted)
  · rintro ⟨hnoRange, hnoRecent⟩
    refine ⟨parseRange_neat_iff hnoRange, parseRecent_neat_iff hnoRecent, ?_⟩
    intro hlatest hnotRange hnotRecent s
    have hr : parseRange command = none := by
      cases h : parseRange command with
      | none => rfl
      | some bounds =>
        exact absurd ((parseRange_neat_iff hnoRange bounds.1 bounds.2).mp h) (hnotRange _ _)
    have hw : parseRecent command = none := by
      cases h : parseRecent command with
      | none => rfl
      | some windowNs =>
        exact absurd ((parseRecent_neat_iff hnoRecent windowNs).mp h) (hnotRecent _)
    exact handle_unrecognised P hlatest hr hw s

/-- `RANGE 1-2x` is taken for the range from 1 to -2. -/
theorem rangeRunTogether_accepted :
    parseRange (kRange ++ ascii ['1', '-', '2', 'x']) = some (1, -2) ∧
      ∀ startNs endNs, ¬ RangeCommand (kRange ++ ascii ['1', '-', '2', 'x']) startNs endNs := by
  refine ⟨by decide, ?_⟩
  rintro startNs endNs ⟨start, gap, stop, heq, -, hgap, hne, -⟩
  have hnumbers := List.append_cancel_left heq
  obtain ⟨b, hb⟩ := List.exists_mem_of_ne_nil gap hne
  have hspace : space ∈ ascii ['1', '-', '2', 'x'] := by
    rw [hnumbers, ← hgap b hb]
    exact List.mem_append_right _ (List.mem_append_left _ hb)
  exact absurd hspace (by decide)

end AuvMiddleware.Lidar
