import AuvMiddleware.Lidar.RequestProgress

/-!
# A query server beside a running recorder (query_server.cpp, reader.cpp)

The server keeps one reader. What its calls leave on a row decides which snapshot the next call is
answered from; the abstract server below says in its own terms which scans that are. The recorder
may commit, and requests may arrive, between any two calls of a request.
-/

namespace AuvMiddleware.Lidar
open Decimal Mw Runs QueryClient

/-! ### The abstract server -/

/-- The recorder, and a server that answers from lists of scans. -/
structure LiveAnswers where
  store : StoreState := {}
  waiting : List (ℕ × Bytes) := []
  inHand : Option ((ℕ × Bytes) × Handling) := none
  held : Held := .nothing
  replies : List ((ℕ × Bytes) × List Scan) := []

inductive LiveServerStep where
  | recorder (i : StoreStep)
  | arrive (peer : ℕ) (command : Bytes)
  | receive
  /-- The next call on the reader of the request in hand. -/
  | call
  | reply

def LiveAnswers.step (P : Protobuf) (logPath : String) (a : LiveAnswers) :
    LiveServerStep → Option LiveAnswers
  | .recorder i => (storeStep P logPath a.store i).map fun store => { a with store := store }
  | .arrive peer command => some { a with waiting := a.waiting ++ [(peer, command)] }
  | .receive =>
    match a.inHand, a.waiting with
    | some _, _ => none
    | none, [] => some a
    | none, r :: rest => some { a with waiting := rest, inHand := some (r, handling r.2) }
  | .call =>
    match a.inHand with
    | some (r, .call c next) => (c.answer a.store.recorded a.held).map fun x =>
        { a with held := x.2, inHand := some (r, next x.1) }
    | _ => none
  | .reply =>
    match a.inHand with
    | some (r, .done scans) => some { a with inHand := none, replies := a.replies ++ [(r, scans)] }
    | _ => none

def LiveAnswers.Told (a : LiveAnswers) : Prop := ∃ r ∈ a.replies, AsksNewest r.1.2 ∧ r.2 ≠ []

/-- What is held is of the recording, the request in hand has come somewhere, every reply is
consistent, and the snapshot that a newest scan was found in stays and answers what comes later. -/
structure AnswersInv (a : LiveAnswers) : Prop where
  within : a.held.Within a.store.recorded
  underway : ∀ r rest, a.inHand = some (r, rest) → Under a.store.recorded a.held r.2 rest
  replies : ∀ r ∈ a.replies, Consistent a.store.recorded r.1.2 r.2
  pins : a.Told → ∃ scans, a.held = .pinned scans
  value : a.Told → ∀ scans, a.held = .pinned scans → ∀ r rest, a.inHand = some (r, rest) →
    valueOn scans rest = some (answerFrom scans r.2)

theorem storeStep_grows {P : Protobuf} {logPath : String} {s s' : StoreState} {i : StoreStep}
    (h : storeStep P logPath s i = some s') :
    (∃ more, s'.files.log = s.files.log ++ more) ∧ s.recorded <+: s'.recorded := by
  rcases storeStep_cases h with ⟨-, rfl⟩ | ⟨scan, _, _, _, -, -, hlog, -, hrec, -⟩ |
    ⟨_, more, -, hlog, -, hrec, -⟩
  · exact ⟨⟨[], (List.append_nil _).symm⟩, List.prefix_rfl⟩
  · rw [hrec]
    exact ⟨⟨_, hlog⟩, List.prefix_append _ _⟩
  · rw [hrec]
    exact ⟨⟨more, hlog⟩, List.prefix_rfl⟩

section Answers

variable {P : Protobuf} {logPath : String} {store : StoreState} {a a' : LiveAnswers}

theorem answersInv_start (store : StoreState) : AnswersInv { store := store } :=
  ⟨trivial, nofun, nofun, fun ⟨_, hr, _⟩ => absurd hr List.not_mem_nil, fun _ _ _ => nofun⟩

theorem LiveAnswers.call_cases (h : a.step P logPath .call = some a') :
    ∃ r c next x, a.inHand = some (r, .call c next) ∧
      c.answer a.store.recorded a.held = some x ∧
      a' = { a with held := x.2, inHand := some (r, next x.1) } := by
  simp only [LiveAnswers.step] at h
  split at h
  · case h_1 r c next hhand =>
      obtain ⟨x, hx, rfl⟩ := Option.map_eq_some_iff.mp h
      exact ⟨r, c, next, x, hhand, hx, rfl⟩
  · cases h

theorem LiveAnswers.reply_cases (h : a.step P logPath .reply = some a') :
    ∃ r scans, a.inHand = some (r, .done scans) ∧
      a' = { a with inHand := none, replies := a.replies ++ [(r, scans)] } := by
  simp only [LiveAnswers.step] at h
  split at h
  · case h_1 r scans hhand =>
      cases h
      exact ⟨r, scans, hhand, rfl⟩
  · cases h

theorem LiveAnswers.receive_cases (h : a.step P logPath .receive = some a') :
    a.inHand = none ∧ (a.waiting = [] ∧ a' = a ∨ ∃ r rest, a.waiting = r :: rest ∧
      a' = { a with waiting := rest, inHand := some (r, handling r.2) }) := by
  simp only [LiveAnswers.step] at h
  split at h
  · cases h
  · case h_2 hhand hwaiting =>
      cases h
      exact ⟨hhand, .inl ⟨hwaiting, rfl⟩⟩
  · case h_3 r rest hhand hwaiting =>
      cases h
      exact ⟨hhand, .inr ⟨r, rest, hwaiting, rfl⟩⟩

theorem answers_step (a : LiveAnswers) (i : LiveServerStep) (a' : LiveAnswers)
    (hi : AnswersInv a) (h : a.step P logPath i = some a') : AnswersInv a' := by
  cases i with
  | recorder i =>
    obtain ⟨store, hstore, rfl⟩ := Option.map_eq_some_iff.mp h
    have hrec := (storeStep_grows hstore).2
    exact ⟨hi.within.grows hrec, fun r rest hhand => (hi.underway r rest hhand).grows hrec,
      fun r hr => (hi.replies r hr).grows hrec, hi.pins, hi.value⟩
  | arrive peer command =>
    cases h
    exact ⟨hi.within, hi.underway, hi.replies, hi.pins, hi.value⟩
  | receive =>
    obtain ⟨-, ⟨-, rfl⟩ | ⟨r, rest, -, rfl⟩⟩ := LiveAnswers.receive_cases h
    · exact hi
    · refine ⟨hi.within, ?_, hi.replies, hi.pins, ?_⟩
      · intro r' rest' hhand
        cases hhand
        exact .asked rfl
      · intro _ scans _ r' rest' hhand
        cases hhand
        exact valueOn_handling scans r.2
  | call =>
    obtain ⟨r, c, next, ⟨result, held⟩, hhand, hanswer, rfl⟩ := LiveAnswers.call_cases h
    obtain ⟨result', held', hanswer', hunder⟩ := (hi.underway r _ hhand).call hi.within
    cases hanswer.symm.trans hanswer'
    have hstays (scans : List Scan) (hheld : a.held = .pinned scans) : held = .pinned scans := by
      rw [hheld] at hanswer
      exact (c.answer_pinned scans _).2 _ _ hanswer
    refine ⟨c.answer_within hi.within hanswer, ?_, hi.replies, ?_, ?_⟩
    · intro r' rest' hhand'
      cases hhand'
      exact hunder
    · intro htold
      obtain ⟨scans, hheld⟩ := hi.pins htold
      exact ⟨scans, hstays scans hheld⟩
    · intro htold scans hscans r' rest' hhand'
      cases hhand'
      obtain ⟨scans', hheld⟩ := hi.pins htold
      cases (hstays scans' hheld).symm.trans hscans
      have hvalue := hi.value htold scans hheld r _ hhand
      rw [hheld] at hanswer
      rwa [valueOn_call hanswer] at hvalue
  | reply =>
    obtain ⟨r, scans, hhand, rfl⟩ := LiveAnswers.reply_cases h
    obtain ⟨hconsistent, hpins⟩ := (hi.underway r _ hhand).done
    refine ⟨hi.within, nofun, ?_, ?_, fun _ _ _ => nofun⟩
    · intro reply hreply
      rcases List.mem_append.mp hreply with hreply | hreply
      · exact hi.replies reply hreply
      · rw [List.mem_singleton.mp hreply]
        exact hconsistent
    · rintro ⟨reply, hreply, hasks, hsome⟩
      rcases List.mem_append.mp hreply with hreply | hreply
      · exact hi.pins ⟨reply, hreply, hasks, hsome⟩
      · rw [List.mem_singleton.mp hreply] at hasks hsome
        exact hpins hasks hsome

/-! ### Snapshots that stay -/

def LiveAnswers.LooksUp (a : LiveAnswers) : Prop := (a.inHand.map Prod.snd).any looksUp

theorem pinned_stays {scans : List Scan} (a : LiveAnswers) (i : LiveServerStep) (a' : LiveAnswers)
    (hheld : a.held = .pinned scans) (h : a.step P logPath i = some a') :
    a'.held = .pinned scans := by
  cases i with
  | recorder i =>
    obtain ⟨store, -, rfl⟩ := Option.map_eq_some_iff.mp h
    exact hheld
  | arrive peer command =>
    cases h
    exact hheld
  | receive =>
    obtain ⟨-, ⟨-, rfl⟩ | ⟨r, rest, -, rfl⟩⟩ := LiveAnswers.receive_cases h
    · exact hheld
    · exact hheld
  | call =>
    obtain ⟨r, c, next, x, -, hanswer, rfl⟩ := LiveAnswers.call_cases h
    rw [hheld] at hanswer
    exact (c.answer_pinned scans _).2 _ _ hanswer
  | reply =>
    obtain ⟨r, scans', -, rfl⟩ := LiveAnswers.reply_cases h
    exact hheld

/-- A snapshot is held for good from the first look-up on, and is then the recording as it is. -/
theorem pinned_iff_looksUp {i : LiveServerStep} (hheld : ∀ scans, a.held ≠ .pinned scans)
    (h : a.step P logPath i = some a') {scans : List Scan} :
    a'.held = .pinned scans ↔ i = .call ∧ a.LooksUp ∧ a.store.recorded = scans := by
  cases i with
  | recorder i =>
    obtain ⟨store, -, rfl⟩ := Option.map_eq_some_iff.mp h
    simp [hheld]
  | arrive peer command =>
    cases h
    simp [hheld]
  | receive =>
    obtain ⟨-, ⟨-, rfl⟩ | ⟨r, rest, -, rfl⟩⟩ := LiveAnswers.receive_cases h
    · simp [hheld]
    · simp [hheld]
  | reply =>
    obtain ⟨r, scans', -, rfl⟩ := LiveAnswers.reply_cases h
    simp [hheld]
  | call =>
    obtain ⟨r, c, next, ⟨result, held⟩, hhand, hanswer, rfl⟩ := LiveAnswers.call_cases h
    have hcounts : a.held.counts a.store.recorded = a.store.recorded := by
      cases hheld' : a.held with
      | nothing => rfl
      | counted scans' => rfl
      | pinned scans' => exact absurd hheld' (hheld scans')
    simp only [LiveAnswers.LooksUp, hhand, Option.map_some, Option.any_some, true_and]
    cases c with
    | count =>
      cases hanswer
      cases hheld' : a.held with
      | nothing => simp [Held.afterCount, looksUp]
      | counted scans' => simp [Held.afterCount, looksUp]
      | pinned scans' => exact absurd hheld' (hheld scans')
    | range startNs endNs =>
      cases hanswer
      simp [hheld, looksUp]
    | get index =>
      obtain ⟨scan, -, heq⟩ := Option.map_eq_some_iff.mp hanswer
      cases heq
      simp [hcounts, looksUp]

/-- At the end of `before` the first newest scan is about to be looked up, in `scans`. -/
structure PinsAt (P : Protobuf) (logPath : String) (store : StoreState) (scans : List Scan)
    (before : List LiveServerStep) (m : LiveAnswers) : Prop where
  reached : run (LiveAnswers.step P logPath) { store := store } before = some m
  looksUp : m.LooksUp
  first : Throughout (LiveAnswers.step P logPath) (fun b i => i = .call → ¬ b.LooksUp)
    { store := store } before
  recorded : m.store.recorded = scans

/-- After `steps`, what is held for good was looked up first in one of them; nothing was if nothing
is held so. -/
structure PinnedHistory (P : Protobuf) (logPath : String) (store : StoreState)
    (steps : List LiveServerStep) (a : LiveAnswers) : Prop where
  reached : run (LiveAnswers.step P logPath) { store := store } steps = some a
  unpinned : (∀ scans, a.held ≠ .pinned scans) →
    Throughout (LiveAnswers.step P logPath) (fun b i => i = .call → ¬ b.LooksUp)
      { store := store } steps
  pins : ∀ scans, a.held = .pinned scans →
    ∃ before after m, steps = before ++ .call :: after ∧ PinsAt P logPath store scans before m

theorem pinnedHistory_step (is : List LiveServerStep) (a : LiveAnswers) (i : LiveServerStep)
    (a' : LiveAnswers) (h : PinnedHistory P logPath store is a)
    (hstep : a.step P logPath i = some a') : PinnedHistory P logPath store (is ++ [i]) a' := by
  refine ⟨?_, ?_, ?_⟩
  · rw [run_append, h.reached, Option.bind_some, run, hstep]
    rfl
  · intro hheld'
    have hheld (scans : List Scan) (hpinned : a.held = .pinned scans) : False :=
      hheld' scans (pinned_stays a i a' hpinned hstep)
    refine throughout_append h.reached (h.unpinned hheld) ⟨?_, fun _ _ => trivial⟩
    intro hcall hlooks
    exact hheld' _ ((pinned_iff_looksUp hheld hstep).mpr ⟨hcall, hlooks, rfl⟩)
  · intro scans hheld'
    by_cases hpinned : ∃ scans', a.held = .pinned scans'
    · obtain ⟨scans', hheld⟩ := hpinned
      cases (pinned_stays a i a' hheld hstep).symm.trans hheld'
      obtain ⟨before, after, m, rfl, hpins⟩ := h.pins scans hheld
      exact ⟨before, after ++ [i], m, by rw [List.append_assoc, List.cons_append], hpins⟩
    · have hheld (scans : List Scan) (hpinned' : a.held = .pinned scans) : False :=
        hpinned ⟨scans, hpinned'⟩
      obtain ⟨rfl, hlooks, hrec⟩ := (pinned_iff_looksUp hheld hstep).mp hheld'
      exact ⟨is, [], a, rfl, h.reached, hlooks, h.unpinned hheld, hrec⟩

/-- A snapshot that is held for good was taken when a newest scan was looked up first. -/
theorem pinned_at {steps : List LiveServerStep}
    (hrun : run (LiveAnswers.step P logPath) { store := store } steps = some a) {scans : List Scan}
    (hheld : a.held = .pinned scans) :
    ∃ before after m, steps = before ++ .call :: after ∧ PinsAt P logPath store scans before m := by
  have hstart : PinnedHistory P logPath store [] { store := store } :=
    ⟨rfl, fun _ => trivial, fun _ hpinned => by cases hpinned⟩
  exact (run_history pinnedHistory_step hstart hrun).pins scans hheld

/-- From a snapshot that stays every later reply is told. -/
theorem pinned_run (hi : AnswersInv a) (htold : a.Told) {scans : List Scan}
    (hheld : a.held = .pinned scans) {steps : List LiveServerStep}
    (hrun : run (LiveAnswers.step P logPath) a steps = some a') :
    ∃ more, a'.replies = a.replies ++ more ∧ ∀ r ∈ more, r.2 = answerFrom scans r.1.2 := by
  have hkeep (b : LiveAnswers) (i : LiveServerStep) (b' : LiveAnswers)
      (hb : AnswersInv b ∧ b.held = .pinned scans ∧ ∃ more, b.replies = a.replies ++ more ∧
        ∀ r ∈ more, r.2 = answerFrom scans r.1.2)
      (hs : b.step P logPath i = some b') : AnswersInv b' ∧ b'.held = .pinned scans ∧
        ∃ more, b'.replies = a.replies ++ more ∧ ∀ r ∈ more, r.2 = answerFrom scans r.1.2 := by
    obtain ⟨hinv, hpinned, more, hreplies, hmore⟩ := hb
    have hinv' := answers_step b i b' hinv hs
    have htold' : b.Told := by
      obtain ⟨r, hr, hasks⟩ := htold
      exact ⟨r, by rw [hreplies]; exact List.mem_append_left _ hr, hasks⟩
    refine ⟨hinv', pinned_stays b i b' hpinned hs, ?_⟩
    cases i with
    | recorder i =>
      obtain ⟨store, -, rfl⟩ := Option.map_eq_some_iff.mp hs
      exact ⟨more, hreplies, hmore⟩
    | arrive peer command =>
      cases hs
      exact ⟨more, hreplies, hmore⟩
    | receive =>
      obtain ⟨-, ⟨-, rfl⟩ | ⟨r, rest, -, rfl⟩⟩ := LiveAnswers.receive_cases hs
      · exact ⟨more, hreplies, hmore⟩
      · exact ⟨more, hreplies, hmore⟩
    | call =>
      obtain ⟨r, c, next, x, -, -, rfl⟩ := LiveAnswers.call_cases hs
      exact ⟨more, hreplies, hmore⟩
    | reply =>
      obtain ⟨r, scans', hhand, rfl⟩ := LiveAnswers.reply_cases hs
      refine ⟨more ++ [(r, scans')], ?_, ?_⟩
      · rw [hreplies, List.append_assoc]
      · intro reply hreply
        rcases List.mem_append.mp hreply with hreply | hreply
        · exact hmore reply hreply
        · rw [List.mem_singleton.mp hreply]
          exact Option.some.inj (hinv.value htold' scans hpinned r _ hhand)
  exact (run_invariant hkeep ⟨hi, hheld, [], (List.append_nil _).symm, nofun⟩ hrun).2.2

end Answers

end AuvMiddleware.Lidar
