import AuvMiddleware.Lidar.ServerSnapshot

/-!
# The query server's steps (query_server.cpp:65-112)

`serve_one` receives, makes the calls of `handle` on its reader one after the other, and replies; an
exception of one of them leaves it and ends the program. The SQLite calls themselves do not fail.
-/

namespace AuvMiddleware.Lidar
open Decimal Mw Runs QueryClient

structure LiveServer where
  store : StoreState := {}
  server : QueryServer := {}
  inHand : Option Handling := none
  threw : Bool := false

namespace LiveServer

def env (s : LiveServer) : ReadEnv :=
  { log := s.store.files.log, table := s.store.files.index.getD Table.empty }

def step (P : Protobuf) (logPath : String) (s : LiveServer) : LiveServerStep → Option LiveServer
  | .recorder i => (storeStep P logPath s.store i).map fun store => { s with store := store }
  | .arrive peer command => some { s with
      server.socket.inbox := s.server.socket.inbox ++ [(peer, command)] }
  | .receive =>
    if s.inHand.isSome || s.threw then none
    else
      match s.server.socket.receive with
      | (none, _) => some s
      | (some r, socket) => some { s with
          server.socket := socket
          server.servedCount := s.server.servedCount + 1
          inHand := some (handling r.2) }
  | .call =>
    match s.inHand with
    | some (.call c next) =>
      match (Script.call c next).advance (ReaderCall.call P) ⟨s.server.reader, s.env⟩ with
      | (.ok rest, st) => some { s with server.reader := st.reader, inHand := some rest }
      | (.error _, st) => some { s with server.reader := st.reader, inHand := none, threw := true }
    | _ => none
  | .reply =>
    match s.inHand with
    | some (.done scans) => some { s with
        server.socket := s.server.socket.reply (encodeScans P scans)
        inHand := none }
    | _ => none

/-- A reader just opened on the files of a recorder. -/
def opened (store : StoreState) : LiveServer := { store := store }

end LiveServer

/-! ### With nothing in between -/

section Alone

variable {P : Protobuf} {logPath : String}

theorem rangeLoop_env {rows : List Row} {acc scans : List Scan} {st st' : ReaderState}
    (hf : st.env.faults = []) (h : rangeLoop P rows acc st = (.ok scans, st')) :
    st'.env = st.env := by
  induction rows generalizing st acc with
  | nil =>
    obtain ⟨row, m, hstep, hpure⟩ := Call.bind_eq_ok h
    cases hpure
    exact (sqlStep_eq_ok _ _ _ _ hstep).2.2.trans (ReadEnv.later_of_nil hf 1)
  | cons row rows ih =>
    obtain ⟨row', m, hstep, hrest⟩ := Call.bind_eq_ok h
    obtain ⟨scan, m', hread, hloop⟩ := Call.bind_eq_ok hrest
    have hm := (sqlStep_eq_ok _ _ _ _ hstep).2.2.trans (ReadEnv.later_of_nil hf 1)
    have hm' := (readRecordAt_decodes hread).2.trans hm
    rw [ih (by rw [hm']; exact hf) hloop, hm']

/-- A call that returns leaves the files as they were. -/
theorem call_env {c : ReaderCall} {r : c.Result} {st st' : ReaderState}
    (hf : st.env.faults = []) (h : c.call P st = (.ok r, st')) : st'.env = st.env := by
  have hlater (k : ℕ) : st.env.later k = st.env := ReadEnv.later_of_nil hf k
  cases c with
  | count =>
    obtain ⟨-, -, rfl⟩ := count_eq_ok h
    exact st.counted_env.trans (hlater 1)
  | get index =>
    obtain ⟨h1, hindex, -⟩ := get_eq_ok h
    obtain ⟨h1, -⟩ := (ReadEnv.faultFree_add 1 1 st.env).mp h1
    have hget : Lidar.get P index st = (.ok r, st') := h
    rw [get_inRange h1 hindex] at hget
    obtain ⟨row, m, hstep, hread⟩ := Call.bind_eq_ok hget
    have hcounted : (st.counted.halt .get).env = st.env := st.counted_env.trans (hlater 1)
    have hm := (sqlStep_eq_ok _ _ _ _ hstep).2.2
    rw [hcounted, hlater 1] at hm
    cases row with
    | some row => exact (readRecordAt_decodes hread).2.trans hm
    | none => exact (readRecordAt_decodes hread).2.trans hm
  | range startNs endNs =>
    have hloop : rangeLoop P _ [] (st.halt .range) = (.ok r, st') := h
    have hsame := rangeLoop_env (by exact hf) hloop
    exact hsame

variable (logPath) in
theorem calls_run {s : LiveServer} {x y : Handling × ReaderState}
    (h : Relation.ReflTransGen (Script.Calls (ReaderCall.call P)) x y)
    (hhand : s.inHand = some x.1) (hreading : x.2 = ⟨s.server.reader, s.env⟩) :
    ∃ k, run (LiveServer.step P logPath) s (List.replicate k .call) =
      some { s with server.reader := y.2.reader, inHand := some y.1 } := by
  induction h using Relation.ReflTransGen.head_induction_on generalizing s with
  | refl =>
    refine ⟨0, congrArg some ?_⟩
    rw [hreading, ← hhand]
  | @head x m hcall _ ih =>
    obtain ⟨c, next, hx, hadvance⟩ := hcall
    rw [hx, hreading] at hadvance
    obtain ⟨r, hcalled, -⟩ := Script.advance_eq_ok _ hadvance
    have henv := call_env rfl hcalled
    have hstep : s.step P logPath .call =
        some { s with server.reader := m.2.reader, inHand := some m.1 } := by
      simp only [LiveServer.step, hhand, hx, hadvance]
    obtain ⟨k, hk⟩ := ih (s := { s with server.reader := m.2.reader, inHand := some m.1 }) rfl
      (congrArg (ReaderState.mk m.2.reader) henv)
    refine ⟨k + 1, ?_⟩
    rw [List.replicate_succ, run, hstep]
    exact hk

/-- `serve_one` is these steps, one after the other. -/
theorem serveOne_steps (s : LiveServer) (hidle : s.inHand = none) (hthrew : s.threw = false)
    (hsettled : s.server.socket.Settled) {r : ℕ × Bytes} {rest : List (ℕ × Bytes)}
    (hinbox : s.server.socket.inbox = r :: rest)
    (hok : (s.server.serveOne P s.env).1 = .ok true) :
    ∃ k, run (LiveServer.step P logPath) s (.receive :: (List.replicate k .call ++ [.reply])) =
      some { s with server := (s.server.serveOne P s.env).2 } := by
  have hreceive : s.step P logPath .receive = some { s with
      server.socket := { s.server.socket with
        inbox := rest, owing := some r, received := s.server.socket.received ++ [r] }
      server.servedCount := s.server.servedCount + 1
      inHand := some (handling r.2) } := by
    simp only [LiveServer.step, hidle, hthrew, RepSocket.receive_cons hsettled.owing hinbox]
    rfl
  cases hdispatch : dispatch P r.2 ⟨s.server.reader, s.env⟩ with
  | mk result st =>
    cases result with
    | error e =>
      have hhandle := handle_throws (s := ⟨⟨s.server.reader, s.env⟩, s.server.servedCount⟩) hdispatch
      unfold QueryServer.serveOne at hok
      rw [serveOne_throws hsettled hinbox hhandle] at hok
      cases hok
    | ok scans =>
      have hhandle := handle_returns (s := ⟨⟨s.server.reader, s.env⟩, s.server.servedCount⟩) hdispatch
      rw [← exec_handling] at hdispatch
      obtain ⟨k, hk⟩ := calls_run logPath (Script.exec_calls _ hdispatch) (s := { s with
          server.socket := { s.server.socket with
            inbox := rest, owing := some r, received := s.server.socket.received ++ [r] }
          server.servedCount := s.server.servedCount + 1
          inHand := some (handling r.2) }) rfl rfl
      refine ⟨k, ?_⟩
      unfold QueryServer.serveOne
      rw [serveOne_answers hsettled hinbox hhandle, run, hreceive, Option.bind_some, run_append, hk,
        Option.bind_some, run]
      simp only [LiveServer.step, RepSocket.reply, hsettled.owing, ← hidle]
      rfl

end Alone

/-! ### The server and the abstract server -/

/-- The two after the same steps. -/
structure Serves (P : Protobuf) (s : LiveServer) (a : LiveAnswers) : Prop where
  store : s.store = a.store
  inv : StoreInv P s.store
  answers : AnswersInv a
  waiting : s.server.socket.inbox = a.waiting
  owing : s.server.socket.owing = a.inHand.map Prod.fst
  inHand : s.inHand = a.inHand.map Prod.snd
  threw : s.threw = false
  received : s.server.socket.received =
    a.replies.map Prod.fst ++ (a.inHand.map Prod.fst).toList
  sent : s.server.socket.sent = a.replies.map fun r => (r.1, encodeScans P r.2)
  healthy : s.server.reader.logReader.Healthy
  held : HeldOn P s.store.files.log s.server.reader.conn a.held

def LiveServer.Readable (P : Protobuf) (s : LiveServer) : Prop :=
  ∀ scan ∈ s.store.recorded, P.Undoes scan

section Serves

variable {P : Protobuf} {logPath : String}

theorem call_step {s : LiveServer} {c : ReaderCall} {next : c.Result → Handling} {r : c.Result}
    {st : ReaderState} (hhand : s.inHand = some (.call c next))
    (hcalled : c.call P ⟨s.server.reader, s.env⟩ = (.ok r, st)) : s.step P logPath .call =
      some { s with server.reader := st.reader, inHand := some (next r) } := by
  simp only [LiveServer.step, hhand, Script.advance_of_ok _ hcalled]

theorem recorded_grows (s : LiveServer) (i : LiveServerStep) (s' : LiveServer)
    (h : s.step P logPath i = some s') : s.store.recorded <+: s'.store.recorded := by
  cases i with
  | recorder i =>
    obtain ⟨store, hstore, rfl⟩ := Option.map_eq_some_iff.mp h
    exact (storeStep_grows hstore).2
  | arrive peer command =>
    cases h
    exact List.prefix_rfl
  | receive =>
    obtain ⟨-, h⟩ := Option.ite_none_left_eq_some.mp h
    split at h <;> cases h <;> exact List.prefix_rfl
  | call =>
    simp only [LiveServer.step] at h
    split at h
    · split at h <;> cases h <;> exact List.prefix_rfl
    · cases h
  | reply =>
    simp only [LiveServer.step] at h
    split at h
    · cases h
      exact List.prefix_rfl
    · cases h

theorem readable_back (s : LiveServer) (i : LiveServerStep) (s' : LiveServer)
    (h : s.step P logPath i = some s') (hs' : s'.Readable P) : s.Readable P :=
  fun scan hscan => hs' scan ((recorded_grows s i s' h).subset hscan)

theorem serves_step (s : LiveServer) (a : LiveAnswers) (i : LiveServerStep) (s' : LiveServer)
    (h : Serves P s a) (hs : s.step P logPath i = some s') (hP : s'.Readable P) :
    ∃ a', a.step P logPath i = some a' ∧ Serves P s' a' := by
  have hstep (a' : LiveAnswers) (ha : a.step P logPath i = some a') : AnswersInv a' :=
    answers_step a i a' h.answers ha
  cases i with
  | recorder i =>
    obtain ⟨store, hstore, heq⟩ := Option.map_eq_some_iff.mp hs
    have ha : a.step P logPath (.recorder i) = some { a with store := store } := by
      show (storeStep P logPath a.store i).map _ = _
      rw [← h.store, hstore]
      rfl
    obtain ⟨⟨more, hlog⟩, -⟩ := storeStep_grows hstore
    have hheld := h.held.append more
    rw [← hlog] at hheld
    cases heq
    exact ⟨_, ha, rfl, storeStep_inv P logPath s.store i store h.inv hstore, hstep _ ha, h.waiting,
      h.owing, h.inHand, h.threw, h.received, h.sent, h.healthy, hheld⟩
  | arrive peer command =>
    cases hs
    refine ⟨_, rfl, h.store, h.inv, hstep _ rfl, ?_, h.owing, h.inHand, h.threw, h.received, h.sent,
      h.healthy, h.held⟩
    show s.server.socket.inbox ++ _ = a.waiting ++ _
    rw [h.waiting]
  | receive =>
    obtain ⟨hidle, hs⟩ := Option.ite_none_left_eq_some.mp hs
    have hhand : a.inHand = none := by
      rw [h.inHand, h.threw] at hidle
      simpa using hidle
    have howing : s.server.socket.owing = none := by
      rw [h.owing, hhand]
      rfl
    have hreceived := h.received
    rw [hhand] at hreceived
    cases hwaiting : a.waiting with
    | nil =>
      have ha : a.step P logPath .receive = some a := by
        simp only [LiveAnswers.step, hhand, hwaiting]
      rw [RepSocket.receive_nil howing (h.waiting.trans hwaiting)] at hs
      cases hs
      exact ⟨a, ha, h⟩
    | cons r rest =>
      have ha : a.step P logPath .receive =
          some { a with waiting := rest, inHand := some (r, handling r.2) } := by
        simp only [LiveAnswers.step, hhand, hwaiting]
      rw [RepSocket.receive_cons howing (h.waiting.trans hwaiting)] at hs
      cases hs
      refine ⟨_, ha, h.store, h.inv, hstep _ ha, rfl, rfl, rfl, h.threw, ?_, h.sent, h.healthy, h.held⟩
      show s.server.socket.received ++ [r] = a.replies.map Prod.fst ++ [r]
      rw [hreceived]
      simp
  | call =>
    have hreadable := readable_back s .call s' hs hP
    obtain ⟨c, next, hhand⟩ : ∃ c next, s.inHand = some (.call c next) := by
      simp only [LiveServer.step] at hs
      split at hs
      · case h_1 c next hhand => exact ⟨c, next, hhand⟩
      · cases hs
    have hhanded := h.inHand.symm.trans hhand
    obtain ⟨⟨r, rest⟩, hhanded, rfl⟩ := Option.map_eq_some_iff.mp hhanded
    obtain ⟨result, held, hanswer, -⟩ := (h.answers.underway r _ hhanded).call h.answers.within
    have ha : a.step P logPath .call =
        some { a with held := held, inHand := some (r, next result) } := by
      simp only [LiveAnswers.step, hhanded, hanswer, Option.map_some]
    have htable : Holds P s.env.log s.env.table a.store.recorded := by
      rw [← h.store]
      exact h.inv.holds
    have hundoes : ∀ scan ∈ a.store.recorded, P.Undoes scan := by
      rw [← h.store]
      exact hreadable
    have hhealthy : ReaderState.Healthy ⟨s.server.reader, s.env⟩ := h.healthy
    obtain ⟨st', hcalled, hh, -, hheld⟩ :=
      call_answers hhealthy rfl h.held htable h.answers.within hundoes hanswer
    cases (call_step hhand hcalled).symm.trans hs
    have howing := h.owing
    have hreceived := h.received
    rw [hhanded] at howing hreceived
    exact ⟨_, ha, h.store, h.inv, hstep _ ha, h.waiting, howing, rfl, h.threw, hreceived, h.sent, hh,
      hheld⟩
  | reply =>
    simp only [LiveServer.step] at hs
    split at hs
    · case h_1 scans hhand =>
        rw [h.inHand] at hhand
        obtain ⟨⟨r, rest⟩, hhand, heq⟩ := Option.map_eq_some_iff.mp hhand
        cases heq
        have ha : a.step P logPath .reply =
            some { a with inHand := none, replies := a.replies ++ [(r, scans)] } := by
          simp only [LiveAnswers.step, hhand]
        have howing : s.server.socket.owing = some r := by
          rw [h.owing, hhand]
          rfl
        have hreceived := h.received
        rw [hhand] at hreceived
        cases hs
        refine ⟨_, ha, h.store, h.inv, hstep _ ha, ?_, ?_, rfl, h.threw, ?_, ?_, h.healthy, h.held⟩
        · simp only [RepSocket.reply, howing, h.waiting]
        · simp only [RepSocket.reply, howing, Option.map_none]
        · simp [RepSocket.reply, howing, hreceived]
        · simp [RepSocket.reply, howing, h.sent]
    · cases hs

theorem serves_opened {before : List StoreStep} {store : StoreState}
    (h : run (storeStep P logPath) {} before = some store) :
    Serves P (.opened store) { store := store } :=
  ⟨rfl, run_invariant (storeStep_inv P logPath) (storeInv_start P) h, answersInv_start store, rfl,
    rfl, rfl, rfl, rfl, rfl, rfl, rfl⟩

theorem serves_run {s s' : LiveServer} {a : LiveAnswers} {steps : List LiveServerStep}
    (h : Serves P s a) (hrun : run (LiveServer.step P logPath) s steps = some s')
    (hP : s'.Readable P) :
    ∃ a', run (LiveAnswers.step P logPath) a steps = some a' ∧ Serves P s' a' :=
  run_simulates readable_back serves_step h hrun hP

end Serves

section Results

variable (P : Protobuf) (logPath : String) {before : List StoreStep} {store : StoreState}
  (hbefore : run (storeStep P logPath) {} before = some store) {steps : List LiveServerStep}
  {s : LiveServer} (hrun : run (LiveServer.step P logPath) (.opened store) steps = some s)

include hbefore hrun in
/-- A long-lived server beside a recorder that goes on, fails and is opened again, also between two
calls of one request: nothing is thrown, the requests received are replied to in turn but for the
one in hand, and what a client reads in its reply is what the abstract server says, and consistent. -/
theorem live_server_refines (hP : s.Readable P) (hn : s.store.recorded.length < 2 ^ 32) :
    ∃ a, run (LiveAnswers.step P logPath) { store := store } steps = some a ∧
      s.store = a.store ∧ s.threw = false ∧ s.server.socket.inbox = a.waiting ∧
      s.server.socket.received =
        s.server.socket.sent.map Prod.fst ++ (a.inHand.map Prod.fst).toList ∧
      s.server.socket.sent.map Prod.fst = a.replies.map Prod.fst ∧
      s.server.socket.sent.map (fun r => decodeScans P r.2) = a.replies.map (fun r => .ok r.2) ∧
      ∀ r ∈ a.replies, Consistent s.store.recorded r.1.2 r.2 := by
  obtain ⟨a, ha, h⟩ := serves_run (serves_opened hbefore) hrun hP
  have hrequests : s.server.socket.sent.map Prod.fst = a.replies.map Prod.fst := by
    rw [h.sent, List.map_map]
    rfl
  have hconsistent : ∀ r ∈ a.replies, Consistent s.store.recorded r.1.2 r.2 := by
    rw [h.store]
    exact h.answers.replies
  refine ⟨a, ha, h.store, h.threw, h.waiting, ?_, hrequests, ?_, hconsistent⟩
  · rw [hrequests]
    exact h.received
  · rw [h.sent, List.map_map]
    refine List.map_congr_left fun r hr => ?_
    have hsub := (hconsistent r hr).sublist
    exact decodeScans_encodeScans (Nat.lt_of_le_of_lt hsub.length_le hn)
      fun scan hscan => hP scan (hsub.subset hscan)

end Results

/-- A scan is recorded while LATEST looks for the newest one, and one more before RECENT asks. -/
def recordedBetween : List LiveServerStep :=
  [.recorder (.record (stamped 3) {}), .arrive 0 kLatest, .receive, .call, .call,
    .recorder (.record (stamped 5) {}), .call, .reply, .recorder (.record (stamped 6) {}),
    .arrive 1 kLatest, .receive, .call, .call, .call, .reply]

def newStore : StoreState := { files := { index := some Table.empty }, recorder := some {} }

theorem newStore_run :
    run (storeStep wireFormat "scans.log") {} [.openRecorder] = some newStore := rfl

theorem recordedBetween_runs :
    ∃ s, run (LiveServer.step wireFormat "scans.log") (.opened newStore) recordedBetween = some s ∧
      s.store.recorded = [stamped 3, stamped 5, stamped 6] ∧
      s.server.socket.sent.map Prod.fst = [(0, kLatest), (1, kLatest)] ∧
      s.server.socket.sent.head?.map Prod.snd = some (encodeScans wireFormat [stamped 3]) :=
  ⟨_, rfl, by decide, by decide, by decide⟩

theorem recordedBetween_answers :
    ∃ s, run (LiveServer.step wireFormat "scans.log") (.opened newStore) recordedBetween = some s ∧
      s.server.socket.sent.map (fun r => decodeScans wireFormat r.2) =
        [.ok [stamped 3], .ok [stamped 5]] := by
  obtain ⟨s, hs, hrec, -⟩ := recordedBetween_runs
  obtain ⟨a, ha, -, -, -, -, -, hsent, -⟩ := live_server_refines wireFormat "scans.log"
    newStore_run hs (by unfold LiveServer.Readable; rw [hrec]; decide) (by rw [hrec]; decide)
  have hreplies : (run (LiveAnswers.step wireFormat "scans.log") { store := newStore }
      recordedBetween).map (fun a => a.replies.map Prod.snd) =
        some [[stamped 3], [stamped 5]] := by decide
  rw [ha, Option.map_some] at hreplies
  refine ⟨s, hs, ?_⟩
  rw [hsent]
  have hmap : a.replies.map (fun r => (Except.ok r.2 : Except Exn (List Scan))) =
      (a.replies.map Prod.snd).map .ok := by rw [List.map_map]; rfl
  rw [hmap, Option.some.inj hreplies]
  rfl

/-! ### The snapshot that stays -/

/-- The request in hand is about to look its newest scan up. -/
def LiveServer.LooksUp (s : LiveServer) : Prop := s.inHand.any looksUp

instance (s : LiveServer) : Decidable s.LooksUp := inferInstanceAs (Decidable (_ = true))

theorem Serves.looksUp_iff {P : Protobuf} {s : LiveServer} {a : LiveAnswers} (h : Serves P s a) :
    s.LooksUp ↔ a.LooksUp := by
  unfold LiveServer.LooksUp LiveAnswers.LooksUp
  rw [h.inHand]

/-- Once a server has told of a newest scan, it answers every later request from the recording as it
was when one was looked up for the first time, whatever is recorded afterwards. -/
theorem live_server_pinned (P : Protobuf) (logPath : String) {before : List StoreStep}
    {store : StoreState} (hbefore : run (storeStep P logPath) {} before = some store)
    {steps : List LiveServerStep} {s : LiveServer}
    (hrun : run (LiveServer.step P logPath) (.opened store) steps = some s) (hP : s.Readable P)
    {request : ℕ × Bytes} {reply : Bytes} (hsent : (request, reply) ∈ s.server.socket.sent)
    (hasks : AsksNewest request.2) (hsome : reply ≠ encodeScans P []) :
    ∃ earlier after m, steps = earlier ++ .call :: after ∧
      run (LiveServer.step P logPath) (.opened store) earlier = some m ∧ m.LooksUp ∧
      Throughout (LiveServer.step P logPath) (fun m' i => i = .call → ¬ m'.LooksUp)
        (.opened store) earlier ∧
      ∀ later s', run (LiveServer.step P logPath) s later = some s' → s'.Readable P →
        ∃ more, s'.server.socket.sent = s.server.socket.sent ++ more ∧
          ∀ r ∈ more, r.2 = encodeScans P (answerFrom m.store.recorded r.1.2) := by
  obtain ⟨a, ha, h⟩ := serves_run (serves_opened hbefore) hrun hP
  have htold : a.Told := by
    rw [h.sent] at hsent
    obtain ⟨r, hr, heq⟩ := List.mem_map.mp hsent
    cases heq
    exact ⟨r, hr, hasks, fun hnil => hsome (by rw [hnil])⟩
  obtain ⟨scans, hheld⟩ := h.answers.pins htold
  obtain ⟨earlier, after, b, rfl, hpins⟩ := pinned_at ha hheld
  rw [run_append] at hrun
  obtain ⟨m, hm, hrest⟩ := Option.bind_eq_some_iff.mp hrun
  obtain ⟨b', hb', hserves⟩ :=
    serves_run (serves_opened hbefore) hm (run_back readable_back hrest hP)
  cases hpins.reached.symm.trans hb'
  refine ⟨earlier, after, m, rfl, hm, hserves.looksUp_iff.mpr hpins.looksUp, ?_, ?_⟩
  · refine throughout_simulates readable_back serves_step ?_ (serves_opened hbefore) hm
      (run_back readable_back hrest hP) hpins.first
    intro m' b' i hm' hnot hcall
    exact hm'.looksUp_iff.not.mpr (hnot hcall)
  · intro later s' hlater hP'
    obtain ⟨a', ha', h'⟩ := serves_run h hlater hP'
    obtain ⟨more, hmore, hfrom⟩ := pinned_run h.answers htold hheld ha'
    refine ⟨more.map fun r => (r.1, encodeScans P r.2), ?_, ?_⟩
    · rw [h'.sent, h.sent, hmore, List.map_append]
    · intro r hr
      obtain ⟨r', hr', rfl⟩ := List.mem_map.mp hr
      rw [hserves.store, hpins.recorded]
      exact congrArg (encodeScans P) (hfrom r' hr')

def LiveServerStep.isCall : LiveServerStep → Bool
  | .call => true
  | _ => false

theorem LiveServerStep.isCall_iff (i : LiveServerStep) : i.isCall = true ↔ i = .call := by
  cases i <;> simp [isCall]

instance (i : LiveServerStep) : Decidable (i = .call) := decidable_of_iff _ i.isCall_iff

/-- In `recordedBetween` the first newest scan is looked up when two scans are recorded. -/
theorem recordedBetween_looksUp : ∀ k < recordedBetween.length,
    recordedBetween[k]?.any LiveServerStep.isCall →
    Throughout (LiveServer.step wireFormat "scans.log") (fun m' i => i = .call → ¬ m'.LooksUp)
      (.opened newStore) (recordedBetween.take k) →
    (run (LiveServer.step wireFormat "scans.log") (.opened newStore)
      (recordedBetween.take k)).all fun m =>
        m.LooksUp → m.store.recorded = [stamped 3, stamped 5] := by decide

/-- From then on no reply tells of the third. -/
theorem recordedBetween_pinned :
    ∃ s, run (LiveServer.step wireFormat "scans.log") (.opened newStore) recordedBetween = some s ∧
      ∀ later s', run (LiveServer.step wireFormat "scans.log") s later = some s' →
        s'.Readable wireFormat →
        ∃ more, s'.server.socket.sent = s.server.socket.sent ++ more ∧
          ∀ r ∈ more, r.2 =
            encodeScans wireFormat (answerFrom [stamped 3, stamped 5] r.1.2) := by
  obtain ⟨s, hs, hrec, hpeers, hhead⟩ := recordedBetween_runs
  have hsent : ((0, kLatest), encodeScans wireFormat [stamped 3]) ∈ s.server.socket.sent := by
    cases hsent : s.server.socket.sent with
    | nil =>
      rw [hsent] at hhead
      cases hhead
    | cons r rest =>
      rw [hsent] at hhead hpeers
      have hfirst := (List.cons.inj hpeers).1
      have hreply := Option.some.inj hhead
      rw [← hfirst, ← hreply]
      exact List.mem_cons_self ..
  obtain ⟨earlier, after, m, hsteps, hm, hlooks, hfirst, hlater⟩ :=
    live_server_pinned wireFormat "scans.log" newStore_run hs
      (by unfold LiveServer.Readable; rw [hrec]; decide) hsent (.inl rfl) (by decide)
  have hk : earlier.length < recordedBetween.length := by
    rw [hsteps, List.length_append, List.length_cons]
    omega
  have htake : recordedBetween.take earlier.length = earlier := by
    rw [hsteps, List.take_left]
  have hcall : recordedBetween[earlier.length]?.any LiveServerStep.isCall := by
    rw [hsteps, List.getElem?_append_right (le_refl _), Nat.sub_self]
    rfl
  rw [← htake] at hfirst
  have hsnapshot := recordedBetween_looksUp earlier.length hk hcall hfirst
  rw [htake, hm] at hsnapshot
  rw [of_decide_eq_true hsnapshot hlooks] at hlater
  exact ⟨s, hs, hlater⟩

/-! ### Servers that are asked for ranges only -/

def LiveServerStep.Range (i : LiveServerStep) : Prop :=
  ∀ peer command, i = .arrive peer command → ¬ AsksNewest command

def LiveServerStep.Elsewhere : LiveServerStep → Prop
  | .recorder _ | .arrive _ _ => True
  | .receive | .call | .reply => False

structure Unheld (a : LiveAnswers) : Prop where
  held : a.held = .nothing
  waiting : ∀ r ∈ a.waiting, ¬ AsksNewest r.2
  inHand : ∀ r rest, a.inHand = some (r, rest) →
    (∃ startNs endNs, rest = .call (.range startNs endNs) .done) ∨ ∃ scans, rest = .done scans

section Ranges

variable {P : Protobuf} {logPath : String}

theorem unheld_step (a : LiveAnswers) (i : LiveServerStep) (a' : LiveAnswers) (h : Unheld a)
    (hi : i.Range) (hs : a.step P logPath i = some a') : Unheld a' := by
  cases i with
  | recorder i =>
    obtain ⟨store, -, rfl⟩ := Option.map_eq_some_iff.mp hs
    exact ⟨h.held, h.waiting, h.inHand⟩
  | arrive peer command =>
    cases hs
    refine ⟨h.held, ?_, h.inHand⟩
    intro r hr
    rcases List.mem_append.mp hr with hr | hr
    · exact h.waiting r hr
    · rw [List.mem_singleton.mp hr]
      exact hi peer command rfl
  | receive =>
    obtain ⟨-, ⟨-, rfl⟩ | ⟨r, rest, hwaiting, rfl⟩⟩ := LiveAnswers.receive_cases hs
    · exact h
    · obtain ⟨hfirst, hrest⟩ := List.forall_mem_cons.mp (hwaiting ▸ h.waiting)
      refine ⟨h.held, hrest, ?_⟩
      intro r' rest' hhand
      cases hhand
      rcases handling_other hfirst with ⟨startNs, endNs, hhandling, -⟩ | ⟨hhandling, -⟩
      · exact .inl ⟨startNs, endNs, hhandling⟩
      · exact .inr ⟨[], hhandling⟩
  | call =>
    obtain ⟨r, c, next, x, hhand, hanswer, rfl⟩ := LiveAnswers.call_cases hs
    rcases h.inHand r _ hhand with ⟨startNs, endNs, heq⟩ | ⟨scans, heq⟩
    · cases heq
      cases hanswer
      refine ⟨h.held, h.waiting, ?_⟩
      intro r' rest' hhand'
      cases hhand'
      exact .inr ⟨_, rfl⟩
    · cases heq
  | reply =>
    obtain ⟨r, scans, -, rfl⟩ := LiveAnswers.reply_cases hs
    exact ⟨h.held, h.waiting, nofun⟩

structure LiveServer.OwnAs (s m : LiveServer) : Prop where
  reader : m.server.reader = s.server.reader
  inHand : m.inHand = s.inHand
  owing : m.server.socket.owing = s.server.socket.owing
  sent : m.server.socket.sent = s.server.socket.sent

theorem ownAs_step {s : LiveServer} (m : LiveServer) (i : LiveServerStep) (m' : LiveServer)
    (h : s.OwnAs m) (hi : i.Elsewhere) (hstep : m.step P logPath i = some m') : s.OwnAs m' := by
  cases i with
  | recorder i =>
    obtain ⟨store, -, rfl⟩ := Option.map_eq_some_iff.mp hstep
    exact ⟨h.reader, h.inHand, h.owing, h.sent⟩
  | arrive peer command =>
    cases hstep
    exact ⟨h.reader, h.inHand, h.owing, h.sent⟩
  | receive => exact hi.elim
  | call => exact hi.elim
  | reply => exact hi.elim

/-- What goes on elsewhere leaves the server's reader, its request in hand and its replies alone. -/
theorem elsewhere_frame {s s' : LiveServer} {steps : List LiveServerStep}
    (hsteps : ∀ i ∈ steps, i.Elsewhere)
    (hrun : run (LiveServer.step P logPath) s steps = some s') : s.OwnAs s' := by
  have hstart : s.OwnAs s := ⟨rfl, rfl, rfl, rfl⟩
  exact run_invariant_of ownAs_step hstart (throughout_of_labels s hsteps) hrun

theorem handling_range {command : Bytes} {startNs endNs : Int64}
    (h : parseRange command = some (startNs, endNs)) :
    handling command = .call (.range startNs endNs) .done := by
  have hl : command ≠ kLatest := by
    rintro rfl
    have hnone : parseRange kLatest = none := by decide
    rw [hnone] at h
    cases h
  unfold handling
  rw [if_neg hl, h]

/-- A server that is asked for ranges only answers each of them, whatever goes on elsewhere, from
all that is recorded when its query is made. -/
theorem live_server_ranges_fresh (P : Protobuf) (logPath : String) {before : List StoreStep}
    {store : StoreState} (hbefore : run (storeStep P logPath) {} before = some store)
    {steps : List LiveServerStep} (hsteps : ∀ i ∈ steps, i.Range) {s : LiveServer}
    (hrun : run (LiveServer.step P logPath) (.opened store) steps = some s)
    (hP : s.Readable P) (hidle : s.inHand = none) {peer : ℕ} {command : Bytes}
    {rest : List (ℕ × Bytes)} (hinbox : s.server.socket.inbox = (peer, command) :: rest)
    {startNs endNs : Int64} (hrange : parseRange command = some (startNs, endNs)) :
    ∃ m₁, s.step P logPath .receive = some m₁ ∧
      ∀ during m₂, (∀ i ∈ during, i.Elsewhere) →
        run (LiveServer.step P logPath) m₁ during = some m₂ → m₂.Readable P →
        ∃ m₃, m₂.step P logPath .call = some m₃ ∧
          ∀ later m₄, (∀ i ∈ later, i.Elsewhere) →
            run (LiveServer.step P logPath) m₃ later = some m₄ →
            ∃ s', m₄.step P logPath .reply = some s' ∧
              s'.server.socket.sent = s.server.socket.sent ++
                [((peer, command), encodeScans P (scansIn startNs endNs m₂.store.recorded))] := by
  obtain ⟨a, ha, h⟩ := serves_run (serves_opened hbefore) hrun hP
  have hstart : Unheld { store := store } := ⟨rfl, nofun, nofun⟩
  have hunheld := run_invariant_of unheld_step hstart (throughout_of_labels _ hsteps) ha
  have hactive : s.server.reader.conn.active = ∅ := by
    have hheld := h.held
    rw [hunheld.held] at hheld
    exact hheld
  have howing : s.server.socket.owing = none := by
    have hhand := h.inHand
    rw [hidle] at hhand
    rw [h.owing, Option.map_eq_none_iff.mp hhand.symm]
    rfl
  have hreceive : s.step P logPath .receive = some { s with
      server.socket := { s.server.socket with
        inbox := rest
        owing := some (peer, command)
        received := s.server.socket.received ++ [(peer, command)] }
      server.servedCount := s.server.servedCount + 1
      inHand := some (handling command) } := by
    simp only [LiveServer.step, hidle, h.threw, RepSocket.receive_cons howing hinbox]
    rfl
  refine ⟨_, hreceive, ?_⟩
  intro during m₂ hduring hm₂ hP₂
  obtain ⟨hreader, hhand, howing₂, hsent⟩ := elsewhere_frame hduring hm₂
  obtain ⟨a₁, -, h₁⟩ := serves_step s a .receive _ h hreceive hP
  obtain ⟨a₂, -, h₂⟩ := serves_run h₁ hm₂ hP₂
  have hheld : HeldOn P m₂.env.log m₂.server.reader.conn .nothing := by
    show m₂.server.reader.conn.active = ∅
    rw [hreader]
    exact hactive
  have hhealthy : ReaderState.Healthy ⟨m₂.server.reader, m₂.env⟩ := h₂.healthy
  obtain ⟨st, hcalled, -⟩ := call_answers hhealthy rfl hheld h₂.inv.holds trivial hP₂
    (c := .range startNs endNs) rfl
  have hcall : m₂.step P logPath .call = some { m₂ with
      server.reader := st.reader
      inHand := some (.done (scansIn startNs endNs m₂.store.recorded)) } :=
    call_step (hhand.trans (congrArg some (handling_range hrange))) hcalled
  refine ⟨_, hcall, ?_⟩
  intro later m₄ hlater hm₄
  obtain ⟨-, hhand₄, howing₄, hsent₄⟩ := elsewhere_frame hlater hm₄
  have howing₄ : m₄.server.socket.owing = some (peer, command) := howing₄.trans howing₂
  have hreply : m₄.step P logPath .reply = some { m₄ with
      server.socket := m₄.server.socket.reply
        (encodeScans P (scansIn startNs endNs m₂.store.recorded))
      inHand := none } := by
    simp only [LiveServer.step, hhand₄]
  refine ⟨_, hreply, ?_⟩
  simp only [RepSocket.reply, howing₄, hsent₄, hsent]

end Ranges

/-- Two scans are recorded, one before and one after a RANGE request is received. -/
def rangeFresh : List LiveServerStep :=
  [.recorder (.record (stamped 5) {}), .arrive 1 (rangeCommand 0 9)]

theorem rangeFresh_answers :
    ∃ s m₁ m₂ m₃ s', run (LiveServer.step wireFormat "scans.log") (.opened newStore) rangeFresh =
        some s ∧
      s.step wireFormat "scans.log" .receive = some m₁ ∧
      run (LiveServer.step wireFormat "scans.log") m₁
        [.recorder (.record (stamped 7) {}), .arrive 0 kLatest] = some m₂ ∧
      m₂.step wireFormat "scans.log" .call = some m₃ ∧
      m₃.step wireFormat "scans.log" .reply = some s' ∧
      s'.server.socket.sent = s.server.socket.sent ++
        [((1, rangeCommand 0 9), encodeScans wireFormat [stamped 5, stamped 7])] := by
  have hrange := parseRange_rangeCommand 0 9
  have hcommand : ¬ AsksNewest (rangeCommand 0 9) := by
    rintro (h | ⟨h, -⟩)
    · exact rangeCommand_ne_kLatest 0 9 h
    · rw [hrange] at h
      cases h
  have hsteps : ∀ i ∈ rangeFresh, i.Range := by
    intro i hi peer command heq
    subst heq
    simp only [rangeFresh, List.mem_cons, LiveServerStep.arrive.injEq, reduceCtorEq,
      List.not_mem_nil, or_false, false_or] at hi
    rw [hi.2]
    exact hcommand
  have hs : ∃ s, run (LiveServer.step wireFormat "scans.log") (.opened newStore) rangeFresh =
      some s ∧ s.store.recorded = [stamped 5] ∧ s.inHand = none ∧
      s.server.socket.inbox = [(1, rangeCommand 0 9)] := ⟨_, rfl, by decide, rfl, by decide⟩
  have hm : ∃ m, run (LiveServer.step wireFormat "scans.log") (.opened newStore) (rangeFresh ++
      .receive :: [.recorder (.record (stamped 7) {}), .arrive 0 kLatest]) = some m ∧
      m.store.recorded = [stamped 5, stamped 7] := ⟨_, rfl, by decide⟩
  obtain ⟨s, hs, hrec, hidle, hinbox⟩ := hs
  obtain ⟨m₂, hm₂, hrec₂⟩ := hm
  obtain ⟨m₁, hreceive, hduring⟩ := live_server_ranges_fresh wireFormat "scans.log" newStore_run
    hsteps hs (by unfold LiveServer.Readable; rw [hrec]; decide) hidle hinbox hrange
  rw [run_append, hs, Option.bind_some, run, hreceive, Option.bind_some] at hm₂
  obtain ⟨m₃, hcall, hlater⟩ := hduring _ m₂ (by simp [LiveServerStep.Elsewhere]) hm₂
    (by unfold LiveServer.Readable; rw [hrec₂]; decide)
  obtain ⟨s', hreply, hsent⟩ := hlater [] m₃ (by simp) rfl
  rw [hrec₂] at hsent
  exact ⟨s, m₁, m₂, m₃, s', hs, hreceive, hm₂, hcall, hreply, hsent⟩

end AuvMiddleware.Lidar
