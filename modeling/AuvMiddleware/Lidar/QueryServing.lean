import AuvMiddleware.Lib.Runs
import AuvMiddleware.Lidar.QueryAnswers
import AuvMiddleware.Lidar.Store

/-!
# A query server over many requests (query_server.cpp:109-114)

Requests arrive, `serve_one` is called, and between two calls the log and the index may become
anything: the files are a part of each call's label, as are the outcomes of the SQLite calls it
makes.
-/

namespace AuvMiddleware.Lidar
open Runs Mw

inductive ServeStep where
  | arrive (peer : ℕ) (command : Bytes)
  | serve (env : ReadEnv)

structure QueryServer where
  socket : RepSocket ℕ := {}
  reader : Reader := {}
  servedCount : ℕ := 0

def QueryServer.serveOne (P : Protobuf) (s : QueryServer) (env : ReadEnv) :
    Except Exn Bool × QueryServer :=
  let r := Mw.serveOne (handle P) (s.socket, ⟨⟨s.reader, env⟩, s.servedCount⟩)
  (r.1, ⟨r.2.1, r.2.2.reading.reader, r.2.2.servedCount⟩)

def serveStep (P : Protobuf) (s : QueryServer) : ServeStep → Option QueryServer
  | .arrive peer command => some { s with socket.inbox := s.socket.inbox ++ [(peer, command)] }
  | .serve env => some (s.serveOne P env).2

/-- The call returns, with true if a request was waiting; every request received so far has had
its one reply, the count is the number of replies, and the socket can receive again. -/
def Answers (P : Protobuf) (s : QueryServer) (i : ServeStep) : Prop :=
  match i with
  | .arrive _ _ => True
  | .serve env =>
    let r := s.serveOne P env
    r.1 = .ok !s.socket.inbox.isEmpty ∧ r.2.socket.Settled ∧
      r.2.servedCount = r.2.socket.sent.length

/-- No SQLite step that the waiting request takes fails, and every row it reads leads to an intact
record. -/
def Answerable (P : Protobuf) (s : QueryServer) (i : ServeStep) : Prop :=
  match i, s.socket.inbox with
  | .serve env, (_, command) :: _ =>
    let o := outcome P command ⟨s.reader, env⟩
    env.FaultFree o.steps ∧ o.scans.isSome
  | _, _ => True

structure ServeInv (s : QueryServer) : Prop where
  settled : s.socket.Settled
  counted : s.servedCount = s.socket.sent.length
  healthy : s.reader.logReader.Healthy

/-! ### One request -/

theorem handle_returns {P : Protobuf} {command : Bytes} {s : ServerState} {scans : List Scan}
    {st' : ReaderState} (h : dispatch P command s.reading = (.ok scans, st')) :
    handle P command s = (.ok (encodeScans P scans), ⟨st', s.servedCount + 1⟩) := by
  unfold handle
  rw [Call.modify_bind]
  refine Call.bind_of_ok ?_ _
  simp only [onReader, h]

theorem handle_throws {P : Protobuf} {command : Bytes} {s : ServerState} {e : Exn}
    {st' : ReaderState} (h : dispatch P command s.reading = (.error e, st')) :
    handle P command s = (.error e, ⟨st', s.servedCount + 1⟩) := by
  unfold handle
  rw [Call.modify_bind]
  refine Call.bind_of_error ?_ _
  simp only [onReader, h]

theorem serveOne_cases (P : Protobuf) {s : QueryServer} (hs : ServeInv s) (env : ReadEnv)
    {peer : ℕ} {command : Bytes} {rest : List (ℕ × Bytes)}
    (hi : s.socket.inbox = (peer, command) :: rest) :
    (Answerable P s (.serve env) ∧ ∃ scans reader,
      (outcome P command ⟨s.reader, env⟩).scans = some scans ∧ reader.logReader.Healthy ∧
      s.serveOne P env = (.ok true,
        ⟨{ s.socket with
            inbox := rest
            received := s.socket.received ++ [(peer, command)]
            sent := s.socket.sent ++ [((peer, command), encodeScans P scans)] },
          reader, s.servedCount + 1⟩)) ∨
    (¬ Answerable P s (.serve env) ∧ ∃ e, (s.serveOne P env).1 = .error e) := by
  have hst : (⟨s.reader, env⟩ : ReaderState).Healthy := hs.healthy
  have hcomp := computes_dispatch P command hst
  simp only [Answerable, hi, QueryServer.serveOne]
  cases hd : dispatch P command ⟨s.reader, env⟩ with
  | mk got st' =>
    cases got with
    | ok scans =>
      left
      obtain ⟨hf, ho⟩ := hcomp.only hd
      obtain ⟨st'', hd', hh⟩ := hcomp.returns hf ho
      rw [hd] at hd'
      cases hd'
      refine ⟨⟨hf, by rw [ho]; rfl⟩, scans, st'.reader, ho, hh, ?_⟩
      rw [serveOne_answers hs.settled hi (handle_returns hd)]
    | error e =>
      right
      refine ⟨?_, e, ?_⟩
      · rintro ⟨hf, ho⟩
        obtain ⟨scans, hscans⟩ := Option.isSome_iff_exists.mp ho
        obtain ⟨st'', hd', -⟩ := hcomp.returns hf hscans
        rw [hd] at hd'
        cases hd'
      · rw [serveOne_throws hs.settled hi (handle_throws hd)]

theorem serveOne_nothing (P : Protobuf) {s : QueryServer} (hs : ServeInv s) (env : ReadEnv)
    (hi : s.socket.inbox = []) : s.serveOne P env = (.ok false, s) := by
  unfold QueryServer.serveOne
  rw [serveOne_idle hs.settled hi]

/-! ### Runs -/

theorem answers_iff_answerable (P : Protobuf) (s : QueryServer) (i : ServeStep)
    (hs : ServeInv s) : Answers P s i ↔ Answerable P s i := by
  cases i with
  | arrive peer command => exact Iff.rfl
  | serve env =>
    cases hi : s.socket.inbox with
    | nil =>
      simp only [Answers, Answerable, serveOne_nothing P hs env hi, hi]
      exact ⟨fun _ => trivial, fun _ => ⟨rfl, hs.settled, hs.counted⟩⟩
    | cons r rest =>
      rcases serveOne_cases P hs env hi with ⟨hyes, scans, reader, -, -, hr⟩ | ⟨hno, e, he⟩
      · refine ⟨fun _ => hyes, fun _ => ?_⟩
        simp only [Answers, hr, hi, List.isEmpty_cons, Bool.not_false, true_and]
        refine ⟨⟨hs.settled.owing, ?_⟩, ?_⟩
        · rw [List.map_append, hs.settled.answered]
          rfl
        · rw [List.length_append, hs.counted]
          rfl
      · refine ⟨fun h => ?_, fun h => absurd h hno⟩
        rw [Answers, he] at h
        cases h.1

theorem serveStep_inv (P : Protobuf) (s : QueryServer) (i : ServeStep) (s' : QueryServer)
    (hs : ServeInv s) (hc : Answerable P s i) (h : serveStep P s i = some s') : ServeInv s' := by
  have hans := (answers_iff_answerable P s i hs).mpr hc
  cases i with
  | arrive peer command =>
    cases h
    exact ⟨⟨hs.settled.owing, hs.settled.answered⟩, hs.counted, hs.healthy⟩
  | serve env =>
    cases h
    refine ⟨hans.2.1, hans.2.2, ?_⟩
    cases hi : s.socket.inbox with
    | nil =>
      rw [serveOne_nothing P hs env hi]
      exact hs.healthy
    | cons r rest =>
      rcases serveOne_cases P hs env hi with ⟨-, scans, reader, -, hh, hr⟩ | ⟨hno, -⟩
      · rw [hr]
        exact hh
      · exact absurd hc hno

/-- A server answers every request of a run exactly when each request it receives meets files and
an SQLite on which none of its reads fails. -/
theorem serving_answers_iff (P : Protobuf) (steps : List ServeStep) :
    Throughout (serveStep P) (Answers P) {} steps ↔
      Throughout (serveStep P) (Answerable P) {} steps :=
  throughout_congr ServeInv (fun s i s' _ => serveStep_inv P s i s')
    (fun s i _ => answers_iff_answerable P s i) (A := fun _ => True) (fun _ _ => trivial)
    ⟨RepSocket.settled_empty, rfl, rfl⟩

def truncatedEnv : ReadEnv := { log := [], table := Table.empty.insert 1 0 20 0 }

/-- `LATEST` on it: the exception leaves `serve_one`, the request has been counted but not
answered, and the request that waits behind it is not received by the next call. -/
theorem serving_latest_truncated :
    ∃ s e, run (serveStep wireFormat) {} [.arrive 0 kLatest, .arrive 1 kLatest] = some s ∧
      (s.serveOne wireFormat truncatedEnv).1 = .error e ∧
      (s.serveOne wireFormat truncatedEnv).2.servedCount = 1 ∧
      (s.serveOne wireFormat truncatedEnv).2.socket.sent = [] ∧
      ((s.serveOne wireFormat truncatedEnv).2.serveOne wireFormat truncatedEnv).1 = .ok false :=
  ⟨_, _, rfl, rfl, by decide, by decide, by decide⟩

end AuvMiddleware.Lidar
