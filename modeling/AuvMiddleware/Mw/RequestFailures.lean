import AuvMiddleware.Lib.Call
import AuvMiddleware.Mw.Requester

/-!
# mw::Requester::request when its recovery fails (transport.cpp:127-188)

Every operation on ZeroMQ may throw `zmq::error_t`, the ones that replace the socket included.
`request` is `noexcept`: an exception that leaves it terminates the process.
-/

namespace AuvMiddleware.Mw

structure ZmqError where
  deriving DecidableEq

/-- What ZeroMQ does in one `make_req_socket`; `false` stands for a `zmq::error_t`. -/
structure Making where
  create : Bool := true
  linger : Bool := true
  connect : Bool := true
  deriving DecidableEq

def Making.Works (m : Making) : Prop :=
  m.create = true ∧ m.linger = true ∧ m.connect = true

inductive RecvReply where
  | message (payload : Bytes)
  | nothing
  | error
  deriving DecidableEq

/-- What ZeroMQ does in one `request`: `replacing` where the try block replaces the socket,
`recovering` where the handler does. -/
structure Outcomes where
  send : SendResult := .sent
  poll : PollResult := .readable
  recv : RecvReply := .nothing
  replacing : Making := {}
  recovering : Making := {}
  deriving DecidableEq

def attempt (works : Bool) : Call ZmqError Requester Unit :=
  if works then pure () else Call.throw {}

/-- `make_req_socket` (`transport.cpp:130-137`); a socket it does not return is closed again. -/
def makeReqSocket (m : Making) : Call ZmqError Requester ReqSocket := do
  attempt m.create
  let r ← Call.get
  Call.modify fun r => { r with made := r.made + 1 }
  attempt m.linger
  attempt m.connect
  pure { id := r.made }

def replaceSocket (m : Making) : Call ZmqError Requester Unit := do
  let sock ← makeReqSocket m
  Call.modify fun r => { r with sock := sock }

def sendRequest : SendResult → Call ZmqError Requester Bool
  | .sent => do
    Call.modify fun r => { r with sock := { r.sock with awaiting := true } }
    pure true
  | .wouldBlock => pure false
  | .error => Call.throw {}

/-- `zmq::poll`, and whether `revents` has `ZMQ_POLLIN`. -/
def pollReply : PollResult → Call ZmqError Requester Bool
  | .readable => pure true
  | .timeout => pure false
  | .error => Call.throw {}

def recvReply : RecvReply → Call ZmqError Requester (Option Bytes)
  | .message payload => do
    Call.modify fun r => { r with sock :=
      { r.sock with awaiting := false, inbox := r.sock.inbox.tail } }
    pure (some payload)
  | .nothing => pure none
  | .error => Call.throw {}

-- the try block
def requestBlock (o : Outcomes) : Call ZmqError Requester (Option Bytes) := do
  let sent ← sendRequest o.send
  if sent then
    let readable ← pollReply o.poll
    if readable then
      recvReply o.recv
    else
      replaceSocket o.replacing
      pure none
  else
    replaceSocket o.replacing
    pure none

/-- `Requester::request` (`transport.cpp:157-188`). -/
def Requester.request (o : Outcomes) : Call ZmqError Requester (Option Bytes) :=
  Call.tryCatch (requestBlock o) fun _ => do
    replaceSocket o.recovering
    pure none

/-- Calls after one another; an exception that leaves one of them ends the process there. -/
def requests : List Outcomes → Call ZmqError Requester (List (Option Bytes))
  | [] => pure []
  | o :: os => do
    let reply ← Requester.request o
    let replies ← requests os
    pure (reply :: replies)

/-! ### When an exception leaves -/

/-- Some operation of the try block throws, be it one that replaces the socket. -/
def Outcomes.Throws (o : Outcomes) : Prop :=
  o.send = .error ∨ (o.send = .wouldBlock ∧ ¬ o.replacing.Works) ∨
    (o.send = .sent ∧ (o.poll = .error ∨ (o.poll = .timeout ∧ ¬ o.replacing.Works) ∨
      (o.poll = .readable ∧ o.recv = .error)))

def Outcomes.ThrowsTwice (o : Outcomes) : Prop := o.Throws ∧ ¬ o.recovering.Works

theorem replaceSocket_works {m : Making} (h : m.Works) (r : Requester) :
    replaceSocket m r = (.ok (), r.replace) := by
  obtain ⟨create, linger, connect⟩ := m
  obtain ⟨rfl, rfl, rfl⟩ := h
  rfl

theorem replaceSocket_throws {m : Making} (h : ¬ m.Works) (r : Requester) :
    ∃ r', replaceSocket m r = (.error {}, r') ∧ r'.sock = r.sock := by
  obtain ⟨create, linger, connect⟩ := m
  cases create with
  | false => exact ⟨_, rfl, rfl⟩
  | true =>
    cases linger with
    | false => exact ⟨_, rfl, rfl⟩
    | true =>
      cases connect with
      | false => exact ⟨_, rfl, rfl⟩
      | true => exact absurd ⟨rfl, rfl, rfl⟩ h

/-- Where the block gives up on the socket it returns nothing, or throws with the replacement. -/
theorem giveUp_cases (m : Making) (r : Requester) :
    (m.Works ∧ (do replaceSocket m; pure none : Call ZmqError Requester (Option Bytes)) r =
      (.ok none, r.replace)) ∨
    (¬ m.Works ∧ ∃ r', (do replaceSocket m; pure none : Call ZmqError Requester (Option Bytes)) r =
      (.error {}, r') ∧ r'.sock = r.sock) := by
  by_cases h : m.Works
  · exact .inl ⟨h, Call.bind_of_ok (replaceSocket_works h r) _⟩
  · obtain ⟨r', hr, hsock⟩ := replaceSocket_throws h r
    exact .inr ⟨h, r', Call.bind_of_error hr _, hsock⟩

theorem requestBlock_cases (o : Outcomes) (r : Requester) :
    (¬ o.Throws ∧ ∃ v r', requestBlock o r = (.ok v, r')) ∨
      (o.Throws ∧ ∃ r', requestBlock o r = (.error {}, r')) := by
  unfold Outcomes.Throws
  obtain ⟨send, poll, recv, replacing, recovering⟩ := o
  dsimp only
  cases send with
  | error => exact .inr ⟨.inl rfl, _, rfl⟩
  | wouldBlock =>
    rcases giveUp_cases replacing r with ⟨hw, hr⟩ | ⟨hw, r', hr, -⟩
    · exact .inl ⟨by simp [hw], none, _, hr⟩
    · exact .inr ⟨.inr (.inl ⟨rfl, hw⟩), r', hr⟩
  | sent =>
    have hsend : sendRequest .sent r =
        (.ok true, { r with sock := { r.sock with awaiting := true } }) := rfl
    have hsent : requestBlock ⟨.sent, poll, recv, replacing, recovering⟩ r = _ :=
      Call.bind_of_ok hsend _
    rw [hsent, if_pos rfl]
    cases poll with
    | error => exact .inr ⟨by simp, _, rfl⟩
    | timeout =>
      rcases giveUp_cases replacing { r with sock := { r.sock with awaiting := true } } with
        ⟨hw, hr⟩ | ⟨hw, r', hr, -⟩
      · exact .inl ⟨by simp [hw], none, _, hr⟩
      · exact .inr ⟨by simp [hw], r', hr⟩
    | readable =>
      cases recv with
      | message payload => exact .inl ⟨by simp, some payload, _, rfl⟩
      | nothing => exact .inl ⟨by simp, none, _, rfl⟩
      | error => exact .inr ⟨by simp, _, rfl⟩

theorem request_returns_iff (o : Outcomes) (r : Requester) :
    (∃ v r', Requester.request o r = (.ok v, r')) ↔ ¬ o.ThrowsTwice := by
  unfold Outcomes.ThrowsTwice
  rcases requestBlock_cases o r with ⟨hn, v, r', hr⟩ | ⟨ht, r', hr⟩
  · exact iff_of_true ⟨v, r', Call.tryCatch_of_ok hr _⟩ fun h => hn h.1
  · have hcatch : Requester.request o r = _ := Call.tryCatch_of_error hr _
    rw [hcatch]
    rcases giveUp_cases o.recovering r' with ⟨hw, hr'⟩ | ⟨hw, r'', hr', -⟩
    · exact iff_of_true ⟨none, _, hr'⟩ fun h => h.2 hw
    · refine iff_of_false ?_ (not_not_intro ⟨ht, hw⟩)
      intro ⟨v, r₃, hv⟩
      rw [hr'] at hv
      cases hv

/-- However the failures of the operations combine: every call of the sequence returns, with a
reply or nothing, exactly when no call fails both in its try block and in the handler. -/
theorem requests_return_iff (os : List Outcomes) (r : Requester) :
    (∃ replies r', requests os r = (.ok replies, r')) ↔ ∀ o ∈ os, ¬ o.ThrowsTwice := by
  induction os generalizing r with
  | nil => exact iff_of_true ⟨[], r, rfl⟩ (by simp)
  | cons o os ih =>
    rw [List.forall_mem_cons, ← request_returns_iff o r]
    constructor
    · intro ⟨replies, r', h⟩
      obtain ⟨v, m, hv, h⟩ := Call.bind_eq_ok h
      obtain ⟨vs, m', hvs, -⟩ := Call.bind_eq_ok h
      exact ⟨⟨v, m, hv⟩, (ih m).mp ⟨vs, m', hvs⟩⟩
    · intro ⟨⟨v, m, hv⟩, hrest⟩
      obtain ⟨vs, m', hvs⟩ := (ih m).mpr hrest
      refine ⟨v :: vs, m', ?_⟩
      have hbind : requests (o :: os) r = _ := Call.bind_of_ok hv _
      rw [hbind]
      exact Call.bind_of_ok hvs _

/-- No reply in time, and no file descriptor left: creating the new socket fails in the try block
and once more in the handler. -/
theorem requests_terminate :
    ¬ ∃ replies r', requests
      [{ poll := .timeout, replacing := { create := false }, recovering := { create := false } }]
      {} = (.ok replies, r') := by
  intro ⟨replies, r', h⟩
  cases h

/-! ### Against the socket over a network -/

/-- What a socket with these replies waiting gives a receive. -/
def RecvReply.ofInbox (inbox : List Reply) : RecvReply :=
  inbox.head?.elim .nothing fun a => .message a.2

/-- As long as a socket can be replaced, `request` is the send and the receive of the Requester
on the network. -/
theorem request_eq {o : Outcomes} {r : Requester} (hreplacing : o.replacing.Works)
    (hrecovering : o.recovering.Works) (hsend : r.sock.awaiting = true → o.send = .error)
    (hrecv : o.recv = .ofInbox r.sock.inbox) :
    Requester.request o r =
      if (r.send o.send).1 then
        let m := (r.send o.send).2.receive o.poll
        (.ok (m.1.map Prod.snd), m.2)
      else (.ok none, (r.send o.send).2) := by
  have hcatch : ∀ {r'}, requestBlock o r = (.error {}, r') →
      Requester.request o r = (.ok none, r'.replace) := by
    intro r' h
    have hcaught : Requester.request o r = _ := Call.tryCatch_of_error h _
    rw [hcaught]
    exact Call.bind_of_ok (replaceSocket_works hrecovering r') _
  obtain ⟨send, poll, recv, replacing, recovering⟩ := o
  obtain ⟨⟨id, awaiting, inbox⟩, made⟩ := r
  dsimp only at hsend hrecv hreplacing
  cases awaiting with
  | true =>
    obtain rfl := hsend rfl
    exact hcatch rfl
  | false =>
    have hgiveUp := fun r => Call.bind_of_ok (replaceSocket_works hreplacing r)
      fun _ => (pure none : Call ZmqError Requester (Option Bytes))
    cases send with
    | error => exact hcatch rfl
    | wouldBlock => exact Call.tryCatch_of_ok (hgiveUp _) _
    | sent =>
      cases poll with
      | error => exact hcatch rfl
      | timeout => exact Call.tryCatch_of_ok (hgiveUp _) _
      | readable =>
        subst hrecv
        cases inbox with
        | nil => rfl
        | cons a rest => rfl

end AuvMiddleware.Mw
