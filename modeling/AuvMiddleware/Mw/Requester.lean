import AuvMiddleware.Lib.Runs
import AuvMiddleware.Mw.Publisher
import AuvMiddleware.Mw.Replier

/-!
# mw::Requester and mw::Replier over a network (transport.cpp:130-188)

One `Requester`, the sockets it goes through, a server that may stop and start again, and the
messages between them, which may be late, overtake each other or get lost. What ZeroMQ reports of a
send or a poll is given from outside.
-/

namespace AuvMiddleware.Mw
open Runs

/-- Where a request comes from: the number of the `request()` call that sent it, and the REQ socket
it went through, `none` for one that is not this Requester's. -/
structure Peer where
  sock : Option ℕ
  call : ℕ
  deriving DecidableEq

abbrev Request := Peer × Bytes
abbrev Reply := Request × Bytes

/-! ### The client -/

/-- A REQ socket: once it has sent it has to receive, and until then a send fails. -/
structure ReqSocket where
  id : ℕ
  awaiting : Bool := false
  inbox : List Reply := []
  deriving DecidableEq

/-- `Requester::Impl`; `made` numbers the sockets. -/
structure Requester where
  sock : ReqSocket := { id := 0 }
  made : ℕ := 1
  deriving DecidableEq

def Requester.replace (r : Requester) : Requester :=
  { sock := { id := r.made }, made := r.made + 1 }

inductive PollResult where
  | readable
  | timeout
  | error
  deriving DecidableEq

/-- `Requester::request` up to the poll (`transport.cpp:159-166`, `184-187`): whether it has sent. -/
def Requester.send (result : SendResult) (r : Requester) : Bool × Requester :=
  match r.sock.awaiting, result with
  | false, .sent => (true, { r with sock := { r.sock with awaiting := true } })
  | false, .wouldBlock => (false, r.replace)
  | false, .error => (false, r.replace)
  -- a send out of turn fails with an error, which is caught
  | true, _ => (false, r.replace)

/-- `Requester::request` from the poll on (`transport.cpp:168-187`): what it returns. -/
def Requester.receive (result : PollResult) (r : Requester) : Option Reply × Requester :=
  match result, r.sock.inbox with
  | .readable, a :: rest => (some a, { r with sock := { r.sock with awaiting := false, inbox := rest } })
  -- a receive that yields nothing leaves the socket as it is
  | .readable, [] => (none, r)
  | .timeout, _ => (none, r.replace)
  | .error, _ => (none, r.replace)

/-! ### The whole -/

/-- A running server; `handling` while the handler of `serve_one` is at work on the request that the
socket owes a reply to. -/
structure Server where
  sock : RepSocket Peer := {}
  handling : Bool := false
  deriving DecidableEq

structure Returned where
  call : ℕ
  payload : Bytes
  value : Option Bytes
  deriving DecidableEq

/-- `requests` and `replies` are the messages on their way, `handled` is what handlers returned. -/
structure ReqRep where
  client : Requester := {}
  calls : ℕ := 0
  pending : Option (ℕ × Bytes) := none
  returned : List Returned := []
  requests : List Request := []
  replies : List Reply := []
  server : Option Server := none
  handled : List Reply := []
  deriving DecidableEq

inductive NetStep where
  | request (payload : Bytes) (result : SendResult)
  | poll (result : PollResult)
  | requestElsewhere (payload : Bytes)
  | deliverRequest (r : Request)
  | loseRequest (r : Request)
  | deliverReply (a : Reply)
  | loseReply (a : Reply)
  | receive
  | reply (payload : Bytes)
  | handlerThrows
  | startServer
  | stopServer

def ReqRep.request (payload : Bytes) (result : SendResult) (w : ReqRep) : ReqRep :=
  match w.client.send result with
  | (true, client) =>
    { w with
      client := client
      calls := w.calls + 1
      pending := some (w.calls, payload)
      requests := w.requests ++ [(⟨some w.client.sock.id, w.calls⟩, payload)] }
  | (false, client) =>
    { w with
      client := client
      calls := w.calls + 1
      returned := w.returned ++ [⟨w.calls, payload, none⟩] }

def ReqRep.poll (call : ℕ) (payload : Bytes) (result : PollResult) (w : ReqRep) : ReqRep :=
  let r := w.client.receive result
  { w with
    client := r.2
    pending := none
    returned := w.returned ++ [⟨call, payload, r.1.map Prod.snd⟩] }

/-- A reply arrives; one for a closed socket is discarded. -/
def ReqRep.accept (a : Reply) (w : ReqRep) : ReqRep :=
  if a.1.1.sock = some w.client.sock.id then
    { w with client := { w.client with
        sock := { w.client.sock with inbox := w.client.sock.inbox ++ [a] } } }
  else w

/-- One step; `none` where it is not possible. Calls on the one Requester follow each other, and
`serve_one` is taken apart, so that anything may happen while the handler is at work. -/
def netStep (w : ReqRep) : NetStep → Option ReqRep
  | .request payload result =>
    match w.pending with
    | none => some (w.request payload result)
    | some _ => none
  | .poll result =>
    match w.pending with
    | some (call, payload) =>
      -- a poll reports no socket readable that has nothing to read
      if result = .readable ∧ w.client.sock.inbox = [] then none
      else some (w.poll call payload result)
    | none => none
  | .requestElsewhere payload => some { w with
      calls := w.calls + 1
      requests := w.requests ++ [(⟨none, w.calls⟩, payload)] }
  | .deliverRequest r =>
    match w.server with
    | some s =>
      if r ∈ w.requests then some { w with
        requests := w.requests.erase r
        server := some { s with sock := { s.sock with inbox := s.sock.inbox ++ [r] } } }
      else none
    | none => none
  | .loseRequest r => some { w with requests := w.requests.erase r }
  | .deliverReply a =>
    if a ∈ w.replies then some ({ w with replies := w.replies.erase a }.accept a) else none
  | .loseReply a => some { w with replies := w.replies.erase a }
  | .receive =>
    match w.server with
    | some ⟨sock, false⟩ =>
      let r := sock.receive
      some { w with server := some ⟨r.2, r.1.isSome⟩ }
    | _ => none
  | .reply payload =>
    match w.server with
    | some ⟨sock, true⟩ => some { w with
        server := some ⟨sock.reply payload, false⟩
        replies := w.replies ++ sock.owing.toList.map fun r => (r, payload)
        handled := w.handled ++ sock.owing.toList.map fun r => (r, payload) }
    | _ => none
  | .handlerThrows =>
    match w.server with
    | some ⟨sock, true⟩ => some { w with server := some ⟨sock, false⟩ }
    | _ => none
  | .startServer =>
    match w.server with
    | none => some { w with server := some {} }
    | some _ => none
  | .stopServer => some { w with server := none }

end AuvMiddleware.Mw
