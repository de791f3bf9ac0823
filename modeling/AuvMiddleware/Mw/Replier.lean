import AuvMiddleware.Lib.Bytes
import AuvMiddleware.Lib.Call

/-!
# mw::Replier (transport.cpp:192-230, transport.hpp:176-182)

A REP socket alternates: after a receive it must send before it may receive again, and a receive
out of turn fails with an error. `α` is what the socket keeps of a request besides its payload,
the way back to the peer.
-/

namespace AuvMiddleware.Mw

structure RepSocket (α : Type) where
  inbox : List (α × Bytes) := []
  owing : Option (α × Bytes) := none
  received : List (α × Bytes) := []
  sent : List ((α × Bytes) × Bytes) := []
  deriving DecidableEq

namespace RepSocket

variable {α : Type}

/-- `Replier::receive` (`transport.cpp:209-218`): nothing on a timeout, and nothing when the
socket is not in its receive state, since the error is caught. -/
def receive (s : RepSocket α) : Option (α × Bytes) × RepSocket α :=
  match s.owing, s.inbox with
  | some _, _ => (none, s)
  | none, [] => (none, s)
  | none, r :: rest =>
    (some r, { s with inbox := rest, owing := some r, received := s.received ++ [r] })

/-- `Replier::reply` (`transport.cpp:220-230`): a send out of turn is caught as well. -/
def reply (payload : Bytes) (s : RepSocket α) : RepSocket α :=
  match s.owing with
  | some r => { s with owing := none, sent := s.sent ++ [(r, payload)] }
  | none => s

/-- Every request that was received has been answered, once and in order, and the socket is in
its receive state. -/
structure Settled (s : RepSocket α) : Prop where
  owing : s.owing = none
  answered : s.sent.map Prod.fst = s.received

theorem settled_empty : ({} : RepSocket α).Settled := ⟨rfl, rfl⟩

theorem receive_cons {s : RepSocket α} (h : s.owing = none) {r : α × Bytes}
    {rest : List (α × Bytes)} (hi : s.inbox = r :: rest) :
    s.receive =
      (some r, { s with inbox := rest, owing := some r, received := s.received ++ [r] }) := by
  simp only [receive, h, hi]

theorem receive_nil {s : RepSocket α} (h : s.owing = none) (hi : s.inbox = []) :
    s.receive = (none, s) := by
  simp only [receive, h, hi]

end RepSocket

def serveOne {α ε σ : Type} (handler : Bytes → Call ε σ Bytes) : Call ε (RepSocket α × σ) Bool :=
  fun s =>
    match s.1.receive with
    | (none, sock) => (.ok false, (sock, s.2))
    | (some r, sock) =>
      match handler r.2 s.2 with
      | (.ok payload, t) => (.ok true, (sock.reply payload, t))
      | (.error e, t) => (.error e, (sock, t))

section ServeOne

variable {α ε σ : Type} {handler : Bytes → Call ε σ Bytes} {sock : RepSocket α} {s t : σ}
  {r : α × Bytes} {rest : List (α × Bytes)}

theorem serveOne_idle (hs : sock.Settled) (hi : sock.inbox = []) :
    serveOne handler (sock, s) = (.ok false, (sock, s)) := by
  unfold serveOne
  rw [RepSocket.receive_nil hs.owing hi]

theorem serveOne_answers (hs : sock.Settled) (hi : sock.inbox = r :: rest) {payload : Bytes}
    (hh : handler r.2 s = (.ok payload, t)) :
    serveOne handler (sock, s) = (.ok true, ({ sock with
      inbox := rest
      received := sock.received ++ [r]
      sent := sock.sent ++ [(r, payload)] }, t)) := by
  unfold serveOne
  simp only [RepSocket.receive_cons hs.owing hi, hh, RepSocket.reply, hs.owing]

theorem serveOne_throws (hs : sock.Settled) (hi : sock.inbox = r :: rest) {e : ε}
    (hh : handler r.2 s = (.error e, t)) :
    serveOne handler (sock, s) = (.error e, ({ sock with
      inbox := rest
      owing := some r
      received := sock.received ++ [r] }, t)) := by
  unfold serveOne
  simp only [RepSocket.receive_cons hs.owing hi, hh]

end ServeOne

end AuvMiddleware.Mw
