import AuvMiddleware.Lib.Exchange
import AuvMiddleware.Mw.Requester

/-!
# Replies match their requests (transport.cpp:157-188)

The requests and replies on their way, wherever they are, are questions and answers. A message for
the socket in use belongs to the call that waits, since every other way out of a call leaves the
socket behind.
-/

namespace AuvMiddleware.Mw
open Runs Exchanges

def callOf (r : Request) : ℕ := r.1.call

def ReqRep.atServer (w : ReqRep) : List Request :=
  match w.server with
  | some s => s.sock.owing.toList ++ s.sock.inbox
  | none => []

def ReqRep.exchange (w : ReqRep) : Exchange Request Bytes where
  waiting := (w.requests : Multiset Request) + w.atServer
  handled := w.handled
  answers := (w.replies : Multiset Reply) + w.client.sock.inbox

/-! ### What happens to a message -/

namespace ReqRep

variable {w : ReqRep}

theorem coe_eq_cons_erase {α : Type} [BEq α] [LawfulBEq α] {l : List α} {a : α} (h : a ∈ l) :
    (l : Multiset α) = a ::ₘ ↑(l.erase a) := Multiset.coe_eq_coe.mpr (List.perm_cons_erase h)

theorem coe_erase_le {α : Type} [BEq α] (l : List α) (a : α) :
    (↑(l.erase a) : Multiset α) ≤ l := Multiset.coe_le.mpr List.erase_sublist.subperm

theorem exchange_deliverRequest {s : Server} {r : Request} (hs : w.server = some s)
    (hr : r ∈ w.requests) :
    ReqRep.exchange { w with
      requests := w.requests.erase r
      server := some { s with sock := { s.sock with inbox := s.sock.inbox ++ [r] } } } =
      w.exchange := by
  simp only [exchange, atServer, hs, coe_eq_cons_erase hr, ← Multiset.coe_add, Multiset.coe_singleton,
    ← Multiset.singleton_add]
  congr 1
  ac_rfl

theorem exchange_ask {w' : ReqRep} {r : Request} (hrequests : w'.requests = w.requests ++ [r])
    (hserver : w'.server = w.server) (hreplies : w'.replies = w.replies)
    (hhandled : w'.handled = w.handled)
    (hinbox : w'.client.sock.inbox = w.client.sock.inbox) : w'.exchange = w.exchange.ask r := by
  simp only [exchange, atServer, Exchange.ask, hrequests, hserver, hreplies, hhandled, hinbox,
    ← Multiset.coe_add, Multiset.coe_singleton, ← Multiset.singleton_add]
  congr 1
  ac_rfl

theorem settles_loseRequest (r : Request) :
    w.exchange.Settles (ReqRep.exchange { w with requests := w.requests.erase r }) :=
  .lose (Multiset.add_le_add_right (coe_erase_le w.requests r)) le_rfl

theorem settles_loseReply (a : Reply) :
    w.exchange.Settles (ReqRep.exchange { w with replies := w.replies.erase a }) :=
  .lose le_rfl (Multiset.add_le_add_right (coe_erase_le w.replies a))

theorem settles_deliverReply {a : Reply} (ha : a ∈ w.replies) :
    w.exchange.Settles ({ w with replies := w.replies.erase a }.accept a).exchange := by
  unfold accept
  split
  · have hsame : (↑(w.replies.erase a) : Multiset Reply) + ↑(w.client.sock.inbox ++ [a]) =
        ↑w.replies + ↑w.client.sock.inbox := by
      simp only [coe_eq_cons_erase ha, ← Multiset.coe_add, Multiset.coe_singleton,
        ← Multiset.singleton_add]
      ac_rfl
    exact .lose le_rfl (le_of_eq hsame)
  · exact settles_loseReply a

theorem settles_stopServer : w.exchange.Settles (ReqRep.exchange { w with server := none }) :=
  .lose (Multiset.add_le_add_left (Multiset.zero_le _)) le_rfl

theorem exchange_receive {sock : RepSocket Peer} (hs : w.server = some ⟨sock, false⟩) :
    ReqRep.exchange { w with server := some ⟨sock.receive.2, sock.receive.1.isSome⟩ } =
      w.exchange := by
  have hsame : sock.receive.2.owing.toList ++ sock.receive.2.inbox =
      sock.owing.toList ++ sock.inbox := by
    cases ho : sock.owing with
    | some q => simp only [RepSocket.receive, ho]
    | none =>
      cases hi : sock.inbox with
      | nil => simp only [RepSocket.receive_nil ho hi, ho, hi]
      | cons q rest =>
        rw [RepSocket.receive_cons ho hi]
        rfl
  simp only [exchange, atServer, hs, hsame]

theorem exchange_handlerThrows {sock : RepSocket Peer} (hs : w.server = some ⟨sock, true⟩) :
    ReqRep.exchange { w with server := some ⟨sock, false⟩ } = w.exchange := by
  simp only [ReqRep.exchange, ReqRep.atServer, hs]

theorem exchange_startServer (hs : w.server = none) :
    ReqRep.exchange { w with server := some {} } = w.exchange := by
  simp only [ReqRep.exchange, ReqRep.atServer, hs]
  rfl

theorem settles_reply {sock : RepSocket Peer} (hs : w.server = some ⟨sock, true⟩)
    (payload : Bytes) :
    w.exchange.Settles (ReqRep.exchange { w with
      server := some ⟨sock.reply payload, false⟩
      replies := w.replies ++ sock.owing.toList.map fun r => (r, payload)
      handled := w.handled ++ sock.owing.toList.map fun r => (r, payload) }) := by
  cases ho : sock.owing with
  | none =>
    have hsame : ReqRep.exchange { w with
        server := some ⟨sock.reply payload, false⟩
        replies := w.replies ++ []
        handled := w.handled ++ [] } = w.exchange := by
      simp only [exchange, atServer, hs, RepSocket.reply, ho, List.append_nil]
    exact hsame ▸ Exchange.Settles.lose le_rfl le_rfl
  | some q =>
    have hw : w.exchange.waiting = q ::ₘ (↑w.requests + ↑sock.inbox) := by
      simp only [exchange, atServer, hs, ho]
      show (↑w.requests : Multiset Request) + q ::ₘ ↑sock.inbox = _
      rw [Multiset.add_cons]
    have hdone : ReqRep.exchange { w with
        server := some ⟨sock.reply payload, false⟩
        replies := w.replies ++ [(q, payload)]
        handled := w.handled ++ [(q, payload)] } =
        ⟨↑w.requests + ↑sock.inbox, (q, payload) ::ₘ w.exchange.handled,
          (q, payload) ::ₘ w.exchange.answers⟩ := by
      simp only [exchange, atServer, RepSocket.reply, ho, ← Multiset.coe_add,
        Multiset.coe_singleton, ← Multiset.singleton_add]
      congr 1
      · ac_rfl
      · ac_rfl
    exact hdone ▸ Exchange.Settles.answer q payload hw

end ReqRep

/-! ### The invariant -/

structure MessagesInv (w : ReqRep) : Prop where
  exchange : w.exchange.Inv callOf
  known : ∀ c ∈ w.exchange.keys callOf, c < w.calls
  socket : w.client.sock.id < w.client.made
  sockets : ∀ r ∈ w.exchange.about, ∀ s ∈ r.1.sock, s < w.client.made
  current : ∀ r ∈ w.exchange.about, r.1.sock = some w.client.sock.id →
    w.pending = some (r.1.call, r.2)
  delivered : ∀ a ∈ w.client.sock.inbox, a.1.1.sock = some w.client.sock.id
  awaiting : w.client.sock.awaiting = w.pending.isSome

/-- The calls that have been made, in the order they return. -/
def ReqRep.begun (w : ReqRep) : List ℕ :=
  w.returned.map Returned.call ++ w.pending.toList.map Prod.fst

/-- A call's value is what a handler made of the call's own request. -/
def Own (w : ReqRep) (r : Returned) : Prop :=
  ∀ v ∈ r.value, ∃ sock, (((⟨some sock, r.call⟩, r.payload), v) : Reply) ∈ w.handled

structure CallsInv (w : ReqRep) : Prop where
  begun : ∀ c ∈ w.begun, c < w.calls
  once : w.begun.Nodup
  own : ∀ r ∈ w.returned, Own w r

namespace MessagesInv

variable {w w' : ReqRep}

theorem network (h : MessagesInv w) (hx : w.exchange.Settles w'.exchange)
    (hid : w'.client.sock.id = w.client.sock.id) (hmade : w'.client.made = w.client.made)
    (hawait : w'.client.sock.awaiting = w.client.sock.awaiting) (hcalls : w'.calls = w.calls)
    (hpending : w'.pending = w.pending)
    (hinbox : ∀ a ∈ w'.client.sock.inbox,
      a ∈ w.client.sock.inbox ∨ a.1.1.sock = some w.client.sock.id) : MessagesInv w' := by
  refine ⟨hx.inv h.exchange, ?_, ?_, ?_, ?_, ?_, ?_⟩
  · intro c hc
    rw [hcalls]
    exact h.known c (Multiset.mem_of_le hx.keys_le hc)
  · rw [hid, hmade]
    exact h.socket
  · intro r hr
    rw [hmade]
    exact h.sockets r (Multiset.mem_of_le hx.about_le hr)
  · intro r hr
    rw [hid, hpending]
    exact h.current r (Multiset.mem_of_le hx.about_le hr)
  · intro a ha
    rw [hid]
    exact (hinbox a ha).elim (h.delivered a) id
  · rw [hawait, hpending]
    exact h.awaiting

/-- The way out that leaves the socket behind, and whatever is on its way to it. -/
theorem replaced (h : MessagesInv w) (hx : w.exchange.Settles w'.exchange)
    (hclient : w'.client = w.client.replace) (hcalls : w.calls ≤ w'.calls)
    (hpending : w'.pending = none) : MessagesInv w' := by
  refine ⟨hx.inv h.exchange, ?_, ?_, ?_, ?_, ?_, ?_⟩
  · intro c hc
    have := h.known c (Multiset.mem_of_le hx.keys_le hc)
    omega
  · rw [hclient]
    exact Nat.lt_succ_self _
  · intro r hr s hs
    have := h.sockets r (Multiset.mem_of_le hx.about_le hr) s hs
    rw [hclient]
    exact Nat.lt_succ_of_lt this
  · intro r hr hs
    have := h.sockets r (Multiset.mem_of_le hx.about_le hr) _ hs
    rw [hclient] at this
    exact absurd this (Nat.lt_irrefl _)
  · intro a ha
    rw [hclient] at ha
    cases ha
  · rw [hclient, hpending]
    rfl

theorem asked (h : MessagesInv w) {r : Request} (hx : w'.exchange = w.exchange.ask r)
    (hr : r.1.call = w.calls) (hcalls : w'.calls = w.calls + 1)
    (hid : w'.client.sock.id = w.client.sock.id) (hmade : w'.client.made = w.client.made)
    (hinbox : w'.client.sock.inbox = w.client.sock.inbox)
    (hsock : ∀ s ∈ r.1.sock, s = w.client.sock.id)
    (hcurrent : ∀ q ∈ w.exchange.about, q.1.sock = some w.client.sock.id →
      w'.pending = some (q.1.call, q.2))
    (hnew : r.1.sock = some w.client.sock.id → w'.pending = some (r.1.call, r.2))
    (hawait : w'.client.sock.awaiting = w'.pending.isSome) : MessagesInv w' := by
  have hfresh : callOf r ∉ w.exchange.keys callOf := by
    intro hmem
    have := h.known _ hmem
    rw [callOf, hr] at this
    exact Nat.lt_irrefl _ this
  have habout : ∀ q ∈ w'.exchange.about, q = r ∨ q ∈ w.exchange.about := by
    intro q hq
    rw [hx, Exchange.about_ask] at hq
    exact Multiset.mem_cons.mp hq
  refine ⟨?_, ?_, ?_, ?_, ?_, ?_, hawait⟩
  · rw [hx]
    exact h.exchange.ask hfresh
  · intro c hc
    rw [hx, Exchange.keys_ask] at hc
    rw [hcalls]
    rcases Multiset.mem_cons.mp hc with rfl | hc
    · rw [callOf, hr]
      exact Nat.lt_succ_self _
    · exact Nat.lt_succ_of_lt (h.known c hc)
  · rw [hid, hmade]
    exact h.socket
  · intro q hq s hs
    rw [hmade]
    rcases habout q hq with rfl | hq
    · rw [hsock s hs]
      exact h.socket
    · exact h.sockets q hq s hs
  · intro q hq hs
    rw [hid] at hs
    rcases habout q hq with rfl | hq
    · exact hnew hs
    · exact hcurrent q hq hs
  · rw [hid, hinbox]
    exact h.delivered

/-- A reply the socket has received is the reply to the call that waits. -/
theorem received (h : MessagesInv w) {a : Reply} (ha : a ∈ w.client.sock.inbox) :
    a ∈ w.handled ∧ a.1.1.sock = some w.client.sock.id ∧
      w.pending = some (a.1.1.call, a.1.2) := by
  have hanswer : a ∈ w.exchange.answers := Multiset.mem_add.mpr (Or.inr ha)
  have habout : a.1 ∈ w.exchange.about :=
    Multiset.mem_add.mpr (Or.inr (Multiset.mem_map_of_mem Prod.fst hanswer))
  have hsock := h.delivered a ha
  exact ⟨h.exchange.mem_handled hanswer, hsock, h.current a.1 habout hsock⟩

/-- The call that waits gets its reply, and nothing else is on its way to the socket. -/
theorem collected (h : MessagesInv w) {a : Reply} {rest : List Reply}
    (hinbox : w.client.sock.inbox = a :: rest)
    (hx : w'.exchange = { w.exchange with answers := ↑w.replies + ↑rest })
    (hclient : w'.client =
      { w.client with sock := { w.client.sock with awaiting := false, inbox := rest } })
    (hcalls : w'.calls = w.calls) (hpending : w'.pending = none) : MessagesInv w' := by
  have hanswers : w.exchange.answers = a ::ₘ (↑w.replies + ↑rest) := by
    simp only [ReqRep.exchange, hinbox, ← Multiset.cons_coe, Multiset.add_cons]
  have hsettles : w.exchange.Settles w'.exchange := by
    rw [hx]
    refine .lose le_rfl ?_
    rw [hanswers]
    exact Multiset.le_cons_self _ a
  have hmine : w.pending = some (a.1.1.call, a.1.2) := by
    refine (h.received ?_).2.2
    rw [hinbox]
    exact List.mem_cons_self ..
  refine ⟨hsettles.inv h.exchange, ?_, ?_, ?_, ?_, ?_, ?_⟩
  · intro c hc
    rw [hcalls]
    exact h.known c (Multiset.mem_of_le hsettles.keys_le hc)
  · rw [hclient]
    exact h.socket
  · intro r hr
    rw [hclient]
    exact h.sockets r (Multiset.mem_of_le hsettles.about_le hr)
  · intro r hr hs
    rw [hclient] at hs
    have hrcall := h.current r (Multiset.mem_of_le hsettles.about_le hr) hs
    rw [hmine] at hrcall
    have hcall : callOf r = callOf a.1 := (Prod.mk.inj (Option.some.inj hrcall)).1.symm
    rw [hx] at hr
    exact absurd hcall (h.exchange.collected hanswers hr)
  · intro b hb
    rw [hclient] at hb ⊢
    apply h.delivered
    rw [hinbox]
    exact List.mem_cons_of_mem a hb
  · rw [hclient, hpending]
    rfl

end MessagesInv

namespace CallsInv

variable {w w' : ReqRep}

theorem keep (h : CallsInv w) (hbegun : w'.begun = w.begun) (hcalls : w.calls ≤ w'.calls)
    (hown : ∀ r ∈ w'.returned, Own w' r) : CallsInv w' := by
  refine ⟨?_, ?_, hown⟩
  · intro c hc
    rw [hbegun] at hc
    have := h.begun c hc
    omega
  · rw [hbegun]
    exact h.once

theorem begin (h : CallsInv w) (hbegun : w'.begun = w.begun ++ [w.calls])
    (hcalls : w'.calls = w.calls + 1) (hown : ∀ r ∈ w'.returned, Own w' r) : CallsInv w' := by
  refine ⟨?_, ?_, hown⟩
  · intro c hc
    rw [hbegun] at hc
    rcases List.mem_append.mp hc with hc | hc
    · have := h.begun c hc
      omega
    · have := List.mem_singleton.mp hc
      omega
  · rw [hbegun, List.nodup_append]
    refine ⟨h.once, List.nodup_singleton _, ?_⟩
    intro b hb c hc
    have := h.begun b hb
    have := List.mem_singleton.mp hc
    omega

end CallsInv

theorem Own.mono {w w' : ReqRep} {r : Returned} (h : Own w r)
    (hhandled : ∀ a ∈ w.handled, a ∈ w'.handled) : Own w' r := by
  intro v hv
  obtain ⟨sock, hmem⟩ := h v hv
  exact ⟨sock, hhandled _ hmem⟩

theorem own_nothing {w : ReqRep} (call : ℕ) (payload : Bytes) : Own w ⟨call, payload, none⟩ := by
  intro v hv
  cases hv

structure ReqRepInv (w : ReqRep) : Prop where
  messages : MessagesInv w
  calls : CallsInv w

theorem reqRepInv_new : ReqRepInv {} := by
  refine ⟨⟨Exchange.inv_empty, ?_, Nat.one_pos, ?_, ?_, ?_, rfl⟩, ⟨?_, List.nodup_nil, ?_⟩⟩
  · intro c hc
    exact absurd hc (Multiset.notMem_zero c)
  · intro r hr
    exact absurd hr (Multiset.notMem_zero r)
  · intro r hr
    exact absurd hr (Multiset.notMem_zero r)
  · intro a ha
    cases ha
  · intro c hc
    cases hc
  · intro r hr
    cases hr

theorem ReqRepInv.network {w w' : ReqRep} (h : ReqRepInv w) (hx : w.exchange.Settles w'.exchange)
    (hid : w'.client.sock.id = w.client.sock.id) (hmade : w'.client.made = w.client.made)
    (hawait : w'.client.sock.awaiting = w.client.sock.awaiting) (hcalls : w'.calls = w.calls)
    (hpending : w'.pending = w.pending) (hreturned : w'.returned = w.returned)
    (hinbox : ∀ a ∈ w'.client.sock.inbox,
      a ∈ w.client.sock.inbox ∨ a.1.1.sock = some w.client.sock.id) : ReqRepInv w' := by
  refine ⟨h.messages.network hx hid hmade hawait hcalls hpending hinbox, h.calls.keep ?_ ?_ ?_⟩
  · rw [ReqRep.begun, hreturned, hpending, ReqRep.begun]
  · exact le_of_eq hcalls.symm
  · intro r hr
    rw [hreturned] at hr
    exact (h.calls.own r hr).mono fun a ha => Multiset.mem_of_le hx.handled_le ha

theorem ReqRepInv.server {w w' : ReqRep} (h : ReqRepInv w) (hx : w.exchange.Settles w'.exchange)
    (hclient : w'.client = w.client) (hcalls : w'.calls = w.calls)
    (hpending : w'.pending = w.pending) (hreturned : w'.returned = w.returned) : ReqRepInv w' := by
  apply h.network hx <;> simp only [hclient, hcalls, hpending, hreturned]
  exact fun a ha => Or.inl ha

theorem own_snoc {w w' : ReqRep} (h : CallsInv w) {r : Returned}
    (hreturned : w'.returned = w.returned ++ [r]) (hhandled : w'.handled = w.handled)
    (hr : Own w' r) : ∀ q ∈ w'.returned, Own w' q := by
  intro q hq
  rw [hreturned] at hq
  rcases List.mem_append.mp hq with hq | hq
  · exact (h.own q hq).mono fun a ha => by rwa [hhandled]
  · rwa [List.mem_singleton.mp hq]

theorem request_sent {w : ReqRep} (hready : w.client.sock.awaiting = false) (payload : Bytes) :
    w.request payload .sent = { w with
      client := { w.client with sock := { w.client.sock with awaiting := true } }
      calls := w.calls + 1
      pending := some (w.calls, payload)
      requests := w.requests ++ [(⟨some w.client.sock.id, w.calls⟩, payload)] } := by
  simp only [ReqRep.request, Requester.send, hready]

theorem request_failed {w : ReqRep} (payload : Bytes) {result : SendResult}
    (h : result ≠ .sent) : w.request payload result = { w with
      client := w.client.replace
      calls := w.calls + 1
      returned := w.returned ++ [⟨w.calls, payload, none⟩] } := by
  cases hawait : w.client.sock.awaiting with
  | true => simp only [ReqRep.request, Requester.send, hawait]
  | false =>
    cases result with
    | sent => exact absurd rfl h
    | wouldBlock => simp only [ReqRep.request, Requester.send, hawait]
    | error => simp only [ReqRep.request, Requester.send, hawait]

theorem request_inv {w : ReqRep} (h : ReqRepInv w) (hp : w.pending = none) (payload : Bytes)
    (result : SendResult) : ReqRepInv (w.request payload result) := by
  have hready : w.client.sock.awaiting = false := by
    rw [h.messages.awaiting, hp]
    rfl
  have hnone : ∀ q ∈ w.exchange.about, q.1.sock ≠ some w.client.sock.id := by
    intro q hq hs
    have := h.messages.current q hq hs
    rw [hp] at this
    cases this
  by_cases hsent : result = .sent
  · subst hsent
    rw [request_sent hready]
    constructor
    · refine h.messages.asked (ReqRep.exchange_ask rfl rfl rfl rfl rfl) rfl rfl rfl rfl rfl ?_ ?_ ?_ rfl
      · intro s hs
        exact (Option.some.inj hs).symm
      · intro q hq hs
        exact absurd hs (hnone q hq)
      · intro _
        rfl
    · refine h.calls.begin ?_ rfl h.calls.own
      simp [ReqRep.begun, hp]
  · rw [request_failed payload hsent]
    constructor
    · refine h.messages.replaced (.lose le_rfl ?_) rfl (Nat.le_succ _) hp
      exact Multiset.add_le_add_left (Multiset.zero_le _)
    · refine h.calls.begin ?_ rfl (own_snoc h.calls rfl rfl (own_nothing _ _))
      simp [ReqRep.begun, hp]

theorem poll_failed {w : ReqRep} (call : ℕ) (payload : Bytes) {result : PollResult}
    (h : result ≠ .readable) : w.poll call payload result = { w with
      client := w.client.replace
      pending := none
      returned := w.returned ++ [⟨call, payload, none⟩] } := by
  cases result with
  | readable => exact absurd rfl h
  | timeout => rfl
  | error => rfl

theorem poll_readable {w : ReqRep} (call : ℕ) (payload : Bytes) {a : Reply} {rest : List Reply}
    (h : w.client.sock.inbox = a :: rest) : w.poll call payload .readable = { w with
      client :=
        { w.client with sock := { w.client.sock with awaiting := false, inbox := rest } }
      pending := none
      returned := w.returned ++ [⟨call, payload, some a.2⟩] } := by
  simp only [ReqRep.poll, Requester.receive, h, Option.map_some]

theorem poll_inv {w : ReqRep} (h : ReqRepInv w) {call : ℕ} {payload : Bytes}
    (hp : w.pending = some (call, payload)) (result : PollResult)
    (hr : ¬(result = .readable ∧ w.client.sock.inbox = [])) :
    ReqRepInv (w.poll call payload result) := by
  have hbegun : (w.poll call payload result).begun = w.begun := by
    simp [ReqRep.begun, ReqRep.poll, hp]
  by_cases hread : result = .readable
  · subst hread
    cases hinbox : w.client.sock.inbox with
    | nil => exact absurd ⟨rfl, hinbox⟩ hr
    | cons a rest =>
      rw [poll_readable call payload hinbox] at hbegun ⊢
      refine ⟨h.messages.collected hinbox rfl rfl rfl rfl, h.calls.keep hbegun le_rfl ?_⟩
      obtain ⟨hhandled, hsock, hmine⟩ := h.messages.received (a := a) (by
        rw [hinbox]
        exact List.mem_cons_self ..)
      refine own_snoc h.calls rfl rfl ?_
      intro v hv
      cases hv
      rw [hp] at hmine
      obtain ⟨hcall, hpayload⟩ := Prod.mk.inj (Option.some.inj hmine)
      refine ⟨w.client.sock.id, ?_⟩
      rw [hcall, hpayload, ← hsock]
      exact hhandled
  · rw [poll_failed call payload hread] at hbegun ⊢
    refine ⟨h.messages.replaced (.lose le_rfl ?_) rfl le_rfl rfl, h.calls.keep hbegun le_rfl ?_⟩
    · exact Multiset.add_le_add_left (Multiset.zero_le _)
    · exact own_snoc h.calls rfl rfl (own_nothing call payload)

theorem elsewhere_inv {w : ReqRep} (h : ReqRepInv w) (payload : Bytes) :
    ReqRepInv { w with
      calls := w.calls + 1
      requests := w.requests ++ [(⟨none, w.calls⟩, payload)] } := by
  have hmsg := h.messages
  refine ⟨hmsg.asked (ReqRep.exchange_ask rfl rfl rfl rfl rfl) rfl rfl rfl rfl rfl ?_
    hmsg.current ?_ hmsg.awaiting, h.calls.keep rfl (Nat.le_succ _) h.calls.own⟩
  · intro s hs
    cases hs
  · intro hs
    cases hs

theorem deliverReply_inv {w : ReqRep} (h : ReqRepInv w) {a : Reply} (ha : a ∈ w.replies) :
    ReqRepInv ({ w with replies := w.replies.erase a }.accept a) := by
  have hx := ReqRep.settles_deliverReply ha
  unfold ReqRep.accept at hx ⊢
  split
  · rename_i hs
    rw [if_pos hs] at hx
    refine h.network hx rfl rfl rfl rfl rfl rfl ?_
    intro b hb
    rcases List.mem_append.mp hb with hb | hb
    · exact Or.inl hb
    · rw [List.mem_singleton.mp hb]
      exact Or.inr hs
  · rename_i hs
    rw [if_neg hs] at hx
    exact h.server hx rfl rfl rfl rfl

theorem netStep_inv (w : ReqRep) (i : NetStep) (w' : ReqRep) (hw : ReqRepInv w)
    (h : netStep w i = some w') : ReqRepInv w' := by
  cases i with
  | request payload result =>
    simp only [netStep] at h
    split at h
    · rename_i hp
      cases h
      exact request_inv hw hp payload result
    · cases h
  | poll result =>
    simp only [netStep] at h
    split at h
    · rename_i call payload hp
      split at h
      · cases h
      · rename_i hr
        cases h
        exact poll_inv hw hp result hr
    · cases h
  | requestElsewhere payload =>
    cases h
    exact elsewhere_inv hw payload
  | deliverRequest r =>
    simp only [netStep] at h
    split at h
    · rename_i s hs
      split at h
      · rename_i hr
        cases h
        have hsame := ReqRep.exchange_deliverRequest hs hr
        exact hw.server (hsame ▸ .lose le_rfl le_rfl) rfl rfl rfl rfl
      · cases h
    · cases h
  | loseRequest r =>
    cases h
    exact hw.server (ReqRep.settles_loseRequest r) rfl rfl rfl rfl
  | deliverReply a =>
    simp only [netStep] at h
    split at h
    · rename_i ha
      cases h
      exact deliverReply_inv hw ha
    · cases h
  | loseReply a =>
    cases h
    exact hw.server (ReqRep.settles_loseReply a) rfl rfl rfl rfl
  | receive =>
    simp only [netStep] at h
    split at h
    · rename_i sock hs
      cases h
      exact hw.server (ReqRep.exchange_receive hs ▸ .lose le_rfl le_rfl) rfl rfl rfl rfl
    · cases h
  | reply payload =>
    simp only [netStep] at h
    split at h
    · rename_i sock hs
      cases h
      exact hw.server (ReqRep.settles_reply hs payload) rfl rfl rfl rfl
    · cases h
  | handlerThrows =>
    simp only [netStep] at h
    split at h
    · rename_i sock hs
      cases h
      exact hw.server (ReqRep.exchange_handlerThrows hs ▸ .lose le_rfl le_rfl) rfl rfl rfl rfl
    · cases h
  | startServer =>
    simp only [netStep] at h
    split at h
    · rename_i hs
      cases h
      exact hw.server (ReqRep.exchange_startServer hs ▸ .lose le_rfl le_rfl) rfl rfl rfl rfl
    · cases h
  | stopServer =>
    cases h
    exact hw.server ReqRep.settles_stopServer rfl rfl rfl rfl

theorem serveOne_steps {ε σ : Type} {handler : Bytes → Call ε σ Bytes} {w : ReqRep}
    {sock sock' : RepSocket Peer} {s t : σ} (hs : w.server = some ⟨sock, false⟩)
    (h : serveOne handler (sock, s) = (.ok true, (sock', t))) :
    ∃ r payload w', sock.receive.1 = some r ∧ handler r.2 s = (.ok payload, t) ∧
      run netStep w [.receive, .reply payload] = some w' ∧ w'.server = some ⟨sock', false⟩ := by
  unfold serveOne at h
  rcases hr : sock.receive with ⟨_ | r, sock₁⟩
  · rw [hr] at h
    cases h
  · rcases hh : handler r.2 s with ⟨payload | payload, t'⟩
    · simp only [hr, hh] at h
      cases h
    · simp only [hr, hh] at h
      cases h
      have hreceive : netStep w .receive = some { w with server := some ⟨sock₁, true⟩ } := by
        simp only [netStep, hs, hr, Option.isSome_some]
      have hreply : run netStep w [.receive, .reply payload] = some { w with
          server := some ⟨sock₁.reply payload, false⟩
          replies := w.replies ++ sock₁.owing.toList.map fun r => (r, payload)
          handled := w.handled ++ sock₁.owing.toList.map fun r => (r, payload) } := by
        rw [run, hreceive]
        rfl
      exact ⟨r, payload, _, rfl, hh, hreply, rfl⟩

/-! ### Matching -/

/-- What a value is, how often a call is answered, and that the next call can send. -/
structure Matched (w : ReqRep) : Prop where
  own : ∀ r ∈ w.returned, Own w r
  handledOnce : (w.handled.map fun a => callOf a.1).Nodup
  returnedOnce : (w.returned.map Returned.call).Nodup
  ready : w.pending = none → (w.client.send .sent).1 = true

theorem ReqRepInv.matched {w : ReqRep} (h : ReqRepInv w) : Matched w := by
  refine ⟨h.calls.own, ?_, ?_, ?_⟩
  · exact Multiset.coe_nodup.mp h.messages.exchange.handled_once
  · exact (List.nodup_append.mp h.calls.once).1
  · intro hp
    have hready := h.messages.awaiting
    rw [hp] at hready
    simp only [Requester.send, hready, Option.isSome_none]

/-- However calls, timeouts, a server that comes and goes and late messages interleave, a value
that a call returns is what a handler made of its own request. -/
theorem reqrep_matched {steps : List NetStep} {w : ReqRep} (h : run netStep {} steps = some w) :
    Matched w := (run_invariant netStep_inv reqRepInv_new h).matched

def lateReply : List NetStep :=
  let payload := [lowByte 7]
  [.request payload .sent, .poll .timeout, .startServer, .request payload .sent,
    .deliverRequest (⟨some 0, 0⟩, payload), .receive, .reply ([lowByte 8]),
    .deliverReply ((⟨some 0, 0⟩, payload), [lowByte 8]),
    .deliverRequest (⟨some 1, 1⟩, payload), .receive, .reply ([lowByte 9]),
    .deliverReply ((⟨some 1, 1⟩, payload), [lowByte 9]), .poll .readable]

theorem reqrep_matched_late :
    ∃ w, run netStep {} lateReply = some w ∧
      w.returned = [⟨0, [lowByte 7], none⟩, ⟨1, [lowByte 7], some ([lowByte 9])⟩] ∧ Matched w := by
  have hrun : ∃ w, run netStep {} lateReply = some w ∧
      w.returned = [⟨0, [lowByte 7], none⟩, ⟨1, [lowByte 7], some ([lowByte 9])⟩] :=
    ⟨_, rfl, by decide⟩
  obtain ⟨w, hw, hreturned⟩ := hrun
  exact ⟨w, hw, hreturned, reqrep_matched hw⟩

end AuvMiddleware.Mw
