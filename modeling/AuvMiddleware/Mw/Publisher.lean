import AuvMiddleware.Lib.Bytes
import AuvMiddleware.Lib.Runs

/-!
# mw::Publisher (transport.cpp:43-77)

A frame sent with `sndmore` keeps its message open, and the next frame the socket sends goes on
with that message. What ZeroMQ reports of a send is given from outside.
-/

namespace AuvMiddleware.Mw
open Runs

inductive SendResult where
  | sent
  | wouldBlock
  | error
  deriving DecidableEq

def kHighWaterMark : ℕ := 1000

/-- A PUB socket: the frames of the message left open, and the messages it has put out whole.
`xpubNodrop` is off unless someone sets it. -/
structure PubSocket where
  sndhwm : ℕ
  xpubNodrop : Bool := false
  half : List Bytes := []
  wire : List (List Bytes) := []

def PubSocket.send (sock : PubSocket) (frame : Bytes) (more : Bool) : PubSocket :=
  if more then
    { sock with half := sock.half ++ [frame] }
  else
    { sock with half := [], wire := sock.wire ++ [sock.half ++ [frame]] }

structure Publisher where
  sock : PubSocket := { sndhwm := kHighWaterMark }
  dropped : ℕ := 0

/-- `Publisher::publish` (`transport.cpp:62-75`); an error is caught and counted as a drop. -/
def Publisher.publish (p : Publisher) (topic payload : Bytes) (sentTopic sentBody : SendResult) :
    Bool × Publisher :=
  match sentTopic with
  | .wouldBlock | .error => (false, { p with dropped := p.dropped + 1 })
  | .sent =>
    let p := { p with sock := p.sock.send topic true }
    match sentBody with
    | .wouldBlock | .error => (false, { p with dropped := p.dropped + 1 })
    | .sent => (true, { p with sock := p.sock.send payload false })

/-! ### Sequences of calls -/

structure PublishCall where
  topic : Bytes
  payload : Bytes
  sentTopic : SendResult := .sent
  sentBody : SendResult := .sent

def PublishCall.frames (c : PublishCall) : List Bytes := [c.topic, c.payload]

def PublishCall.GoesOut (c : PublishCall) : Prop := c.sentTopic = .sent ∧ c.sentBody = .sent

def PublishCall.BreaksOff (c : PublishCall) : Prop := c.sentTopic = .sent ∧ c.sentBody ≠ .sent

instance (c : PublishCall) : Decidable c.GoesOut := inferInstanceAs (Decidable (_ ∧ _))

structure Publishing where
  publisher : Publisher := {}
  published : List PublishCall := []
  refused : ℕ := 0

def Publishing.call (s : Publishing) (c : PublishCall) : Publishing :=
  match s.publisher.publish c.topic c.payload c.sentTopic c.sentBody with
  | (true, p) => { s with publisher := p, published := s.published ++ [c] }
  | (false, p) => { s with publisher := p, refused := s.refused + 1 }

def Publishing.Clean (s : Publishing) : Prop :=
  s.publisher.sock.wire = s.published.map PublishCall.frames ∧ s.publisher.dropped = s.refused

theorem call_goesOut {s : Publishing} {c : PublishCall} (h : c.GoesOut) :
    s.call c = { s with
      publisher := { s.publisher with sock := { s.publisher.sock with
        half := []
        wire := s.publisher.sock.wire ++ [s.publisher.sock.half ++ c.frames] } }
      published := s.published ++ [c] } := by
  obtain ⟨htopic, hbody⟩ := h
  simp [Publishing.call, Publisher.publish, htopic, hbody, PubSocket.send, PublishCall.frames]

theorem call_stays {s : Publishing} {c : PublishCall} (h : ¬ c.GoesOut) :
    (s.call c).publisher.sock.wire = s.publisher.sock.wire ∧
      (s.call c).published = s.published ∧
      (s.call c).publisher.dropped = s.publisher.dropped + 1 ∧
      (s.call c).refused = s.refused + 1 ∧
      ((s.call c).publisher.sock.half = [] ↔ s.publisher.sock.half = [] ∧ ¬ c.BreaksOff) := by
  unfold Publishing.call Publisher.publish
  cases htopic : c.sentTopic with
  | wouldBlock => exact ⟨rfl, rfl, rfl, rfl, by simp [PublishCall.BreaksOff, htopic]⟩
  | error => exact ⟨rfl, rfl, rfl, rfl, by simp [PublishCall.BreaksOff, htopic]⟩
  | sent =>
    cases hbody : c.sentBody with
    | sent => exact absurd ⟨htopic, hbody⟩ h
    | wouldBlock =>
      exact ⟨rfl, rfl, rfl, rfl, by simp [PublishCall.BreaksOff, htopic, hbody, PubSocket.send]⟩
    | error =>
      exact ⟨rfl, rfl, rfl, rfl, by simp [PublishCall.BreaksOff, htopic, hbody, PubSocket.send]⟩

/-- One call: the wire stays clean unless the call finishes someone else's message. -/
theorem call_clean_iff (s : Publishing) (c : PublishCall) :
    (s.call c).Clean ↔ s.Clean ∧ (c.GoesOut → s.publisher.sock.half = []) := by
  unfold Publishing.Clean
  by_cases hc : c.GoesOut
  · rw [call_goesOut hc]
    simp only [List.map_append, List.map_cons, List.map_nil, hc, true_imp_iff]
    constructor
    · rintro ⟨hwire, hdropped⟩
      obtain ⟨hwire, hlast⟩ := List.append_inj' hwire rfl
      have hhalf : s.publisher.sock.half ++ c.frames = c.frames := by simpa using hlast
      exact ⟨⟨hwire, hdropped⟩, List.append_left_eq_self.mp hhalf⟩
    · rintro ⟨⟨hwire, hdropped⟩, hhalf⟩
      rw [hwire, hhalf]
      exact ⟨rfl, hdropped⟩
  · obtain ⟨hwire, hpublished, hdropped, hrefused, -⟩ := call_stays (s := s) hc
    rw [hwire, hpublished, hdropped, hrefused]
    simp only [hc, false_imp_iff, and_true, Nat.add_right_cancel_iff]

/-- Whether a call finds a message open is settled by the calls before it. -/
theorem throughout_half_iff (calls : List PublishCall) (s : Publishing) :
    Throughout (fun s c => some (s.call c)) (fun s c => c.GoesOut → s.publisher.sock.half = [])
        s calls ↔
      (s.publisher.sock.half = [] ∨ ∀ c ∈ calls, ¬ c.GoesOut) ∧
        calls.Pairwise fun b c => b.BreaksOff → ¬ c.GoesOut := by
  induction calls generalizing s with
  | nil => simp [Throughout]
  | cons c calls ih =>
    simp only [Throughout, Option.some.injEq, forall_eq', ih, List.pairwise_cons,
      List.forall_mem_cons]
    by_cases hc : c.GoesOut
    · have hb : ¬ c.BreaksOff := fun hb => hb.2 hc.2
      have hhalf : (s.call c).publisher.sock.half = [] := by rw [call_goesOut hc]
      simp only [hc, hb, hhalf, true_imp_iff, false_imp_iff, implies_true, true_or, true_and,
        not_true_eq_false, false_and, or_false]
    · have hhalf := (call_stays (s := s) hc).2.2.2.2
      rw [hhalf]
      by_cases hb : c.BreaksOff
      · simp only [hc, hb, not_true_eq_false, and_false, false_or, false_imp_iff, true_imp_iff,
          not_false_eq_true, true_and]
        exact ⟨fun ⟨hnone, hpair⟩ => ⟨.inr hnone, hnone, hpair⟩,
          fun ⟨_, hnone, hpair⟩ => ⟨hnone, hpair⟩⟩
      · simp only [hc, hb, not_false_eq_true, and_true, false_imp_iff, true_and, implies_true]

/-- A message left half sent is finished by the next call that goes out, with too many frames. -/
theorem published_clean_iff (calls : List PublishCall) :
    ∃ s, run (fun s c => some (Publishing.call s c)) {} calls = some s ∧
      (s.Clean ↔ calls.Pairwise fun b c => b.BreaksOff → ¬ c.GoesOut) := by
  have hrun := run_total (f := Publishing.call) {} calls
  have hstart : Publishing.Clean {} := ⟨rfl, rfl⟩
  refine ⟨_, hrun, ?_⟩
  have hstep (s : Publishing) (c : PublishCall) (s' : Publishing) (_ : True)
      (hs : some (s.call c) = some s') :
      s'.Clean ↔ s.Clean ∧ (c.GoesOut → s.publisher.sock.half = []) := by
    cases hs
    exact call_clean_iff s c
  rw [run_iff_throughout (fun _ _ _ _ _ => trivial) hstep trivial hrun, throughout_half_iff]
  simp [hstart]

def brokenOff : List PublishCall :=
  [{ topic := bytes [1], payload := bytes [2], sentBody := .wouldBlock },
    { topic := bytes [1], payload := bytes [3] }]

theorem brokenOff_wire :
    ∃ s, run (fun s c => some (Publishing.call s c)) {} brokenOff = some s ∧
      s.published.map PublishCall.frames = [[[1], [3]]] ∧
      s.publisher.sock.wire = [[[1], [1], [3]]] ∧ ¬ s.Clean :=
  ⟨_, rfl, rfl, rfl, fun h => absurd h.1 (by decide)⟩

end AuvMiddleware.Mw
