import AuvMiddleware.Mw.Publisher

/-!
# A publisher and a peer that may not keep up (transport.cpp:12-14, 43-77)

The peer is connected and subscribed. Messages wait for it in a queue of at most `sndhwm`; when the
queue is full a PUB socket lets the message go and reports success, unless ZMQ_XPUB_NODROP is set.
-/

namespace AuvMiddleware.Mw
open Runs

def PubSocket.report (sock : PubSocket) (waiting : ℕ) : SendResult :=
  if sock.xpubNodrop ∧ sock.sndhwm ≤ waiting then .wouldBlock else .sent

structure Sample where
  returned : Bool
  placed : Bool
  discarded : Bool
  deriving DecidableEq

structure Feed where
  publisher : Publisher := {}
  queue : List (List Bytes) := []
  samples : List Sample := []

inductive FeedStep where
  | publish (topic payload : Bytes)
  | read

def Feed.publish (f : Feed) (topic payload : Bytes) : Feed :=
  let sock := f.publisher.sock
  let full := decide (sock.sndhwm ≤ f.queue.length)
  let report := sock.report f.queue.length
  let (returned, p) := f.publisher.publish topic payload report report
  -- the messages this call completed
  let out := p.sock.wire.drop sock.wire.length
  { publisher := p
    queue := if full then f.queue else f.queue ++ out
    samples := f.samples ++ [⟨returned, !full && !out.isEmpty, full⟩] }

def Feed.step (f : Feed) : FeedStep → Option Feed
  | .publish topic payload => some (f.publish topic payload)
  | .read =>
    match f.queue with
    | [] => none
    | _ :: rest => some { f with queue := rest }

/-- Every sample is in the peer's queue or counted, and a call returned false exactly when its
sample was discarded because the queue was full. -/
def Feed.Visible (f : Feed) : Prop :=
  f.samples.length = (f.samples.filter Sample.placed).length + f.publisher.dropped ∧
    ∀ x ∈ f.samples, x.returned = false ↔ x.discarded = true

instance (f : Feed) : Decidable f.Visible := inferInstanceAs (Decidable (_ ∧ _))

def FeedStep.HasRoom (f : Feed) : FeedStep → Prop
  | .publish .. => f.queue.length < kHighWaterMark
  | .read => True

structure FeedInv (f : Feed) : Prop where
  sndhwm : f.publisher.sock.sndhwm = kHighWaterMark
  dropping : f.publisher.sock.xpubNodrop = false
  whole : f.publisher.sock.half = []

theorem publish_eq {f : Feed} (hi : FeedInv f) (topic payload : Bytes) :
    f.publish topic payload =
      { publisher := { f.publisher with sock := { f.publisher.sock with
          half := []
          wire := f.publisher.sock.wire ++ [[topic, payload]] } }
        queue := if kHighWaterMark ≤ f.queue.length then f.queue
          else f.queue ++ [[topic, payload]]
        samples := f.samples ++ [⟨true, decide (f.queue.length < kHighWaterMark),
          decide (kHighWaterMark ≤ f.queue.length)⟩] } := by
  have hreport : f.publisher.sock.report f.queue.length = .sent := by
    simp [PubSocket.report, hi.dropping]
  by_cases hfull : kHighWaterMark ≤ f.queue.length
  · have hroom : ¬ f.queue.length < kHighWaterMark := Nat.not_lt.mpr hfull
    simp [Feed.publish, hreport, hi.sndhwm, Publisher.publish, PubSocket.send, hi.whole, hfull,
      hroom]
  · have hroom : f.queue.length < kHighWaterMark := Nat.not_le.mp hfull
    simp [Feed.publish, hreport, hi.sndhwm, Publisher.publish, PubSocket.send, hi.whole, hfull,
      hroom]

theorem feed_step_inv (f : Feed) (i : FeedStep) (f' : Feed) (hi : FeedInv f)
    (h : f.step i = some f') : FeedInv f' := by
  cases i with
  | publish topic payload =>
    cases h
    rw [publish_eq hi]
    exact ⟨hi.sndhwm, hi.dropping, rfl⟩
  | read =>
    unfold Feed.step at h
    dsimp only at h
    split at h
    · cases h
    · cases h
      exact ⟨hi.sndhwm, hi.dropping, hi.whole⟩

theorem feed_step_visible_iff (f : Feed) (i : FeedStep) (f' : Feed) (hi : FeedInv f)
    (h : f.step i = some f') : f'.Visible ↔ f.Visible ∧ i.HasRoom f := by
  cases i with
  | publish topic payload =>
    cases h
    rw [publish_eq hi]
    unfold Feed.Visible FeedStep.HasRoom
    by_cases hroom : f.queue.length < kHighWaterMark
    · have hle : ¬ kHighWaterMark ≤ f.queue.length := Nat.not_le.mpr hroom
      simp only [hroom, hle, List.filter_append, List.length_append, List.forall_mem_append]
      simp [Nat.add_right_comm]
    · -- the sample that went missing was reported as sent
      have hle : kHighWaterMark ≤ f.queue.length := Nat.not_lt.mp hroom
      simp [hroom, hle, or_imp, forall_and]
  | read =>
    unfold Feed.step at h
    dsimp only at h
    split at h
    · cases h
    · cases h
      exact (and_iff_left trivial).symm

/-- Nothing is discarded unseen exactly in the runs in which nothing is discarded at all. -/
theorem drops_visible_iff {steps : List FeedStep} {f : Feed}
    (h : run Feed.step {} steps = some f) :
    f.Visible ↔ Throughout Feed.step (fun f i => i.HasRoom f) {} steps := by
  have hstart : Feed.Visible {} := by decide
  rw [run_iff_throughout feed_step_inv feed_step_visible_iff ⟨rfl, rfl, rfl⟩ h]
  exact and_iff_right hstart

theorem drops_visible_iff_two : ∃ f,
    run Feed.step {} [.publish [1] [2], .publish [1] [3], .read] = some f ∧
      (f.Visible ↔ Throughout Feed.step (fun f i => i.HasRoom f) {}
        [.publish [1] [2], .publish [1] [3], .read]) :=
  ⟨_, rfl, drops_visible_iff rfl⟩

theorem unread_run (n : ℕ) (f : Feed) (hi : FeedInv f) :
    ∃ f', run Feed.step f (List.replicate n (.publish [1] [2])) = some f' ∧ FeedInv f' ∧
      f'.queue.length = min (f.queue.length + n) (max f.queue.length kHighWaterMark) ∧
      f'.samples.length = f.samples.length + n ∧
      f'.publisher.dropped = f.publisher.dropped := by
  induction n generalizing f with
  | zero => exact ⟨f, rfl, hi, by omega, rfl, rfl⟩
  | succ n ih =>
    have hpublish := publish_eq hi [1] [2]
    obtain ⟨f', hrun, hi', hqueue, hsamples, hdropped⟩ :=
      ih (f.publish [1] [2]) (feed_step_inv f (.publish [1] [2]) _ hi rfl)
    refine ⟨f', hrun, hi', ?_, ?_, ?_⟩
    · rw [hqueue, hpublish]
      dsimp only
      split
      · omega
      · rw [List.length_append, List.length_singleton]
        omega
    · rw [hsamples, hpublish]
      simp only [List.length_append, List.length_singleton]
      omega
    · rw [hdropped, hpublish]

/-- One sample more than the queue holds: no call returns false, and nothing is counted. -/
theorem unread_thousand_and_one : ∃ f,
    run Feed.step {} (List.replicate 1001 (.publish [1] [2])) = some f ∧
      f.samples.length = 1001 ∧ f.queue.length = 1000 ∧ f.publisher.dropped = 0 ∧
      ¬ f.Visible := by
  obtain ⟨f, hrun, hi, hqueue, hsamples, hdropped⟩ := unread_run 1000 {} ⟨rfl, rfl, rfl⟩
  have hfull : f.queue.length = 1000 := by simpa [kHighWaterMark] using hqueue
  have hlast := feed_step_visible_iff f (.publish [1] [2]) _ hi rfl
  refine ⟨f.publish [1] [2], ?_, ?_, ?_, ?_, ?_⟩
  · rw [List.replicate_succ', run_append, hrun]
    rfl
  · rw [publish_eq hi]
    simp [hsamples]
  · rw [publish_eq hi]
    simp [hfull, kHighWaterMark]
  · rw [publish_eq hi]
    exact hdropped
  · rw [hlast]
    rintro ⟨-, hroom⟩
    simp [FeedStep.HasRoom, hfull, kHighWaterMark] at hroom

end AuvMiddleware.Mw
