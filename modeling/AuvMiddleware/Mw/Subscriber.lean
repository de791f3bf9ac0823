import AuvMiddleware.Lib.Bytes
import AuvMiddleware.Lib.Runs

/-!
# mw::Subscriber (transport.cpp:81-122)

Messages arrive whole, filtered on their first frame; `receive` reads them frame by frame. Whether
a read finds a frame, times out or fails is given from outside.
-/

namespace AuvMiddleware.Mw
open Runs

structure Multipart where
  first : Bytes
  more : List Bytes
  deriving DecidableEq

/-- A SUB socket; `rest` is what is still unread of a message whose reading has begun. -/
structure SubSocket where
  prefixes : List Bytes := []
  rest : List Bytes := []
  queue : List Multipart := []
  deriving DecidableEq

def SubSocket.arrive (sock : SubSocket) (m : Multipart) : SubSocket :=
  if ∃ p ∈ sock.prefixes, p <+: m.first then
    { sock with queue := sock.queue ++ [m] }
  else
    sock

/-- The next frame, and whether its message goes on (`more()`). -/
def SubSocket.recv (sock : SubSocket) : Option ((Bytes × Bool) × SubSocket) :=
  match sock.rest, sock.queue with
  | frame :: rest, _ => some ((frame, !rest.isEmpty), { sock with rest := rest })
  | [], m :: queue =>
    some ((m.first, !m.more.isEmpty), { sock with rest := m.more, queue := queue })
  | [], [] => none

inductive RecvResult where
  | ready
  | timeout
  | error
  deriving DecidableEq

structure Message where
  topic : Bytes
  payload : Bytes
  deriving DecidableEq

/-- `Subscriber::receive` (`transport.cpp:107-122`); an error of either read, or of setting the
timeout before them, is caught. -/
def SubSocket.receive (sock : SubSocket) (first second : RecvResult) :
    Option Message × SubSocket :=
  match first, sock.recv with
  | .timeout, _ | .error, _ | .ready, none => (none, sock)
  | .ready, some ((topic, more), sock) =>
    -- malformed: topic with no payload
    if !more then (none, sock)
    else
      match second, sock.recv with
      | .timeout, _ | .error, _ | .ready, none => (none, sock)
      | .ready, some ((body, _), sock) => (some ⟨topic, body⟩, sock)

theorem recv_prefixes {sock sock' : SubSocket} {frame : Bytes × Bool}
    (h : sock.recv = some (frame, sock')) : sock'.prefixes = sock.prefixes := by
  unfold SubSocket.recv at h
  split at h
  · cases h
    rfl
  · cases h
    rfl
  · cases h

theorem receive_prefixes (sock : SubSocket) (first second : RecvResult) :
    (sock.receive first second).2.prefixes = sock.prefixes := by
  cases first with
  | timeout => rfl
  | error => rfl
  | ready =>
    cases hhead : sock.recv with
    | none => simp [SubSocket.receive, hhead]
    | some next =>
      obtain ⟨⟨topic, more⟩, sock'⟩ := next
      have hprefixes := recv_prefixes hhead
      cases more with
      | false => simp [SubSocket.receive, hhead, hprefixes]
      | true =>
        cases hbody : sock'.recv with
        | none => cases second <;> simp [SubSocket.receive, hhead, hbody, hprefixes]
        | some next =>
          obtain ⟨⟨body, more⟩, sock''⟩ := next
          have hprefixes' := recv_prefixes hbody
          cases second <;> simp [SubSocket.receive, hhead, hbody, hprefixes, hprefixes']

/-! ### Runs -/

structure Listening where
  sock : SubSocket := {}
  subscribed : List Bytes := []
  deriving DecidableEq

inductive ListenStep where
  | subscribe (topic : Bytes)
  | unsubscribe (topic : Bytes)
  | arrive (m : Multipart)
  | receive (first second : RecvResult)

/-- ZeroMQ counts subscriptions: each `unsubscribe` undoes one. -/
def Listening.step (s : Listening) : ListenStep → Option Listening
  | .subscribe topic =>
    some { sock := { s.sock with prefixes := s.sock.prefixes ++ [topic] }
           subscribed := s.subscribed ++ [topic] }
  | .unsubscribe topic =>
    some { s with sock := { s.sock with prefixes := s.sock.prefixes.erase topic } }
  | .arrive m => some { s with sock := s.sock.arrive m }
  | .receive first second => some { s with sock := (s.sock.receive first second).2 }

/-- The call consumed nothing, or exactly the message `m` at the head; what it returned is the
first two frames of `m`, under a subscribed prefix. -/
def TakesWhole (s : Listening) (returned : Option Message) (sock : SubSocket) : Prop :=
  (returned = none ∧ sock = s.sock) ∨
    (s.sock.rest = [] ∧ sock.rest = [] ∧ ∃ m ∈ s.sock.queue.head?,
      sock.queue = s.sock.queue.tail ∧
      ∀ r ∈ returned, r.topic = m.first ∧ some r.payload = m.more.head? ∧
        ∃ p ∈ s.subscribed, p <+: r.topic)

def ListenStep.Whole (s : Listening) : ListenStep → Prop
  | .receive first second =>
    TakesWhole s (s.sock.receive first second).1 (s.sock.receive first second).2
  | _ => True

def ListenStep.TwoFrames (s : Listening) : ListenStep → Prop
  | .receive first second => first = .ready → ∀ m ∈ s.sock.queue.head?,
      m.more.length ≤ 1 ∧ (m.more ≠ [] → second = .ready)
  | _ => True

structure ListenInv (s : Listening) : Prop where
  aligned : s.sock.rest = []
  prefixes : ∀ p ∈ s.sock.prefixes, p ∈ s.subscribed
  matched : ∀ m ∈ s.sock.queue, ∃ p ∈ s.subscribed, p <+: m.first

/-- On a message boundary the next call stays on one exactly if the message has no third frame. -/
theorem receive_whole_iff {s : Listening} (hi : ListenInv s) (first second : RecvResult) :
    TakesWhole s (s.sock.receive first second).1 (s.sock.receive first second).2 ↔
      (first = .ready → ∀ m ∈ s.sock.queue.head?,
        m.more.length ≤ 1 ∧ (m.more ≠ [] → second = .ready)) := by
  have hrest := hi.aligned
  cases first with
  | timeout => simp [SubSocket.receive, TakesWhole]
  | error => simp [SubSocket.receive, TakesWhole]
  | ready =>
    cases hqueue : s.sock.queue with
    | nil => simp [SubSocket.receive, SubSocket.recv, hrest, hqueue, TakesWhole]
    | cons m queue =>
      have hm : ∃ p ∈ s.subscribed, p <+: m.first := hi.matched m (by simp [hqueue])
      have hmoved : ∀ sock : SubSocket, sock.queue = queue → sock ≠ s.sock := by
        rintro sock hsock rfl
        have := congrArg List.length (hqueue.symm.trans hsock)
        simp at this
      cases hmore : m.more with
      | nil =>
        simp [SubSocket.receive, SubSocket.recv, hrest, hqueue, hmore, TakesWhole]
      | cons body rest =>
        have hhead : s.sock.recv = some ((m.first, true), { s.sock with
            rest := body :: rest, queue := queue }) := by
          simp [SubSocket.recv, hrest, hqueue, hmore]
        cases second with
        | timeout =>
          simp [SubSocket.receive, hhead, hmore, TakesWhole, hmoved]
        | error =>
          simp [SubSocket.receive, hhead, hmore, TakesWhole, hmoved]
        | ready =>
          simp [SubSocket.receive, SubSocket.recv, hrest, hqueue, hmore, TakesWhole, hm]

theorem listen_step_inv (s : Listening) (i : ListenStep) (s' : Listening) (hi : ListenInv s)
    (hw : i.TwoFrames s) (h : s.step i = some s') : ListenInv s' := by
  cases i with
  | subscribe topic =>
    cases h
    refine ⟨hi.aligned, ?_, ?_⟩
    · intro p hp
      rcases List.mem_append.mp hp with hp | hp
      · exact List.mem_append_left _ (hi.prefixes p hp)
      · exact List.mem_append_right _ hp
    · intro m hm
      obtain ⟨p, hp, hpm⟩ := hi.matched m hm
      exact ⟨p, List.mem_append_left _ hp, hpm⟩
  | unsubscribe topic =>
    cases h
    exact ⟨hi.aligned, fun p hp => hi.prefixes p (List.mem_of_mem_erase hp), hi.matched⟩
  | arrive m =>
    cases h
    dsimp only [SubSocket.arrive]
    split
    · case isTrue hm =>
        obtain ⟨p, hp, hpm⟩ := hm
        refine ⟨hi.aligned, hi.prefixes, ?_⟩
        intro m' hm'
        rcases List.mem_append.mp hm' with hm' | hm'
        · exact hi.matched m' hm'
        · rw [List.mem_singleton.mp hm']
          exact ⟨p, hi.prefixes p hp, hpm⟩
    · exact hi
  | receive first second =>
    cases h
    rcases (receive_whole_iff hi first second).mpr hw with ⟨-, hsame⟩ | ⟨-, hrest, m, -, hqueue, -⟩
    · rw [hsame]
      exact hi
    · refine ⟨hrest, ?_, ?_⟩
      · dsimp only
        rw [receive_prefixes]
        exact hi.prefixes
      · intro m' hm'
        dsimp only at hm'
        rw [hqueue] at hm'
        exact hi.matched m' (List.mem_of_mem_tail hm')

/-- `receive` stays on message boundaries exactly in the runs in which no message it reads has a
third frame, and no read fails between the two frames of one. -/
theorem receive_aligned_iff (steps : List ListenStep) :
    Throughout Listening.step (fun s i => i.Whole s) {} steps ↔
      Throughout Listening.step (fun s i => i.TwoFrames s) {} steps := by
  refine throughout_congr ListenInv (fun s i s' _ hi hw h => listen_step_inv s i s' hi hw h) ?_
    (A := fun _ => True) (fun _ _ => trivial) ⟨rfl, by simp, by simp⟩
  intro s i _ hi
  cases i with
  | receive first second => exact receive_whole_iff hi first second
  | _ => exact Iff.rfl

def fourFrames : List ListenStep :=
  [.subscribe (bytes [1]), .arrive ⟨bytes [1], [bytes [2], bytes [3], bytes [4]]⟩,
    .arrive ⟨bytes [1], [bytes [5]]⟩,
    .receive .ready .ready, .receive .ready .ready]

theorem fourFrames_misread :
    (∃ s, run Listening.step {} (fourFrames.take 4) = some s ∧
      (s.sock.receive .ready .ready).1 = some ⟨[3], [4]⟩) ∧
    ¬ Throughout Listening.step (fun s i => i.Whole s) {} fourFrames := by
  refine ⟨⟨_, rfl, rfl⟩, ?_⟩
  rintro ⟨-, hrest⟩
  obtain ⟨-, hrest⟩ := hrest _ rfl
  obtain ⟨-, hrest⟩ := hrest _ rfl
  obtain ⟨hwhole, -⟩ := hrest _ rfl
  rcases hwhole with ⟨hnone, -⟩ | ⟨-, hrest, -⟩
  · cases hnone
  · cases hrest

end AuvMiddleware.Mw
