import AuvMiddleware.Lidar.PolledSource
import AuvMiddleware.Lidar.TopicIsolation
import AuvMiddleware.Mw.Publisher
import Mathlib.Data.List.Forall2

/-!
# From the driver to a subscriber (scan_publisher_main.cpp, scan_subscriber_main.cpp,
cloud_publisher_main.cpp, cloud_subscriber_main.cpp)

One program polls the sensor and publishes, another one prints what it receives. Messages come
whole and in order, or are lost; a send may fail between the two frames of one, and a read as well.
-/

namespace AuvMiddleware.Lidar
open Runs Mw

variable {α μ M : Type}

/-- What a call of `publish` comes to. One that throws leaves the message object in any state. -/
inductive PublishOutcome (μ : Type) where
  | throws (wire : μ)
  | sends (sentTopic sentBody : SendResult)

/-- `main` of the publishing program from the construction of the source on; `threw` is what
neither of its counters counts. -/
structure PublishingRun (α μ M : Type) where
  source : PolledSource α M
  live : LivePublisher μ
  publisher : Publisher := {}
  published : ℕ := 0
  threw : ℕ := 0

namespace PublishingRun

def messages (m : PublishingRun α μ M) : List M := m.source.messages

/-- The samples that `publish` has been called with. -/
def passed (m : PublishingRun α μ M) : List α := m.source.done

def publish (C : Codec α μ) (topic : Bytes) (x : α) (outcome : PublishOutcome μ)
    (m : PublishingRun α μ M) : PublishingRun α μ M :=
  let m := { m with source := m.source.finish }
  match outcome with
  | .throws wire => { m with live := { wire := wire }, threw := m.threw + 1 }
  | .sends sentTopic sentBody =>
    let (payload, live) := m.live.publish C x
    match m.publisher.publish topic payload sentTopic sentBody with
    | (true, publisher) =>
      { m with live := live, publisher := publisher, published := m.published + 1 }
    | (false, publisher) => { m with live := live, publisher := publisher }

/-- The messages that have gone out since. -/
def sentSince (before m : PublishingRun α μ M) : List (List Bytes) :=
  m.publisher.sock.wire.drop before.publisher.sock.wire.length

end PublishingRun

def takeIn (sock : SubSocket) : List Bytes → SubSocket
  | [] => sock
  | first :: more => sock.arrive ⟨first, more⟩

/-- The publishing program may end and be run again. `carried` and `lost` are not the programs':
the samples whose messages ZeroMQ has brought over, and how many it has not. -/
structure Pipeline (α μ M : Type) where
  main : Option (PublishingRun α μ M) := none
  earlier : List (PublishingRun α μ M) := []
  feed : TopicFeed α μ
  carried : List α := []
  lost : ℕ := 0

inductive PipelineStep (α μ M : Type) where
  | start (queueCapacity : ℕ+)
  /-- The driver's thread. -/
  | deliver (msg : M)
  | poll
  | publish (outcome : PublishOutcome μ) (lost : Bool)
  /-- A signal, a kill or an exception. -/
  | stop
  | receive (first second : RecvResult) (out : α)

namespace Pipeline

def create (C : Codec α μ) (wanted : Bytes) : Pipeline α μ M := { feed := .start C wanted }

/-- Every run of the publishing program there has been, the one still running last. -/
def runs (s : Pipeline α μ M) : List (PublishingRun α μ M) := s.earlier ++ s.main.toList

/-- What the subscribing program has printed. -/
def shown (s : Pipeline α μ M) : List α := s.feed.returned.map Prod.snd

def publish (C : Codec α μ) (topic : Bytes) (m : PublishingRun α μ M) (x : α)
    (outcome : PublishOutcome μ) (lost : Bool) (s : Pipeline α μ M) : Pipeline α μ M :=
  let m' := m.publish C topic x outcome
  let out := m.sentSince m'
  let s := { s with main := some m' }
  if lost then { s with lost := s.lost + out.length }
  else { s with
    feed := { s.feed with sock := out.foldl takeIn s.feed.sock }
    carried := s.carried ++ out.map fun _ => x }

def step (C : Codec α μ) (convert : M → ℤ → Converted α) (topic : Bytes) (s : Pipeline α μ M)
    (i : PipelineStep α μ M) : Option (Pipeline α μ M) :=
  match i, s.main with
  | .start queueCapacity, none =>
    some { s with main := some { source := .start queueCapacity, live := { wire := C.fresh } } }
  | .deliver msg, some m =>
    some { s with main := some { m with source := m.source.deliver convert msg } }
  | .poll, some m =>
    if m.source.inHand.isSome then none
    else some { s with main := some { m with source := m.source.poll } }
  | .publish outcome lost, some m =>
    m.source.inHand.map fun x => s.publish C topic m x outcome lost
  | .stop, some m => some { s with main := none, earlier := s.earlier ++ [m] }
  | .receive first second out, _ =>
    (s.feed.step C (.poll first second out)).map fun feed => { s with feed := feed }
  | _, _ => none

end Pipeline

/-! ### What a message says -/

/-- A payload after the topics of calls that broke off. -/
inductive EndsIn (C : Codec α μ) (topic : Bytes) (x : α) : List Bytes → Prop
  | payload {frame : Bytes} (h : C.decode frame = some x) : EndsIn C topic x [frame]
  | topic {rest : List Bytes} (h : EndsIn C topic x rest) : EndsIn C topic x (topic :: rest)

def Bearing (C : Codec α μ) (topic : Bytes) (m : Multipart) (x : α) : Prop :=
  m.first = topic ∧ EndsIn C topic x m.more

/-- The samples still to be read; the first may be in a message whose reading has begun. -/
def Unread (C : Codec α μ) (topic : Bytes) (sock : SubSocket) (pending : List α) : Prop :=
  ∃ half waiting, pending = half ++ waiting ∧
    (sock.rest = [] ∧ half = [] ∨ ∃ x, half = [x] ∧ EndsIn C topic x sock.rest) ∧
    List.Forall₂ (Bearing C topic) sock.queue waiting

section Reading

variable {C : Codec α μ} {topic : Bytes} {x : α}

theorem EndsIn.after_topics {frames : List Bytes} (h : EndsIn C topic x frames)
    {topics : List Bytes} (ht : ∀ f ∈ topics, f = topic) : EndsIn C topic x (topics ++ frames) := by
  induction topics with
  | nil => exact h
  | cons f topics ih =>
    obtain ⟨rfl, htopics⟩ := List.forall_mem_cons.mp ht
    exact .topic (ih htopics)

/-- Topics that were left open go out in front of the next message. -/
theorem takeIn_bearing {half : List Bytes} (hhalf : ∀ f ∈ half, f = topic) {payload : Bytes}
    (hx : C.decode payload = some x) (sock : SubSocket) :
    ∃ m, takeIn sock (half ++ [topic, payload]) = sock.arrive m ∧ Bearing C topic m x ∧
      (half = [] → m.more = [payload]) := by
  cases half with
  | nil => exact ⟨⟨topic, [payload]⟩, rfl, ⟨rfl, .payload hx⟩, fun _ => rfl⟩
  | cons f half =>
    obtain ⟨rfl, hhalf⟩ := List.forall_mem_cons.mp hhalf
    exact ⟨⟨f, half ++ [f, payload]⟩, rfl, ⟨rfl, (EndsIn.topic (.payload hx)).after_topics hhalf⟩,
      fun h => by cases h⟩

theorem arrive_unread {sock : SubSocket} {pending : List α} (h : Unread C topic sock pending)
    {m : Multipart} (hm : Bearing C topic m x) :
    ∃ pending', Unread C topic (sock.arrive m) pending' ∧ pending'.Sublist (pending ++ [x]) := by
  obtain ⟨half, waiting, rfl, hrest, hqueue⟩ := h
  unfold SubSocket.arrive
  split
  · exact ⟨half ++ (waiting ++ [x]), ⟨half, _, rfl, hrest, List.rel_append hqueue (.cons hm .nil)⟩,
      by rw [List.append_assoc]⟩
  · exact ⟨half ++ waiting, ⟨half, waiting, rfl, hrest, hqueue⟩, List.sublist_append_left ..⟩

/-- What the second read makes of the message the first one has begun. -/
theorem receive_begun {sock begun : SubSocket} {first : Bytes}
    (hhead : sock.recv = some ((first, true), begun)) (hbegun : EndsIn C topic x begun.rest)
    (second : RecvResult) :
    sock.receive .ready second = (none, begun) ∨
      ∃ frame rest, begun.rest = frame :: rest ∧
        sock.receive .ready second = (some ⟨first, frame⟩, { begun with rest := rest }) := by
  cases second with
  | timeout => exact .inl (by simp [SubSocket.receive, hhead])
  | error => exact .inl (by simp [SubSocket.receive, hhead])
  | ready =>
    cases hrest : begun.rest with
    | nil =>
      rw [hrest] at hbegun
      cases hbegun
    | cons frame rest =>
      have hbody : begun.recv = some ((frame, !rest.isEmpty), { begun with rest := rest }) := by
        simp [SubSocket.recv, hrest]
      exact .inr ⟨frame, rest, rfl, by simp [SubSocket.receive, hhead, hbody]⟩

/-- One call, the first read of which finds a topic with more behind it. -/
theorem begun_unread (hjunk : C.decode topic = none) {sock begun : SubSocket} {first : Bytes}
    (hhead : sock.recv = some ((first, true), begun)) (hbegun : EndsIn C topic x begun.rest)
    {waiting : List α} (hqueue : List.Forall₂ (Bearing C topic) begun.queue waiting)
    (second : RecvResult) :
    ∃ gone pending, x :: waiting = gone ++ pending ∧
      Unread C topic (sock.receive .ready second).2 pending ∧
      ∀ m ∈ (sock.receive .ready second).1, ∀ y ∈ C.decode m.payload, gone = [y] := by
  rcases receive_begun hhead hbegun second with heq | ⟨frame, rest, hrest, heq⟩
  · rw [heq]
    exact ⟨[], x :: waiting, rfl, ⟨[x], waiting, rfl, .inr ⟨x, rfl, hbegun⟩, hqueue⟩, by simp⟩
  · rw [heq]
    rw [hrest] at hbegun
    cases hbegun with
    | payload hx =>
      refine ⟨[x], waiting, rfl, ⟨[], waiting, rfl, .inl ⟨rfl, rfl⟩, hqueue⟩, ?_⟩
      intro m hm y hy
      cases hm
      rw [hx] at hy
      cases hy
      rfl
    | topic hlater =>
      -- two topics are taken for a message, which says nothing
      refine ⟨[], x :: waiting, rfl, ⟨[x], waiting, rfl, .inr ⟨x, rfl, hlater⟩, hqueue⟩, ?_⟩
      intro m hm y hy
      cases hm
      rw [hjunk] at hy
      cases hy

/-- Whatever is left of a broken message, a call takes at most the next sample, and returns no
other. -/
theorem receive_unread (hjunk : C.decode topic = none) {sock : SubSocket} {pending : List α}
    (h : Unread C topic sock pending) (first second : RecvResult) :
    ∃ gone pending', pending = gone ++ pending' ∧
      Unread C topic (sock.receive first second).2 pending' ∧
      ∀ m ∈ (sock.receive first second).1, ∀ y ∈ C.decode m.payload, gone = [y] := by
  have hidle : ∃ gone pending', pending = gone ++ pending' ∧ Unread C topic sock pending' ∧
      ∀ m ∈ (none : Option Message), ∀ y ∈ C.decode m.payload, gone = [y] :=
    ⟨[], pending, rfl, h, by simp⟩
  cases first with
  | timeout => exact hidle
  | error => exact hidle
  | ready =>
    obtain ⟨half, waiting, rfl, hrest | ⟨x, rfl, hrest⟩, hqueue⟩ := h
    · obtain ⟨hrest, rfl⟩ := hrest
      cases hq : sock.queue with
      | nil =>
        have hnone : sock.receive .ready second = (none, sock) := by
          simp [SubSocket.receive, SubSocket.recv, hrest, hq]
        rw [hnone]
        exact hidle
      | cons m queue =>
        rw [hq] at hqueue
        obtain ⟨x, waiting', ⟨-, hmore⟩, hqueue', rfl⟩ := List.forall₂_cons_left_iff.mp hqueue
        have hhead : sock.recv = some ((m.first, true), { sock with
            rest := m.more, queue := queue }) := by
          cases hm : m.more with
          | nil =>
            rw [hm] at hmore
            cases hmore
          | cons frame rest => simp [SubSocket.recv, hrest, hq, hm]
        exact begun_unread hjunk hhead hmore hqueue' second
    · cases hframes : sock.rest with
      | nil =>
        rw [hframes] at hrest
        cases hrest
      | cons frame rest =>
        rw [hframes] at hrest
        cases hrest with
        | payload hx =>
          -- the payload is taken for a topic without a message: its sample is gone
          have hlast : sock.receive .ready second = (none, { sock with rest := [] }) := by
            simp [SubSocket.receive, SubSocket.recv, hframes]
          rw [hlast]
          exact ⟨[x], waiting, rfl, ⟨[], waiting, rfl, .inl ⟨rfl, rfl⟩, hqueue⟩, by simp⟩
        | topic hlater =>
          have hhead : sock.recv = some ((topic, true), { sock with rest := rest }) := by
            cases rest with
            | nil => cases hlater
            | cons frame' rest' => simp [SubSocket.recv, hframes]
          exact begun_unread hjunk hhead hlater hqueue second

theorem topic_poll_eq (received : Option Message) (out : α) (s : TopicFeed α μ) :
    ∃ subscriber : LiveSubscriber μ, s.poll C received out = { s with
        subscriber := subscriber
        returned := s.returned ++
          (received.bind fun m => (C.decode m.payload).map fun x => (m.topic, x)).toList } ∧
      subscriber.malformed = s.subscriber.malformed +
        (received.filter fun m => (C.decode m.payload).isNone).toList.length := by
  cases received with
  | none => exact ⟨s.subscriber, by simp [TopicFeed.poll, poll_none], rfl⟩
  | some m =>
    cases hd : C.decode m.payload with
    | none =>
      obtain ⟨wire, hp⟩ := poll_undecodable hd out s.subscriber
      exact ⟨{ wire := wire, malformed := s.subscriber.malformed + 1 },
        by simp [TopicFeed.poll, hp, hd], by simp [Option.filter, hd]⟩
    | some x =>
      obtain ⟨wire, hp⟩ := poll_decoded hd out s.subscriber
      exact ⟨{ s.subscriber with wire := wire },
        by simp [TopicFeed.poll, hp, hd], by simp [Option.filter, hd]⟩

end Reading

/-! ### The publishing program's part -/

section Publishing

variable {C : Codec α μ} {convert : M → ℤ → Converted α} {topic : Bytes}

def PublishOutcome.Intact : PublishOutcome μ → Prop
  | .throws _ => True
  | .sends sentTopic sentBody => sentTopic = .sent → sentBody = .sent

theorem publisher_publish_cases (p : Publisher) (topic payload : Bytes)
    (sentTopic sentBody : SendResult) :
    p.publish topic payload sentTopic sentBody = (true, { p with sock := { p.sock with
        half := [], wire := p.sock.wire ++ [p.sock.half ++ [topic, payload]] } }) ∨
      ∃ half, p.publish topic payload sentTopic sentBody =
          (false, { sock := { p.sock with half := half }, dropped := p.dropped + 1 }) ∧
        (half = p.sock.half ∨
          half = p.sock.half ++ [topic] ∧ ¬ (sentTopic = .sent → sentBody = .sent)) := by
  cases sentTopic with
  | wouldBlock => exact .inr ⟨p.sock.half, rfl, .inl rfl⟩
  | error => exact .inr ⟨p.sock.half, rfl, .inl rfl⟩
  | sent =>
    cases sentBody with
    | sent => exact .inl (by simp [Publisher.publish, PubSocket.send])
    | wouldBlock => exact .inr ⟨p.sock.half ++ [topic], rfl, .inr ⟨rfl, by simp⟩⟩
    | error => exact .inr ⟨p.sock.half ++ [topic], rfl, .inr ⟨rfl, by simp⟩⟩

/-- A call sends one message and counts it, or sends none and leaves at most its topic. -/
theorem publish_cases (C : Codec α μ) (topic : Bytes) (x : α) (outcome : PublishOutcome μ)
    (m : PublishingRun α μ M) :
    (m.publish C topic x outcome).source = m.source.finish ∧
    ((m.sentSince (m.publish C topic x outcome) = [m.publisher.sock.half ++
          [topic, C.serializeAsString (C.toProto x m.live.wire)]] ∧
        (m.publish C topic x outcome).publisher.sock.half = [] ∧
        (m.publish C topic x outcome).published = m.published + 1 ∧
        (m.publish C topic x outcome).publisher.dropped = m.publisher.dropped ∧
        (m.publish C topic x outcome).threw = m.threw) ∨
      (m.sentSince (m.publish C topic x outcome) = [] ∧
        ((m.publish C topic x outcome).publisher.sock.half = m.publisher.sock.half ∨
          (m.publish C topic x outcome).publisher.sock.half = m.publisher.sock.half ++ [topic] ∧
            ¬ outcome.Intact) ∧
        (m.publish C topic x outcome).published = m.published ∧
        (m.publish C topic x outcome).publisher.dropped + (m.publish C topic x outcome).threw =
          m.publisher.dropped + m.threw + 1)) := by
  cases outcome with
  | throws wire =>
    refine ⟨rfl, .inr ⟨?_, .inl rfl, rfl, rfl⟩⟩
    exact List.drop_length
  | sends sentTopic sentBody =>
    rcases publisher_publish_cases m.publisher topic
      (C.serializeAsString (C.toProto x m.live.wire)) sentTopic sentBody with
      heq | ⟨half, heq, hhalf⟩
    · dsimp only [PublishingRun.publish, LivePublisher.publish, PublishingRun.sentSince]
      rw [heq]
      exact ⟨rfl, .inl ⟨List.drop_left, rfl, rfl, rfl, rfl⟩⟩
    · dsimp only [PublishingRun.publish, LivePublisher.publish, PublishingRun.sentSince]
      rw [heq]
      refine ⟨rfl, .inr ⟨List.drop_length, hhalf, rfl, ?_⟩⟩
      dsimp only
      omega

structure PublishingInv (convert : M → ℤ → Converted α) (topic : Bytes)
    (m : PublishingRun α μ M) : Prop where
  source : PolledInv convert m.source
  half : ∀ f ∈ m.publisher.sock.half, f = topic
  counted : m.passed.length = m.published + m.publisher.dropped + m.threw

theorem PublishingInv.publish {m : PublishingRun α μ M} (hi : PublishingInv convert topic m)
    {x : α} (hx : m.source.inHand = some x) (outcome : PublishOutcome μ) :
    PublishingInv convert topic (m.publish C topic x outcome) := by
  have hcounted := hi.counted
  have hlength : m.source.finish.done.length = m.passed.length + 1 := by
    simp [PolledSource.finish, hx, PublishingRun.passed]
  obtain ⟨hsource, hcases⟩ := publish_cases C topic x outcome m
  refine ⟨hsource ▸ hi.source.finish, ?_, ?_⟩
  · rcases hcases with ⟨-, hhalf, -⟩ | ⟨-, hhalf | ⟨hhalf, -⟩, -⟩
    · rw [hhalf]
      exact List.forall_mem_nil _
    · rw [hhalf]
      exact hi.half
    · rw [hhalf]
      exact List.forall_mem_append.mpr ⟨hi.half, List.forall_mem_singleton.mpr rfl⟩
  · rw [PublishingRun.passed, hsource, hlength]
    rcases hcases with ⟨-, -, hpublished, hdropped, hthrew⟩ | ⟨-, -, hpublished, hdropped⟩ <;> omega

/-- Nothing but the source and the run that owns it has changed. -/
structure Quiet (s s' : Pipeline α μ M) : Prop where
  feed : s'.feed = s.feed
  carried : s'.carried = s.carried
  lost : s'.lost = s.lost
  passed : s'.runs.flatMap PublishingRun.passed = s.runs.flatMap PublishingRun.passed
  published : s'.runs.map PublishingRun.published = s.runs.map PublishingRun.published ∨
    s'.runs.map PublishingRun.published = s.runs.map PublishingRun.published ++ [0]
  half : ∀ m' ∈ s'.main, m'.publisher.sock.half = [] ∨
    ∃ m ∈ s.main, m'.publisher.sock.half = m.publisher.sock.half

theorem runs_some {s : Pipeline α μ M} {m : PublishingRun α μ M} (hm : s.main = some m) :
    s.runs = s.earlier ++ [m] := by
  rw [Pipeline.runs, hm]
  rfl

theorem pipeline_step_cases {s s' : Pipeline α μ M} {i : PipelineStep α μ M}
    (h : s.step C convert topic i = some s') :
    (Quiet s s' ∧ ((∀ m ∈ s.runs, PublishingInv convert topic m) →
        ∀ m ∈ s'.runs, PublishingInv convert topic m)) ∨
      (∃ outcome lost m x, i = .publish outcome lost ∧ s.main = some m ∧
        m.source.inHand = some x ∧ s' = s.publish C topic m x outcome lost) ∨
      ∃ first second out, i = .receive first second out ∧ s' = { s with
        feed := TopicFeed.poll C (s.feed.sock.receive first second).1 out
          { s.feed with sock := (s.feed.sock.receive first second).2 } } := by
  cases hm : s.main with
  | none =>
    cases i with
    | start queueCapacity =>
      simp only [Pipeline.step, hm] at h
      cases h
      have hruns : s.runs = s.earlier := by
        rw [Pipeline.runs, hm]
        exact List.append_nil _
      refine .inl ⟨⟨rfl, rfl, rfl, ?_, .inr ?_, ?_⟩, ?_⟩
      · rw [runs_some rfl, hruns]
        simp [PublishingRun.passed, PolledSource.start]
      · rw [runs_some rfl, hruns, List.map_append]
        rfl
      · intro m' hm'
        cases hm'
        exact .inl rfl
      · intro hall m' hm'
        rw [runs_some rfl] at hm'
        rcases List.mem_append.mp hm' with hm' | hm'
        · exact hall m' (hruns ▸ hm')
        · rw [List.mem_singleton.mp hm']
          exact ⟨polled_start convert queueCapacity, List.forall_mem_nil _, rfl⟩
    | receive first second out =>
      simp only [Pipeline.step, TopicFeed.step, hm, Option.map_some] at h
      cases h
      exact .inr (.inr ⟨first, second, out, rfl, rfl⟩)
    | deliver | poll | publish | stop => simp only [Pipeline.step, hm] at h; cases h
  | some m =>
    have hruns := runs_some hm
    -- the source of the run goes on to `source'`, with the same samples handed over
    have hgoOn (source' : PolledSource α M) (hdone : source'.done = m.source.done)
        (hsource : PolledInv convert m.source → PolledInv convert source') :
        Quiet s { s with main := some { m with source := source' } } ∧
          ((∀ m ∈ s.runs, PublishingInv convert topic m) →
            ∀ m' ∈ ({ s with main := some { m with source := source' } } : Pipeline α μ M).runs,
              PublishingInv convert topic m') := by
      refine ⟨⟨rfl, rfl, rfl, ?_, .inl ?_, ?_⟩, ?_⟩
      · rw [runs_some rfl, hruns]
        simp [PublishingRun.passed, hdone]
      · rw [runs_some rfl, hruns, List.map_append, List.map_append]
        rfl
      · intro m' hm'
        cases hm'
        exact .inr ⟨m, hm, rfl⟩
      · intro hall m' hm'
        rw [runs_some rfl] at hm'
        rw [hruns] at hall
        obtain ⟨hearlier, hlast⟩ := List.forall_mem_append.mp hall
        rcases List.mem_append.mp hm' with hm' | hm'
        · exact hearlier m' hm'
        · have hi := hlast m (List.mem_singleton_self m)
          rw [List.mem_singleton.mp hm']
          refine ⟨hsource hi.source, hi.half, ?_⟩
          rw [PublishingRun.passed, hdone]
          exact hi.counted
    cases i with
    | start => simp only [Pipeline.step, hm] at h; cases h
    | deliver msg =>
      simp only [Pipeline.step, hm] at h
      cases h
      exact .inl (hgoOn (m.source.deliver convert msg) rfl fun hi => hi.deliver msg)
    | poll =>
      simp only [Pipeline.step, hm] at h
      obtain ⟨hnone, h⟩ := Option.ite_none_left_eq_some.mp h
      cases h
      exact .inl (hgoOn m.source.poll rfl fun hi =>
        hi.poll (Option.not_isSome_iff_eq_none.mp hnone))
    | publish outcome lost =>
      simp only [Pipeline.step, hm] at h
      obtain ⟨x, hx, rfl⟩ := Option.map_eq_some_iff.mp h
      exact .inr (.inl ⟨outcome, lost, m, x, rfl, rfl, hx, rfl⟩)
    | stop =>
      simp only [Pipeline.step, hm] at h
      cases h
      have hsame : ({ s with main := none, earlier := s.earlier ++ [m] } :
          Pipeline α μ M).runs = s.runs := by
        rw [hruns]
        exact List.append_nil _
      refine .inl ⟨⟨rfl, rfl, rfl, by rw [hsame], .inl (by rw [hsame]), ?_⟩, ?_⟩
      · intro m' hm'
        cases hm'
      · rw [hsame]
        exact id
    | receive first second out =>
      simp only [Pipeline.step, TopicFeed.step, hm, Option.map_some] at h
      cases h
      exact .inr (.inr ⟨first, second, out, rfl, rfl⟩)

end Publishing

/-! ### Whole runs -/

section Whole

variable {C : Codec α μ} {convert : M → ℤ → Converted α} {topic wanted : Bytes}
  {s : Pipeline α μ M}

theorem runs_publish (C : Codec α μ) (topic : Bytes) {m : PublishingRun α μ M}
    (hm : s.main = some m) {x : α} (hx : m.source.inHand = some x) (outcome : PublishOutcome μ) (lost : Bool) :
    (s.publish C topic m x outcome lost).main = some (m.publish C topic x outcome) ∧
      (s.publish C topic m x outcome lost).runs =
        s.earlier ++ [m.publish C topic x outcome] ∧
      (s.publish C topic m x outcome lost).runs.flatMap PublishingRun.passed =
        s.runs.flatMap PublishingRun.passed ++ [x] := by
  have hmain : (s.publish C topic m x outcome lost).main = some (m.publish C topic x outcome) := by
    unfold Pipeline.publish
    dsimp only
    split <;> rfl
  have hearlier : (s.publish C topic m x outcome lost).earlier = s.earlier := by
    unfold Pipeline.publish
    dsimp only
    split <;> rfl
  have hpassed : (m.publish C topic x outcome).passed = m.passed ++ [x] := by
    rw [PublishingRun.passed, (publish_cases C topic x outcome m).1]
    simp [PolledSource.finish, hx, PublishingRun.passed]
  have hruns := runs_some hmain
  rw [hearlier] at hruns
  refine ⟨hmain, hruns, ?_⟩
  rw [hruns, runs_some hm]
  simp [hpassed]

theorem publishing_runs {m : PublishingRun α μ M} (hm : s.main = some m)
    (hall : ∀ m ∈ s.runs, PublishingInv convert topic m) {x : α} (hx : m.source.inHand = some x)
    (outcome : PublishOutcome μ) (lost : Bool) :
    PublishingInv convert topic m ∧
      ∀ m' ∈ (s.publish C topic m x outcome lost).runs, PublishingInv convert topic m' := by
  rw [runs_some hm] at hall
  obtain ⟨hearlier, hlast⟩ := List.forall_mem_append.mp hall
  have hmi := hlast m (List.mem_singleton_self m)
  refine ⟨hmi, ?_⟩
  rw [(runs_publish C topic hm hx outcome lost).2.1]
  exact List.forall_mem_append.mpr
    ⟨hearlier, List.forall_mem_singleton.mpr (hmi.publish hx outcome)⟩

/-- The message of a call is lost, or brought over with its sample; or there is none. -/
theorem pipeline_publish_cases (C : Codec α μ) (topic : Bytes) (s : Pipeline α μ M)
    (m : PublishingRun α μ M) (x : α) (outcome : PublishOutcome μ) (lost : Bool) :
    (m.sentSince (m.publish C topic x outcome) = [] ∧
        (s.publish C topic m x outcome lost).feed = s.feed ∧
        (s.publish C topic m x outcome lost).carried = s.carried ∧
        (s.publish C topic m x outcome lost).lost = s.lost) ∨
      ∃ frames, m.sentSince (m.publish C topic x outcome) = [frames] ∧
        ((s.publish C topic m x outcome lost).feed = s.feed ∧
            (s.publish C topic m x outcome lost).carried = s.carried ∧
            (s.publish C topic m x outcome lost).lost = s.lost + 1 ∨
          (s.publish C topic m x outcome lost).feed =
              { s.feed with sock := takeIn s.feed.sock frames } ∧
            (s.publish C topic m x outcome lost).carried = s.carried ++ [x] ∧
            (s.publish C topic m x outcome lost).lost = s.lost) := by
  obtain ⟨-, ⟨hsent, -⟩ | ⟨hsent, -⟩⟩ := publish_cases C topic x outcome m
  · refine .inr ⟨_, hsent, ?_⟩
    simp only [Pipeline.publish, hsent]
    cases lost with
    | true => exact .inl ⟨rfl, rfl, rfl⟩
    | false => exact .inr ⟨rfl, rfl, rfl⟩
  · refine .inl ⟨hsent, ?_⟩
    simp only [Pipeline.publish, hsent]
    cases lost with
    | true => exact ⟨rfl, rfl, rfl⟩
    | false => exact ⟨rfl, List.append_nil _, rfl⟩

theorem receive_feed (first second : RecvResult) (out : α) (s : Pipeline α μ M) :
    let received := (s.feed.sock.receive first second).1
    let feed := TopicFeed.poll C received out
      { s.feed with sock := (s.feed.sock.receive first second).2 }
    feed.sock = (s.feed.sock.receive first second).2 ∧
      feed.returned.map Prod.snd =
        s.shown ++ (received.bind fun m => C.decode m.payload).toList ∧
      feed.subscriber.malformed = s.feed.subscriber.malformed +
        (received.filter fun m => (C.decode m.payload).isNone).toList.length := by
  intro received feed
  obtain ⟨subscriber, heq, hmalformed⟩ := topic_poll_eq (C := C) received out
    { s.feed with sock := (s.feed.sock.receive first second).2 }
  have hfeed : feed = _ := heq
  rw [hfeed]
  refine ⟨rfl, ?_, hmalformed⟩
  dsimp only
  rw [List.map_append]
  congr 1
  cases received with
  | none => rfl
  | some m => cases hd : C.decode m.payload <;> simp [hd]

structure OrderInv (C : Codec α μ) (convert : M → ℤ → Converted α) (topic : Bytes)
    (s : Pipeline α μ M) (pending : List α) : Prop where
  runs : ∀ m ∈ s.runs, PublishingInv convert topic m
  unread : Unread C topic s.feed.sock pending
  order : (s.shown ++ pending).Sublist s.carried
  carried : s.carried.Sublist (s.runs.flatMap PublishingRun.passed)

theorem order_publish {pending : List α} (hi : OrderInv C convert topic s pending)
    {m : PublishingRun α μ M} (hm : s.main = some m) {x : α} (hx : m.source.inHand = some x)
    (hundoes : C.Undoes x) (outcome : PublishOutcome μ) (lost : Bool) :
    ∃ pending', OrderInv C convert topic (s.publish C topic m x outcome lost) pending' := by
  have hpassed := (runs_publish C topic hm hx outcome lost).2.2
  obtain ⟨hmi, hruns⟩ := publishing_runs hm hi.runs hx outcome lost
  have hgrown : s.carried.Sublist (s.runs.flatMap PublishingRun.passed ++ [x]) :=
    hi.carried.trans (List.sublist_append_left ..)
  rcases pipeline_publish_cases C topic s m x outcome lost with
    ⟨-, hfeed, hcarried, -⟩ | ⟨frames, hsent, ⟨hfeed, hcarried, -⟩ | ⟨hfeed, hcarried, -⟩⟩
  · refine ⟨pending, hruns, by rw [hfeed]; exact hi.unread, ?_, ?_⟩
    · rw [Pipeline.shown, hfeed, hcarried]
      exact hi.order
    · rw [hcarried, hpassed]
      exact hgrown
  · refine ⟨pending, hruns, by rw [hfeed]; exact hi.unread, ?_, ?_⟩
    · rw [Pipeline.shown, hfeed, hcarried]
      exact hi.order
    · rw [hcarried, hpassed]
      exact hgrown
  · obtain ⟨-, ⟨hframes, -⟩ | ⟨hnone, -⟩⟩ := publish_cases C topic x outcome m
    · rw [hframes] at hsent
      cases hsent
      obtain ⟨msg, htaken, hbears, -⟩ :=
        takeIn_bearing hmi.half (decode_serialized hundoes m.live.wire) s.feed.sock
      obtain ⟨pending', hunread, hsub⟩ := arrive_unread hi.unread hbears
      refine ⟨pending', hruns, ?_, ?_, ?_⟩
      · rw [hfeed]
        dsimp only
        rw [htaken]
        exact hunread
      · have hstep := (hsub.append_left s.shown).trans
          ((List.append_assoc s.shown pending [x]) ▸ hi.order.append_right [x])
        rw [Pipeline.shown, hfeed, hcarried]
        exact hstep
      · rw [hcarried, hpassed]
        exact hi.carried.append_right [x]
    · rw [hnone] at hsent
      cases hsent

theorem order_receive (hjunk : C.decode topic = none) {pending : List α}
    (hi : OrderInv C convert topic s pending) (first second : RecvResult) (out : α) :
    ∃ pending', OrderInv C convert topic { s with
      feed := TopicFeed.poll C (s.feed.sock.receive first second).1 out
        { s.feed with sock := (s.feed.sock.receive first second).2 } } pending' := by
  obtain ⟨hsock, hshown, -⟩ := receive_feed (C := C) first second out s
  obtain ⟨gone, pending', rfl, hunread, hreturned⟩ :=
    receive_unread hjunk hi.unread first second
  have hnew : (((s.feed.sock.receive first second).1.bind
      fun m => C.decode m.payload).toList).Sublist gone := by
    cases hb : (s.feed.sock.receive first second).1.bind fun m => C.decode m.payload with
    | none => exact List.nil_sublist gone
    | some y =>
      obtain ⟨m, hm, hy⟩ := Option.bind_eq_some_iff.mp hb
      rw [hreturned m hm y hy]
      exact List.Sublist.refl _
  refine ⟨pending', hi.runs, by dsimp only; rw [hsock]; exact hunread, ?_, hi.carried⟩
  have horder := hi.order
  rw [← List.append_assoc] at horder
  rw [Pipeline.shown]
  dsimp only
  rw [hshown]
  exact ((hnew.append_left s.shown).append_right pending').trans horder

theorem passed_grows {s' : Pipeline α μ M} {i : PipelineStep α μ M}
    (h : s.step C convert topic i = some s') :
    s.runs.flatMap PublishingRun.passed ⊆ s'.runs.flatMap PublishingRun.passed := by
  rcases pipeline_step_cases h with
    ⟨hquiet, -⟩ | ⟨outcome, lost, m, x, -, hm, hx, rfl⟩ | ⟨first, second, out, -, rfl⟩
  · rw [hquiet.passed]
    exact List.Subset.refl _
  · rw [(runs_publish C topic hm hx outcome lost).2.2]
    exact List.subset_append_left ..
  · exact List.Subset.refl _

theorem order_step (hjunk : C.decode topic = none) (s : Pipeline α μ M) (i : PipelineStep α μ M)
    (s' : Pipeline α μ M)
    (hi : (∀ x ∈ s.runs.flatMap PublishingRun.passed, C.Undoes x) →
      ∃ pending, OrderInv C convert topic s pending)
    (h : s.step C convert topic i = some s')
    (hundoes : ∀ x ∈ s'.runs.flatMap PublishingRun.passed, C.Undoes x) :
    ∃ pending, OrderInv C convert topic s' pending := by
  obtain ⟨pending, hi⟩ := hi fun x hx => hundoes x (passed_grows h hx)
  rcases pipeline_step_cases h with
    ⟨hquiet, hruns⟩ | ⟨outcome, lost, m, x, -, hm, hx, rfl⟩ | ⟨first, second, out, -, rfl⟩
  · refine ⟨pending, hruns hi.runs, ?_, ?_, ?_⟩
    · rw [hquiet.feed]
      exact hi.unread
    · rw [Pipeline.shown, hquiet.feed, hquiet.carried]
      exact hi.order
    · rw [hquiet.carried, hquiet.passed]
      exact hi.carried
  · refine order_publish hi hm hx (hundoes x ?_) outcome lost
    rw [(runs_publish C topic hm hx outcome lost).2.2]
    exact List.mem_append_right _ (List.mem_singleton_self x)
  · exact order_receive hjunk hi first second out

theorem flatMap_sublist {β γ : Type} {f g : β → List γ} {xs : List β}
    (h : ∀ x ∈ xs, (f x).Sublist (g x)) : (xs.flatMap f).Sublist (xs.flatMap g) := by
  induction xs with
  | nil => exact List.Sublist.refl _
  | cons x xs ih =>
    obtain ⟨hx, hxs⟩ := List.forall_mem_cons.mp h
    exact hx.append (ih hxs)

/-- However sends and reads fail, and however often the publishing program is run again: the
subscriber prints samples of the driver's messages only, in their order and none twice, unless the
topic itself reads as a sample. -/
theorem shown_in_order (C : Codec α μ) (convert : M → ℤ → Converted α) {topic wanted : Bytes}
    (hjunk : C.decode topic = none) {steps : List (PipelineStep α μ M)} {s : Pipeline α μ M}
    (h : run (Pipeline.step C convert topic) (.create C wanted) steps = some s)
    (hundoes : ∀ x ∈ s.runs.flatMap PublishingRun.passed, C.Undoes x) :
    s.shown.Sublist (s.runs.flatMap fun m => converted convert m.messages) := by
  have hstart : OrderInv C convert topic (.create C wanted) [] :=
    ⟨by simp [Pipeline.runs, Pipeline.create], ⟨[], [], rfl, .inl ⟨rfl, rfl⟩, .nil⟩,
      List.Sublist.refl _, List.Sublist.refl _⟩
  obtain ⟨pending, hi⟩ := run_invariant (order_step hjunk) (fun _ => ⟨[], hstart⟩) h hundoes
  have hshown : s.shown.Sublist (s.runs.flatMap PublishingRun.passed) :=
    ((List.sublist_append_left ..).trans hi.order).trans hi.carried
  exact hshown.trans (flatMap_sublist fun m hm => (hi.runs m hm).source.accounts.1)

def cloudTopic : Bytes := ascii ['l', 'i', 'd', 'a', 'r', '.', 'c', 'l', 'o', 'u', 'd']

def onePointCloudMsg (sec : UInt32) : PointCloudMsg where
  timestampSec := sec
  timestampNsec := 0
  width := 1
  height := 1
  pointStep := 12
  fields := [⟨ascii ['r', 'a', 'n', 'g', 'e'], 0⟩, ⟨ascii ['a', 'z', 'i', 'm', 'u', 't', 'h'], 4⟩,
    ⟨ascii ['e', 'l', 'e', 'v', 'a', 't', 'i', 'o', 'n'], 8⟩]
  dataSize := 12
  buffer := some fun _ => lowByte 0

/-- The first call breaks off after its topic, so the second cloud goes out behind two topics and
is not read; the third one is. Then the program is run again. -/
def brokenOffCall : List (PipelineStep PointCloud LidarPointCloud PointCloudMsg) :=
  [.start 4, .deliver (onePointCloudMsg 1), .deliver (onePointCloudMsg 2),
    .deliver (onePointCloudMsg 3), .poll, .publish (.sends .sent .wouldBlock) false, .poll,
    .publish (.sends .sent .sent) false, .poll, .publish (.sends .sent .sent) false, .stop,
    .receive .ready .ready PointCloud.fresh, .start 4, .deliver (onePointCloudMsg 7),
    .receive .ready .ready PointCloud.fresh, .receive .ready .ready PointCloud.fresh]

theorem brokenOffCall_in_order :
    ∃ s, run (Pipeline.step (cloudCodec cloudWireFormat) (SickCloudConfig.convert {}) cloudTopic)
        (.create (cloudCodec cloudWireFormat) cloudTopic) brokenOffCall = some s ∧
      s.shown.map PointCloud.stampNs = [3000000000] ∧ s.shown.Sublist (s.runs.flatMap fun m =>
        converted (SickCloudConfig.convert {}) m.messages) := by
  have hjunk : (cloudCodec cloudWireFormat).decode cloudTopic = none := by decide
  have hrun : ∃ s, run (Pipeline.step (cloudCodec cloudWireFormat) (SickCloudConfig.convert {})
        cloudTopic) (.create (cloudCodec cloudWireFormat) cloudTopic) brokenOffCall = some s ∧
      s.shown.map PointCloud.stampNs = [3000000000] ∧
      ∀ x ∈ s.runs.flatMap PublishingRun.passed, (cloudCodec cloudWireFormat).Undoes x :=
    ⟨_, rfl, by decide, by unfold Codec.Undoes; decide⟩
  obtain ⟨s, hs, hstamps, hundoes⟩ := hrun
  exact ⟨s, hs, hstamps, shown_in_order (cloudCodec cloudWireFormat) (SickCloudConfig.convert {})
    hjunk hs hundoes⟩

def PipelineStep.Intact : PipelineStep α μ M → Prop
  | .publish outcome _ => outcome.Intact
  | .receive first second _ => first = .ready → second = .ready
  | _ => True

structure IntactInv (C : Codec α μ) (convert : M → ℤ → Converted α) (topic wanted : Bytes)
    (s : Pipeline α μ M) (waiting : List α) : Prop where
  runs : ∀ m ∈ s.runs, PublishingInv convert topic m
  half : ∀ m ∈ s.main, m.publisher.sock.half = []
  prefixes : s.feed.sock.prefixes = [wanted]
  aligned : s.feed.sock.rest = []
  queue : List.Forall₂ (fun m x => ∃ payload, m = ⟨topic, [payload]⟩ ∧ C.decode payload = some x)
    s.feed.sock.queue waiting
  carried : s.carried = s.shown ++ waiting
  counted : (s.runs.map PublishingRun.published).sum = s.carried.length + s.lost
  malformed : s.feed.subscriber.malformed = 0

theorem intact_publish (hwanted : wanted <+: topic) {waiting : List α}
    (hi : IntactInv C convert topic wanted s waiting) {m : PublishingRun α μ M}
    (hm : s.main = some m) {x : α} (hx : m.source.inHand = some x) (hundoes : C.Undoes x)
    {outcome : PublishOutcome μ} (hintact : outcome.Intact) (lost : Bool) :
    ∃ waiting', IntactInv C convert topic wanted (s.publish C topic m x outcome lost) waiting' := by
  obtain ⟨hmain, hruns, -⟩ := runs_publish C topic hm hx outcome lost
  obtain ⟨-, hpublishing⟩ := publishing_runs hm hi.runs hx outcome lost
  have hhalf := hi.half m hm
  have hcounted := hi.counted
  rw [runs_some hm, List.map_append, List.sum_append, List.map_singleton,
    List.sum_singleton] at hcounted
  have hsum : ((s.publish C topic m x outcome lost).runs.map PublishingRun.published).sum =
      (s.earlier.map PublishingRun.published).sum + (m.publish C topic x outcome).published := by
    rw [hruns, List.map_append, List.sum_append, List.map_singleton, List.sum_singleton]
  obtain ⟨-, ⟨hframes, hhalf', hpublished, -⟩ | ⟨hnone, hhalf', hpublished, -⟩⟩ :=
    publish_cases C topic x outcome m
  · have hopen : ∀ m' ∈ (s.publish C topic m x outcome lost).main,
        m'.publisher.sock.half = [] := by
      rw [hmain]
      intro m' hm'
      cases hm'
      exact hhalf'
    rcases pipeline_publish_cases C topic s m x outcome lost with
      ⟨hnone, -⟩ | ⟨frames, hsent, ⟨hfeed, hcarried, hlost⟩ | ⟨hfeed, hcarried, hlost⟩⟩
    · rw [hframes] at hnone
      cases hnone
    · refine ⟨waiting, hpublishing, hopen, by rw [hfeed]; exact hi.prefixes,
        by rw [hfeed]; exact hi.aligned, by rw [hfeed]; exact hi.queue, ?_, ?_,
        by rw [hfeed]; exact hi.malformed⟩
      · rw [Pipeline.shown, hfeed, hcarried]
        exact hi.carried
      · rw [hsum, hcarried, hlost]
        omega
    · rw [hframes] at hsent
      cases hsent
      rw [hhalf, List.nil_append] at hfeed
      have harrive : takeIn s.feed.sock
          [topic, C.serializeAsString (C.toProto x m.live.wire)] = { s.feed.sock with
            queue := s.feed.sock.queue ++
              [⟨topic, [C.serializeAsString (C.toProto x m.live.wire)]⟩] } := by
        refine if_pos ?_
        rw [hi.prefixes]
        exact ⟨wanted, List.mem_singleton_self wanted, hwanted⟩
      rw [harrive] at hfeed
      refine ⟨waiting ++ [x], hpublishing, hopen, by rw [hfeed]; exact hi.prefixes,
        by rw [hfeed]; exact hi.aligned, ?_, ?_, ?_, by rw [hfeed]; exact hi.malformed⟩
      · rw [hfeed]
        exact List.rel_append hi.queue
          (.cons ⟨_, rfl, decode_serialized hundoes m.live.wire⟩ .nil)
      · rw [Pipeline.shown, hfeed, hcarried, hi.carried, List.append_assoc]
        rfl
      · rw [hsum, hcarried, hlost, List.length_append, List.length_singleton]
        omega
  · have hopen : ∀ m' ∈ (s.publish C topic m x outcome lost).main,
        m'.publisher.sock.half = [] := by
      rw [hmain]
      intro m' hm'
      cases hm'
      rcases hhalf' with hhalf' | ⟨-, hbroken⟩
      · rw [hhalf', hhalf]
      · exact absurd hintact hbroken
    rcases pipeline_publish_cases C topic s m x outcome lost with
      ⟨-, hfeed, hcarried, hlost⟩ | ⟨frames, hsent, -⟩
    · refine ⟨waiting, hpublishing, hopen, by rw [hfeed]; exact hi.prefixes,
        by rw [hfeed]; exact hi.aligned, by rw [hfeed]; exact hi.queue, ?_, ?_,
        by rw [hfeed]; exact hi.malformed⟩
      · rw [Pipeline.shown, hfeed, hcarried]
        exact hi.carried
      · rw [hsum, hcarried, hlost]
        omega
    · rw [hnone] at hsent
      cases hsent

theorem intact_receive {waiting : List α} (hi : IntactInv C convert topic wanted s waiting)
    {first second : RecvResult} (hintact : first = .ready → second = .ready) (out : α) :
    ∃ waiting', IntactInv C convert topic wanted { s with
      feed := TopicFeed.poll C (s.feed.sock.receive first second).1 out
        { s.feed with sock := (s.feed.sock.receive first second).2 } } waiting' := by
  obtain ⟨hsock, hshown, hmalformed⟩ := receive_feed (C := C) first second out s
  have hrest := hi.aligned
  by_cases hidle : first ≠ .ready ∨ s.feed.sock.queue = []
  · have hnone : s.feed.sock.receive first second = (none, s.feed.sock) := by
      rcases hidle with hidle | hqueue
      · cases first with
        | timeout => rfl
        | error => rfl
        | ready => exact absurd rfl hidle
      · cases first <;> simp [SubSocket.receive, SubSocket.recv, hrest, hqueue]
    rw [hnone] at hsock hshown hmalformed
    refine ⟨waiting, hi.runs, hi.half, ?_, ?_, ?_, ?_, hi.counted, ?_⟩
    · dsimp only
      rw [hnone, hsock]
      exact hi.prefixes
    · dsimp only
      rw [hnone, hsock]
      exact hrest
    · dsimp only
      rw [hnone, hsock]
      exact hi.queue
    · rw [Pipeline.shown]
      dsimp only
      rw [hnone, hshown]
      exact hi.carried.trans (congrArg (· ++ waiting) (List.append_nil _).symm)
    · dsimp only
      rw [hnone, hmalformed]
      exact hi.malformed
  · obtain ⟨hready, hqueue⟩ := not_or.mp hidle
    obtain rfl := of_not_not hready
    obtain rfl := hintact rfl
    obtain ⟨m, queue, hq⟩ := List.exists_cons_of_ne_nil hqueue
    have hbears := hi.queue
    rw [hq] at hbears
    obtain ⟨x, waiting', ⟨payload, rfl, hx⟩, hqueue', rfl⟩ :=
      List.forall₂_cons_left_iff.mp hbears
    have hread : s.feed.sock.receive .ready .ready =
        (some ⟨topic, payload⟩, { s.feed.sock with queue := queue }) := by
      simp [SubSocket.receive, SubSocket.recv, hrest, hq]
    rw [hread] at hsock hshown hmalformed
    refine ⟨waiting', hi.runs, hi.half, ?_, ?_, ?_, ?_, hi.counted, ?_⟩
    · dsimp only
      rw [hread, hsock]
      exact hi.prefixes
    · dsimp only
      rw [hread, hsock]
      exact hrest
    · dsimp only
      rw [hread, hsock]
      exact hqueue'
    · rw [Pipeline.shown]
      dsimp only
      rw [hread, hshown, Option.bind_some, hx, hi.carried, List.append_assoc]
      rfl
    · dsimp only
      rw [hread, hmalformed, hi.malformed]
      simp [Option.filter, hx]

theorem intact_step (hwanted : wanted <+: topic) (s : Pipeline α μ M) (i : PipelineStep α μ M)
    (s' : Pipeline α μ M)
    (hi : (∀ x ∈ s.runs.flatMap PublishingRun.passed, C.Undoes x) →
      ∃ waiting, IntactInv C convert topic wanted s waiting)
    (hintact : i.Intact) (h : s.step C convert topic i = some s')
    (hundoes : ∀ x ∈ s'.runs.flatMap PublishingRun.passed, C.Undoes x) :
    ∃ waiting, IntactInv C convert topic wanted s' waiting := by
  obtain ⟨waiting, hi⟩ := hi fun x hx => hundoes x (passed_grows h hx)
  rcases pipeline_step_cases h with
    ⟨hquiet, hruns⟩ | ⟨outcome, lost, m, x, rfl, hm, hx, rfl⟩ | ⟨first, second, out, rfl, rfl⟩
  · have hsum : (s'.runs.map PublishingRun.published).sum =
        (s.runs.map PublishingRun.published).sum := by
      rcases hquiet.published with hpublished | hpublished <;> rw [hpublished]
      exact (List.sum_append ..).trans (Nat.add_zero _)
    refine ⟨waiting, hruns hi.runs, ?_, by rw [hquiet.feed]; exact hi.prefixes,
      by rw [hquiet.feed]; exact hi.aligned, by rw [hquiet.feed]; exact hi.queue, ?_, ?_,
      by rw [hquiet.feed]; exact hi.malformed⟩
    · intro m' hm'
      rcases hquiet.half m' hm' with hhalf | ⟨m, hm, hhalf⟩
      · exact hhalf
      · rw [hhalf]
        exact hi.half m hm
    · rw [Pipeline.shown, hquiet.feed, hquiet.carried]
      exact hi.carried
    · rw [hsum, hquiet.carried, hquiet.lost]
      exact hi.counted
  · refine intact_publish hwanted hi hm hx (hundoes x ?_) hintact lost
    rw [(runs_publish C topic hm hx outcome lost).2.2]
    exact List.mem_append_right _ (List.mem_singleton_self x)
  · exact intact_receive hi hintact out

/-- As long as ZeroMQ breaks no message off, what it brings over is printed, all of it and in
order, and the programs' counters account for every sample of the driver's messages. -/
theorem pipeline_accounts (C : Codec α μ) (convert : M → ℤ → Converted α) {topic wanted : Bytes}
    (hwanted : wanted <+: topic) {steps : List (PipelineStep α μ M)} {s : Pipeline α μ M}
    (hintact : ∀ i ∈ steps, i.Intact)
    (h : run (Pipeline.step C convert topic) (.create C wanted) steps = some s)
    (hundoes : ∀ x ∈ s.runs.flatMap PublishingRun.passed, C.Undoes x) :
    s.shown <+: s.carried ∧ s.feed.subscriber.malformed = 0 ∧
      (s.runs.map PublishingRun.published).sum =
        s.shown.length + s.feed.sock.queue.length + s.lost ∧
      ∀ m ∈ s.runs, (converted convert m.messages).length = m.published + m.publisher.dropped +
        m.threw + m.source.inHand.toList.length + m.source.sensor.queue.dropped +
        m.source.sensor.queue.queue.length := by
  have hstart : IntactInv C convert topic wanted (.create C wanted) [] :=
    ⟨by simp [Pipeline.runs, Pipeline.create], by simp [Pipeline.create], rfl, rfl, .nil, rfl, rfl,
      rfl⟩
  obtain ⟨waiting, hi⟩ := run_invariant_of (intact_step hwanted) (fun _ => ⟨[], hstart⟩)
    (throughout_of_labels _ hintact) h hundoes
  refine ⟨⟨waiting, hi.carried.symm⟩, hi.malformed, ?_, ?_⟩
  · rw [hi.counted, hi.carried, List.length_append, hi.queue.length_eq]
  · intro m hm
    have hcounted := (hi.runs m hm).counted
    rw [PublishingRun.messages, (hi.runs m hm).source.accounts.2, ← PublishingRun.passed, hcounted]

/-- Of four clouds one is lost, one is printed, one refused and one waits. -/
def oneLost : List (PipelineStep PointCloud LidarPointCloud PointCloudMsg) :=
  [.start 4, .deliver (onePointCloudMsg 1), .poll, .publish (.sends .sent .sent) true,
    .deliver (onePointCloudMsg 2), .poll, .publish (.sends .sent .sent) false,
    .receive .timeout .timeout PointCloud.fresh, .receive .ready .ready PointCloud.fresh,
    .deliver (onePointCloudMsg 3), .deliver (onePointCloudMsg 4), .poll,
    .publish (.sends .wouldBlock .sent) false, .poll, .publish (.sends .sent .sent) false]

theorem oneLost_accounted :
    ∃ s, run (Pipeline.step (cloudCodec cloudWireFormat) (SickCloudConfig.convert {}) cloudTopic)
        (.create (cloudCodec cloudWireFormat) cloudTopic) oneLost = some s ∧
      s.shown.map PointCloud.stampNs = [2000000000] ∧ s.shown <+: s.carried ∧
      (s.runs.map PublishingRun.published).sum =
        s.shown.length + s.feed.sock.queue.length + s.lost := by
  have hintact : ∀ i ∈ oneLost, i.Intact := by
    simp [oneLost, PipelineStep.Intact, PublishOutcome.Intact]
  have hrun : ∃ s, run (Pipeline.step (cloudCodec cloudWireFormat) (SickCloudConfig.convert {})
        cloudTopic) (.create (cloudCodec cloudWireFormat) cloudTopic) oneLost = some s ∧
      s.shown.map PointCloud.stampNs = [2000000000] ∧
      ∀ x ∈ s.runs.flatMap PublishingRun.passed, (cloudCodec cloudWireFormat).Undoes x :=
    ⟨_, rfl, by decide, by unfold Codec.Undoes; decide⟩
  obtain ⟨s, hs, hstamps, hundoes⟩ := hrun
  obtain ⟨hshown, -, hpublished, -⟩ := pipeline_accounts (cloudCodec cloudWireFormat)
    (SickCloudConfig.convert {}) (List.prefix_refl cloudTopic) hintact hs hundoes
  exact ⟨s, hs, hstamps, hshown, hpublished⟩

end Whole

end AuvMiddleware.Lidar
