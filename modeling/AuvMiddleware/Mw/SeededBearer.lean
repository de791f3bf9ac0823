import AuvMiddleware.Lib.Runs
import AuvMiddleware.Mw.Loopback

/-!
# The loopback bearer with its random engine (acoustic_loopback.cpp:25-80)

A roll of `loss_roll_(rng_)` moves the engine on. The engine and its distribution are
parameters; the clock may be advanced by any number.
-/

namespace AuvMiddleware.Mw.Loopback
open Runs

structure Seeded (R : Type) where
  bearer : Bearer
  rng : R

def Seeded.start {R : Type} (cfg : Config) (rng : R) : Seeded R := ⟨{ cfg := cfg }, rng⟩

inductive BearerCall where
  | offer (bytes : Bytes) (priority : Priority) (deadline : ℤ)
  | advance (ns : ℤ)
  | drain

variable {R : Type} (lossRoll : R → Bool × R)

/-- `LoopbackBearer::offer` once more, with the roll taken where the code takes it. -/
def Seeded.offer (s : Seeded R) (bytes : Bytes) (priority : Priority) (deadline : ℤ) :
    Checked (Bool × Seeded R) :=
  let b := { s.bearer with stats := { s.bearer.stats with offered := s.bearer.stats.offered + 1 } }
  if b.cfg.maxFrameBytes < bytes.length then
    pure (false, { s with bearer :=
      { b with stats := { b.stats with rejectedSize := b.stats.rejectedSize + 1 } } })
  else do
    let serialization ← serializationNs b.cfg bytes.length
    let sent ← Checked.int64 (b.nowNs + serialization)
    let arrival ← Checked.int64 (sent + b.cfg.propagationNs)
    if deadline < arrival then
      pure (false, { s with bearer :=
        { b with stats := { b.stats with rejectedLate := b.stats.rejectedLate + 1 } } })
    else if b.nowNs < b.channelFreeAt then
      pure (false, { s with bearer :=
        { b with stats := { b.stats with rejectedBusy := b.stats.rejectedBusy + 1 } } })
    else do
      let freeAt ← Checked.int64 (b.nowNs + serialization)
      let (lost, rng) := lossRoll s.rng
      pure (true, ⟨b.accept ⟨bytes, priority, b.nowNs, arrival⟩ freeAt lost, rng⟩)

/-- What a call returns (`offer` alone returns something) and the bearer it leaves behind. -/
def Seeded.call (s : Seeded R) : BearerCall → Checked (Option Bool × Seeded R)
  | .offer bytes priority deadline => do
    let (accepted, s) ← s.offer lossRoll bytes priority deadline
    pure (some accepted, s)
  | .advance ns => do
    let b ← s.bearer.advance ns
    pure (none, { s with bearer := b })
  | .drain => pure (none, { s with bearer := s.bearer.drain })

/-- One call; `none` when an `int64_t` value overflows in it. -/
def Seeded.step (s : Seeded R) (c : BearerCall) : Option (Seeded R) :=
  (s.call lossRoll c).exact.map Prod.snd

/-- The roll is an outcome from outside that only a frame the channel takes uses up. -/
theorem Seeded.offer_eq (s : Seeded R) (bytes : Bytes) (priority : Priority) (deadline : ℤ) :
    s.offer lossRoll bytes priority deadline =
      (s.bearer.offer bytes priority deadline (lossRoll s.rng).1 >>= fun (accepted, b) =>
        pure (accepted, ⟨b, if accepted then (lossRoll s.rng).2 else s.rng⟩)) := by
  unfold Seeded.offer Bearer.offer
  dsimp only
  split
  · rfl
  · simp only [bind, pure]
    split
    · simp
    · split
      · simp
      · simp

/-! ### What is seen of a run -/

/-- The bearer without the counters of offers made and offers refused. -/
def Seeded.visible (s : Seeded R) : Seeded R :=
  { s with bearer := { s.bearer with stats := { s.bearer.stats with
      offered := 0, rejectedSize := 0, rejectedLate := 0, rejectedBusy := 0 } } }

/-- One call of a run; after an overflow the values go on reduced. -/
structure Entry (R : Type) where
  before : Seeded R
  returned : Option Bool
  overflow : Bool
  after : Seeded R

def Entry.visible (e : Entry R) : Entry R :=
  { e with before := e.before.visible, after := e.after.visible }

def Seeded.entry (s : Seeded R) (c : BearerCall) : Entry R :=
  let r := s.call lossRoll c
  ⟨s, r.value.1, r.overflow, r.value.2⟩

def history (s : Seeded R) : List BearerCall → List (Entry R)
  | [] => []
  | c :: cs => s.entry lossRoll c :: history (s.entry lossRoll c).after cs

/-- What is left of a marked list without the marked entries. -/
def keep {α : Type} (xs : List (α × Bool)) : List α := (xs.filter fun x => !x.2).map Prod.fst

@[simp] theorem keep_marked {α : Type} (a : α) (xs : List (α × Bool)) :
    keep ((a, true) :: xs) = keep xs := rfl

@[simp] theorem keep_unmarked {α : Type} (a : α) (xs : List (α × Bool)) :
    keep ((a, false) :: xs) = a :: keep xs := rfl

/-! ### Refused offers are invisible -/

theorem entry_visible (s : Seeded R) (c : BearerCall) :
    (s.visible.entry lossRoll c).visible = (s.entry lossRoll c).visible := by
  cases c with
  | offer bytes priority deadline =>
    unfold Seeded.entry Seeded.call Seeded.offer
    dsimp only [Seeded.visible]
    by_cases hsize : s.bearer.cfg.maxFrameBytes < bytes.length
    · simp only [hsize, if_true]
      rfl
    · simp only [hsize, if_false, bind, pure]
      split
      · rfl
      · by_cases hbusy : s.bearer.nowNs < s.bearer.channelFreeAt
        · simp only [hbusy, if_true]
          rfl
        · simp only [hbusy, if_false]
          cases (lossRoll s.rng).1 <;> rfl
  | advance ns => rfl
  | drain => rfl

theorem entry_refused {s : Seeded R} {c : BearerCall}
    (h : (s.entry lossRoll c).returned = some false) :
    (s.entry lossRoll c).after.visible = s.visible := by
  cases c with
  | offer bytes priority deadline =>
    unfold Seeded.entry Seeded.call Seeded.offer at h ⊢
    dsimp only at h ⊢
    split at h
    · case isTrue hsize =>
        rw [if_pos hsize]
        rfl
    · case isFalse hsize =>
        rw [if_neg hsize]
        simp only [bind, pure] at h ⊢
        split at h
        · case isTrue hlate =>
            rw [if_pos hlate]
            rfl
        · case isFalse hlate =>
            rw [if_neg hlate]
            split at h
            · case isTrue hbusy =>
                rw [if_pos hbusy]
                rfl
            · cases h
  | advance ns => cases h
  | drain => cases h

theorem history_congr {s s' : Seeded R} (h : s.visible = s'.visible) (calls : List BearerCall) :
    (history lossRoll s calls).map Entry.visible =
      (history lossRoll s' calls).map Entry.visible := by
  induction calls generalizing s s' with
  | nil => rfl
  | cons c calls ih =>
    have hentry : (s.entry lossRoll c).visible = (s'.entry lossRoll c).visible := by
      rw [← entry_visible, h, entry_visible]
    simp only [history, List.map_cons, hentry]
    rw [ih (congrArg Entry.after hentry)]

theorem mem_history {s : Seeded R} {calls : List BearerCall} {e : Entry R}
    (h : e ∈ history lossRoll s calls) : ∃ c, e = e.before.entry lossRoll c := by
  induction calls generalizing s with
  | nil => cases h
  | cons c calls ih =>
    rcases List.mem_cons.mp h with rfl | h
    · exact ⟨c, rfl⟩
    · exact ih h

theorem history_keep (s : Seeded R) (calls : List (BearerCall × Bool))
    (h : ∀ x ∈ (history lossRoll s (calls.map Prod.fst)).zip (calls.map Prod.snd),
      x.2 = true → x.1.returned = some false) :
    (history lossRoll s (keep calls)).map Entry.visible =
      (keep ((history lossRoll s (calls.map Prod.fst)).zip (calls.map Prod.snd))).map
        Entry.visible := by
  induction calls generalizing s with
  | nil => rfl
  | cons x calls ih =>
    obtain ⟨c, marked⟩ := x
    simp only [List.map_cons, history, List.zip_cons_cons, List.forall_mem_cons] at h ⊢
    have htail := ih (s.entry lossRoll c).after h.2
    cases marked with
    | true =>
      -- the call is left out, and what follows it starts from a bearer that looks the same
      have hsame := entry_refused lossRoll (h.1 rfl)
      rw [keep_marked, keep_marked, ← htail]
      exact history_congr lossRoll hsame.symm _
    | false =>
      rw [keep_unmarked, keep_unmarked]
      simp only [history, List.map_cons, htail]

/-- However many refused offers are taken out of a run, or put into one: the other calls return
the same and go through the same bearers, down to the state of the random engine. -/
theorem refused_offers_invisible (cfg : Config) (rng : R) (calls : List (BearerCall × Bool))
    (h : ∀ x ∈ (history lossRoll (.start cfg rng) (calls.map Prod.fst)).zip (calls.map Prod.snd),
      x.2 = true → x.1.returned = some false) :
    (history lossRoll (.start cfg rng) (keep calls)).map Entry.visible =
        (keep ((history lossRoll (.start cfg rng) (calls.map Prod.fst)).zip
          (calls.map Prod.snd))).map Entry.visible ∧
      ∀ e ∈ history lossRoll (.start cfg rng) (calls.map Prod.fst),
        e.returned = some false → e.after.visible = e.before.visible := by
  refine ⟨history_keep lossRoll _ calls h, ?_⟩
  intro e he hr
  obtain ⟨c, hc⟩ := mem_history lossRoll he
  rw [hc] at hr ⊢
  exact entry_refused lossRoll hr

def everyThird (n : ℕ) : Bool × ℕ := (n % 3 == 1, n + 1)

def crowdedWater : List (BearerCall × Bool) :=
  [(.offer (bytes [1]) .normal 1000000000, false), (.offer (bytes [2]) .urgent 1000000000, true),
    (.advance 150000000, false), (.offer (bytes (List.replicate 65 0)) .bulk 9000000000, true),
    (.offer (bytes [3]) .bulk 1000000000, false), (.offer (bytes [4]) .bulk 10, true),
    (.advance 700000000, false), (.offer (bytes [5]) .normal 10, true), (.drain, false)]

theorem refused_offers_invisible_crowdedWater :
    (history everyThird (.start {} 0) (keep crowdedWater)).map Entry.visible =
        (keep ((history everyThird (.start {} 0) (crowdedWater.map Prod.fst)).zip
          (crowdedWater.map Prod.snd))).map Entry.visible ∧
      (history everyThird (.start {} 0) (keep crowdedWater)).map Entry.returned =
        [some true, none, some true, none, none] :=
  ⟨(refused_offers_invisible everyThird {} 0 crowdedWater (by decide)).1, by decide⟩

/-! ### In how many steps the clock is moved -/

/-- Frames in flight arrive in order, none after the channel's last one. -/
structure FlightInv (cfg : Config) (s : Seeded R) : Prop where
  sameCfg : s.bearer.cfg = cfg
  clock : InInt64 s.bearer.nowNs
  ordered : DelayLine.Ordered Delivery.arrivesAtNs s.bearer.inFlight
  freed : ∀ d ∈ s.bearer.inFlight, d.arrivesAtNs ≤ s.bearer.channelFreeAt + cfg.propagationNs

theorem start_flight (cfg : Config) (rng : R) : FlightInv cfg (.start cfg rng) where
  sameCfg := rfl
  clock := by
    show InInt64 0
    decide
  ordered := List.Pairwise.nil
  freed := by simp [Seeded.start]

theorem accept_flight {cfg : Config} {b : Bearer} {rng rng' : R} (h : FlightInv cfg ⟨b, rng⟩)
    (hbps : 0 < cfg.bitsPerSecond) (hfree : b.channelFreeAt ≤ b.nowNs) (bytes : Bytes)
    (priority : Priority) (lost : Bool) :
    FlightInv cfg ⟨b.accept ⟨bytes, priority, b.nowNs,
      b.nowNs + airtime cfg bytes.length + cfg.propagationNs⟩
      (b.nowNs + airtime cfg bytes.length) lost, rng'⟩ := by
  have hair := airtime_nonneg hbps bytes.length
  have hbefore : ∀ d ∈ b.inFlight,
      d.arrivesAtNs ≤ b.nowNs + airtime cfg bytes.length + cfg.propagationNs := by
    intro d hd
    have := h.freed d hd
    dsimp only at this
    omega
  cases lost with
  | true => exact { sameCfg := h.sameCfg, clock := h.clock, ordered := h.ordered, freed := hbefore }
  | false =>
    refine { sameCfg := h.sameCfg, clock := h.clock, ordered := ?_, freed := ?_ }
    · refine List.pairwise_append.mpr ⟨h.ordered, List.pairwise_singleton .., ?_⟩
      intro d hd e he
      rw [List.mem_singleton.mp he]
      exact hbefore d hd
    · intro d hd
      rcases List.mem_append.mp hd with hd | hd
      · exact hbefore d hd
      · rw [List.mem_singleton.mp hd]
        exact le_rfl

theorem step_advance (s : Seeded R) (ns : ℤ) :
    s.step lossRoll (.advance ns) =
      (s.bearer.advance ns).exact.map fun b => { s with bearer := b } := by
  unfold Seeded.step Seeded.call
  rw [Checked.exact_bind]
  cases (s.bearer.advance ns).exact <;> rfl

theorem step_offer {s s' : Seeded R} {bytes : Bytes} {priority : Priority} {deadline : ℤ}
    (h : s.step lossRoll (.offer bytes priority deadline) = some s') :
    ∃ accepted b, (s.bearer.offer bytes priority deadline (lossRoll s.rng).1).exact =
        some (accepted, b) ∧
      s' = ⟨b, if accepted then (lossRoll s.rng).2 else s.rng⟩ := by
  obtain ⟨r, hr, rfl⟩ := Option.map_eq_some_iff.mp h
  obtain ⟨x, hx, hr⟩ := Checked.exact_bind_eq_some hr
  rw [Seeded.offer_eq] at hx
  obtain ⟨⟨accepted, b⟩, hb, hx⟩ := Checked.exact_bind_eq_some hx
  cases hx
  cases hr
  exact ⟨accepted, b, hb, rfl⟩

theorem step_flight {cfg : Config} (hbps : 0 < cfg.bitsPerSecond) (s : Seeded R) (c : BearerCall)
    (s' : Seeded R) (hi : FlightInv cfg s) (h : s.step lossRoll c = some s') :
    FlightInv cfg s' := by
  cases c with
  | offer bytes priority deadline =>
    obtain ⟨accepted, b, hb, rfl⟩ := step_offer lossRoll h
    obtain rfl := hi.sameCfg
    rcases offer_cases hbps hb with ⟨-, rfl, rfl⟩ | ⟨-, -, rfl, rfl⟩ | ⟨-, -, -, rfl, rfl⟩ |
      ⟨-, -, hfree, rfl, rfl⟩
    · exact ⟨rfl, hi.clock, hi.ordered, hi.freed⟩
    · exact ⟨rfl, hi.clock, hi.ordered, hi.freed⟩
    · exact ⟨rfl, hi.clock, hi.ordered, hi.freed⟩
    · have hcounted : FlightInv s.bearer.cfg ⟨{ s.bearer with stats := { s.bearer.stats with
          offered := s.bearer.stats.offered + 1 } }, s.rng⟩ :=
        ⟨rfl, hi.clock, hi.ordered, hi.freed⟩
      exact accept_flight hcounted hbps hfree bytes priority _
  | advance ns =>
    rw [step_advance] at h
    obtain ⟨b, hb, rfl⟩ := Option.map_eq_some_iff.mp h
    obtain ⟨now, hnow, -⟩ := Checked.exact_bind_eq_some hb
    obtain ⟨rfl, hclock⟩ := Checked.exact_int64 hnow
    obtain rfl := advance_eq hb
    exact {
      sameCfg := hi.sameCfg
      clock := hclock
      ordered := List.Pairwise.sublist List.filter_sublist hi.ordered
      freed := fun d hd => hi.freed d (DelayLine.mem_waiting.mp hd).1 }
  | drain =>
    cases h
    exact ⟨hi.sameCfg, hi.clock, hi.ordered, hi.freed⟩

theorem run_flight {cfg : Config} (hbps : 0 < cfg.bitsPerSecond) {rng : R}
    {calls : List BearerCall} {s : Seeded R}
    (h : run (Seeded.step lossRoll) (.start cfg rng) calls = some s) : FlightInv cfg s :=
  run_invariant (step_flight lossRoll hbps) (start_flight cfg rng) h

theorem advance_of_in {b : Bearer} {ns : ℤ} (h : InInt64 (b.nowNs + ns)) :
    (b.advance ns).exact = some { b with
      nowNs := b.nowNs + ns
      inFlight := DelayLine.waiting Delivery.arrivesAtNs (b.nowNs + ns) b.inFlight
      delivered := b.delivered ++
        DelayLine.released Delivery.arrivesAtNs (b.nowNs + ns) b.inFlight } := by
  have hsome : ((b.advance ns).exact).isSome := by
    unfold Bearer.advance
    rw [Checked.int64_of_in h]
    rfl
  obtain ⟨b', hb⟩ := Option.isSome_iff_exists.mp hsome
  rw [hb, advance_eq hb]

theorem advance_of_out {b : Bearer} {ns : ℤ} (h : ¬ InInt64 (b.nowNs + ns)) :
    (b.advance ns).exact = none := by
  cases hb : (b.advance ns).exact with
  | none => rfl
  | some b' =>
    obtain ⟨now, hnow, -⟩ := Checked.exact_bind_eq_some hb
    exact absurd (Checked.exact_int64 hnow).2 h

theorem advance_two {cfg : Config} {s : Seeded R} (hi : FlightInv cfg s) (a b : ℕ) :
    ((s.step lossRoll (.advance a)).bind fun m => m.step lossRoll (.advance b)) =
      s.step lossRoll (.advance (a + b : ℕ)) := by
  have hclock := hi.clock
  have htwo : s.bearer.nowNs + (a : ℤ) + b = s.bearer.nowNs + (a + b : ℕ) := by omega
  simp only [step_advance]
  by_cases hin : InInt64 (s.bearer.nowNs + (a + b : ℕ))
  · have hfirst : InInt64 (s.bearer.nowNs + a) := by
      unfold InInt64 at *
      omega
    have hsecond : InInt64 (s.bearer.nowNs + (a : ℤ) + b) := by
      rw [htwo]
      exact hin
    have hlater : s.bearer.nowNs + (a : ℤ) ≤ s.bearer.nowNs + (a + b : ℕ) := by omega
    rw [advance_of_in hfirst, advance_of_in hin]
    simp only [Option.map_some, Option.bind_some]
    rw [advance_of_in hsecond]
    simp only [Option.map_some, htwo, DelayLine.waiting_waiting hlater, List.append_assoc,
      hi.ordered.released_append_released hlater]
  · rw [advance_of_out hin]
    by_cases hfirst : InInt64 (s.bearer.nowNs + a)
    · have hsecond : ¬ InInt64 (s.bearer.nowNs + (a : ℤ) + b) := by
        rw [htwo]
        exact hin
      rw [advance_of_in hfirst]
      simp only [Option.map_some, Option.bind_some, Option.map_none]
      rw [advance_of_out hsecond]
      rfl
    · rw [advance_of_out hfirst]
      rfl

/-- However a duration is cut, the bearer comes out as if the clock had been moved at once, and
the one overflows when the other does. -/
theorem advance_in_pieces {cfg : Config} (hbps : 0 < cfg.bitsPerSecond) {rng : R}
    {calls : List BearerCall} {s : Seeded R}
    (h : run (Seeded.step lossRoll) (.start cfg rng) calls = some s) (a : ℕ) (rest : List ℕ) :
    run (Seeded.step lossRoll) s ((a :: rest).map fun ns : ℕ => .advance ns) =
      s.step lossRoll (.advance (a :: rest).sum) := by
  have hi := run_flight lossRoll hbps h
  induction rest generalizing a with
  | nil =>
    simp only [List.map_cons, List.map_nil, run, List.sum_singleton]
    exact Option.bind_fun_some _
  | cons b rest ih =>
    have hmerged := ih (a + b)
    simp only [List.map_cons, run, List.sum_cons, ← advance_two lossRoll hi a b,
      Option.bind_assoc, Nat.add_assoc] at hmerged ⊢
    exact hmerged

theorem advance_in_pieces_crowdedWater :
    ∃ s, run (Seeded.step everyThird) (.start {} 0)
        [.offer (bytes [1]) .normal 1000000000, .advance 50000000] = some s ∧
      run (Seeded.step everyThird) s [.advance 50000000, .advance 0, .advance 333000001] =
        s.step everyThird (.advance 383000001) :=
  have h : run (Seeded.step everyThird) (.start {} 0)
    [.offer (bytes [1]) .normal 1000000000, .advance 50000000] = some _ := rfl
  ⟨_, h, advance_in_pieces everyThird (by decide) h 50000000 [0, 333000001]⟩

end AuvMiddleware.Mw.Loopback
