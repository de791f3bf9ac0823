import AuvMiddleware.Lib.Runs
import AuvMiddleware.Mw.Loopback
import Mathlib.Data.List.Forall2

/-!
# A loopback bearer over a whole run (acoustic_loopback.hpp:28-81)

The bearer keeps one number for the channel, the instant it is free again. Beside it the run
keeps every frame the channel ever took, and every frame a drain removed.
-/

namespace AuvMiddleware.Mw.Loopback
open Runs

/-- A frame the channel took, with the deadline it was offered with; the water may lose it. -/
structure Taken where
  bytes : Bytes
  priority : Priority
  deadline : ℤ
  sentAtNs : ℤ
  lost : Bool

def Taken.freeAt (cfg : Config) (a : Taken) : ℤ := a.sentAtNs + airtime cfg a.bytes.length

def Taken.delivery (cfg : Config) (a : Taken) : Delivery :=
  ⟨a.bytes, a.priority, a.sentAtNs, a.freeAt cfg + cfg.propagationNs⟩

def Taken.Occupies (cfg : Config) (a : Taken) (ns : ℤ) : Prop :=
  a.sentAtNs ≤ ns ∧ ns < a.freeAt cfg

structure Traffic where
  bearer : Bearer
  taken : List Taken := []
  drained : List Delivery := []

def start (cfg : Config) : Traffic := { bearer := { cfg := cfg } }

inductive Op where
  | offer (bytes : Bytes) (priority : Priority) (deadline : ℤ) (lossRoll : Bool)
  | advance (ns : ℕ)
  | drain

/-- One call; `none` when an `int64_t` value overflows in it. -/
def step (t : Traffic) : Op → Option Traffic
  | .offer bytes priority deadline lossRoll =>
    (t.bearer.offer bytes priority deadline lossRoll).exact.map fun (accepted, b) =>
      let frame : Taken := ⟨bytes, priority, deadline, t.bearer.nowNs, lossRoll⟩
      { t with bearer := b, taken := if accepted then t.taken ++ [frame] else t.taken }
  | .advance ns => (t.bearer.advance ns).exact.map fun b => { t with bearer := b }
  | .drain =>
    some { t with bearer := t.bearer.drain, drained := t.drained ++ t.bearer.delivered }

def Traffic.frames (t : Traffic) : List Delivery :=
  t.drained ++ t.bearer.delivered ++ t.bearer.inFlight

def Traffic.survivors (t : Traffic) : List Taken := t.taken.filter fun a => !a.lost

/-! ### The invariant -/

structure Counted (b : Bearer) (drained : List Delivery) : Prop where
  offers : b.stats.offered = b.stats.rejectedSize + b.stats.rejectedLate +
    b.stats.rejectedBusy + b.stats.accepted
  frames : b.stats.accepted = b.stats.lost + b.inFlight.length + b.delivered.length +
    drained.length

/-- `channelFreeAt` against all the frames the channel ever took. -/
structure Held (cfg : Config) (now freeAt : ℤ) (taken : List Taken) : Prop where
  clock : 0 ≤ now
  sent : ∀ a ∈ taken, a.sentAtNs ≤ now
  freed : ∀ a ∈ taken, a.freeAt cfg ≤ freeAt
  holder : freeAt ≤ 0 ∨ ∃ a ∈ taken, freeAt = a.freeAt cfg
  apart : taken.Pairwise fun a b => a.freeAt cfg ≤ b.sentAtNs
  inTime : ∀ a ∈ taken, a.freeAt cfg + cfg.propagationNs ≤ a.deadline

structure TrafficInv (cfg : Config) (t : Traffic) : Prop where
  sameCfg : t.bearer.cfg = cfg
  counted : Counted t.bearer t.drained
  taken : t.bearer.stats.accepted = t.taken.length
  held : Held cfg t.bearer.nowNs t.bearer.channelFreeAt t.taken
  frames : t.frames = t.survivors.map (Taken.delivery cfg)
  arrived : ∀ d ∈ t.drained ++ t.bearer.delivered, d.arrivesAtNs ≤ t.bearer.nowNs

theorem start_inv (cfg : Config) : TrafficInv cfg (start cfg) where
  sameCfg := rfl
  counted := ⟨rfl, rfl⟩
  taken := rfl
  held := {
    clock := Int.le_refl 0
    sent := by simp [start]
    freed := by simp [start]
    holder := .inl (Int.le_refl 0)
    apart := List.Pairwise.nil
    inTime := by simp [start] }
  frames := rfl
  arrived := by simp [start]

theorem Held.later {cfg : Config} {now freeAt : ℤ} {taken : List Taken}
    (h : Held cfg now freeAt taken) (ns : ℕ) : Held cfg (now + ns) freeAt taken where
  clock := by have := h.clock; omega
  sent a ha := by have := h.sent a ha; omega
  freed := h.freed
  holder := h.holder
  apart := h.apart
  inTime := h.inTime

theorem Held.take {cfg : Config} {now freeAt : ℤ} {taken : List Taken} {a : Taken}
    (h : Held cfg now freeAt taken) (hsent : a.sentAtNs = now) (hfree : freeAt ≤ now)
    (hbps : 0 < cfg.bitsPerSecond) (htime : a.freeAt cfg + cfg.propagationNs ≤ a.deadline) :
    Held cfg now (a.freeAt cfg) (taken ++ [a]) := by
  have hnow : now ≤ a.freeAt cfg := by
    have := airtime_nonneg hbps a.bytes.length
    unfold Taken.freeAt
    omega
  constructor
  · exact h.clock
  · intro x hx
    rcases List.mem_append.mp hx with hx | hx
    · exact h.sent x hx
    · rw [List.mem_singleton.mp hx, hsent]
  · intro x hx
    rcases List.mem_append.mp hx with hx | hx
    · have := h.freed x hx
      omega
    · rw [List.mem_singleton.mp hx]
  · exact .inr ⟨a, by simp, rfl⟩
  · refine List.pairwise_append.mpr ⟨h.apart, List.pairwise_singleton .., ?_⟩
    intro x hx y hy
    rw [List.mem_singleton.mp hy, hsent]
    exact Int.le_trans (h.freed x hx) hfree
  · intro x hx
    rcases List.mem_append.mp hx with hx | hx
    · exact h.inTime x hx
    · rw [List.mem_singleton.mp hx]
      exact htime

/-- Since the channel is free again before the next frame is taken, arrivals keep their order. -/
theorem Held.arrivals {cfg : Config} {now freeAt : ℤ} {taken : List Taken}
    (h : Held cfg now freeAt taken) (hbps : 0 < cfg.bitsPerSecond) :
    DelayLine.Ordered (fun a => (a.delivery cfg).arrivesAtNs) taken := by
  refine h.apart.imp fun {a b} hab => ?_
  have := airtime_nonneg hbps b.bytes.length
  show a.freeAt cfg + cfg.propagationNs ≤ b.freeAt cfg + cfg.propagationNs
  have hb : b.freeAt cfg = b.sentAtNs + airtime cfg b.bytes.length := rfl
  omega

/-- The channel is busy exactly while some frame it took occupies it. -/
theorem Held.busy_iff {cfg : Config} {now freeAt : ℤ} {taken : List Taken}
    (h : Held cfg now freeAt taken) : now < freeAt ↔ ∃ a ∈ taken, a.Occupies cfg now := by
  constructor
  · intro hbusy
    have hclock := h.clock
    rcases h.holder with h0 | ⟨a, ha, hfree⟩
    · omega
    · exact ⟨a, ha, h.sent a ha, hfree ▸ hbusy⟩
  · rintro ⟨a, ha, -, hbefore⟩
    exact Int.lt_of_lt_of_le hbefore (h.freed a ha)

theorem TrafficInv.inFlight_ordered {cfg : Config} {t : Traffic} (hi : TrafficInv cfg t)
    (hbps : 0 < cfg.bitsPerSecond) :
    DelayLine.Ordered Delivery.arrivesAtNs t.bearer.inFlight := by
  have hall : DelayLine.Ordered Delivery.arrivesAtNs t.frames := by
    rw [hi.frames]
    exact List.pairwise_map.mpr
      (List.Pairwise.sublist List.filter_sublist (hi.held.arrivals hbps))
  exact (List.pairwise_append.mp hall).2.1

/-! ### One call -/

theorem accept_inv {cfg : Config} {t : Traffic} (hbps : 0 < cfg.bitsPerSecond)
    (hi : TrafficInv cfg t) {bytes : Bytes} (priority : Priority) {deadline : ℤ} (lossRoll : Bool)
    (htime : t.bearer.nowNs + airtime cfg bytes.length + cfg.propagationNs ≤ deadline)
    (hfree : t.bearer.channelFreeAt ≤ t.bearer.nowNs) :
    TrafficInv cfg { t with
      bearer := ({ t.bearer with stats := { t.bearer.stats with
          offered := t.bearer.stats.offered + 1 } } : Bearer).accept
        ⟨bytes, priority, t.bearer.nowNs,
          t.bearer.nowNs + airtime cfg bytes.length + cfg.propagationNs⟩
        (t.bearer.nowNs + airtime cfg bytes.length) lossRoll
      taken := t.taken ++ [⟨bytes, priority, deadline, t.bearer.nowNs, lossRoll⟩] } := by
  have hoffers := hi.counted.offers
  have hframes := hi.counted.frames
  have htaken := hi.taken
  have hheld := hi.held.take (a := ⟨bytes, priority, deadline, t.bearer.nowNs, lossRoll⟩)
    rfl hfree hbps htime
  have hall := hi.frames
  unfold Traffic.frames Traffic.survivors at hall
  cases lossRoll with
  | true =>
    exact {
      sameCfg := hi.sameCfg
      counted := ⟨by simp only [Bearer.accept, if_true]; omega,
        by simp only [Bearer.accept, if_true]; omega⟩
      taken := by
        simp only [Bearer.accept, if_true, List.length_append, List.length_singleton]
        omega
      held := hheld
      frames := by simpa [Traffic.frames, Traffic.survivors, Bearer.accept] using hall
      arrived := hi.arrived }
  | false =>
    exact {
      sameCfg := hi.sameCfg
      counted := ⟨by simp only [Bearer.accept, Bool.false_eq_true, if_false]; omega,
        by simp only [Bearer.accept, Bool.false_eq_true, if_false, List.length_append,
          List.length_singleton]; omega⟩
      taken := by
        simp only [Bearer.accept, Bool.false_eq_true, if_false, List.length_append,
          List.length_singleton]
        omega
      held := hheld
      frames := by
        simp only [Traffic.frames, Traffic.survivors, Bearer.accept, Bool.false_eq_true,
          if_false, List.filter_append, List.map_append, ← hall, ← List.append_assoc]
        rfl
      arrived := hi.arrived }

theorem offer_inv {cfg : Config} {t : Traffic} {bytes : Bytes} {priority : Priority}
    {deadline : ℤ} {lossRoll accepted : Bool} {b : Bearer} (hbps : 0 < cfg.bitsPerSecond)
    (hi : TrafficInv cfg t)
    (ho : (t.bearer.offer bytes priority deadline lossRoll).exact = some (accepted, b)) :
    TrafficInv cfg { t with
      bearer := b
      taken := if accepted then
        t.taken ++ [⟨bytes, priority, deadline, t.bearer.nowNs, lossRoll⟩] else t.taken } := by
  have hoffers := hi.counted.offers
  have hframes := hi.counted.frames
  obtain rfl := hi.sameCfg
  rcases offer_cases hbps ho with ⟨-, rfl, rfl⟩ | ⟨-, -, rfl, rfl⟩ |
    ⟨-, -, -, rfl, rfl⟩ | ⟨-, htime, hfree, rfl, rfl⟩
  · exact { hi with counted := ⟨by dsimp only; omega, hframes⟩ }
  · exact { hi with counted := ⟨by dsimp only; omega, hframes⟩ }
  · exact { hi with counted := ⟨by dsimp only; omega, hframes⟩ }
  · exact accept_inv hbps hi priority lossRoll htime hfree

theorem advance_inv {cfg : Config} {t : Traffic} {ns : ℕ} {b : Bearer}
    (hbps : 0 < cfg.bitsPerSecond) (hi : TrafficInv cfg t)
    (ha : (t.bearer.advance ns).exact = some b) :
    TrafficInv cfg { t with bearer := b } ∧ ∀ d ∈ b.inFlight, b.nowNs < d.arrivesAtNs := by
  obtain rfl := advance_eq ha
  have hsplit := (hi.inFlight_ordered hbps).released_append_waiting (t.bearer.nowNs + ns)
  have hcount := congrArg List.length hsplit
  have hframes := hi.counted.frames
  rw [List.length_append] at hcount
  refine ⟨?_, fun d hd => (DelayLine.mem_waiting.mp hd).2⟩
  constructor
  · exact hi.sameCfg
  · refine ⟨hi.counted.offers, ?_⟩
    dsimp only
    rw [List.length_append]
    omega
  · exact hi.taken
  · exact hi.held.later ns
  · refine Eq.trans ?_ hi.frames
    simp only [Traffic.frames, List.append_assoc, hsplit]
  · intro d hd
    simp only [← List.append_assoc] at hd
    rcases List.mem_append.mp hd with hd | hd
    · have := hi.arrived d hd
      dsimp only
      omega
    · exact (DelayLine.mem_released.mp hd).2

theorem step_inv {cfg : Config} (hbps : 0 < cfg.bitsPerSecond) (t : Traffic) (op : Op)
    (t' : Traffic) (hi : TrafficInv cfg t) (h : step t op = some t') : TrafficInv cfg t' := by
  cases op with
  | offer bytes priority deadline lossRoll =>
    obtain ⟨⟨accepted, b⟩, hb, rfl⟩ := Option.map_eq_some_iff.mp h
    exact offer_inv hbps hi hb
  | advance ns =>
    obtain ⟨b, hb, rfl⟩ := Option.map_eq_some_iff.mp h
    exact (advance_inv hbps hi hb).1
  | drain =>
    cases h
    have hframes := hi.counted.frames
    exact {
      sameCfg := hi.sameCfg
      counted := ⟨hi.counted.offers, by
        simp only [Bearer.drain, List.length_append, List.length_nil]
        omega⟩
      taken := hi.taken
      held := hi.held
      frames := by
        refine Eq.trans ?_ hi.frames
        simp only [Traffic.frames, Bearer.drain, List.append_nil]
      arrived := by simpa [Bearer.drain] using hi.arrived }

theorem run_inv {cfg : Config} (hbps : 0 < cfg.bitsPerSecond) {ops : List Op} {t : Traffic}
    (h : run step (start cfg) ops = some t) : TrafficInv cfg t :=
  run_invariant (step_inv hbps) (start_inv cfg) h

/-! ### Conservation, exclusion and admission -/

/-- Whatever is lost, refused or drained, and however far the clock jumps, every frame the
channel took is accounted for once, in the order it was taken. -/
theorem frames_conserved {cfg : Config} (hbps : 0 < cfg.bitsPerSecond) {ops : List Op}
    {t : Traffic} (h : run step (start cfg) ops = some t) :
    t.bearer.stats.offered = t.bearer.stats.rejectedSize + t.bearer.stats.rejectedLate +
        t.bearer.stats.rejectedBusy + t.bearer.stats.accepted ∧
      t.bearer.stats.accepted = t.bearer.stats.lost + t.bearer.inFlight.length +
        t.bearer.delivered.length + t.drained.length ∧
      t.bearer.stats.accepted = t.taken.length ∧
      t.drained ++ t.bearer.delivered ++ t.bearer.inFlight =
        t.survivors.map (Taken.delivery cfg) ∧
      ∀ ns t', step t (.advance ns) = some t' →
        t'.drained ++ t'.bearer.delivered =
          (t'.survivors.map (Taken.delivery cfg)).filter
            fun d => decide (d.arrivesAtNs ≤ t'.bearer.nowNs) := by
  have hi := run_inv hbps h
  refine ⟨hi.counted.offers, hi.counted.frames, hi.taken, hi.frames, ?_⟩
  intro ns t' ha
  have hi' := step_inv hbps t _ t' hi ha
  obtain ⟨b, hb, rfl⟩ := Option.map_eq_some_iff.mp ha
  have hlate := (advance_inv hbps hi hb).2
  have hout := DelayLine.released_of_due hi'.arrived
  rw [← hi'.frames]
  show _ = DelayLine.released Delivery.arrivesAtNs b.nowNs _
  rw [Traffic.frames, DelayLine.released_append, hout, DelayLine.released_of_late hlate,
    List.append_nil]

def murkyWater : List Op :=
  [.offer (bytes [1, 2]) .normal 1000000000 false, .offer (bytes [3]) .bulk 1000000000 false,
    .advance 200000000, .offer (bytes [4]) .urgent 633000000 true,
    .offer (bytes [5]) .urgent 632000000 false, .advance 400000000,
    .offer (bytes (List.replicate 65 0)) .bulk 9000000000 false, .drain]

theorem frames_conserved_murkyWater :
    ∃ t, run step (start {}) murkyWater = some t ∧
      t.bearer.stats.accepted = t.taken.length ∧
      t.drained ++ t.bearer.delivered ++ t.bearer.inFlight =
        t.survivors.map (Taken.delivery {}) ∧
      t.frames = [⟨[1, 2], .normal, 0, 533000000⟩] :=
  have h := frames_conserved (by decide) (show run step (start {}) murkyWater = some _ from rfl)
  ⟨_, rfl, h.2.2.1, h.2.2.2.1, rfl⟩

/-- One number decides as the whole history of occupied intervals would. -/
theorem channel_exclusive {cfg : Config} (hbps : 0 < cfg.bitsPerSecond) {ops : List Op}
    {t : Traffic} (h : run step (start cfg) ops = some t) :
    (∀ size, IsAirtime cfg size (airtime cfg size)) ∧
      (∀ bytes priority deadline lossRoll accepted b,
        (t.bearer.offer bytes priority deadline lossRoll).exact = some (accepted, b) →
        (accepted = true ↔ bytes.length ≤ cfg.maxFrameBytes ∧
          t.bearer.nowNs + airtime cfg bytes.length + cfg.propagationNs ≤ deadline ∧
          ∀ a ∈ t.taken, ¬ a.Occupies cfg t.bearer.nowNs)) ∧
      (t.taken.Pairwise fun a b => ∀ ns, ¬ (a.Occupies cfg ns ∧ b.Occupies cfg ns)) ∧
      (t.taken.Pairwise fun a b =>
        (a.delivery cfg).arrivesAtNs ≤ (b.delivery cfg).arrivesAtNs) ∧
      List.Forall₂ (fun d a => d = a.delivery cfg ∧ d.arrivesAtNs ≤ a.deadline)
        t.frames t.survivors := by
  have hi := run_inv hbps h
  refine ⟨airtime_isAirtime hbps, ?_, ?_, hi.held.arrivals hbps, ?_⟩
  · intro bytes priority deadline lossRoll accepted b ho
    have hbusy := hi.held.busy_iff
    have hfree : (∀ a ∈ t.taken, ¬ a.Occupies cfg t.bearer.nowNs) ↔
        t.bearer.channelFreeAt ≤ t.bearer.nowNs := by
      rw [← Int.not_lt, hbusy]
      push Not
      exact Iff.rfl
    rw [hfree]
    rcases offer_cases (by rw [hi.sameCfg]; exact hbps) ho with ⟨hsize, rfl, -⟩ |
      ⟨-, hlate, rfl, -⟩ | ⟨-, -, hheld, rfl, -⟩ | ⟨hsize, htime, hidle, rfl, -⟩
    · rw [hi.sameCfg] at hsize
      simp only [Bool.false_eq_true, false_iff]
      omega
    · rw [hi.sameCfg] at hlate
      simp only [Bool.false_eq_true, false_iff]
      omega
    · simp only [Bool.false_eq_true, false_iff]
      omega
    · rw [hi.sameCfg] at hsize htime
      simp only [true_iff]
      exact ⟨hsize, htime, hidle⟩
  · refine hi.held.apart.imp fun {a b} hab ns => ?_
    rintro ⟨⟨-, hbefore⟩, ⟨hafter, -⟩⟩
    omega
  · rw [hi.frames, List.forall₂_map_left_iff, List.forall₂_same]
    intro a ha
    exact ⟨rfl, hi.held.inTime a (List.mem_filter.mp ha).1⟩

theorem channel_exclusive_murkyWater :
    ∃ t, run step (start {}) murkyWater = some t ∧ t.taken.length = 2 ∧
      t.taken.Pairwise fun a b => ∀ ns, ¬ (a.Occupies {} ns ∧ b.Occupies {} ns) :=
  have h := channel_exclusive (by decide) (show run step (start {}) murkyWater = some _ from rfl)
  ⟨_, rfl, rfl, h.2.2.1⟩

end AuvMiddleware.Mw.Loopback
