import AuvMiddleware.Mw.LoopbackChannel
import Mathlib.Algebra.BigOperators.Ring.List
import Mathlib.Algebra.Order.BigOperators.Group.List
import Mathlib.Data.List.Induction

/-!
# Vehicles that share one channel (mw_acoustic_demo.cpp)

However the offers come, a channel that carries one frame at a time carries no more than its rate.
The program gives each vehicle a slot of its own; how many of the offers are taken depends on how
many slots a frame takes.
-/

namespace AuvMiddleware.Mw.Loopback
open Runs

/-! ### What one channel can carry -/

/-- Spans that follow one another fit, but for the first, between its end and the last end. -/
theorem spans_le {α : Type} {first last : α → ℤ} {hi : ℤ} {a : α} {as : List α}
    (hapart : (a :: as).Pairwise fun x y => last x ≤ first y) (hle : ∀ x ∈ a :: as, last x ≤ hi) :
    (as.map fun x => last x - first x).sum ≤ hi - last a := by
  induction as generalizing a with
  | nil =>
    have := hle a (List.mem_singleton.mpr rfl)
    rw [List.map_nil, List.sum_nil]
    omega
  | cons b bs ih =>
    obtain ⟨hab, hbs⟩ := List.pairwise_cons.mp hapart
    have hrest := ih hbs fun x hx => hle x (List.mem_cons_of_mem _ hx)
    have hnext := hab b (List.mem_cons_self ..)
    rw [List.map_cons, List.sum_cons]
    omega

/-- The frames that arrive in a window of time. -/
def Traffic.arriving (t : Traffic) (fromNs toNs : ℤ) : List Delivery :=
  t.frames.filter fun d => decide (fromNs ≤ d.arrivesAtNs ∧ d.arrivesAtNs ≤ toNs)

def nanobitsOf (ds : List Delivery) : ℤ := (ds.map fun d => 8 * (d.bytes.length : ℤ) * 10 ^ 9).sum

theorem nanobitsOf_le {cfg : Config} (hbps : 0 < cfg.bitsPerSecond) (as : List Taken) :
    nanobitsOf (as.map (Taken.delivery cfg)) ≤
      (as.map fun a => a.freeAt cfg - a.sentAtNs).sum * cfg.bitsPerSecond := by
  unfold nanobitsOf
  rw [List.map_map, ← List.sum_map_mul_right]
  refine List.sum_le_sum fun a _ => ?_
  have hair := (airtime_isAirtime hbps a.bytes.length).1
  have hspan : a.freeAt cfg - a.sentAtNs = airtime cfg a.bytes.length := by
    unfold Taken.freeAt
    omega
  rw [hspan]
  exact hair

/-- However frames are offered, those that arrive in a window after its first are together no more
than the channel's rate allows for the length of the window. -/
theorem channel_capacity {cfg : Config} (hbps : 0 < cfg.bitsPerSecond) {ops : List Op} {t : Traffic}
    (h : run step (start cfg) ops = some t) {fromNs toNs : ℤ} (hwindow : fromNs ≤ toNs) :
    nanobitsOf (t.arriving fromNs toNs).tail ≤ (toNs - fromNs) * cfg.bitsPerSecond := by
  have hi := run_inv hbps h
  unfold Traffic.arriving
  rw [hi.frames, List.filter_map, ← List.map_tail]
  generalize harriving : t.survivors.filter _ = arriving
  have hapart : arriving.Pairwise fun a b => a.freeAt cfg ≤ b.sentAtNs := by
    rw [← harriving]
    exact hi.held.apart.sublist (List.filter_sublist.trans List.filter_sublist)
  have hmem : ∀ a ∈ arriving, fromNs ≤ a.freeAt cfg + cfg.propagationNs ∧
      a.freeAt cfg + cfg.propagationNs ≤ toNs := by
    intro a ha
    rw [← harriving] at ha
    exact of_decide_eq_true (List.mem_filter.mp ha).2
  refine (nanobitsOf_le hbps arriving.tail).trans (Int.mul_le_mul_of_nonneg_right ?_ (by omega))
  cases arriving with
  | nil =>
    rw [List.tail_nil, List.map_nil, List.sum_nil]
    omega
  | cons a rest =>
    have hfirst := (hmem a (List.mem_cons_self ..)).1
    have hlast : ∀ x ∈ a :: rest, x.freeAt cfg ≤ toNs - cfg.propagationNs := by
      intro x hx
      have := (hmem x hx).2
      omega
    have hspans := spans_le hapart hlast
    rw [List.tail_cons]
    omega

/-- At 80 bits a second two bytes take 200 ms. -/
def steadyTraffic : List Op :=
  [.offer (bytes [1, 2]) .normal 1000000000 false, .advance 200000000,
    .offer (bytes [3, 4]) .normal 1000000000 false, .advance 200000000,
    .offer (bytes [5, 6]) .urgent 2000000000 false, .advance 400000000]

theorem channel_capacity_steadyTraffic :
    ∃ t, run step (start {}) steadyTraffic = some t ∧
      t.frames.map Delivery.arrivesAtNs = [533000000, 733000000, 933000000] ∧
      nanobitsOf (t.arriving 533000000 933000000).tail = 400000000 * 80 ∧
      nanobitsOf (t.arriving 533000000 933000000).tail ≤ (933000000 - 533000000) * 80 := by
  have hrun : ∃ t, run step (start {}) steadyTraffic = some t ∧
      t.frames.map Delivery.arrivesAtNs = [533000000, 733000000, 933000000] ∧
      nanobitsOf (t.arriving 533000000 933000000).tail = 400000000 * 80 := ⟨_, rfl, by decide⟩
  obtain ⟨t, ht, harrives, hbits⟩ := hrun
  exact ⟨t, ht, harrives, hbits, channel_capacity (by decide) ht (by decide)⟩

/-! ### A slot for each vehicle (mw_acoustic_demo.cpp:35-48) -/

/-- One turn: a vehicle offers its heartbeat, to arrive within a cycle, and the slot goes by. -/
def turn (slotNs cycleNs : ℕ) (heartbeat : Bytes) (t : Traffic) (lossRoll : Bool) :
    Option Traffic :=
  (Checked.int64 (t.bearer.nowNs + cycleNs)).exact.bind fun deadline =>
    (step t (.offer heartbeat .normal deadline lossRoll)).bind fun t => step t (.advance slotNs)

/-- How many slots one frame takes. -/
def stride (cfg : Config) (slotNs size : ℕ) : ℕ :=
  max 1 ((airtime cfg size + slotNs - 1) / slotNs).toNat

theorem stride_pos (cfg : Config) (slotNs size : ℕ) : 0 < stride cfg slotNs size :=
  Nat.lt_of_lt_of_le Nat.one_pos (Nat.le_max_left ..)

theorem stride_le_iff {cfg : Config} {slotNs size k : ℕ} (hslot : 0 < slotNs) (hk : 0 < k) :
    stride cfg slotNs size ≤ k ↔ airtime cfg size ≤ k * slotNs := by
  have hquot : (airtime cfg size + slotNs - 1) / slotNs ≤ k ↔
      airtime cfg size ≤ k * slotNs := by
    rw [← Int.lt_add_one_iff, Int.ediv_lt_iff_lt_mul (by omega), Int.add_mul, Int.one_mul]
    omega
  unfold stride
  rw [← hquot]
  omega

/-- The frames of the turns that come when the channel is free: every `stride`-th one. -/
def turnsTaken (cfg : Config) (slotNs cycleNs : ℕ) (heartbeat : Bytes) (rolls : List Bool) :
    List Taken :=
  (rolls.zipIdx.filter fun p => decide (stride cfg slotNs heartbeat.length ∣ p.2)).map fun p =>
    ⟨heartbeat, .normal, p.2 * slotNs + cycleNs, p.2 * slotNs, p.1⟩

section Turns

variable {cfg : Config} {slotNs cycleNs : ℕ} {heartbeat : Bytes} {rolls : List Bool}

theorem turnsTaken_append (roll : Bool) :
    turnsTaken cfg slotNs cycleNs heartbeat (rolls ++ [roll]) =
      if stride cfg slotNs heartbeat.length ∣ rolls.length then
        turnsTaken cfg slotNs cycleNs heartbeat rolls ++
          [⟨heartbeat, .normal, rolls.length * slotNs + cycleNs, rolls.length * slotNs, roll⟩]
      else turnsTaken cfg slotNs cycleNs heartbeat rolls := by
  unfold turnsTaken
  rw [List.zipIdx_append, List.filter_append, List.map_append, Nat.zero_add, List.zipIdx_singleton,
    List.filter_singleton]
  split
  · case isTrue h => simp [h]
  · case isFalse h => simp [h]

theorem mem_turnsTaken {a : Taken} (h : a ∈ turnsTaken cfg slotNs cycleNs heartbeat rolls) :
    a.bytes = heartbeat ∧ ∃ k < rolls.length, stride cfg slotNs heartbeat.length ∣ k ∧
      a.sentAtNs = k * slotNs := by
  obtain ⟨⟨roll, k⟩, hp, rfl⟩ := List.mem_map.mp h
  obtain ⟨hmem, hdvd⟩ := List.mem_filter.mp hp
  exact ⟨rfl, k, List.snd_lt_of_mem_zipIdx hmem, of_decide_eq_true hdvd, rfl⟩

theorem turn_taken (cfg : Config) (slotNs cycleNs : ℕ) (heartbeat : Bytes) {k : ℕ}
    (hk : k < rolls.length) (hdvd : stride cfg slotNs heartbeat.length ∣ k) :
    ∃ a ∈ turnsTaken cfg slotNs cycleNs heartbeat rolls,
      a.bytes = heartbeat ∧ a.sentAtNs = k * slotNs := by
  refine ⟨_, List.mem_map.mpr ⟨(rolls[k], k), ?_, rfl⟩, rfl, rfl⟩
  refine List.mem_filter.mpr ⟨?_, decide_eq_true hdvd⟩
  exact List.mk_mem_zipIdx_iff_getElem?.mpr (List.getElem?_eq_getElem hk)

/-- At the start of a turn the frames taken before it leave the channel free, or not. -/
theorem turns_free_iff (hslot : 0 < slotNs) :
    (∃ a ∈ turnsTaken cfg slotNs cycleNs heartbeat rolls,
      a.Occupies cfg (rolls.length * slotNs)) ↔
    ¬ stride cfg slotNs heartbeat.length ∣ rolls.length := by
  have hoccupies {a : Taken} {k : ℕ} (hk : k < rolls.length) (hbytes : a.bytes = heartbeat)
      (hsent : a.sentAtNs = k * slotNs) : a.Occupies cfg (rolls.length * slotNs) ↔
        rolls.length - k < stride cfg slotNs heartbeat.length := by
    have hmono : (k : ℤ) * slotNs ≤ rolls.length * slotNs :=
      Int.mul_le_mul_of_nonneg_right (by omega) (by omega)
    have hspan : ((rolls.length - k : ℕ) : ℤ) * slotNs = rolls.length * slotNs - k * slotNs := by
      rw [Nat.cast_sub (Nat.le_of_lt hk), Int.sub_mul]
    rw [← Nat.not_le, stride_le_iff hslot (by omega), hspan]
    unfold Taken.Occupies Taken.freeAt
    rw [hbytes, hsent]
    omega
  constructor
  · rintro ⟨a, ha, hbusy⟩ hdvd
    obtain ⟨hbytes, k, hk, hdvdk, hsent⟩ := mem_turnsTaken ha
    have hle := Nat.le_of_dvd (by omega) (Nat.dvd_sub hdvd hdvdk)
    have hlt := (hoccupies hk hbytes hsent).mp hbusy
    omega
  · intro hdvd
    -- the last turn whose number is a multiple of the stride
    have hmod := Nat.mod_lt rolls.length (stride_pos cfg slotNs heartbeat.length)
    have hpos : 0 < rolls.length % stride cfg slotNs heartbeat.length :=
      Nat.pos_of_ne_zero fun h => hdvd (Nat.dvd_of_mod_eq_zero h)
    have hle := Nat.mod_le rolls.length (stride cfg slotNs heartbeat.length)
    have hlast : rolls.length - rolls.length % stride cfg slotNs heartbeat.length < rolls.length := by
      omega
    obtain ⟨a, ha, hbytes, hsent⟩ :=
      turn_taken cfg slotNs cycleNs heartbeat hlast (Nat.dvd_sub_mod rolls.length)
    exact ⟨a, ha, (hoccupies hlast hbytes hsent).mpr (by omega)⟩

theorem length_turnsTaken : (turnsTaken cfg slotNs cycleNs heartbeat rolls).length =
    (rolls.length + (stride cfg slotNs heartbeat.length - 1)) /
      stride cfg slotNs heartbeat.length := by
  have hpos := stride_pos cfg slotNs heartbeat.length
  induction rolls using List.reverseRecOn with
  | nil =>
    have hzero : (stride cfg slotNs heartbeat.length - 1) / stride cfg slotNs heartbeat.length = 0 :=
      Nat.div_eq_of_lt (by omega)
    rw [List.length_nil, Nat.zero_add, hzero]
    rfl
  | append_singleton rolls roll ih =>
    have hsucc : (rolls.length + (stride cfg slotNs heartbeat.length - 1) + 1) /
        stride cfg slotNs heartbeat.length = _ := Nat.succ_div
    have hdvd : stride cfg slotNs heartbeat.length ∣
        rolls.length + (stride cfg slotNs heartbeat.length - 1) + 1 ↔
          stride cfg slotNs heartbeat.length ∣ rolls.length := by
      rw [Nat.add_assoc, Nat.sub_add_cancel hpos]
      exact Nat.dvd_add_left (dvd_refl _)
    simp only [hdvd] at hsucc
    rw [turnsTaken_append, List.length_append, List.length_singleton, Nat.add_right_comm, hsucc,
      ← ih]
    split
    · rw [List.length_append, List.length_singleton]
    · rfl

end Turns

/-- The first thing that `offer` asks. The next is whether the frame is too late, and only a frame
that is neither finds the channel free or busy. -/
def TooLarge (cfg : Config) (size : ℕ) : Prop := cfg.maxFrameBytes < size

def TooLate (cfg : Config) (cycleNs size : ℕ) : Prop :=
  ¬ TooLarge cfg size ∧ (cycleNs : ℤ) < airtime cfg size + cfg.propagationNs

def Carried (cfg : Config) (cycleNs size : ℕ) : Prop :=
  ¬ TooLarge cfg size ∧ airtime cfg size + cfg.propagationNs ≤ cycleNs

instance (cfg : Config) (size : ℕ) : Decidable (TooLarge cfg size) :=
  inferInstanceAs (Decidable (cfg.maxFrameBytes < size))

instance (cfg : Config) (cycleNs size : ℕ) : Decidable (TooLate cfg cycleNs size) :=
  inferInstanceAs (Decidable (_ ∧ _))

instance (cfg : Config) (cycleNs size : ℕ) : Decidable (Carried cfg cycleNs size) :=
  inferInstanceAs (Decidable (_ ∧ _))

/-- After the turns so far. -/
structure TurnsInv (cfg : Config) (slotNs cycleNs : ℕ) (heartbeat : Bytes) (rolls : List Bool)
    (t : Traffic) : Prop where
  traffic : TrafficInv cfg t
  now : t.bearer.nowNs = rolls.length * slotNs
  taken : t.taken = if Carried cfg cycleNs heartbeat.length then
    turnsTaken cfg slotNs cycleNs heartbeat rolls else []
  undrained : t.drained = []
  offered : t.bearer.stats.offered = rolls.length
  size : t.bearer.stats.rejectedSize = if TooLarge cfg heartbeat.length then rolls.length else 0
  late : t.bearer.stats.rejectedLate =
    if TooLate cfg cycleNs heartbeat.length then rolls.length else 0

theorem accept_frame (b : Bearer) (d : Delivery) (freeAt : ℤ) (lossRoll : Bool) :
    (b.accept d freeAt lossRoll).nowNs = b.nowNs ∧
      (b.accept d freeAt lossRoll).stats.offered = b.stats.offered ∧
      (b.accept d freeAt lossRoll).stats.rejectedSize = b.stats.rejectedSize ∧
      (b.accept d freeAt lossRoll).stats.rejectedLate = b.stats.rejectedLate := by
  unfold Bearer.accept
  cases lossRoll <;> exact ⟨rfl, rfl, rfl, rfl⟩

theorem TurnsInv.taken_sub {cfg : Config} {slotNs cycleNs : ℕ} {heartbeat : Bytes}
    {rolls : List Bool} {t : Traffic} (hi : TurnsInv cfg slotNs cycleNs heartbeat rolls t)
    {a : Taken} (ha : a ∈ t.taken) : a ∈ turnsTaken cfg slotNs cycleNs heartbeat rolls := by
  rw [hi.taken] at ha
  split at ha
  · exact ha
  · exact absurd ha List.not_mem_nil

theorem TurnsInv.length_taken {cfg : Config} {slotNs cycleNs : ℕ} {heartbeat : Bytes}
    {rolls : List Bool} {t : Traffic} (hi : TurnsInv cfg slotNs cycleNs heartbeat rolls t) :
    t.taken.length = if Carried cfg cycleNs heartbeat.length then
      (rolls.length + (stride cfg slotNs heartbeat.length - 1)) /
        stride cfg slotNs heartbeat.length else 0 := by
  rw [hi.taken]
  split
  · exact length_turnsTaken
  · rfl

section Program

variable {cfg : Config} (hbps : 0 < cfg.bitsPerSecond) {slotNs cycleNs : ℕ} (hslot : 0 < slotNs)
  {heartbeat : Bytes}

include hbps hslot in
theorem turns_offer {rolls : List Bool} {t t' : Traffic} {roll : Bool}
    (hi : TurnsInv cfg slotNs cycleNs heartbeat rolls t)
    (h : step t (.offer heartbeat .normal (t.bearer.nowNs + cycleNs) roll) = some t') :
    t'.bearer.nowNs = t.bearer.nowNs ∧
      (t'.taken = if Carried cfg cycleNs heartbeat.length then
        turnsTaken cfg slotNs cycleNs heartbeat (rolls ++ [roll]) else []) ∧
      t'.bearer.stats.offered = rolls.length + 1 ∧
      (t'.bearer.stats.rejectedSize =
        if TooLarge cfg heartbeat.length then rolls.length + 1 else 0) ∧
      t'.bearer.stats.rejectedLate =
        if TooLate cfg cycleNs heartbeat.length then rolls.length + 1 else 0 := by
  obtain ⟨⟨accepted, b⟩, hb, rfl⟩ := Option.map_eq_some_iff.mp h
  have hcfg := hi.traffic.sameCfg
  have htaken := hi.taken
  have hsize := hi.size
  have hlate := hi.late
  have hoffered := congrArg (· + 1) hi.offered
  rcases offer_cases (by rwa [hcfg]) hb with ⟨hlarge, rfl, rfl⟩ | ⟨hlarge, hafter, rfl, rfl⟩ |
    ⟨hlarge, hbefore, hheld, rfl, rfl⟩ | ⟨hlarge, hbefore, hfree, rfl, rfl⟩
  · rw [hcfg] at hlarge
    have hL : TooLarge cfg heartbeat.length := hlarge
    have hC : ¬ Carried cfg cycleNs heartbeat.length := fun hC => hC.1 hL
    have hT : ¬ TooLate cfg cycleNs heartbeat.length := fun hT => hT.1 hL
    rw [if_neg hC] at htaken
    rw [if_pos hL] at hsize
    rw [if_neg hT] at hlate
    rw [if_neg hC, if_pos hL, if_neg hT]
    exact ⟨rfl, htaken, hoffered, congrArg (· + 1) hsize, hlate⟩
  · rw [hcfg] at hlarge hafter
    have hL : ¬ TooLarge cfg heartbeat.length := Nat.not_lt.mpr hlarge
    have hC : ¬ Carried cfg cycleNs heartbeat.length := fun hC => by
      have := hC.2
      omega
    have hT : TooLate cfg cycleNs heartbeat.length := ⟨hL, by omega⟩
    rw [if_neg hC] at htaken
    rw [if_neg hL] at hsize
    rw [if_pos hT] at hlate
    rw [if_neg hC, if_neg hL, if_pos hT]
    exact ⟨rfl, htaken, hoffered, hsize, congrArg (· + 1) hlate⟩
  all_goals
    rw [hcfg] at hlarge hbefore
    have hL : ¬ TooLarge cfg heartbeat.length := Nat.not_lt.mpr hlarge
    have hC : Carried cfg cycleNs heartbeat.length := ⟨hL, by omega⟩
    have hT : ¬ TooLate cfg cycleNs heartbeat.length := fun hT => by
      have := hT.2
      omega
    have hbusy := hi.traffic.held.busy_iff
    rw [if_pos hC] at htaken
    rw [htaken, hi.now, turns_free_iff hslot, ← hi.now] at hbusy
    rw [if_neg hL] at hsize
    rw [if_neg hT] at hlate
    rw [if_pos hC, if_neg hL, if_neg hT, turnsTaken_append]
  · rw [if_neg (hbusy.mp hheld)]
    exact ⟨rfl, htaken, hoffered, hsize, hlate⟩
  · have hdvd : stride cfg slotNs heartbeat.length ∣ rolls.length := by
      by_contra hnot
      have := hbusy.mpr hnot
      omega
    rw [if_pos hdvd, ← htaken, ← hi.now]
    obtain ⟨hnow', hoffered', hsize', hlate'⟩ := accept_frame
      { t.bearer with stats := { t.bearer.stats with offered := t.bearer.stats.offered + 1 } }
      ⟨heartbeat, .normal, t.bearer.nowNs,
        t.bearer.nowNs + airtime t.bearer.cfg heartbeat.length + t.bearer.cfg.propagationNs⟩
      (t.bearer.nowNs + airtime t.bearer.cfg heartbeat.length) roll
    exact ⟨hnow', rfl, hoffered'.trans hoffered, hsize'.trans hsize, hlate'.trans hlate⟩

include hbps hslot in
theorem turn_inv {rolls : List Bool} {t t' : Traffic} {roll : Bool}
    (hi : TurnsInv cfg slotNs cycleNs heartbeat rolls t)
    (h : turn slotNs cycleNs heartbeat t roll = some t') :
    TurnsInv cfg slotNs cycleNs heartbeat (rolls ++ [roll]) t' := by
  obtain ⟨deadline, hdeadline, h⟩ := Option.bind_eq_some_iff.mp h
  obtain ⟨m, hoffer, hadvance⟩ := Option.bind_eq_some_iff.mp h
  obtain ⟨rfl, -⟩ := Checked.exact_int64 hdeadline
  obtain ⟨hnow, htaken, hoffered, hsize, hlate⟩ := turns_offer hbps hslot hi hoffer
  have hm := step_inv hbps t _ m hi.traffic hoffer
  have ht' := step_inv hbps m _ t' hm hadvance
  have hdrained : m.drained = t.drained := by
    obtain ⟨_, _, rfl⟩ := Option.map_eq_some_iff.mp hoffer
    rfl
  obtain ⟨b, hb, rfl⟩ := Option.map_eq_some_iff.mp hadvance
  obtain rfl := advance_eq hb
  have hlength : (rolls ++ [roll]).length = rolls.length + 1 := by
    rw [List.length_append, List.length_singleton]
  refine ⟨ht', ?_, htaken, hdrained.trans hi.undrained, ?_, ?_, ?_⟩
  · have hcount : ((rolls ++ [roll]).length : ℤ) * slotNs = rolls.length * slotNs + slotNs := by
      rw [hlength, Nat.cast_add, Nat.cast_one, Int.add_mul, Int.one_mul]
    rw [hcount, ← hi.now, ← hnow]
  · rw [hlength]
    exact hoffered
  · rw [hlength]
    exact hsize
  · rw [hlength]
    exact hlate

include hbps hslot in
/-- A frame that is too large, or that cannot arrive within the cycle, is refused at every turn for
that reason; of the others exactly every `stride`-th turn gets the channel and the rest find it
busy, whatever the water does. When the last frame has had its time, what was taken has been
delivered, in turn, but for what was lost. -/
theorem slotted_turns {rolls : List Bool} {t t' : Traffic}
    (h : run (turn slotNs cycleNs heartbeat) (start cfg) rolls = some t) {wait : ℕ}
    (hwait : airtime cfg heartbeat.length + cfg.propagationNs ≤ slotNs + wait)
    (ht : step t (.advance wait) = some t') :
    (t'.taken = if Carried cfg cycleNs heartbeat.length then
        turnsTaken cfg slotNs cycleNs heartbeat rolls else []) ∧
      (t'.bearer.stats.accepted = if Carried cfg cycleNs heartbeat.length then
        (rolls.length + (stride cfg slotNs heartbeat.length - 1)) /
          stride cfg slotNs heartbeat.length else 0) ∧
      (t'.bearer.stats.rejectedSize =
        if TooLarge cfg heartbeat.length then rolls.length else 0) ∧
      (t'.bearer.stats.rejectedLate =
        if TooLate cfg cycleNs heartbeat.length then rolls.length else 0) ∧
      t'.bearer.stats.accepted + t'.bearer.stats.rejectedBusy + t'.bearer.stats.rejectedSize +
        t'.bearer.stats.rejectedLate = rolls.length ∧
      t'.bearer.delivered = t'.survivors.map (Taken.delivery cfg) ∧
      t'.bearer.delivered.length + t'.bearer.stats.lost = t'.bearer.stats.accepted := by
  have hstart : TurnsInv cfg slotNs cycleNs heartbeat [] (start cfg) :=
    ⟨start_inv cfg, (Int.zero_mul _).symm, (ite_self []).symm, rfl, rfl, (ite_self 0).symm,
      (ite_self 0).symm⟩
  have hi := run_history (fun _ _ _ _ => turn_inv hbps hslot) hstart h
  have hi' := step_inv hbps t _ t' hi.traffic ht
  obtain ⟨b, hb, rfl⟩ := Option.map_eq_some_iff.mp ht
  have hflying := (advance_inv hbps hi.traffic hb).2
  obtain rfl := advance_eq hb
  have hlanded : DelayLine.waiting Delivery.arrivesAtNs (t.bearer.nowNs + wait)
      t.bearer.inFlight = [] := by
    rw [List.eq_nil_iff_forall_not_mem]
    intro d hd
    have hlate := hflying d hd
    have hmem : d ∈ t.frames := List.mem_append_right _ (DelayLine.mem_waiting.mp hd).1
    rw [hi.traffic.frames] at hmem
    obtain ⟨a, ha, rfl⟩ := List.mem_map.mp hmem
    obtain ⟨hbytes, k, hk, -, hsent⟩ := mem_turnsTaken (hi.taken_sub (List.mem_filter.mp ha).1)
    have hturn : ((k : ℤ) + 1) * slotNs ≤ rolls.length * slotNs :=
      Int.mul_le_mul_of_nonneg_right (by omega) (by omega)
    rw [Int.add_mul, Int.one_mul] at hturn
    have hnow := hi.now
    simp only [Taken.delivery, Taken.freeAt, hbytes, hsent] at hlate
    omega
  have hframes := hi'.frames
  have hcounted := hi'.counted.frames
  have hoffers := hi'.counted.offers
  have haccepted := hi'.taken
  have hoffered := hi.offered
  simp only [Traffic.frames, hi.undrained, hlanded, List.nil_append, List.append_nil] at hframes
  simp only [hi.undrained, hlanded, List.length_nil] at hcounted
  refine ⟨hi.taken, ?_, hi.size, hi.late, ?_, hframes, ?_⟩
  · rw [← hi.length_taken]
    exact haccepted
  · dsimp only at hoffers ⊢
    omega
  · dsimp only at hcounted ⊢
    omega

end Program

/-- At 80 bits a second seven bytes take 700 ms, which is two slots; the third frame is lost. Fifty
bytes take five seconds and are late at every turn. -/
theorem slotted_turns_twoFrames :
    (∃ t t', run (turn 533000000 5330000000 (bytes (List.replicate 7 72))) (start {})
        [false, true, false, false, true] = some t ∧
      step t (.advance 1000000000) = some t' ∧ t'.bearer.stats.accepted = 3 ∧
      t'.bearer.stats.accepted + t'.bearer.stats.rejectedBusy + t'.bearer.stats.rejectedSize +
        t'.bearer.stats.rejectedLate = 5 ∧
      t'.bearer.delivered.map Delivery.sentAtNs = [0, 1066000000] ∧
      t'.bearer.delivered.length + t'.bearer.stats.lost = t'.bearer.stats.accepted) ∧
    ∃ t t', run (turn 533000000 5330000000 (bytes (List.replicate 50 72))) (start {})
        [false, true, false] = some t ∧
      step t (.advance 5000000000) = some t' ∧ t'.taken = [] ∧
      t'.bearer.stats.rejectedLate = 3 := by
  constructor
  · have hrun : ∃ t t', run (turn 533000000 5330000000 (bytes (List.replicate 7 72))) (start {})
          [false, true, false, false, true] = some t ∧
        step t (.advance 1000000000) = some t' ∧ t'.bearer.stats.accepted = 3 ∧
        t'.bearer.delivered.map Delivery.sentAtNs = [0, 1066000000] := ⟨_, _, rfl, rfl, by decide⟩
    obtain ⟨t, t', ht, ht', haccepted, hsent⟩ := hrun
    obtain ⟨-, -, -, -, hall, -, hlost⟩ := slotted_turns (by decide) (by decide) ht (by decide) ht'
    exact ⟨t, t', ht, ht', haccepted, hall, hsent, hlost⟩
  · have hrun : ∃ t t', run (turn 533000000 5330000000 (bytes (List.replicate 50 72))) (start {})
          [false, true, false] = some t ∧ step t (.advance 5000000000) = some t' := ⟨_, _, rfl, rfl⟩
    obtain ⟨t, t', ht, ht'⟩ := hrun
    obtain ⟨htaken, -, -, hlate, -⟩ := slotted_turns (by decide) (by decide) ht (by decide) ht'
    exact ⟨t, t', ht, ht', htaken, hlate⟩

end AuvMiddleware.Mw.Loopback
