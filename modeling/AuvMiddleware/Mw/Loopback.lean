import AuvMiddleware.Lib.Bytes
import AuvMiddleware.Lib.DelayLine
import AuvMiddleware.Lib.Int64Ops
import Mathlib.Order.Bounds.Basic

/-!
# The loopback acoustic bearer (acoustic_loopback.cpp)

The clock is the bearer's own and moves by `advance`. What the water does to an accepted frame
(`loss_roll_(rng_)`) is an outcome from outside. Arithmetic on `int64_t` remembers an overflow.
-/

namespace AuvMiddleware.Mw

inductive Priority where
  | bulk
  | normal
  | urgent
  deriving DecidableEq

structure Delivery where
  bytes : Bytes
  priority : Priority
  sentAtNs : ℤ
  arrivesAtNs : ℤ
  deriving DecidableEq

namespace Loopback

structure Config where
  propagationNs : ℤ := 333000000
  bitsPerSecond : ℤ := 80
  maxFrameBytes : ℕ := 64

structure Stats where
  offered : ℕ := 0
  rejectedSize : ℕ := 0
  rejectedLate : ℕ := 0
  rejectedBusy : ℕ := 0
  accepted : ℕ := 0
  lost : ℕ := 0

structure Bearer where
  cfg : Config
  nowNs : ℤ := 0
  channelFreeAt : ℤ := 0
  stats : Stats := {}
  inFlight : List Delivery := []
  delivered : List Delivery := []

def ceilDiv (numerator denominator : ℤ) : Checked ℤ := do
  let sum ← Checked.int64 (numerator + denominator)
  let top ← Checked.int64 (sum - 1)
  Checked.div top denominator

def serializationNs (cfg : Config) (size : ℕ) : Checked ℤ := do
  let size ← Checked.int64 size
  let bits ← Checked.int64 (size * 8)
  let numerator ← Checked.int64 (bits * 1000000000)
  ceilDiv numerator cfg.bitsPerSecond

/-- The frame takes the channel; `lossRoll` says whether the water loses it. -/
def Bearer.accept (b : Bearer) (d : Delivery) (channelFreeAt : ℤ) (lossRoll : Bool) : Bearer :=
  let b := { b with
    channelFreeAt := channelFreeAt
    stats := { b.stats with accepted := b.stats.accepted + 1 } }
  if lossRoll then
    { b with stats := { b.stats with lost := b.stats.lost + 1 } }
  else
    { b with inFlight := b.inFlight ++ [d] }

/-- `LoopbackBearer::offer` (`acoustic_loopback.cpp:25-69`). -/
def Bearer.offer (b : Bearer) (bytes : Bytes) (priority : Priority) (deadline : ℤ)
    (lossRoll : Bool) : Checked (Bool × Bearer) :=
  let b := { b with stats := { b.stats with offered := b.stats.offered + 1 } }
  if b.cfg.maxFrameBytes < bytes.length then
    pure (false, { b with stats := { b.stats with rejectedSize := b.stats.rejectedSize + 1 } })
  else do
    let serialization ← serializationNs b.cfg bytes.length
    let sent ← Checked.int64 (b.nowNs + serialization)
    let arrival ← Checked.int64 (sent + b.cfg.propagationNs)
    if deadline < arrival then
      pure (false, { b with stats := { b.stats with rejectedLate := b.stats.rejectedLate + 1 } })
    else if b.nowNs < b.channelFreeAt then
      pure (false, { b with stats := { b.stats with rejectedBusy := b.stats.rejectedBusy + 1 } })
    else do
      let freeAt ← Checked.int64 (b.nowNs + serialization)
      pure (true, b.accept ⟨bytes, priority, b.nowNs, arrival⟩ freeAt lossRoll)

/-- `LoopbackBearer::advance` (`acoustic_loopback.cpp:71-80`): the stable partition keeps the
frames still in flight in front and moves the others out, both in order. -/
def Bearer.advance (b : Bearer) (ns : ℤ) : Checked Bearer := do
  let now ← Checked.int64 (b.nowNs + ns)
  let ready := fun d : Delivery => decide (d.arrivesAtNs ≤ now)
  let (flying, arrived) := b.inFlight.partition fun d => !ready d
  pure { b with nowNs := now, inFlight := flying, delivered := b.delivered ++ arrived }

def Bearer.drain (b : Bearer) : Bearer := { b with delivered := [] }

/-! ### How long a frame holds the channel -/

/-- The least whole number of nanoseconds in which the channel carries so many bytes. -/
def IsAirtime (cfg : Config) (size : ℕ) (ns : ℤ) : Prop :=
  IsLeast {s : ℤ | 8 * (size : ℤ) * 10 ^ 9 ≤ s * cfg.bitsPerSecond} ns

def airtime (cfg : Config) (size : ℕ) : ℤ :=
  (8 * (size : ℤ) * 10 ^ 9 + cfg.bitsPerSecond - 1) / cfg.bitsPerSecond

theorem airtime_isAirtime {cfg : Config} (h : 0 < cfg.bitsPerSecond) (size : ℕ) :
    IsAirtime cfg size (airtime cfg size) := by
  constructor
  · have hlt := Int.lt_ediv_add_one_mul_self (8 * (size : ℤ) * 10 ^ 9 + cfg.bitsPerSecond - 1) h
    rw [Int.add_mul, Int.one_mul] at hlt
    show 8 * (size : ℤ) * 10 ^ 9 ≤ airtime cfg size * cfg.bitsPerSecond
    unfold airtime
    omega
  · intro s (hs : 8 * (size : ℤ) * 10 ^ 9 ≤ s * cfg.bitsPerSecond)
    refine Int.le_of_lt_add_one (Int.ediv_lt_of_lt_mul h ?_)
    rw [Int.add_mul, Int.one_mul]
    omega

theorem airtime_nonneg {cfg : Config} (h : 0 < cfg.bitsPerSecond) (size : ℕ) :
    0 ≤ airtime cfg size :=
  Int.ediv_nonneg (by omega) (by omega)

theorem serializationNs_exact {cfg : Config} (h : 0 < cfg.bitsPerSecond) {size : ℕ} {ns : ℤ}
    (hs : (serializationNs cfg size).exact = some ns) : ns = airtime cfg size := by
  obtain ⟨n, hn, hs⟩ := Checked.exact_bind_eq_some hs
  obtain ⟨bits, hbits, hs⟩ := Checked.exact_bind_eq_some hs
  obtain ⟨numerator, hnum, hs⟩ := Checked.exact_bind_eq_some hs
  obtain ⟨sum, hsum, hs⟩ := Checked.exact_bind_eq_some hs
  obtain ⟨top, htop, hs⟩ := Checked.exact_bind_eq_some hs
  obtain ⟨rfl, -⟩ := Checked.exact_int64 hn
  obtain ⟨rfl, -⟩ := Checked.exact_int64 hbits
  obtain ⟨rfl, -⟩ := Checked.exact_int64 hnum
  obtain ⟨rfl, -⟩ := Checked.exact_int64 hsum
  obtain ⟨rfl, -⟩ := Checked.exact_int64 htop
  obtain ⟨rfl, -⟩ := Checked.exact_div hs
  -- the dividend is not negative, so truncation is the floor
  rw [Int.tdiv_eq_ediv_of_nonneg (by omega)]
  have hbits : (size : ℤ) * 8 * 1000000000 = 8 * (size : ℤ) * 10 ^ 9 := by omega
  unfold airtime
  rw [hbits]

/-! ### What an operation does when nothing overflows -/

theorem offer_cases {b b' : Bearer} {bytes : Bytes} {priority : Priority} {deadline : ℤ}
    {lossRoll r : Bool} (h : 0 < b.cfg.bitsPerSecond)
    (ho : (b.offer bytes priority deadline lossRoll).exact = some (r, b')) :
    (b.cfg.maxFrameBytes < bytes.length ∧ r = false ∧
      b' = { b with stats := { b.stats with
        offered := b.stats.offered + 1, rejectedSize := b.stats.rejectedSize + 1 } }) ∨
    (bytes.length ≤ b.cfg.maxFrameBytes ∧
      deadline < b.nowNs + airtime b.cfg bytes.length + b.cfg.propagationNs ∧ r = false ∧
      b' = { b with stats := { b.stats with
        offered := b.stats.offered + 1, rejectedLate := b.stats.rejectedLate + 1 } }) ∨
    (bytes.length ≤ b.cfg.maxFrameBytes ∧
      b.nowNs + airtime b.cfg bytes.length + b.cfg.propagationNs ≤ deadline ∧
      b.nowNs < b.channelFreeAt ∧ r = false ∧
      b' = { b with stats := { b.stats with
        offered := b.stats.offered + 1, rejectedBusy := b.stats.rejectedBusy + 1 } }) ∨
    (bytes.length ≤ b.cfg.maxFrameBytes ∧
      b.nowNs + airtime b.cfg bytes.length + b.cfg.propagationNs ≤ deadline ∧
      b.channelFreeAt ≤ b.nowNs ∧ r = true ∧
      b' = ({ b with stats := { b.stats with offered := b.stats.offered + 1 } } : Bearer).accept
        ⟨bytes, priority, b.nowNs, b.nowNs + airtime b.cfg bytes.length + b.cfg.propagationNs⟩
        (b.nowNs + airtime b.cfg bytes.length) lossRoll) := by
  unfold Bearer.offer at ho
  dsimp only at ho
  split at ho
  · case isTrue hsize =>
      cases ho
      exact .inl ⟨hsize, rfl, rfl⟩
  · case isFalse hsize =>
      obtain ⟨ns, hns, ho⟩ := Checked.exact_bind_eq_some ho
      obtain ⟨sent, hsent, ho⟩ := Checked.exact_bind_eq_some ho
      obtain ⟨arrival, harrival, ho⟩ := Checked.exact_bind_eq_some ho
      obtain rfl := serializationNs_exact h hns
      obtain ⟨rfl, -⟩ := Checked.exact_int64 hsent
      obtain ⟨rfl, -⟩ := Checked.exact_int64 harrival
      have hfits := Nat.le_of_not_lt hsize
      split at ho
      · case isTrue hlate =>
          cases ho
          exact .inr (.inl ⟨hfits, hlate, rfl, rfl⟩)
      · case isFalse hlate =>
          have htime := Int.not_lt.mp hlate
          split at ho
          · case isTrue hbusy =>
              cases ho
              exact .inr (.inr (.inl ⟨hfits, htime, hbusy, rfl, rfl⟩))
          · case isFalse hbusy =>
              obtain ⟨freeAt, hfree, ho⟩ := Checked.exact_bind_eq_some ho
              obtain ⟨rfl, -⟩ := Checked.exact_int64 hfree
              cases ho
              exact .inr (.inr (.inr ⟨hfits, htime, Int.not_lt.mp hbusy, rfl, rfl⟩))

theorem advance_eq {b b' : Bearer} {ns : ℤ} (h : (b.advance ns).exact = some b') :
    b' = { b with
      nowNs := b.nowNs + ns
      inFlight := DelayLine.waiting Delivery.arrivesAtNs (b.nowNs + ns) b.inFlight
      delivered := b.delivered ++
        DelayLine.released Delivery.arrivesAtNs (b.nowNs + ns) b.inFlight } := by
  obtain ⟨now, hnow, h⟩ := Checked.exact_bind_eq_some h
  obtain ⟨rfl, -⟩ := Checked.exact_int64 hnow
  simp only [List.partition_eq_filter_filter, Checked.exact_pure, Option.some.injEq] at h
  rw [← h]
  simp only [DelayLine.waiting, DelayLine.released, Function.comp_def, Bool.not_not]

end Loopback
end AuvMiddleware.Mw
