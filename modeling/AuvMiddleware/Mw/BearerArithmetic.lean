import AuvMiddleware.Mw.SeededBearer
import Mathlib.Data.Rat.Floor
import Mathlib.Tactic.Linarith

/-!
# When the bearer's arithmetic is safe (acoustic_loopback.cpp:9-36)

The constructor takes any `Config`, so the rate may be zero or negative, and a frame may hold
the channel longer than `int64_t` counts.
-/

namespace AuvMiddleware.Mw.Loopback
open Runs

def Config.given (propagationNs bitsPerSecond : Int64) (maxFrameBytes : ℕ) : Config :=
  ⟨propagationNs.toInt, bitsPerSecond.toInt, maxFrameBytes⟩

def nanobits (size : ℕ) : ℤ := 8 * (size : ℤ) * 10 ^ 9

def exactAirtime (cfg : Config) (size : ℕ) : ℤ :=
  ⌈(nanobits size : ℚ) / (cfg.bitsPerSecond : ℚ)⌉

/-- No undefined arithmetic in an offer of a frame that fits, and the right serialisation time. -/
def OfferSafe {R : Type} (lossRoll : R → Bool × R) (s : Seeded R) : BearerCall → Prop
  | .offer bytes priority deadline => bytes.length ≤ s.bearer.cfg.maxFrameBytes →
    (s.offer lossRoll bytes priority deadline).overflow = false ∧
      0 ≤ (serializationNs s.bearer.cfg bytes.length).value ∧
      (serializationNs s.bearer.cfg bytes.length).value =
        exactAirtime s.bearer.cfg bytes.length
  | .advance _ | .drain => True

/-- The rate counts a frame of this size. -/
def RateFits (cfg : Config) (size : ℕ) : Prop :=
  (0 < cfg.bitsPerSecond ∧ nanobits size + cfg.bitsPerSecond < 2 ^ 63) ∨
    (cfg.bitsPerSecond < 0 ∧ 0 < nanobits size ∧ nanobits size < -cfg.bitsPerSecond)

def OfferFits {R : Type} (s : Seeded R) : BearerCall → Prop
  | .offer bytes _ _ => bytes.length ≤ s.bearer.cfg.maxFrameBytes →
    RateFits s.bearer.cfg bytes.length ∧
      InInt64 (s.bearer.nowNs + exactAirtime s.bearer.cfg bytes.length) ∧
      InInt64 (s.bearer.nowNs + exactAirtime s.bearer.cfg bytes.length +
        s.bearer.cfg.propagationNs)
  | .advance _ | .drain => True

/-! ### The exact serialisation time -/

theorem nanobits_nonneg (size : ℕ) : 0 ≤ nanobits size := by
  unfold nanobits
  omega

theorem exactAirtime_of_pos {cfg : Config} (h : 0 < cfg.bitsPerSecond) (size : ℕ) :
    exactAirtime cfg size = airtime cfg size := by
  have hq : (0 : ℚ) < cfg.bitsPerSecond := by exact_mod_cast h
  obtain ⟨hmem, hleast⟩ := airtime_isAirtime h size
  refine Int.le_antisymm (Int.ceil_le.mpr ?_) (hleast ?_)
  · rw [div_le_iff₀ hq]
    exact_mod_cast hmem
  · have hceil : (nanobits size : ℚ) ≤ exactAirtime cfg size * cfg.bitsPerSecond :=
      (div_le_iff₀ hq).mp (Int.le_ceil _)
    show nanobits size ≤ exactAirtime cfg size * cfg.bitsPerSecond
    exact_mod_cast hceil

theorem exactAirtime_nonpos {cfg : Config} (h : cfg.bitsPerSecond < 0) (size : ℕ) :
    exactAirtime cfg size ≤ 0 := by
  have hnum : (0 : ℚ) ≤ nanobits size := by exact_mod_cast nanobits_nonneg size
  have hq : (cfg.bitsPerSecond : ℚ) < 0 := by exact_mod_cast h
  refine Int.ceil_le.mpr ?_
  rw [Int.cast_zero]
  exact div_nonpos_of_nonneg_of_nonpos hnum (le_of_lt hq)

theorem exactAirtime_eq_zero {cfg : Config} (h : cfg.bitsPerSecond < 0) (size : ℕ) :
    exactAirtime cfg size = 0 ↔ nanobits size < -cfg.bitsPerSecond := by
  have hq : (cfg.bitsPerSecond : ℚ) < 0 := by exact_mod_cast h
  have hle : (nanobits size : ℚ) / (cfg.bitsPerSecond : ℚ) ≤ 0 := by
    have := Int.ceil_le.mp (exactAirtime_nonpos h size)
    rwa [Int.cast_zero] at this
  unfold exactAirtime
  rw [Int.ceil_eq_zero_iff, Set.mem_Ioc, lt_div_iff_of_neg hq, neg_one_mul]
  constructor
  · intro hlt
    exact_mod_cast hlt.1
  · intro hlt
    exact ⟨by exact_mod_cast hlt, hle⟩

/-! ### The computed one -/

/-- What is left to check of `ceil_div` once the frame and its bits are counted. -/
theorem serializationNs_exact_iff {cfg : Config} {size : ℕ} {ns : ℤ} :
    (serializationNs cfg size).exact = some ns ↔
      InInt64 (nanobits size) ∧ InInt64 (nanobits size + cfg.bitsPerSecond) ∧
        InInt64 (nanobits size + cfg.bitsPerSecond - 1) ∧ cfg.bitsPerSecond ≠ 0 ∧
        InInt64 ns ∧ ns = (nanobits size + cfg.bitsPerSecond - 1).tdiv cfg.bitsPerSecond := by
  have hbits : (size : ℤ) * 8 * 1000000000 = nanobits size := by
    unfold nanobits
    omega
  constructor
  · intro h
    obtain ⟨n, hn, h⟩ := Checked.exact_bind_eq_some h
    obtain ⟨bits, hn8, h⟩ := Checked.exact_bind_eq_some h
    obtain ⟨numerator, hnum, h⟩ := Checked.exact_bind_eq_some h
    obtain ⟨sum, hsum, h⟩ := Checked.exact_bind_eq_some h
    obtain ⟨top, htop, h⟩ := Checked.exact_bind_eq_some h
    obtain ⟨rfl, -⟩ := Checked.exact_int64 hn
    obtain ⟨rfl, -⟩ := Checked.exact_int64 hn8
    obtain ⟨rfl, hnumIn⟩ := Checked.exact_int64 hnum
    obtain ⟨rfl, hsumIn⟩ := Checked.exact_int64 hsum
    obtain ⟨rfl, htopIn⟩ := Checked.exact_int64 htop
    rw [hbits] at hnumIn hsumIn htopIn h
    exact ⟨hnumIn, hsumIn, htopIn, Checked.exact_div_iff.mp h⟩
  · intro ⟨hnum, hsum, htop, h⟩
    have hn : InInt64 size := by
      unfold InInt64 nanobits at *
      omega
    have hn8 : InInt64 ((size : ℤ) * 8) := by
      unfold InInt64 nanobits at *
      omega
    unfold serializationNs ceilDiv
    simp only [Checked.int64_of_in hn, Checked.pure_bind', Checked.int64_of_in hn8, hbits,
      Checked.int64_of_in hnum, Checked.int64_of_in hsum, Checked.int64_of_in htop]
    exact Checked.exact_div_iff.mpr h

/-- A negative divisor truncates to zero what does not reach it. -/
theorem tdiv_eq_zero_of_neg {n b : ℤ} (hb : b < 0) (hlt : n < -b) :
    (n + b - 1).tdiv b = 0 ↔ 1 < n := by
  have hflip : (n + b - 1).tdiv b = (1 - n - b) / -b := by
    rw [← Int.neg_tdiv_neg, show -(n + b - 1) = 1 - n - b by omega]
    exact Int.tdiv_eq_ediv_of_nonneg (by omega)
  rw [hflip]
  constructor
  · intro hzero
    by_contra hle
    have hone : 1 ≤ (1 - n - b) / -b := Int.le_ediv_of_mul_le (by omega) (by omega)
    omega
  · intro h
    exact Int.ediv_eq_zero_of_lt (by omega) (by omega)

theorem serializationNs_of_fits {cfg : Config} {size : ℕ} (hrate : InInt64 cfg.bitsPerSecond)
    (h : RateFits cfg size) :
    (serializationNs cfg size).exact = some (exactAirtime cfg size) ∧
      0 ≤ exactAirtime cfg size := by
  have hnum := nanobits_nonneg size
  unfold InInt64 at hrate
  rcases h with ⟨hpos, hlt⟩ | ⟨hneg, hframe, hlt⟩
  · rw [exactAirtime_of_pos hpos]
    have hnonneg := airtime_nonneg hpos size
    have hle : airtime cfg size ≤ nanobits size + cfg.bitsPerSecond - 1 :=
      Int.ediv_le_self _ (by omega)
    refine ⟨serializationNs_exact_iff.mpr ?_, hnonneg⟩
    unfold InInt64
    refine ⟨by omega, by omega, by omega, by omega, by omega, ?_⟩
    rw [Int.tdiv_eq_ediv_of_nonneg (by omega)]
    rfl
  · rw [(exactAirtime_eq_zero hneg size).mpr hlt]
    refine ⟨serializationNs_exact_iff.mpr ?_, Int.le_refl 0⟩
    have hbig : 1 < nanobits size := by
      unfold nanobits at *
      omega
    unfold InInt64
    refine ⟨by omega, by omega, by omega, by omega, by omega, ?_⟩
    exact ((tdiv_eq_zero_of_neg hneg hlt).mpr hbig).symm

theorem rateFits_of_exact {cfg : Config} {size : ℕ}
    (h : (serializationNs cfg size).exact = some (exactAirtime cfg size))
    (hnonneg : 0 ≤ exactAirtime cfg size) : RateFits cfg size := by
  obtain ⟨-, hsum, -, hne, -, hdiv⟩ := serializationNs_exact_iff.mp h
  rcases lt_or_gt_of_ne hne with hneg | hpos
  · -- the true time is not positive, so both it and the computed one are zero
    have hnonpos := exactAirtime_nonpos hneg size
    have hzero : exactAirtime cfg size = 0 := by omega
    have hlt := (exactAirtime_eq_zero hneg size).mp hzero
    have hbig := (tdiv_eq_zero_of_neg hneg hlt).mp (by rw [← hdiv, hzero])
    exact .inr ⟨hneg, by omega, hlt⟩
  · exact .inl ⟨hpos, hsum.2⟩

/-! ### The whole offer -/

variable {R : Type} (lossRoll : R → Bool × R)

theorem offer_overflow {s : Seeded R} {bytes : Bytes} (priority : Priority) (deadline : ℤ)
    (hsize : bytes.length ≤ s.bearer.cfg.maxFrameBytes) {ns : ℤ}
    (hns : (serializationNs s.bearer.cfg bytes.length).exact = some ns) :
    (s.offer lossRoll bytes priority deadline).overflow = false ↔
      InInt64 (s.bearer.nowNs + ns) ∧
        InInt64 (s.bearer.nowNs + ns + s.bearer.cfg.propagationNs) := by
  unfold Seeded.offer
  dsimp only
  rw [if_neg (Nat.not_lt.mpr hsize), Checked.eq_pure_of_exact hns, Checked.pure_bind']
  by_cases hsent : InInt64 (s.bearer.nowNs + ns)
  · rw [Checked.int64_of_in hsent, Checked.pure_bind']
    by_cases harrival : InInt64 (s.bearer.nowNs + ns + s.bearer.cfg.propagationNs)
    · rw [Checked.int64_of_in harrival, Checked.pure_bind']
      refine iff_of_true ?_ ⟨hsent, harrival⟩
      split
      · rfl
      · split
        · rfl
        · rfl
    · simp [bind, Checked.int64, harrival]
  · simp [bind, Checked.int64, hsent]

theorem offer_safe_iff {s : Seeded R} (hrate : InInt64 s.bearer.cfg.bitsPerSecond)
    (c : BearerCall) : OfferSafe lossRoll s c ↔ OfferFits s c := by
  cases c with
  | offer bytes priority deadline =>
    refine forall_congr' fun hsize => ?_
    constructor
    · intro ⟨hflag, hnonneg, hvalue⟩
      have hserial : (serializationNs s.bearer.cfg bytes.length).overflow = false := by
        unfold Seeded.offer at hflag
        dsimp only at hflag
        rw [if_neg (Nat.not_lt.mpr hsize), Checked.overflow_bind] at hflag
        exact (Bool.or_eq_false_iff.mp hflag).1
      have hexact := Checked.exact_eq_some_iff.mpr ⟨hserial, hvalue⟩
      rw [hvalue] at hnonneg
      exact ⟨rateFits_of_exact hexact hnonneg,
        (offer_overflow lossRoll priority deadline hsize hexact).mp hflag⟩
    · intro ⟨hfits, hsent, harrival⟩
      obtain ⟨hexact, hnonneg⟩ := serializationNs_of_fits hrate hfits
      have hvalue := (Checked.exact_eq_some_iff.mp hexact).2
      exact ⟨(offer_overflow lossRoll priority deadline hsize hexact).mpr ⟨hsent, harrival⟩,
        hvalue ▸ hnonneg, hvalue⟩
  | advance ns => exact Iff.rfl
  | drain => exact Iff.rfl

theorem call_cfg (s : Seeded R) (c : BearerCall) :
    (s.call lossRoll c).value.2.bearer.cfg = s.bearer.cfg := by
  cases c with
  | offer bytes priority deadline =>
    unfold Seeded.call Seeded.offer
    dsimp only [bind, pure]
    split
    · rfl
    · dsimp only
      split
      · rfl
      · split
        · rfl
        · cases (lossRoll s.rng).1 <;> rfl
  | advance ns => rfl
  | drain => rfl

theorem step_cfg {s s' : Seeded R} {c : BearerCall} (h : s.step lossRoll c = some s') :
    s'.bearer.cfg = s.bearer.cfg := by
  obtain ⟨r, hr, rfl⟩ := Option.map_eq_some_iff.mp h
  rw [← (Checked.exact_eq_some_iff.mp hr).2]
  exact call_cfg lossRoll s c

/-- In every run, and whatever the configuration: the offers are safe exactly when each is of a
frame whose size the rate counts, made at a time from which its arrival can still be written. -/
theorem offers_safe_iff_fits (propagationNs bitsPerSecond : Int64) (maxFrameBytes : ℕ) (rng : R)
    (calls : List BearerCall) :
    let start := Seeded.start (.given propagationNs bitsPerSecond maxFrameBytes) rng
    Throughout (Seeded.step lossRoll) (OfferSafe lossRoll) start calls ↔
      Throughout (Seeded.step lossRoll) OfferFits start calls := by
  refine throughout_congr (fun s => InInt64 s.bearer.cfg.bitsPerSecond) ?_ ?_
    (fun c _ => trivial) ?_
  · intro s c s' _ hi _ h
    rwa [step_cfg lossRoll h]
  · intro s c _ hi
    exact offer_safe_iff lossRoll hi c
  · exact ⟨bitsPerSecond.le_toInt, bitsPerSecond.toInt_lt⟩

/-- A rate of zero is accepted, and the first frame divides by it. -/
theorem offers_safe_zeroRate :
    ¬ Throughout (Seeded.step everyThird) (OfferSafe everyThird)
      (.start (.given 333000000 0 64) 0) [.offer (bytes [1]) .normal 1000000000] := by
  intro h
  exact absurd (h.1 (by decide)).1 (by decide)

end AuvMiddleware.Mw.Loopback
