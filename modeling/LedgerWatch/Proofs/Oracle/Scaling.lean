import LedgerWatch.Oracle
import Mathlib.Data.Rat.Floor
import Mathlib.Tactic.Linarith
import Mathlib.Tactic.NormNum
import Mathlib.Tactic.Positivity
import Mathlib.Tactic.WLOG

/-!
# How exactly feed prices are scaled

A feed gives a price as a whole number and a power of ten, and a source may quote a basket of
many units. The conversion truncates the price of one unit to millionths and multiplies
afterwards, so what it drops of one unit is missing as often as the basket has units
(`priceData?_scales`). The result is the truncation of the exact price of the basket exactly if
these losses stay below one millionth together: always for feeds that quote one unit and for
exponents from -6 up, and not in general (`basket_price_short`).
-/

namespace LedgerWatch.Oracle

/-! ## Truncation toward zero -/

def towardZero (x : ℚ) : Int := if 0 ≤ x then ⌊x⌋ else ⌈x⌉

/-- What truncation drops. -/
def dropped (x : ℚ) : ℚ := x - towardZero x

theorem towardZero_intCast (n : Int) : towardZero n = n := by
  simp [towardZero]

theorem towardZero_neg (x : ℚ) : towardZero (-x) = -towardZero x := by
  rcases lt_trichotomy x 0 with negative | rfl | positive
  · have left : 0 ≤ -x := by linarith
    rw [towardZero, if_pos left, towardZero, if_neg (not_le.2 negative), Int.floor_neg]
  · rfl
  · have left : ¬ 0 ≤ -x := by linarith
    rw [towardZero, if_neg left, towardZero, if_pos positive.le, Int.ceil_neg]

theorem dropped_neg (x : ℚ) : dropped (-x) = -dropped x := by
  rw [dropped, towardZero_neg, dropped]
  push_cast
  ring

theorem dropped_eq_fract {x : ℚ} (natural : 0 ≤ x) : dropped x = Int.fract x := by
  rw [dropped, towardZero, if_pos natural, Int.self_sub_floor]

/-- Truncated division is the truncation of the quotient. -/
theorem towardZero_div (n : Int) (d : Nat) : towardZero ((n : ℚ) / d) = n.tdiv d := by
  wlog natural : 0 ≤ n generalizing n with upward
  · have mirrored := upward (-n) (by omega)
    rw [Int.cast_neg, neg_div, towardZero_neg, Int.neg_tdiv] at mirrored
    exact neg_injective mirrored
  have quotient : (0 : ℚ) ≤ n / d := by positivity
  rw [towardZero, if_pos quotient, Rat.floor_intCast_div_natCast,
    Int.tdiv_eq_ediv_of_nonneg natural]

theorem abs_dropped_lt_one (x : ℚ) : |dropped x| < 1 := by
  wlog natural : 0 ≤ x generalizing x with upward
  · have mirrored := upward (-x) (by linarith)
    rwa [dropped_neg, abs_neg] at mirrored
  rw [dropped_eq_fract natural, Int.abs_fract]
  exact Int.fract_lt_one x

/-- Truncating before a multiplication comes to the same as truncating after it exactly if the
parts dropped before stay below one together. -/
theorem towardZero_mul_iff (x : ℚ) {m : Int} (positive : 0 < m) :
    towardZero x * m = towardZero (x * m) ↔ |dropped x| * m < 1 := by
  wlog natural : 0 ≤ x generalizing x with upward
  · have mirrored := upward (-x) (by linarith)
    rwa [dropped_neg, abs_neg, neg_mul, towardZero_neg, towardZero_neg, neg_mul,
      neg_inj] at mirrored
  have product : 0 ≤ x * m := by positivity
  have low : (⌊x⌋ : ℚ) * m ≤ x * m := by
    gcongr
    exact Int.floor_le x
  rw [dropped_eq_fract natural, Int.abs_fract, towardZero, if_pos natural, towardZero,
    if_pos product, eq_comm, Int.floor_eq_iff, ← Int.self_sub_floor, sub_mul]
  push_cast
  constructor
  · rintro ⟨-, high⟩
    linarith
  · intro high
    exact ⟨low, by linarith⟩

/-! ## The conversion of one number -/

/-- What a feed's number stands for in millionths, for one unit. -/
def millionths (value : Int) (exponent : Int32) : ℚ := value * 10 ^ (exponent.toInt + places)

/-- What it stands for in millionths, for as many units as the source quotes. -/
def basket (value : Int) (exponent : Int32) (source : Source) : ℚ :=
  millionths value exponent * source.multiplier

theorem Source.multiplier_pos (source : Source) : 0 < source.multiplier := by
  cases source <;> decide

theorem signed64?_eq_some {n : Int} {r : Int64} (fits : signed64? n = some r) : r.toInt = n := by
  unfold signed64? at fits
  split at fits
  · rename_i inside
    obtain rfl := Option.some.inj fits
    obtain ⟨low, high⟩ := inside
    rw [Int64.toInt_minValue] at low
    rw [Int64.toInt_maxValue] at high
    exact Int64.toInt_ofInt_of_le (by omega) (by omega)
  · cases fits

/-- A power of ten as a rational, from the power of a natural number that the conversion takes. -/
theorem cast_pow_ten (n : Nat) : ((Nat.pow 10 n : Nat) : ℚ) = 10 ^ n := by
  rw [Nat.pow_eq]
  push_cast
  rfl

/-- No signed 64-bit number is as large as a power of ten that does not fit. -/
theorem tdiv_large_power (value : Int64) {n : Nat} (large : ¬ n ≤ largestPower) :
    value.toInt.tdiv (Nat.pow 10 n) = 0 := by
  have bound : value.toInt.natAbs < 10 ^ 19 := by
    have low := value.le_toInt
    have high := value.toInt_lt
    omega
  have power : 10 ^ 19 ≤ Nat.pow 10 n := by
    apply Nat.pow_le_pow_right (by decide)
    simp only [largestPower] at large
    omega
  apply Int.natAbs_eq_zero.1
  rw [Int.natAbs_tdiv, Int.natAbs_natCast]
  exact Nat.div_eq_of_lt (bound.trans_le power)

/-- Rescaling truncates what the feed's number stands for. -/
theorem rescale?_eq_some {value : Int64} {exponent : Int32} {r : Int}
    (rescaled : rescale? value.toInt exponent = some r) :
    r = towardZero (millionths value.toInt exponent) := by
  unfold rescale? at rescaled
  rw [millionths]
  generalize exponent.toInt + places = shift at rescaled ⊢
  by_cases up : 0 ≤ shift
  · obtain ⟨n, rfl⟩ := Int.eq_ofNat_of_zero_le up
    by_cases small : (n : Int) ≤ largestPower
    · simp only [up, small, if_true, Int.toNat_natCast, Option.map_eq_some_iff] at rescaled
      obtain ⟨product, fits, rfl⟩ := rescaled
      rw [signed64?_eq_some fits, zpow_natCast, ← cast_pow_ten]
      exact_mod_cast (towardZero_intCast _).symm
    · simp [up, small] at rescaled
  · obtain ⟨n, rfl⟩ : ∃ n : Nat, shift = -(n : Int) := ⟨(-shift).toNat, by omega⟩
    rw [zpow_neg, zpow_natCast, ← cast_pow_ten, ← div_eq_mul_inv, towardZero_div]
    simp only [up, if_false, Int.neg_neg, Int.toNat_natCast] at rescaled
    by_cases small : n ≤ largestPower
    · simp only [small, if_true] at rescaled
      exact (Option.some.inj rescaled).symm
    · simp only [small, if_false] at rescaled
      rw [tdiv_large_power value small, Option.some.inj rescaled]

/-- How a converted number stands to the exact one. -/
structure Scales (value : Int) (exponent : Int32) (source : Source) (result : Int) : Prop where
  eq : result = towardZero (millionths value exponent) * source.multiplier
  exact_iff : result = towardZero (basket value exponent source) ↔
    |dropped (millionths value exponent)| * source.multiplier < 1
  exact_of : source.multiplier = 1 ∨ -places ≤ exponent.toInt →
    result = towardZero (basket value exponent source)
  near : |basket value exponent source - result| < source.multiplier

/-- Nothing is dropped where the exponent leaves no digits below a millionth. -/
theorem dropped_millionths {exponent : Int32} (value : Int) (up : -places ≤ exponent.toInt) :
    dropped (millionths value exponent) = 0 := by
  obtain ⟨n, shift⟩ := Int.eq_ofNat_of_zero_le (show 0 ≤ exponent.toInt + places by omega)
  have whole : millionths value exponent = ((value * 10 ^ n : Int) : ℚ) := by
    rw [millionths, shift]
    push_cast
    rw [zpow_natCast]
  rw [whole, dropped, towardZero_intCast, sub_self]

theorem scaled?_scales {value : Int64} {exponent : Int32} {source : Source} {r : Int64}
    (converted : scaled? value.toInt exponent source = some r) :
    Scales value.toInt exponent source r.toInt := by
  obtain ⟨rescaled, unit, fits⟩ := Option.bind_eq_some_iff.1 converted
  have multiplied : r.toInt = towardZero (millionths value.toInt exponent) * source.multiplier := by
    rw [signed64?_eq_some fits, rescale?_eq_some unit]
  have exact_iff : r.toInt = towardZero (basket value.toInt exponent source) ↔
      |dropped (millionths value.toInt exponent)| * source.multiplier < 1 := by
    rw [multiplied]
    exact towardZero_mul_iff _ source.multiplier_pos
  have units : (0 : ℚ) < source.multiplier := by exact_mod_cast source.multiplier_pos
  have below := abs_dropped_lt_one (millionths value.toInt exponent)
  refine ⟨multiplied, exact_iff, fun whole => exact_iff.2 ?_, ?_⟩
  · rcases whole with one | up
    · rw [one, Int.cast_one, mul_one]
      exact below
    · rw [dropped_millionths _ up, abs_zero, zero_mul]
      exact one_pos
  · have lost : basket value.toInt exponent source - r.toInt =
        dropped (millionths value.toInt exponent) * source.multiplier := by
      rw [multiplied, basket, dropped]
      push_cast
      ring
    rw [lost, abs_mul, abs_of_pos units]
    exact mul_lt_of_lt_one_left units below

/-! ## The conversion of an update -/

theorem Scales.natural {value : Nat} {exponent : Int32} {source : Source} {result : Int}
    (scales : Scales value exponent source result) : 0 ≤ result := by
  have unit : (0 : ℚ) ≤ millionths value exponent := by
    rw [millionths, Int.cast_natCast]
    exact mul_nonneg (Nat.cast_nonneg _) (zpow_nonneg (by norm_num) _)
  rw [scales.eq, towardZero, if_pos unit]
  exact mul_nonneg (Int.floor_nonneg.2 unit) source.multiplier_pos.le

/-- Price and confidence are truncated to millionths for one unit and multiplied then. Each is the
truncation of the exact number exactly if what was dropped stays below one when it is multiplied,
and is less than the multiplier away from the exact number in any case. -/
theorem priceData?_scales {update : PriceUpdate} {source : Source} {data : PriceData}
    (converted : update.priceData? source = some data) :
    Scales update.price.toInt update.exponent source data.price.toInt ∧
      Scales update.conf.toNat update.exponent source data.confidence.toNat := by
  obtain ⟨price, priced, converted⟩ := Option.bind_eq_some_iff.1 converted
  obtain ⟨conf, fits, converted⟩ := Option.bind_eq_some_iff.1 converted
  obtain ⟨confidence, known, converted⟩ := Option.bind_eq_some_iff.1 converted
  obtain rfl := Option.some.inj converted
  have scales := scaled?_scales known
  rw [signed64?_eq_some fits] at scales
  have same : ((UInt64.ofNat confidence.toInt.natAbs).toNat : Int) = confidence.toInt := by
    have natural := scales.natural
    have high := confidence.toInt_lt
    rw [UInt64.toNat_ofNat_of_lt' (by simp only [UInt64.size]; omega)]
    omega
  refine ⟨scaled?_scales priced, ?_⟩
  dsimp only
  rw [same]
  exact scales

/-! ## A basket of a million units -/

/-- Two and a half thousandths and a billionth for one unit. -/
def basketFeed : PriceUpdate where
  writeAuthority := Address.unset
  verification := .full
  feedId := Vector.replicate 32 0
  price := 2500001
  conf := 50000
  exponent := -9
  prevPublishTime := 0
  publishTime := 0
  postedSlot := 321

def basketData : PriceData := ⟨2500000000, 50000000, 321, true, none⟩

theorem basketFeed_converted : basketFeed.priceData? .pyth1MPull = some basketData := by
  decide

theorem priceData?_scales_basket : basketFeed.priceData? .pyth1MPull = some basketData ∧
    Scales 2500001 (-9) .pyth1MPull 2500000000 ∧ Scales 50000 (-9) .pyth1MPull 50000000 :=
  ⟨basketFeed_converted, priceData?_scales basketFeed_converted⟩

/-- A million times a billionth is a thousand millionths, all of them lost. -/
theorem basket_price_short : Source.isPull .pyth1MPull = true ∧
    basketFeed.priceData? .pyth1MPull = some basketData ∧
    towardZero (basket basketFeed.price.toInt basketFeed.exponent .pyth1MPull) =
      basketData.price.toInt + 1000 := by
  have shift : basketFeed.exponent.toInt + places = -3 := by decide
  have value : basketFeed.price.toInt = 2500001 := by decide
  have units : Source.multiplier .pyth1MPull = 1000000 := rfl
  have whole : basket basketFeed.price.toInt basketFeed.exponent .pyth1MPull =
      ((basketData.price.toInt + 1000 : Int) : ℚ) := by
    rw [basket, millionths, shift, value, units, show basketData.price.toInt = 2500000000 from rfl]
    norm_num
  exact ⟨rfl, basketFeed_converted, by rw [whole, towardZero_intCast]⟩

end LedgerWatch.Oracle
