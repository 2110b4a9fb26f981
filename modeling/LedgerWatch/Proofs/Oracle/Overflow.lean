import LedgerWatch.Account.Decode
import LedgerWatch.Proofs.Oracle.Scaling

/-!
# Where the price conversion leaves its range

The conversion works on signed 64-bit numbers and fails rather than wraps. Against the same
conversion on whole numbers without bounds (`wholeMillionths`), it fails exactly if the confidence,
the power of ten, or one of four named results does not fit (`Overflows`), and is exact otherwise
(`priceData?_exact`). The divisions are not checked, and need not be: no quotient by a power of
ten leaves the range.
-/

namespace LedgerWatch.Oracle

/-- In the signed 64-bit range. -/
def Fits (n : Int) : Prop := Int64.minValue.toInt ≤ n ∧ n ≤ Int64.maxValue.toInt

/-- How far the decimal point moves. -/
def pointShift (exponent : Int32) : Int := exponent.toInt + 6

/-- What the feed's number is in millionths, truncated toward zero, on whole numbers of any size. -/
def wholeMillionths (value : Int) (exponent : Int32) : Int :=
  if 0 ≤ pointShift exponent then value * 10 ^ (pointShift exponent).toNat
  else value.tdiv (10 ^ (-pointShift exponent).toNat)

/-- Something on the way to price and confidence does not fit. -/
inductive Overflows (update : PriceUpdate) (source : Source) : Prop
  | conf (large : Int64.maxValue.toInt < update.conf.toNat)
  | power (large : 19 ≤ pointShift update.exponent)
  | price (out : ¬ Fits (wholeMillionths update.price.toInt update.exponent))
  | confidence (out : ¬ Fits (wholeMillionths update.conf.toNat update.exponent))
  | priceTimes (out : ¬ Fits (wholeMillionths update.price.toInt update.exponent * source.multiplier))
  | confidenceTimes
      (out : ¬ Fits (wholeMillionths update.conf.toNat update.exponent * source.multiplier))

/-! ## Words -/

theorem fits_toInt (word : Int64) : Fits word.toInt := by
  have low := word.le_toInt
  have high := word.toInt_lt
  rw [Fits, Int64.toInt_minValue, Int64.toInt_maxValue]
  omega

theorem signed64?_eq_some_iff {n : Int} {word : Int64} : signed64? n = some word ↔ word.toInt = n := by
  constructor
  · exact signed64?_eq_some
  · rintro rfl
    have inside : Int64.minValue.toInt ≤ word.toInt ∧ word.toInt ≤ Int64.maxValue.toInt :=
      fits_toInt word
    rw [signed64?, if_pos inside, Int64.ofInt_toInt]

theorem exists_word_iff {n : Int} : (∃ word : Int64, word.toInt = n) ↔ Fits n := by
  constructor
  · rintro ⟨word, rfl⟩
    exact fits_toInt word
  · intro inside
    have fits : signed64? n = some (Int64.ofInt n) := if_pos inside
    exact ⟨Int64.ofInt n, signed64?_eq_some fits⟩

/-- A quotient is no larger than what is divided, and only a division by -1 could leave the range. -/
theorem fits_tdiv_power (word : Int64) {n : Nat} (positive : 0 < n) :
    Fits (word.toInt.tdiv (Nat.pow 10 n)) := by
  have low := word.le_toInt
  have high := word.toInt_lt
  have ten : 10 ≤ Nat.pow 10 n := Nat.pow_le_pow_right (n := 10) (i := 1) (by decide) positive
  have smaller : (word.toInt.tdiv (Nat.pow 10 n)).natAbs ≤ word.toInt.natAbs / 10 := by
    rw [Int.natAbs_tdiv, Int.natAbs_natCast]
    exact Nat.div_le_div_left ten (by decide)
  rw [Fits, Int64.toInt_minValue, Int64.toInt_maxValue]
  omega

/-- The powers of ten that are used are words other than 0 and -1, so that dividing by one on words
is dividing. -/
theorem word_division {n : Nat} (positive : 0 < n) (small : n ≤ largestPower) (word : Int64) :
    ∃ divisor : Int64, divisor.toInt = Nat.pow 10 n ∧ divisor ≠ 0 ∧
      (word / divisor).toInt = word.toInt.tdiv (Nat.pow 10 n) := by
  have ten : 10 ≤ Nat.pow 10 n := Nat.pow_le_pow_right (n := 10) (i := 1) (by decide) positive
  have bound : Nat.pow 10 n ≤ 10 ^ 18 := Nat.pow_le_pow_right (by decide) small
  have inside : Fits (Nat.pow 10 n) := by
    rw [Fits, Int64.toInt_minValue, Int64.toInt_maxValue]
    omega
  obtain ⟨divisor, power⟩ := exists_word_iff.2 inside
  have other (k : Int64) (below : k.toInt < 10) : divisor ≠ k := by
    rintro rfl
    omega
  refine ⟨divisor, power, other 0 (by decide), ?_⟩
  rw [Int64.toInt_div_of_ne_right word divisor (other (-1) (by decide)), power]

/-! ## The conversion of one number -/

theorem rescale?_eq_some_iff {value : Int64} {exponent : Int32} {r : Int} :
    rescale? value.toInt exponent = some r ↔
      pointShift exponent < 19 ∧ Fits r ∧ r = wholeMillionths value.toInt exponent := by
  have shift : exponent.toInt + places = pointShift exponent := rfl
  unfold rescale? wholeMillionths
  rw [shift]
  generalize pointShift exponent = shift
  by_cases up : 0 ≤ shift
  · obtain ⟨n, rfl⟩ := Int.eq_ofNat_of_zero_le up
    simp only [up, if_true, Int.toNat_natCast]
    by_cases small : (n : Int) ≤ largestPower
    · have below : (n : Int) < 19 := by
        simp only [largestPower] at small
        omega
      have power : ((Nat.pow 10 n : Nat) : Int) = 10 ^ n := Int.natCast_pow 10 n
      simp only [small, if_true, below, true_and, Option.map_eq_some_iff, signed64?_eq_some_iff,
        power]
      constructor
      · rintro ⟨word, product, rfl⟩
        exact ⟨fits_toInt word, product⟩
      · rintro ⟨inside, rfl⟩
        obtain ⟨word, product⟩ := exists_word_iff.2 inside
        exact ⟨word, product, product⟩
    · have above : ¬ (n : Int) < 19 := by
        simp only [largestPower] at small
        omega
      simp [small, above]
  · obtain ⟨n, rfl, positive⟩ : ∃ n : Nat, shift = -(n : Int) ∧ 0 < n :=
      ⟨(-shift).toNat, by omega, by omega⟩
    have below : -(n : Int) < 19 := by omega
    have power : ((Nat.pow 10 n : Nat) : Int) = 10 ^ n := Int.natCast_pow 10 n
    have quotient : (if n ≤ largestPower then some (value.toInt.tdiv (Nat.pow 10 n)) else some 0) =
        some (value.toInt.tdiv (Nat.pow 10 n)) := by
      split
      · rfl
      · rename_i large
        rw [tdiv_large_power value large]
    simp only [up, if_false, Int.neg_neg, Int.toNat_natCast, quotient, below, true_and, ← power,
      Option.some.injEq]
    constructor
    · rintro rfl
      exact ⟨fits_tdiv_power value positive, rfl⟩
    · rintro ⟨-, rfl⟩
      rfl

theorem scaled?_eq_some_iff {value : Int64} {exponent : Int32} {source : Source} {word : Int64} :
    scaled? value.toInt exponent source = some word ↔
      pointShift exponent < 19 ∧ Fits (wholeMillionths value.toInt exponent) ∧
        word.toInt = wholeMillionths value.toInt exponent * source.multiplier := by
  unfold scaled?
  simp only [Option.bind_eq_bind, Option.bind_eq_some_iff, rescale?_eq_some_iff,
    signed64?_eq_some_iff]
  constructor
  · rintro ⟨unit, ⟨below, inside, rfl⟩, product⟩
    exact ⟨below, inside, product⟩
  · rintro ⟨below, inside, product⟩
    exact ⟨_, ⟨below, inside, rfl⟩, product⟩

theorem wholeMillionths_mono {a b : Int} (le : a ≤ b) (exponent : Int32) :
    wholeMillionths a exponent ≤ wholeMillionths b exponent := by
  unfold wholeMillionths
  split
  · apply Int.mul_le_mul_of_nonneg_right le
    positivity
  · apply Int.tdiv_le_tdiv _ le
    positivity

/-- Far enough below, nothing of any word is left. -/
theorem wholeMillionths_eq_zero (value : Int64) {exponent : Int32}
    (low : pointShift exponent ≤ -19) : wholeMillionths value.toInt exponent = 0 := by
  have down : ¬ 0 ≤ pointShift exponent := by omega
  have large : ¬ (-pointShift exponent).toNat ≤ largestPower := by
    simp only [largestPower]
    omega
  rw [wholeMillionths, if_neg down, ← tdiv_large_power value large]
  rfl

/-! ## The conversion of an update -/

theorem wholeMillionths_nonneg {value : Int} (natural : 0 ≤ value) (exponent : Int32) :
    0 ≤ wholeMillionths value exponent := by
  have zero : wholeMillionths 0 exponent = 0 := by
    unfold wholeMillionths
    split <;> simp
  rw [← zero]
  exact wholeMillionths_mono natural exponent

/-- The price data that an update converts to. -/
structure Converts (update : PriceUpdate) (source : Source) (data : PriceData) : Prop where
  price : data.price.toInt =
    wholeMillionths update.price.toInt update.exponent * source.multiplier
  confidence : (data.confidence.toNat : Int) =
    wholeMillionths update.conf.toNat update.exponent * source.multiplier
  slot : data.slot = update.postedSlot
  sufficient : data.sufficient = true
  maxPrice : data.maxPrice = none

theorem not_overflows_iff {update : PriceUpdate} {source : Source} : ¬ Overflows update source ↔
    update.conf.toNat ≤ Int64.maxValue.toInt ∧ pointShift update.exponent < 19 ∧
      Fits (wholeMillionths update.price.toInt update.exponent) ∧
      Fits (wholeMillionths update.conf.toNat update.exponent) ∧
      Fits (wholeMillionths update.price.toInt update.exponent * source.multiplier) ∧
      Fits (wholeMillionths update.conf.toNat update.exponent * source.multiplier) := by
  constructor
  · intro fits
    refine ⟨?_, ?_, ?_, ?_, ?_, ?_⟩
    · exact Int.not_lt.1 fun large => fits (.conf large)
    · exact Int.not_le.1 fun large => fits (.power large)
    · exact Classical.not_not.1 fun out => fits (.price out)
    · exact Classical.not_not.1 fun out => fits (.confidence out)
    · exact Classical.not_not.1 fun out => fits (.priceTimes out)
    · exact Classical.not_not.1 fun out => fits (.confidenceTimes out)
  · rintro ⟨conf, power, price, confidence, priceTimes, confidenceTimes⟩ overflows
    cases overflows with
    | conf large => omega
    | power large => omega
    | price out => exact out price
    | confidence out => exact out confidence
    | priceTimes out => exact out priceTimes
    | confidenceTimes out => exact out confidenceTimes

/-- The steps of the conversion, each on the word that the one before it left. -/
theorem priceData?_eq_some {update : PriceUpdate} {source : Source} {data : PriceData}
    (converted : update.priceData? source = some data) :
    ∃ price conf confidence : Int64,
      scaled? update.price.toInt update.exponent source = some price ∧
      conf.toInt = update.conf.toNat ∧
      scaled? conf.toInt update.exponent source = some confidence ∧
      data = ⟨price, UInt64.ofNat confidence.toInt.natAbs, update.postedSlot, true, none⟩ := by
  obtain ⟨price, priced, converted⟩ := Option.bind_eq_some_iff.1 converted
  obtain ⟨conf, fits, converted⟩ := Option.bind_eq_some_iff.1 converted
  obtain ⟨confidence, known, converted⟩ := Option.bind_eq_some_iff.1 converted
  exact ⟨price, conf, confidence, priced, signed64?_eq_some fits, known,
    (Option.some.inj converted).symm⟩

theorem toNat_confidence {word : Int64} (natural : 0 ≤ word.toInt) :
    ((UInt64.ofNat word.toInt.natAbs).toNat : Int) = word.toInt := by
  have high := word.toInt_lt
  rw [UInt64.toNat_ofNat_of_lt' (by simp only [UInt64.size]; omega)]
  omega

theorem converts_of_priceData? {update : PriceUpdate} {source : Source} {data : PriceData}
    (converted : update.priceData? source = some data) :
    ¬ Overflows update source ∧ Converts update source data := by
  obtain ⟨price, conf, confidence, priced, whole, known, rfl⟩ := priceData?_eq_some converted
  obtain ⟨below, unitPrice, times⟩ := scaled?_eq_some_iff.1 priced
  obtain ⟨-, unitConf, confTimes⟩ := scaled?_eq_some_iff.1 known
  rw [whole] at unitConf confTimes
  have natural : 0 ≤ confidence.toInt := by
    rw [confTimes]
    exact Int.mul_nonneg (wholeMillionths_nonneg (by omega) _) source.multiplier_pos.le
  constructor
  · apply not_overflows_iff.2
    refine ⟨?_, below, unitPrice, unitConf, ?_, ?_⟩
    · exact whole ▸ (fits_toInt conf).2
    · exact times ▸ fits_toInt price
    · exact confTimes ▸ fits_toInt confidence
  · exact ⟨times, (toNat_confidence natural).trans confTimes, rfl, rfl, rfl⟩

theorem exists_priceData {update : PriceUpdate} {source : Source}
    (fits : ¬ Overflows update source) : ∃ data, update.priceData? source = some data := by
  obtain ⟨small, below, unitPrice, unitConf, times, confTimes⟩ := not_overflows_iff.1 fits
  have insideConf : Fits update.conf.toNat := by
    rw [Fits, Int64.toInt_minValue]
    omega
  obtain ⟨conf, whole⟩ := exists_word_iff.2 insideConf
  obtain ⟨price, priced⟩ := exists_word_iff.2 times
  obtain ⟨confidence, known⟩ := exists_word_iff.2 confTimes
  rw [← whole] at unitConf known
  have first := scaled?_eq_some_iff.2 ⟨below, unitPrice, priced⟩
  have second := scaled?_eq_some_iff.2 ⟨below, unitConf, known⟩
  have middle := signed64?_eq_some_iff.2 whole
  exact ⟨_, Option.bind_eq_some_iff.2 ⟨price, first, Option.bind_eq_some_iff.2
    ⟨conf, middle, Option.bind_eq_some_iff.2 ⟨confidence, second, rfl⟩⟩⟩⟩

theorem Converts.unique {update : PriceUpdate} {source : Source} {a b : PriceData}
    (left : Converts update source a) (right : Converts update source b) : a = b := by
  have price := Int64.toInt_inj.1 (left.price.trans right.price.symm)
  have confidence : a.confidence.toNat = b.confidence.toNat := by
    have same := left.confidence.trans right.confidence.symm
    omega
  cases a
  cases b
  simp only [PriceData.mk.injEq]
  exact ⟨price, UInt64.toNat_inj.1 confidence, left.slot.trans right.slot.symm,
    left.sufficient.trans right.sufficient.symm, left.maxPrice.trans right.maxPrice.symm⟩

theorem priceData?_eq_none_iff {update : PriceUpdate} {source : Source} :
    update.priceData? source = none ↔ Overflows update source := by
  constructor
  · intro failed
    apply Classical.not_not.1
    intro fits
    obtain ⟨data, converted⟩ := exists_priceData fits
    cases failed.symm.trans converted
  · intro overflows
    cases converted : update.priceData? source with
    | none => rfl
    | some data => exact absurd overflows (converts_of_priceData? converted).1

theorem priceData?_eq_some_iff {update : PriceUpdate} {source : Source} {data : PriceData} :
    update.priceData? source = some data ↔ ¬ Overflows update source ∧ Converts update source data := by
  constructor
  · exact converts_of_priceData?
  · rintro ⟨fits, converts⟩
    obtain ⟨other, converted⟩ := exists_priceData fits
    rw [converted, converts.unique (converts_of_priceData? converted).2]

/-- Reading an account as an oracle reports the overflow of its update, and no other. -/
theorem decodeOracle_eq_overflow_iff {source : Source} (pull : source.isPull = true) {data : Bytes}
    {update : PriceUpdate} (decoded : AccountType.decode .priceUpdate data = .ok update) :
    Record.decodeOracle source data = .error .priceOverflow ↔ Overflows update source := by
  have quote : source ≠ .quoteAsset := by
    rintro rfl
    cases pull
  have prelaunch : source.isPrelaunch = false := by
    cases source with
    | prelaunch => cases pull
    | _ => rfl
  rw [← priceData?_eq_none_iff, Record.decodeOracle, if_neg quote, prelaunch, pull, decoded]
  cases converted : update.priceData? source with
  | none => simp [bind, Except.bind, converted]
  | some price => simp [bind, Except.bind, converted]

/-- The conversion fails exactly if something on the way does not fit, which an account's reader
reports as such, and gives the whole numbers' result otherwise. So a low enough exponent leaves
nothing, a higher feed price never gives a lower price, and the unchecked divisions are those of
whole numbers. -/
theorem priceData?_exact (source : Source) :
    (∀ update : PriceUpdate, update.priceData? source = none ↔ Overflows update source) ∧
    (∀ (update : PriceUpdate) (data : PriceData), update.priceData? source = some data ↔
      ¬ Overflows update source ∧ Converts update source data) ∧
    (∀ (data : Bytes) (update : PriceUpdate), source.isPull = true →
      AccountType.decode .priceUpdate data = .ok update →
        (Record.decodeOracle source data = .error .priceOverflow ↔ Overflows update source)) ∧
    (∀ update : PriceUpdate, pointShift update.exponent ≤ -19 →
      update.conf.toNat ≤ Int64.maxValue.toInt →
        update.priceData? source = some ⟨0, 0, update.postedSlot, true, none⟩) ∧
    (∀ (a b : PriceUpdate) (low high : PriceData), a.exponent = b.exponent → a.price ≤ b.price →
      a.priceData? source = some low → b.priceData? source = some high → low.price ≤ high.price) ∧
    ∀ (n : Nat) (word : Int64), 0 < n → n ≤ largestPower → ∃ divisor : Int64,
      divisor.toInt = Nat.pow 10 n ∧ divisor ≠ 0 ∧
        (word / divisor).toInt = word.toInt.tdiv (Nat.pow 10 n) := by
  refine ⟨fun update => priceData?_eq_none_iff, fun update data => priceData?_eq_some_iff,
    fun data update pull decoded => decodeOracle_eq_overflow_iff pull decoded, ?_, ?_,
    fun n word positive small => word_division positive small word⟩
  · intro update low small
    have conf : Fits update.conf.toNat := by
      rw [Fits, Int64.toInt_minValue]
      omega
    obtain ⟨word, whole⟩ := exists_word_iff.2 conf
    have price := wholeMillionths_eq_zero update.price low
    have confidence : wholeMillionths update.conf.toNat update.exponent = 0 :=
      whole ▸ wholeMillionths_eq_zero word low
    have zero : Fits 0 := fits_toInt 0
    apply priceData?_eq_some_iff.2
    constructor
    · apply not_overflows_iff.2
      rw [price, confidence, Int.zero_mul]
      exact ⟨small, by omega, zero, zero, zero, zero⟩
    · refine ⟨?_, ?_, rfl, rfl, rfl⟩
      · rw [price, Int.zero_mul]
        rfl
      · rw [confidence, Int.zero_mul]
        rfl
  · intro a b low high exponent le lowered raised
    have unit := wholeMillionths_mono (Int64.le_iff_toInt_le.1 le) a.exponent
    apply Int64.le_iff_toInt_le.2
    rw [(converts_of_priceData? lowered).2.price, (converts_of_priceData? raised).2.price,
      ← exponent]
    exact Int.mul_le_mul_of_nonneg_right unit source.multiplier_pos.le

end LedgerWatch.Oracle
