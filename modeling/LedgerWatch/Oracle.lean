import LedgerWatch.Layout

/-!
# Oracles

A market names an oracle account and a source, and the source says how the account is laid out.
Prices come out in units of a millionth, whatever the feed's exponent. Every step of the
conversion is exact on signed 64-bit numbers and fails rather than wraps; a negative shift
truncates toward zero.
-/

namespace LedgerWatch.Oracle

inductive Source
  | pyth
  | switchboard
  | quoteAsset
  | pyth1K
  | pyth1M
  | pythStableCoin
  | prelaunch
  | pythPull
  | pyth1KPull
  | pyth1MPull
  | pythStableCoinPull
  | switchboardOnDemand
deriving DecidableEq

namespace Source

instance : Inhabited Source := ⟨pyth⟩

/-- Every source at the place of its tag. -/
def all : List Source :=
  [pyth, switchboard, quoteAsset, pyth1K, pyth1M, pythStableCoin, prelaunch, pythPull,
    pyth1KPull, pyth1MPull, pythStableCoinPull, switchboardOnDemand]

def tag (source : Source) : UInt8 := UInt8.ofNat (all.idxOf source)

def ofTag? (tag : UInt8) : Option Source := all[tag.toNat]?

def name : Source → String
  | pyth => "Pyth"
  | switchboard => "Switchboard"
  | quoteAsset => "QuoteAsset"
  | pyth1K => "Pyth1K"
  | pyth1M => "Pyth1M"
  | pythStableCoin => "PythStableCoin"
  | prelaunch => "Prelaunch"
  | pythPull => "PythPull"
  | pyth1KPull => "Pyth1KPull"
  | pyth1MPull => "Pyth1MPull"
  | pythStableCoinPull => "PythStableCoinPull"
  | switchboardOnDemand => "SwitchboardOnDemand"

def ofName? (text : String) : Option Source := all.find? fun source => source.name == text

def layout : Layout Source := .tagged tag ofTag?

/-- Prelaunch oracles are updated by the instructions that read them. -/
def isPrelaunch : Source → Bool
  | prelaunch => true
  | _ => false

def isPull : Source → Bool
  | pythPull | pyth1KPull | pyth1MPull | pythStableCoinPull => true
  | _ => false

/-- How many units a feed's price is for: some feeds quote a basket. -/
def multiplier : Source → Int
  | pyth1K | pyth1KPull => 1000
  | pyth1M | pyth1MPull => 1000000
  | _ => 1

end Source

/-- A price in millionths, with the slot it was posted at. -/
structure PriceData where
  price : Int64
  confidence : UInt64
  slot : UInt64
  sufficient : Bool
  maxPrice : Option Int64
deriving DecidableEq

/-- The quote asset is always worth exactly one. -/
def quotePrice : PriceData := ⟨1000000, 1, 0, true, none⟩

inductive Verification
  | partly (signatures : UInt8)
  | full
deriving DecidableEq

namespace Verification

def encode : Verification → Bytes
  | partly signatures => [0, signatures]
  | full => [1]

def decode : Bytes → Except Fault (Verification × Bytes)
  | [] => .error .truncated
  | tag :: rest =>
    if tag = 0 then
      match rest with
      | [] => .error .truncated
      | signatures :: rest => .ok (partly signatures, rest)
    else if tag = 1 then .ok (full, rest)
    else .error (.unknownTag tag)

def layout : Layout Verification := ⟨encode, decode⟩

end Verification

/-- The account of a pull feed. -/
structure PriceUpdate where
  writeAuthority : Address
  verification : Verification
  feedId : Vector UInt8 32
  price : Int64
  conf : UInt64
  exponent : Int32
  prevPublishTime : Int64
  publishTime : Int64
  postedSlot : UInt64
deriving DecidableEq

/-- The account the exchange keeps for a market that trades before a feed exists. -/
structure Prelaunch where
  price : Int64
  maxPrice : Int64
  confidence : UInt64
  lastUpdateSlot : UInt64
  ammLastUpdateSlot : UInt64
  perpMarketIndex : UInt16
deriving DecidableEq

def Prelaunch.priceData (oracle : Prelaunch) : PriceData where
  price := oracle.price
  confidence := oracle.confidence
  slot := oracle.ammLastUpdateSlot
  sufficient := true
  maxPrice := some oracle.maxPrice

/-- A whole number as a signed 64-bit one, when it is in range. -/
def signed64? (n : Int) : Option Int64 :=
  if Int64.minValue.toInt ≤ n ∧ n ≤ Int64.maxValue.toInt then some (Int64.ofInt n) else none

/-- Decimal places of a price in millionths. -/
def places : Int := 6

/-- The largest power of ten that a signed 64-bit number holds. -/
def largestPower : Nat := 18

/-- `value * 10 ^ (exponent + 6)` truncated toward zero, unless the power of ten or the product
leaves the signed 64-bit range. A divisor out of range leaves nothing of any value. -/
def rescale? (value : Int) (exponent : Int32) : Option Int :=
  let shift := exponent.toInt + places
  if 0 ≤ shift then
    if shift ≤ largestPower then (signed64? (value * Nat.pow 10 shift.toNat)).map Int64.toInt else none
  else if (-shift).toNat ≤ largestPower then some (value.tdiv (Nat.pow 10 (-shift).toNat))
  else some 0

/-- The rescaled value times the source's multiplier. -/
def scaled? (value : Int) (exponent : Int32) (source : Source) : Option Int64 := do
  let rescaled ← rescale? value exponent
  signed64? (rescaled * source.multiplier)

/-- `none` when price or confidence leaves the signed 64-bit range on the way. -/
def PriceUpdate.priceData? (update : PriceUpdate) (source : Source) : Option PriceData := do
  let price ← scaled? update.price.toInt update.exponent source
  let conf ← signed64? update.conf.toNat
  let confidence ← scaled? conf.toInt update.exponent source
  return {
    price
    confidence := UInt64.ofNat confidence.toInt.natAbs
    slot := update.postedSlot
    sufficient := true
    maxPrice := none }

end LedgerWatch.Oracle
