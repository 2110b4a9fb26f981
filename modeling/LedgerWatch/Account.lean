import LedgerWatch.Name
import LedgerWatch.Oracle

/-!
# The exchange's accounts

The accounts a program on the ledger stores for the exchange: one state, the perp and spot
markets, the users with their eight perp and eight spot position slots, and two oracle layouts.
Each has a byte layout. `AccountType.Value` gives the type of an account type's values, so that
one function and one statement serve all six.
-/

namespace LedgerWatch

inductive MarketKind
  | perp
  | spot
deriving DecidableEq

def MarketKind.text : MarketKind → String
  | perp => "perp"
  | spot => "spot"

/-- The spot market in which every spot settlement nets. -/
def quoteSpotMarket : UInt16 := 0

structure ExchangeState where
  admin : Address
  signer : Address
  quoteAssetMint : Address
  numberOfMarkets : UInt16
  numberOfSpotMarkets : UInt16
  signerNonce : UInt8
  exchangeStatus : UInt8
deriving DecidableEq

structure PerpMarket where
  pubkey : Address
  marketIndex : UInt16
  quoteSpotMarketIndex : UInt16
  oracle : Address
  oracleSource : Oracle.Source
  name : Name
  status : UInt8
deriving DecidableEq

structure SpotMarket where
  pubkey : Address
  marketIndex : UInt16
  oracle : Address
  oracleSource : Oracle.Source
  mint : Address
  vault : Address
  decimals : UInt32
  name : Name
  status : UInt8
deriving DecidableEq

structure PerpPosition where
  marketIndex : UInt16 := 0
  baseAssetAmount : Int64 := 0
  quoteAssetAmount : Int64 := 0
  lpShares : UInt64 := 0
  openBids : Int64 := 0
  openAsks : Int64 := 0
  openOrders : UInt8 := 0
deriving DecidableEq, Inhabited

/-- A slot is free when it holds no base, quote, shares or open orders. -/
def PerpPosition.isAvailable (p : PerpPosition) : Bool :=
  p.baseAssetAmount == 0 && p.quoteAssetAmount == 0 && p.lpShares == 0 && p.openOrders == 0

inductive BalanceType
  | deposit
  | borrow
deriving DecidableEq

def BalanceType.tag : BalanceType → UInt8
  | deposit => 0
  | borrow => 1

def BalanceType.ofTag? (tag : UInt8) : Option BalanceType :=
  if tag = 0 then some deposit else if tag = 1 then some borrow else none

structure SpotPosition where
  marketIndex : UInt16 := 0
  scaledBalance : UInt64 := 0
  balanceType : BalanceType := .deposit
  openBids : Int64 := 0
  openAsks : Int64 := 0
  openOrders : UInt8 := 0
deriving DecidableEq

instance : Inhabited SpotPosition := ⟨{}⟩

namespace SpotPosition

def isAvailable (p : SpotPosition) : Bool :=
  p.scaledBalance == 0 && p.openOrders == 0

/-- Whether bids or asks are open; such a position also touches the quote spot market. -/
def hasOpenOrders (p : SpotPosition) : Bool :=
  p.openBids != 0 || p.openAsks != 0

end SpotPosition

/-- One authority owns many users, told apart by their sub-account. -/
structure UserKey where
  authority : Address
  subAccount : UInt16
deriving DecidableEq

def UserKey.text (key : UserKey) : String :=
  s!"{key.authority.text}/{key.subAccount.toNat}"

structure User where
  authority : Address
  delegate : Address
  name : Name
  subAccountId : UInt16
  perpPositions : Vector PerpPosition 8
  spotPositions : Vector SpotPosition 8
  lastActiveSlot : UInt64
deriving DecidableEq

namespace User

def key (user : User) : UserKey := ⟨user.authority, user.subAccountId⟩

def activePerp (user : User) : List PerpPosition :=
  user.perpPositions.toList.filter fun p => !p.isAvailable

def activeSpot (user : User) : List SpotPosition :=
  user.spotPositions.toList.filter fun p => !p.isAvailable

end User

/-! ## Layouts -/

namespace Layout

def name : Layout Name := array 32 u8

def exchangeState : Layout ExchangeState :=
  (address.pair <| address.pair <| address.pair <| u16.pair <| u16.pair <| u8.pair u8).iso
    (fun (a, b, c, d, e, f, g) => ⟨a, b, c, d, e, f, g⟩)
    (fun s => (s.admin, s.signer, s.quoteAssetMint, s.numberOfMarkets, s.numberOfSpotMarkets,
      s.signerNonce, s.exchangeStatus))

def perpMarket : Layout PerpMarket :=
  (address.pair <| u16.pair <| u16.pair <| address.pair <| Oracle.Source.layout.pair <|
    name.pair u8).iso
    (fun (a, b, c, d, e, f, g) => ⟨a, b, c, d, e, f, g⟩)
    (fun m => (m.pubkey, m.marketIndex, m.quoteSpotMarketIndex, m.oracle, m.oracleSource,
      m.name, m.status))

def spotMarket : Layout SpotMarket :=
  (address.pair <| u16.pair <| address.pair <| Oracle.Source.layout.pair <| address.pair <|
    address.pair <| u32.pair <| name.pair u8).iso
    (fun (a, b, c, d, e, f, g, h, i) => ⟨a, b, c, d, e, f, g, h, i⟩)
    (fun m => (m.pubkey, m.marketIndex, m.oracle, m.oracleSource, m.mint, m.vault, m.decimals,
      m.name, m.status))

def perpPosition : Layout PerpPosition :=
  (u16.pair <| i64.pair <| i64.pair <| u64.pair <| i64.pair <| i64.pair u8).iso
    (fun (a, b, c, d, e, f, g) => ⟨a, b, c, d, e, f, g⟩)
    (fun p => (p.marketIndex, p.baseAssetAmount, p.quoteAssetAmount, p.lpShares, p.openBids,
      p.openAsks, p.openOrders))

def spotPosition : Layout SpotPosition :=
  (u16.pair <| u64.pair <| (tagged BalanceType.tag BalanceType.ofTag?).pair <| i64.pair <|
    i64.pair u8).iso
    (fun (a, b, c, d, e, f) => ⟨a, b, c, d, e, f⟩)
    (fun p => (p.marketIndex, p.scaledBalance, p.balanceType, p.openBids, p.openAsks,
      p.openOrders))

def user : Layout User :=
  (address.pair <| address.pair <| name.pair <| u16.pair <| (array 8 perpPosition).pair <|
    (array 8 spotPosition).pair u64).iso
    (fun (a, b, c, d, e, f, g) => ⟨a, b, c, d, e, f, g⟩)
    (fun u => (u.authority, u.delegate, u.name, u.subAccountId, u.perpPositions,
      u.spotPositions, u.lastActiveSlot))

def prelaunch : Layout Oracle.Prelaunch :=
  (i64.pair <| i64.pair <| u64.pair <| u64.pair <| u64.pair u16).iso
    (fun (a, b, c, d, e, f) => ⟨a, b, c, d, e, f⟩)
    (fun o => (o.price, o.maxPrice, o.confidence, o.lastUpdateSlot, o.ammLastUpdateSlot,
      o.perpMarketIndex))

def priceUpdate : Layout Oracle.PriceUpdate :=
  (address.pair <| Oracle.Verification.layout.pair <| (array 32 u8).pair <| i64.pair <|
    u64.pair <| i32.pair <| i64.pair <| i64.pair u64).iso
    (fun (a, b, c, d, e, f, g, h, i) => ⟨a, b, c, d, e, f, g, h, i⟩)
    (fun u => (u.writeAuthority, u.verification, u.feedId, u.price, u.conf, u.exponent,
      u.prevPublishTime, u.publishTime, u.postedSlot))

end Layout

/-- The six kinds of account the exchange's program and its oracles store. -/
inductive AccountType
  | state
  | perpMarket
  | spotMarket
  | user
  | prelaunchOracle
  | priceUpdate
deriving DecidableEq

namespace AccountType

def all : List AccountType :=
  [state, perpMarket, spotMarket, user, prelaunchOracle, priceUpdate]

/-- The name the discriminator is computed from. -/
def name : AccountType → String
  | state => "State"
  | perpMarket => "PerpMarket"
  | spotMarket => "SpotMarket"
  | user => "User"
  | prelaunchOracle => "PrelaunchOracle"
  | priceUpdate => "PriceUpdateV2"

def ofName? (text : String) : Option AccountType := all.find? fun t => t.name == text

abbrev Value : AccountType → Type
  | state => ExchangeState
  | perpMarket => PerpMarket
  | spotMarket => SpotMarket
  | user => User
  | prelaunchOracle => Oracle.Prelaunch
  | priceUpdate => Oracle.PriceUpdate

def layout : (t : AccountType) → Layout t.Value
  | state => .exchangeState
  | perpMarket => .perpMarket
  | spotMarket => .spotMarket
  | user => .user
  | prelaunchOracle => .prelaunch
  | priceUpdate => .priceUpdate

end AccountType

end LedgerWatch
