import LedgerWatch.Account
import LedgerWatch.Digest.Sha256

/-!
# Reading and writing accounts

An account's bytes begin with the eight-byte discriminator of its type, the start of a digest of
the type's name; the body follows, and anything after the body is padding. `encode` and `decode`
are for one account type; `Record.decode` reads the record of a wanted kind, where oracles of
any layout come out as price data.
-/

namespace LedgerWatch

def discriminatorLength : Nat := 8

/-- The first eight bytes of the digest of `account:` and the name. -/
def discriminator (name : String) : Bytes :=
  (Digest.Sha256.digest (Text.Utf8.encode ("account:" ++ name).toList)).take discriminatorLength

/-- Why account bytes hold no record of the wanted kind. -/
inductive DecodeError
  | tooShort (expected actual : Nat)
  | discriminatorMismatch (expected : AccountType)
  | malformedBody (fault : Fault)
  | unsupportedSource (source : Oracle.Source)
  | priceOverflow
deriving DecidableEq

def DecodeError.message : DecodeError → String
  | tooShort expected actual =>
    s!"account data too short: expected at least {expected} bytes, got {actual}"
  | discriminatorMismatch expected =>
    s!"discriminator does not match account type {expected.name}"
  | malformedBody fault => "failed to deserialize account body: " ++ fault.message
  | unsupportedSource source => s!"oracle source {source.name} cannot be decoded"
  | priceOverflow => "oracle price does not fit in price precision"

namespace AccountType

def discriminator (t : AccountType) : Bytes := LedgerWatch.discriminator t.name

def encode (t : AccountType) (value : t.Value) : Bytes :=
  t.discriminator ++ t.layout.encode value

def decode (t : AccountType) (data : Bytes) : Except DecodeError t.Value :=
  if data.length < discriminatorLength then
    .error (.tooShort discriminatorLength data.length)
  else if data.take discriminatorLength ≠ t.discriminator then
    .error (.discriminatorMismatch t)
  else
    match t.layout.decode (data.drop discriminatorLength) with
    | .error fault => .error (.malformedBody fault)
    | .ok (value, _) => .ok value

end AccountType

/-- What a watcher wants an account read as. -/
inductive RecordKind
  | state
  | perpMarket
  | spotMarket
  | user
  | oracle (source : Oracle.Source)
deriving DecidableEq

def RecordKind.text : RecordKind → String
  | state => "State"
  | perpMarket => "PerpMarket"
  | spotMarket => "SpotMarket"
  | user => "User"
  | oracle source => s!"Oracle({source.name})"

inductive Record
  | state (value : ExchangeState)
  | perpMarket (value : PerpMarket)
  | spotMarket (value : SpotMarket)
  | user (value : User)
  | oracle (value : Oracle.PriceData)
deriving DecidableEq

namespace Record

def kindName : Record → String
  | state _ => "state"
  | perpMarket _ => "perp market"
  | spotMarket _ => "spot market"
  | user _ => "user"
  | oracle _ => "oracle"

/-- A quote asset needs no account; prelaunch and pull sources have a layout each. -/
def decodeOracle (source : Oracle.Source) (data : Bytes) : Except DecodeError Oracle.PriceData :=
  if source = .quoteAsset then .ok Oracle.quotePrice
  else if source.isPrelaunch then
    (AccountType.decode .prelaunchOracle data).map Oracle.Prelaunch.priceData
  else if source.isPull then do
    let update ← AccountType.decode .priceUpdate data
    match Oracle.PriceUpdate.priceData? update source with
    | none => .error .priceOverflow
    | some price => .ok price
  else .error (.unsupportedSource source)

def decode (kind : RecordKind) (data : Bytes) : Except DecodeError Record :=
  match kind with
  | .state => (AccountType.decode .state data).map state
  | .perpMarket => (AccountType.decode .perpMarket data).map perpMarket
  | .spotMarket => (AccountType.decode .spotMarket data).map spotMarket
  | .user => (AccountType.decode .user data).map user
  | .oracle source => (decodeOracle source data).map oracle

end Record

end LedgerWatch
