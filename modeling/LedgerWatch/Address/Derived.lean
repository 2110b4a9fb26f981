import LedgerWatch.Address
import LedgerWatch.Curve.Edwards25519
import LedgerWatch.Digest.Sha256
import LedgerWatch.Text.Utf8

/-!
# Derived addresses

The exchange's own accounts live at addresses computed from the program's address and a few
seeds. A candidate is the digest of the seeds, a bump byte, the program and a marker; the first
candidate, from bump 255 down, that is no point of the curve is the address, so that no key pair
can own it. `Place.preimage` is the digested byte string, stated apart from the digest.
-/

namespace LedgerWatch.Address

/-- The logical accounts of the exchange program. -/
inductive Place
  | state
  | signer
  | user (authority : Address) (subAccount : UInt16)
  | userStats (authority : Address)
  | perpMarket (index : UInt16)
  | spotMarket (index : UInt16)
  | spotMarketVault (index : UInt16)
  | insuranceFundVault (index : UInt16)
deriving DecidableEq

namespace Place

def word (n : UInt16) : Bytes := Bytes.ofNatLE 2 n.toNat

def label (text : String) : Bytes := Text.Utf8.encode text.toList

def seeds : Place → List Bytes
  | state => [label "drift_state"]
  | signer => [label "drift_signer"]
  | user authority subAccount => [label "user", authority.toBytes, word subAccount]
  | userStats authority => [label "user_stats", authority.toBytes]
  | perpMarket index => [label "perp_market", word index]
  | spotMarket index => [label "spot_market", word index]
  | spotMarketVault index => [label "spot_market_vault", word index]
  | insuranceFundVault index => [label "insurance_fund_vault", word index]

def marker : Bytes := label "ProgramDerivedAddress"

/-- What is digested: the seeds without separators, then bump, program and marker. -/
def preimage (place : Place) (program : Address) (bump : UInt8) : Bytes :=
  place.seeds.flatten ++ bump :: program.toBytes ++ marker

def candidate (place : Place) (program : Address) (bump : UInt8) : Bytes :=
  Digest.Sha256.digest (place.preimage program bump)

/-- The bumps in the order they are tried, 255 down to 1. -/
def bumps : List UInt8 :=
  (List.range 255).map fun i => UInt8.ofNat (255 - i)

/-- Falls back on bump 255 in the case, never met, that every candidate is a point. -/
def bump (place : Place) (program : Address) : UInt8 :=
  (bumps.find? fun b => !Curve.Edwards25519.isPoint (place.candidate program b)).getD 255

def address (place : Place) (program : Address) : Address :=
  ofBytes (place.candidate program (place.bump program))

end Place

end LedgerWatch.Address
