import LedgerWatch.Account
import LedgerWatch.Table

/-!
# Recently submitted markets

When a submission lands, the slot is noted for each market it wrote, perp and spot apart. An
entry only ever grows. `retainFresh` lists the markets noted after a slot and drops the others;
it looks once and then drops entry by entry, each only if it is still not fresh, so that a
submission noted in between is kept.
-/

namespace LedgerWatch

structure Slots where
  perp : Table UInt16 UInt64 := {}
  spot : Table UInt16 UInt64 := {}
deriving DecidableEq

namespace Slots

def of (s : Slots) : MarketKind → Table UInt16 UInt64
  | .perp => s.perp
  | .spot => s.spot

def withTable (s : Slots) (kind : MarketKind) (t : Table UInt16 UInt64) : Slots :=
  match kind with
  | .perp => { s with perp := t }
  | .spot => { s with spot := t }

def get? (s : Slots) (kind : MarketKind) (index : UInt16) : Option UInt64 := (s.of kind).get? index

/-- Notes a slot; a lower one than already noted changes nothing. -/
def set (s : Slots) (kind : MarketKind) (index : UInt16) (slot : UInt64) : Slots :=
  let slot := match s.get? kind index with
    | some noted => max noted slot
    | none => slot
  s.withTable kind ((s.of kind).insert index slot)

def size (s : Slots) : Nat := s.perp.size + s.spot.size

def isEmpty (s : Slots) : Bool := s.perp.size == 0 && s.spot.size == 0

/-- The entries of one kind by ascending index. -/
def snapshot (s : Slots) (kind : MarketKind) : List (UInt16 × UInt64) :=
  sortBy (fun a b => a.1 < b.1) (s.of kind).entries

/-- Drops the entry if its slot is still not above `freshness`. -/
def dropStale (freshness : UInt64) (kind : MarketKind) (s : Slots) (index : UInt16) : Slots :=
  match s.get? kind index with
  | some noted => if noted ≤ freshness then s.withTable kind ((s.of kind).erase index) else s
  | none => s

def isFresh (freshness : UInt64) (entry : UInt16 × UInt64) : Bool := freshness < entry.2

/-- The indexes noted after `freshness`, ascending, and what is kept. -/
def retainFresh (s : Slots) (kind : MarketKind) (freshness : UInt64) : List UInt16 × Slots :=
  let (fresh, stale) := (s.snapshot kind).partition (isFresh freshness)
  (fresh.map Prod.fst, (stale.map Prod.fst).foldl (dropStale freshness kind) s)

/-- Notes one slot for several markets. -/
def record (s : Slots) (perp spot : List UInt16) (slot : UInt64) : Slots :=
  spot.foldl (fun s index => s.set .spot index slot)
    (perp.foldl (fun s index => s.set .perp index slot) s)

end Slots

end LedgerWatch
