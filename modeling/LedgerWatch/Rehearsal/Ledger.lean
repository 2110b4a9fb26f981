import LedgerWatch.Address
import LedgerWatch.Ledger
import LedgerWatch.Table

/-!
# A ledger in memory

The accounts a rehearsal reads, with a slot that moves only when it is told to. A read can be
made slow, made to fail, or, when it asks for several accounts, made to come back short. The
answer of a slow read is what the ledger holds when the read ends.
-/

namespace LedgerWatch.Rehearsal

structure Ledger where
  accounts : Table Address Bytes := {}
  slot : UInt64 := 1
  /-- How many reads were begun. -/
  reads : Nat := 0
  /-- What every read fails with at present. -/
  failure : Option LedgerError := none
  /-- How many accounts are missing from the end of each batch. -/
  short : Nat := 0
  /-- How long a read takes. -/
  delay : Nat := 0

namespace Ledger

/-- The accounts by ascending address. -/
def ascending (l : Ledger) : List (Address × Bytes) :=
  sortBy (fun a b => a.1.before b.1) l.accounts.entries

def reply (l : Ledger) : (request : Request) → request.Reply
  | .account address => ⟨l.accounts.get? address, l.slot⟩
  | .accounts addresses =>
    ⟨(addresses.map l.accounts.get?).take (addresses.length - l.short), l.slot⟩
  | .scan windows => ⟨l.ascending.filter fun entry => windows.all (·.accepts entry.2), l.slot⟩

def answer (l : Ledger) (request : Request) : request.Outcome :=
  match l.failure with
  | some error => .error error
  | none => .ok (l.reply request)

/-- Puts an account in place of any earlier one at the address. -/
def set (l : Ledger) (address : Address) (data : Bytes) : Ledger :=
  { l with accounts := l.accounts.insert address data }

def remove (l : Ledger) (address : Address) : Ledger :=
  { l with accounts := l.accounts.erase address }

end Ledger

end LedgerWatch.Rehearsal
