import LedgerWatch.Account.Decode
import LedgerWatch.Ledger

/-!
# Watching accounts

A watch is for one kind of record and one filter: an account, a list of accounts, or the
program's accounts that pass some windows. A channel turns a filter into events: updates with raw
bytes, heartbeats when it hears from the ledger without news, and at last one closing. Each kind
of channel is a machine that takes inputs and puts outputs out; `runInputs` runs one.
-/

namespace LedgerWatch

inductive Filter
  | account (address : Address)
  | accounts (addresses : List Address)
  | program (windows : List Window)
deriving DecidableEq

structure WatchKey where
  kind : RecordKind
  filter : Filter
deriving DecidableEq

def WatchKey.text (key : WatchKey) : String :=
  let kind := key.kind.text
  match key.filter with
  | .account address => s!"{kind}@{address.text}"
  | .accounts addresses => s!"{kind}@[{addresses.length} accounts]"
  | .program windows => s!"{kind}@program[{windows.length} filters]"

/-- An account's bytes as a channel delivers them. -/
structure Update where
  address : Address
  data : Bytes
  slot : UInt64
deriving DecidableEq

inductive ChannelEvent
  | update (update : Update)
  | heartbeat
  | closed
deriving DecidableEq

/-- Takes inputs one after another, and gives all that is put out. -/
def runInputs {σ ι ο : Type} (step : σ → ι → σ × List ο) : σ → List ι → σ × List ο
  | state, [] => (state, [])
  | state, input :: rest =>
    let (state, outputs) := step state input
    let (state, more) := runInputs step state rest
    (state, outputs ++ more)

theorem runInputs_append {σ ι ο : Type} (step : σ → ι → σ × List ο) (state : σ)
    (first second : List ι) : runInputs step state (first ++ second) =
      ((runInputs step (runInputs step state first).1 second).1,
        (runInputs step state first).2 ++
          (runInputs step (runInputs step state first).1 second).2) := by
  induction first generalizing state with
  | nil => rfl
  | cons input rest ih => simp only [List.cons_append, runInputs, ih, List.append_assoc]

theorem runInputs_concat {σ ι ο : Type} (step : σ → ι → σ × List ο) (state : σ) (inputs : List ι)
    (input : ι) : runInputs step state (inputs ++ [input]) =
      ((step (runInputs step state inputs).1 input).1,
        (runInputs step state inputs).2 ++ (step (runInputs step state inputs).1 input).2) := by
  simp only [runInputs_append, runInputs, List.append_nil]

/-- The accounts present in one read of a filter. -/
abbrev FilterRead : Type := Except LedgerError (Stamped (List (Address × Bytes)))

namespace Filter

def request : Filter → Request
  | account address => .account address
  | accounts addresses => .accounts addresses
  | program windows => .scan windows

def present (addresses : List Address) (found : List (Option Bytes)) : List (Address × Bytes) :=
  (addresses.zip found).filterMap fun (address, data?) => data?.map fun data => (address, data)

/-- Leaves out what is absent. -/
def collect : (filter : Filter) → filter.request.Outcome → FilterRead
  | account address, outcome => outcome.map (·.map fun data? => present [address] [data?])
  | accounts addresses, outcome => outcome.map (·.map (present addresses))
  | program _, outcome => outcome

end Filter

end LedgerWatch
