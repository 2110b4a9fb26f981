import LedgerWatch.Error
import LedgerWatch.Json.Read
import LedgerWatch.Json.Write

/-!
# Configuration

A configuration says which program is watched, where its ledger is read, at which commitment,
through which kind of channel, and when a silent channel is replaced. It is written as a JSON
object of seven fields. Reading takes them in any order, takes the default of each missing one,
skips other members, and also reads an array of the first few fields; `validate` then says what
is wrong with the values.
-/

namespace LedgerWatch

/-- How much of the ledger's agreement a read waits for. -/
inductive Commitment
  | processed
  | confirmed
  | finalized
deriving DecidableEq

namespace Commitment

def all : List Commitment := [processed, confirmed, finalized]

def name : Commitment → String
  | processed => "processed"
  | confirmed => "confirmed"
  | finalized => "finalized"

def ofName? (text : String) : Option Commitment := all.find? fun c => c.name == text

end Commitment

/-- How updates are obtained. -/
inductive ChannelMode
  | polling (frequency : UInt64)
  | websocket
  | logs
deriving DecidableEq

namespace ChannelMode

def defaultFrequency : UInt64 := 1000

def toJson : ChannelMode → Json
  | polling frequency =>
    .object [("type", .string "polling"), ("frequency_ms", .nat frequency.toNat)]
  | websocket => .object [("type", .string "websocket")]
  | logs => .object [("type", .string "logs")]

/-- How deep the whole text may nest where a channel is read. -/
def deepest : Nat := 127

def ofMembers? (members : List (String × Json)) : Option ChannelMode := do
  let tag ← (← Json.only "type" members).bind Json.text?
  if tag = "polling" then
    match ← Json.only "frequency_ms" members with
    | none => return polling defaultFrequency
    | some value => return polling (← value.u64?)
  else if tag = "websocket" then return websocket
  else if tag = "logs" then return logs
  else none

def ofItems? : List Json → Option ChannelMode
  | [tag] => do
    let tag ← tag.text?
    ofMembers? [("type", .string tag)]
  | [tag, frequency] => do
    guard ((← tag.text?) = "polling")
    return polling (← frequency.u64?)
  | _ => none

/-- An object with one `type`, or an array that begins with it. The value is one level down in
its text, and everything in it must be plain. -/
def ofJson? (value : Json) : Option ChannelMode := do
  guard (value.depth + 1 ≤ deepest ∧ value.isPlain)
  match value with
  | .arr items => ofItems? items
  | value => ofMembers? (← value.members?)

end ChannelMode

structure Config where
  programId : String := "G6EoTTTgpkNBtVXo96EQp2m6uwwVh2Kt6YidjkmQqoha"
  rpcUrl : String := "http://127.0.0.1:8899"
  wsUrl : String := "ws://127.0.0.1:8900"
  commitment : String := "confirmed"
  channel : ChannelMode := .websocket
  resubTimeout : Option UInt64 := none
  stallCheckInterval : UInt64 := 1000
deriving DecidableEq

namespace Config

instance : Inhabited Config := ⟨{}⟩

/-- The names of the fields in the order they are written. -/
def fieldNames : List String :=
  ["program_id", "rpc_url", "ws_url", "commitment", "channel", "resub_timeout_ms",
    "stall_check_interval_ms"]

def toJson (c : Config) : Json :=
  .object [
    ("program_id", .string c.programId),
    ("rpc_url", .string c.rpcUrl),
    ("ws_url", .string c.wsUrl),
    ("commitment", .string c.commitment),
    ("channel", c.channel.toJson),
    ("resub_timeout_ms", match c.resubTimeout with
      | some timeout => .nat timeout.toNat
      | none => .null),
    ("stall_check_interval_ms", .nat c.stallCheckInterval.toNat)]

def text (c : Config) : String := c.toJson.write

def optionalU64? : Json → Option (Option UInt64)
  | .null => some none
  | value => value.u64?.map some

/-- A field's value, its default when it is missing. A field must not come twice. -/
def field {α : Type} (members : List (String × Json)) (name : String) (default : α)
    (read : Json → Option α) : Option α := do
  match ← Json.only name members with
  | none => return default
  | some value => read value

def ofMembers? (members : List (String × Json)) : Option Config := do
  let d : Config := {}
  return {
    programId := ← field members "program_id" d.programId Json.text?
    rpcUrl := ← field members "rpc_url" d.rpcUrl Json.text?
    wsUrl := ← field members "ws_url" d.wsUrl Json.text?
    commitment := ← field members "commitment" d.commitment Json.text?
    channel := ← field members "channel" d.channel ChannelMode.ofJson?
    resubTimeout := ← field members "resub_timeout_ms" d.resubTimeout optionalU64?
    stallCheckInterval :=
      ← field members "stall_check_interval_ms" d.stallCheckInterval Json.u64? }

def ofJson? : Json → Option Config
  | .arr items =>
    if items.length ≤ fieldNames.length then ofMembers? (fieldNames.zip items) else none
  | value => value.members?.bind ofMembers?

/-- Reads a text without looking at the values. -/
def read (text : String) : Except ConfigFault Config :=
  match (Json.parse text).bind ofJson? with
  | some c => .ok c
  | none => .error .malformed

def program (c : Config) : Except ConfigFault Address :=
  match Address.parse c.programId with
  | .ok a => .ok a
  | .error e => .error (.badProgramId c.programId e)

def commitmentLevel (c : Config) : Except ConfigFault Commitment :=
  match Commitment.ofName? c.commitment with
  | some level => .ok level
  | none => .error (.unknownCommitment c.commitment)

def isPolling (c : Config) : Bool :=
  match c.channel with
  | .polling _ => true
  | _ => false

/-- The first fault of the values, in the order they are looked at. -/
def validate (c : Config) : Except ConfigFault Unit := do
  let _ ← c.program
  let _ ← c.commitmentLevel
  if c.rpcUrl = "" then throw .rpcUrlEmpty
  if !c.isPolling && c.wsUrl == "" then throw .wsUrlMissing
  if c.channel = .polling 0 then throw .pollingFrequencyZero
  if c.resubTimeout = some 0 then throw .resubTimeoutZero
  if c.stallCheckInterval = 0 then throw .stallCheckIntervalZero

/-- Reads a text and validates it. -/
def ofText (text : String) : Except ConfigFault Config := do
  let c ← read text
  c.validate
  return c

end Config

end LedgerWatch
