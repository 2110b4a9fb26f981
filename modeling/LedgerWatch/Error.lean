import LedgerWatch.Account.Decode
import LedgerWatch.Ledger

/-!
# What can go wrong

Each layer has its own causes; `Failure` is what callers see. The wording of each is in its
`message`, and nothing else decides it.
-/

namespace LedgerWatch

/-- What an error is about. -/
inductive Subject
  | exchangeState
  | perpMarket (index : UInt16)
  | spotMarket (index : UInt16)
  | account (address : Address)
  | described (text : String)
deriving DecidableEq

def Subject.text : Subject → String
  | exchangeState => "exchange state"
  | perpMarket index => s!"perp market {index.toNat}"
  | spotMarket index => s!"spot market {index.toNat}"
  | account address => address.text
  | described text => text

/-- Why a push endpoint gave no subscription. -/
inductive EndpointError
  | badUrl
  | unreachable
  | refused (code : Int) (reason : String)
deriving DecidableEq

def EndpointError.message : EndpointError → String
  | badUrl => "url parse error"
  | unreachable => "unable to connect to server"
  | refused code reason => s!"subscribe failed: {reason} ({code})"

inductive SubscriptionError
  | endpoint (error : EndpointError)
  | ledger (error : LedgerError)
  | channelClosed (channel : String)
  | notActive (key : String)
deriving DecidableEq

def SubscriptionError.message : SubscriptionError → String
  | endpoint error => "pubsub error: " ++ error.message
  | ledger error => "ledger error: " ++ error.message
  | channelClosed channel =>
    s!"{channel} channel task ended before confirming the subscription"
  | notActive key => s!"subscription to {key} did not become active"

/-- Why a configuration is refused. -/
inductive ConfigFault
  | malformed
  | badProgramId (text : String) (error : Address.ParseError)
  | unknownCommitment (text : String)
  | rpcUrlEmpty
  | wsUrlMissing
  | pollingFrequencyZero
  | resubTimeoutZero
  | stallCheckIntervalZero
  | described (subject : Subject)
deriving DecidableEq

def ConfigFault.message : ConfigFault → String
  | malformed => "malformed config"
  | badProgramId text error => s!"program_id {text}: {error.message}"
  | unknownCommitment text => s!"unknown commitment {text}"
  | rpcUrlEmpty => "rpc_url is empty"
  | wsUrlMissing => "ws_url is required for websocket and logs channels"
  | pollingFrequencyZero => "polling frequency must be non-zero"
  | resubTimeoutZero => "resub_timeout_ms must be non-zero"
  | stallCheckIntervalZero => "stall_check_interval_ms must be non-zero"
  | described subject => subject.text

inductive Failure
  | notLoaded (subject : Subject)
  | missingDependency (subject : Subject)
  | invalidConfig (fault : ConfigFault)
  | ledger (error : LedgerError)
  | decode (error : DecodeError)
  | subscription (error : SubscriptionError)
deriving DecidableEq

def Failure.message : Failure → String
  | notLoaded subject => "Record not loaded: " ++ subject.text
  | missingDependency subject => "Missing dependency: " ++ subject.text
  | invalidConfig fault => "Invalid config: " ++ fault.message
  | ledger error => "Ledger error: " ++ error.message
  | decode error => "Decode error: " ++ error.message
  | subscription error => "Subscription error: " ++ error.message

end LedgerWatch
