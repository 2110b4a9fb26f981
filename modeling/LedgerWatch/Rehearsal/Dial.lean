import LedgerWatch.Text.Url
import LedgerWatch.Watch.LogStream
import LedgerWatch.Watch.Push

/-!
# Dialling endpoints

A rehearsal has no network. A channel that dials an endpoint in one finds nobody there, unless
the endpoint's text is not a URL to begin with.
-/

namespace LedgerWatch.Rehearsal

def dial (url : String) : EndpointError :=
  if Text.Url.isAbsolute url then .unreachable else .badUrl

/-- Starts a push channel; the result of the start. -/
def startPush (url : String) (filter : Filter) : Option (Except SubscriptionError Unit) :=
  let channel : Push := { filter }
  (channel.run [.start, .connected (.error (dial url))]).2.findSome? fun output =>
    match output with
    | .started result => some result
    | _ => none

/-- Starts a log channel; the result of the start. -/
def startLogs (url : String) : Option (Except SubscriptionError Unit) :=
  let channel : LogStream := {}
  (channel.run [.start, .connected (.error (dial url))]).2.findSome? fun output =>
    match output with
    | .started result => some result
    | _ => none

end LedgerWatch.Rehearsal
