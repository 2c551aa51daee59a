/-
What is logged: a level, a message, and fields with their texts.

No event is made of a password.
-/
import ClusterOutput.RequestError
import ClusterOutput.Text.Quoted

namespace ClusterOutput

inductive LogLevel where
  | debug
  | info
  | warn
  deriving DecidableEq, Repr

def LogLevel.label : LogLevel → String
  | debug => "DEBUG"
  | info => "INFO"
  | warn => "WARN"

/-- A step in the life of a client, a pool, a configuration or a command. -/
inductive Event where
  | poolEmpty
  | poolConfigured (connections : Nat) (authenticated : Bool)
  | liveSelected (url : String)
  | oldestDeadSelected (url : String) (failures : Nat)
  | staleMarkDead (url : String)
  | staleMarkLive (url : String)
  | markedDead (url : String)
  | stillDead (url : String) (failures : Nat)
  | recovered (url : String)
  | skipVerifyUseless
  | noAttempts
  | attemptsSetToNone
  | sending (attempt limit : Nat) (method url : String)
  | succeededAfterRetry (attempt : Nat)
  | attemptFailed (attempt limit : Nat) (connection : String) (error : RequestError)
  | givenUp (attempts : Nat) (method path : String)
  | indexing (method path : String)
  | deleting (path : String)
  | creatingIndex (path : String)
  | searching (path : String)
  | noDefaultFile (path : String)
  | fileLoaded (path : String)
  | noHosts
  | documentRejected (line : Nat) (response : String)
  | shippingFinished (indexed rejected : Nat) (index : String)
  | deletionStarted (index id : String)
  | creationStarted (index : String)
  | searchStarted (index query : String)
  | interrupted

namespace Event

def level : Event → LogLevel
  | poolConfigured .. | recovered _ | shippingFinished .. | deletionStarted .. | creationStarted _
  | searchStarted .. => .info
  | poolEmpty | markedDead _ | skipVerifyUseless | noAttempts | attemptsSetToNone
  | attemptFailed .. | givenUp .. | noHosts | documentRejected .. => .warn
  | liveSelected _ | oldestDeadSelected .. | staleMarkDead _ | staleMarkLive _ | stillDead ..
  | sending .. | succeededAfterRetry _ | indexing .. | deleting _ | creatingIndex _ | searching _
  | noDefaultFile _ | fileLoaded _ | interrupted => .debug

def message : Event → String
  | poolEmpty => "Connection pool configured with no endpoints"
  | poolConfigured .. => "Connection pool configured"
  | liveSelected _ => "Selected live connection"
  | oldestDeadSelected .. => "No live connections, retrying oldest dead connection"
  | staleMarkDead _ => "Ignoring mark_dead for a replaced connection"
  | staleMarkLive _ => "Ignoring mark_live for a replaced connection"
  | markedDead _ => "Connection marked dead"
  | stillDead .. => "Connection still dead"
  | recovered _ => "Connection recovered"
  | skipVerifyUseless =>
    "skip_verify=true has no effect on HTTP URLs. " ++
      "TLS verification only applies to HTTPS connections."
  | noAttempts => "max_retries is 0; every request will fail without being sent"
  | attemptsSetToNone => "max_retries set to 0; every request will fail without being sent"
  | sending .. => "Sending request"
  | succeededAfterRetry _ => "Request succeeded after retry"
  | attemptFailed .. => "Request attempt failed"
  | givenUp .. => "Request fails to be sent after all retries"
  | indexing .. => "Indexing document"
  | deleting _ | deletionStarted .. => "Deleting document"
  | creatingIndex _ | creationStarted _ => "Creating index"
  | searching _ | searchStarted .. => "Searching"
  | noDefaultFile _ => "No config file at default location"
  | fileLoaded _ => "Loaded config file"
  | noHosts => "No cluster hosts configured; every request will fail"
  | documentRejected .. => "Document rejected"
  | shippingFinished .. => "Finished shipping documents"
  | interrupted => "Received Ctrl+C, cancelling"

def fields : Event → List (String × String)
  | poolConfigured connections authenticated =>
    [("connections", Text.ofNat connections), ("authenticated", Text.ofBool authenticated)]
  | liveSelected url | staleMarkDead url | staleMarkLive url | markedDead url | recovered url =>
    [("url", url)]
  | oldestDeadSelected url failures | stillDead url failures =>
    [("url", url), ("failures", Text.ofNat failures)]
  | sending attempt limit method url =>
    [("attempt", Text.ofNat attempt), ("max_retries", Text.ofNat limit), ("method", method),
      ("url", url)]
  | succeededAfterRetry attempt => [("attempt", Text.ofNat attempt)]
  | attemptFailed attempt limit connection error =>
    [("attempt", Text.ofNat attempt), ("max_retries", Text.ofNat limit),
      ("connection", connection), ("error", error.message)]
  | givenUp attempts method path =>
    [("attempts", Text.ofNat attempts), ("method", method), ("path", path)]
  | indexing method path => [("method", method), ("path", path)]
  | deleting path | creatingIndex path | searching path | noDefaultFile path | fileLoaded path =>
    [("path", path)]
  | documentRejected line response => [("line", Text.ofNat line), ("response", response)]
  | shippingFinished indexed rejected index =>
    [("indexed", Text.ofNat indexed), ("rejected", Text.ofNat rejected), ("index", index)]
  | deletionStarted index id => [("index", index), ("id", id)]
  | creationStarted index => [("index", index)]
  | searchStarted index query => [("index", index), ("query", query)]
  | poolEmpty | skipVerifyUseless | noAttempts | attemptsSetToNone | noHosts | interrupted => []

end Event

end ClusterOutput
