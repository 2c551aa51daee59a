/-
Building a client and its pool from options, and replacing the nodes later.

A node is named by an absolute http or https URL with a host. White space around
it and slashes at its end are dropped; the rest is kept as it was written.
-/
import ClusterOutput.Client.Basic
import ClusterOutput.Config.Settings

namespace ClusterOutput

/-- The URL of a node as it is kept. -/
def normalizeHost (raw : String) : Except RequestError String :=
  let host := Text.trim raw
  match Url.parse host with
  | .error fault => .error (.invalidUrl (host ++ ": " ++ fault.message))
  | .ok url =>
    if url.isWeb then .ok (Text.trimSlashes host)
    else .error (.invalidUrl (host ++ ": expected an http(s) URL with a host"))

/-- The URLs of nodes as they are kept; the first that is none is reported. -/
def normalizeHosts : List String → Except RequestError (List String)
  | [] => .ok []
  | raw :: raws => do
    let host ← normalizeHost raw
    let hosts ← normalizeHosts raws
    .ok (host :: hosts)

/-- What a client is built from. -/
structure ClientOptions where
  hosts : List String
  credentials : Option Credentials
  skipVerify : Bool
  timeout : Duration
  connectTimeout : Duration
  maxRetries : Nat
  backoff : Duration
  collector : Option Collector
  carriesToken : Bool

namespace ClientOptions

/-- No nodes, and the default settings for all else. -/
def default : ClientOptions where
  hosts := []
  credentials := none
  skipVerify := false
  timeout := ConnectionSettings.default.timeout
  connectTimeout := ConnectionSettings.default.connectTimeout
  maxRetries := ConnectionSettings.default.maxRetries
  backoff := ConnectionSettings.default.retryBackoff
  collector := none
  carriesToken := false

/-- One more node. -/
def addHost (o : ClientOptions) (host : String) : ClientOptions :=
  { o with hosts := o.hosts ++ [host] }

/-- The credentials of settings: none without a user name, and an empty password where none is
set. -/
def credentialsOf (auth : AuthSettings) : Option Credentials :=
  auth.username.map fun username => ⟨username, auth.password.getD ⟨""⟩⟩

/-- Takes over settings. -/
def ofSettings (o : ClientOptions) (s : Settings) : ClientOptions :=
  { o with
    hosts := s.connection.hosts
    credentials := credentialsOf s.auth
    skipVerify := s.connection.skipVerify
    timeout := s.connection.timeout
    connectTimeout := s.connection.connectTimeout
    maxRetries := s.connection.maxRetries
    backoff := s.connection.retryBackoff }

/-- Certificates are to be left unchecked, but no node has one. -/
def uselessSkipVerify (o : ClientOptions) (hosts : List String) : Bool :=
  o.skipVerify && !hosts.any fun h => "https://".toList.isPrefixOf h.toList

/-- Builds a client, and its pool into a session. Nothing is built if a node has no right URL. -/
def build (o : ClientOptions) (s : Session) : Except RequestError (Client × Session) := do
  let hosts ← normalizeHosts o.hosts
  let s := if o.uselessSkipVerify hosts then s.log .skipVerifyUseless else s
  let s := if o.maxRetries = 0 then s.log .noAttempts else s
  .ok (⟨o.maxRetries, o.backoff, o.collector, o.carriesToken⟩, s.setConnections hosts o.credentials)

end ClientOptions

namespace Client

/-- Builds a client for nodes with the default options. -/
def ofHosts (hosts : List String) (credentials : Option Credentials) (s : Session) :
    Except RequestError (Client × Session) :=
  { ClientOptions.default with hosts := hosts, credentials := credentials }.build s

/-- Replaces the nodes for all clients of the session, or none of them if one has no right
URL. -/
def setConnections (urls : List String) (credentials : Option Credentials) (s : Session) :
    Except RequestError Unit × Session :=
  match normalizeHosts urls with
  | .error e => (.error e, s)
  | .ok hosts => (.ok (), s.setConnections hosts credentials)

/-- The client with the token of its run. -/
def withToken (c : Client) : Client := { c with carriesToken := true }

end Client

end ClusterOutput
