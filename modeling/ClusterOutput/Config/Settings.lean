/-
The settings of a client in full: how to reach a cluster, how to authenticate,
and the index that is used where none is named. Each has a JSON form, and a form
for diagnostics that shows no password.

In JSON the timeouts are whole seconds, and the pause between attempts is whole
milliseconds.
-/
import ClusterOutput.Credentials
import ClusterOutput.Duration
import ClusterOutput.Json.Record
import ClusterOutput.Json.Write
import ClusterOutput.Text.Diagnostic

namespace ClusterOutput

/-- How to reach a cluster. -/
structure ConnectionSettings where
  /-- May be empty: every request fails then. -/
  hosts : List String
  skipVerify : Bool
  /-- The most that one exchange may take. -/
  timeout : Duration
  connectTimeout : Duration
  /-- The most attempts for one request. -/
  maxRetries : Nat
  /-- The pause between two attempts. -/
  retryBackoff : Duration
  deriving DecidableEq

/-- How to authenticate. -/
structure AuthSettings where
  username : Option String
  password : Option Secret
  deriving DecidableEq

/-- The settings of a client. -/
structure Settings where
  connection : ConnectionSettings
  auth : AuthSettings
  /-- The index that is used where none is named. -/
  index : String
  deriving DecidableEq

/-! ## Defaults -/

def defaultHost : String := "http://localhost:9200"

def defaultIndex : String := "packetbeat"

/-- One node on this machine. -/
def ConnectionSettings.default : ConnectionSettings where
  hosts := [defaultHost]
  skipVerify := false
  timeout := .ofSeconds 30
  connectTimeout := .ofSeconds 10
  maxRetries := 3
  retryBackoff := .zero

def AuthSettings.anonymous : AuthSettings := ⟨none, none⟩

/-- A user name with a password. -/
def AuthSettings.basic (username : String) (password : Secret) : AuthSettings :=
  ⟨some username, some password⟩

/-- Neither a user name nor a password is set. -/
def AuthSettings.isAnonymous (a : AuthSettings) : Bool := a.username.isNone && a.password.isNone

def Settings.default : Settings := ⟨.default, .anonymous, defaultIndex⟩

/-- Default settings for some hosts. -/
def Settings.withHosts (hosts : List String) : Settings :=
  { Settings.default with connection := { ConnectionSettings.default with hosts := hosts } }

/-! ## Writing -/

/-- A text or `null`. -/
def Json.ofText? : Option String → Json
  | none => .null
  | some s => .str s

/-- Texts. -/
def Json.ofTexts (texts : List String) : Json := .arr (texts.map .str)

def ConnectionSettings.toJson (c : ConnectionSettings) : Json :=
  .obj
    [("hosts", .ofTexts c.hosts), ("skip_verify", .bool c.skipVerify),
      ("timeout", .int c.timeout.seconds), ("connect_timeout", .int c.connectTimeout.seconds),
      ("max_retries", .int c.maxRetries),
      ("retry_backoff", .int (c.retryBackoff.millis % Text.wordLimit))]

def AuthSettings.toJson (a : AuthSettings) : Json :=
  .obj
    [("username", .ofText? a.username), ("password", .ofText? (a.password.map (·.reveal)))]

def Settings.toJson (s : Settings) : Json :=
  .obj
    [("connection", s.connection.toJson), ("auth", s.auth.toJson), ("index", .str s.index)]

/-! ## Diagnostics -/

def ConnectionSettings.debugText (c : ConnectionSettings) : String :=
  Text.shownRecord "ConnectionConfig"
    [("hosts", Text.shownList (c.hosts.map Text.quoted)),
      ("skip_verify", Text.ofBool c.skipVerify), ("timeout", c.timeout.text),
      ("connect_timeout", c.connectTimeout.text), ("max_retries", Text.ofNat c.maxRetries),
      ("retry_backoff", c.retryBackoff.text)]

def AuthSettings.debugText (a : AuthSettings) : String :=
  Text.shownRecord "AuthConfig"
    [("username", Text.shownOption (a.username.map Text.quoted)),
      ("password", Text.shownOption (a.password.map (·.debugText)))]

def Settings.debugText (s : Settings) : String :=
  Text.shownRecord "OutputConfig"
    [("connection", s.connection.debugText), ("auth", s.auth.debugText),
      ("index", Text.quoted s.index)]

/-! ## Reading -/

/-- A number of seconds. -/
def readSeconds : Json.Reader Duration := fun nesting bytes => do
  let (n, rest) ← Json.readUnsigned "u64" nesting bytes
  .ok (.ofSeconds n, rest)

/-- A number of milliseconds. -/
def readMillis : Json.Reader Duration := fun nesting bytes => do
  let (n, rest) ← Json.readUnsigned "u64" nesting bytes
  .ok (.ofMillis n, rest)

/-- A password or `null`. -/
def readSecret? : Json.Reader (Option Secret) := fun nesting bytes => do
  let (s, rest) ← Json.readOptional Json.readText nesting bytes
  .ok (s.map (⟨·⟩), rest)

namespace ConnectionSettings

/-- The members seen so far. -/
structure Draft where
  hosts : Option (List String) := none
  skipVerify : Option Bool := none
  timeout : Option Duration := none
  connectTimeout : Option Duration := none
  maxRetries : Option Nat := none
  retryBackoff : Option Duration := none

def layout : Json.Layout Draft where
  name := "ConnectionConfig"
  blank := {}
  closed := false
  fields :=
    [ .of "hosts" true (Json.readList Json.readText) (·.hosts)
        fun v d => { d with hosts := some v },
      .of "skip_verify" true Json.readBool (·.skipVerify)
        fun v d => { d with skipVerify := some v },
      .of "timeout" true readSeconds (·.timeout) fun v d => { d with timeout := some v },
      .of "connect_timeout" true readSeconds (·.connectTimeout)
        fun v d => { d with connectTimeout := some v },
      .of "max_retries" true (Json.readUnsigned "usize") (·.maxRetries)
        fun v d => { d with maxRetries := some v },
      .of "retry_backoff" false readMillis (·.retryBackoff)
        fun v d => { d with retryBackoff := some v } ]

/-- Only the pause may be left out. -/
def Draft.complete (d : Draft) : ConnectionSettings where
  hosts := d.hosts.getD []
  skipVerify := d.skipVerify.getD false
  timeout := d.timeout.getD .zero
  connectTimeout := d.connectTimeout.getD .zero
  maxRetries := d.maxRetries.getD 0
  retryBackoff := d.retryBackoff.getD ConnectionSettings.default.retryBackoff

def read : Json.Reader ConnectionSettings := Json.readAs layout Draft.complete

end ConnectionSettings

namespace AuthSettings

/-- The members seen so far. -/
structure Draft where
  username : Option (Option String) := none
  password : Option (Option Secret) := none

def layout : Json.Layout Draft where
  name := "AuthConfig"
  blank := {}
  closed := false
  fields :=
    [ .of "username" false (Json.readOptional Json.readText) (·.username)
        fun v d => { d with username := some v },
      .of "password" false readSecret? (·.password) fun v d => { d with password := some v } ]

/-- What is left out is not set. -/
def Draft.complete (d : Draft) : AuthSettings where
  username := d.username.getD none
  password := d.password.getD none

def read : Json.Reader AuthSettings := Json.readAs layout Draft.complete

end AuthSettings

namespace Settings

/-- The members seen so far. -/
structure Draft where
  connection : Option ConnectionSettings := none
  auth : Option AuthSettings := none
  index : Option String := none

def layout : Json.Layout Draft where
  name := "OutputConfig"
  blank := {}
  closed := false
  fields :=
    [ .of "connection" true ConnectionSettings.read (·.connection)
        fun v d => { d with connection := some v },
      .of "auth" false AuthSettings.read (·.auth) fun v d => { d with auth := some v },
      .of "index" true Json.readText (·.index) fun v d => { d with index := some v } ]

/-- Only what concerns authentication may be left out. -/
def Draft.complete (d : Draft) : Settings where
  connection := d.connection.getD .default
  auth := d.auth.getD .anonymous
  index := d.index.getD ""

def read : Json.Reader Settings := Json.readAs layout Draft.complete

end Settings

end ClusterOutput
