/-
The settings that a configuration file gives. Each may be left out or `null`;
others are refused.
-/
import ClusterOutput.Config.Settings

namespace ClusterOutput

/-- The settings in a file. -/
structure FileSettings where
  hosts : Option (List String)
  username : Option String
  password : Option Secret
  skipVerify : Option Bool
  timeoutSeconds : Option Nat
  connectTimeoutSeconds : Option Nat
  maxRetries : Option Nat
  retryBackoffMillis : Option Nat
  index : Option String
  deriving DecidableEq

/-- A number or `null`. -/
def Json.ofNat? : Option Nat → Json
  | none => .null
  | some n => .int n

/-- A boolean or `null`. -/
def Json.ofBool? : Option Bool → Json
  | none => .null
  | some b => .bool b

namespace FileSettings

def toJson (f : FileSettings) : Json :=
  .obj
    [("hosts", match f.hosts with | none => .null | some hosts => .ofTexts hosts),
      ("username", .ofText? f.username), ("password", .ofText? (f.password.map (·.reveal))),
      ("skip_verify", .ofBool? f.skipVerify), ("timeout_seconds", .ofNat? f.timeoutSeconds),
      ("connect_timeout_seconds", .ofNat? f.connectTimeoutSeconds),
      ("max_retries", .ofNat? f.maxRetries), ("retry_backoff_ms", .ofNat? f.retryBackoffMillis),
      ("index", .ofText? f.index)]

/-- What diagnostics show: all but the password. -/
def debugText (f : FileSettings) : String :=
  let number (n : Option Nat) : String := Text.shownOption (n.map Text.ofNat)
  Text.shownRecord "FileConfig"
    [("hosts", Text.shownOption (f.hosts.map fun hosts => Text.shownList (hosts.map Text.quoted))),
      ("username", Text.shownOption (f.username.map Text.quoted)),
      ("password", Text.shownOption (f.password.map (·.debugText))),
      ("skip_verify", Text.shownOption (f.skipVerify.map Text.ofBool)),
      ("timeout_seconds", number f.timeoutSeconds),
      ("connect_timeout_seconds", number f.connectTimeoutSeconds),
      ("max_retries", number f.maxRetries), ("retry_backoff_ms", number f.retryBackoffMillis),
      ("index", Text.shownOption (f.index.map Text.quoted))]

/-- The members seen so far. -/
structure Draft where
  hosts : Option (Option (List String)) := none
  username : Option (Option String) := none
  password : Option (Option Secret) := none
  skipVerify : Option (Option Bool) := none
  timeoutSeconds : Option (Option Nat) := none
  connectTimeoutSeconds : Option (Option Nat) := none
  maxRetries : Option (Option Nat) := none
  retryBackoffMillis : Option (Option Nat) := none
  index : Option (Option String) := none

def layout : Json.Layout Draft where
  name := "FileConfig"
  blank := {}
  closed := true
  fields :=
    [ .of "hosts" false (Json.readOptional (Json.readList Json.readText)) (·.hosts)
        fun v d => { d with hosts := some v },
      .of "username" false (Json.readOptional Json.readText) (·.username)
        fun v d => { d with username := some v },
      .of "password" false readSecret? (·.password) fun v d => { d with password := some v },
      .of "skip_verify" false (Json.readOptional Json.readBool) (·.skipVerify)
        fun v d => { d with skipVerify := some v },
      .of "timeout_seconds" false (Json.readOptional (Json.readUnsigned "u64")) (·.timeoutSeconds)
        fun v d => { d with timeoutSeconds := some v },
      .of "connect_timeout_seconds" false (Json.readOptional (Json.readUnsigned "u64"))
        (·.connectTimeoutSeconds) fun v d => { d with connectTimeoutSeconds := some v },
      .of "max_retries" false (Json.readOptional (Json.readUnsigned "usize")) (·.maxRetries)
        fun v d => { d with maxRetries := some v },
      .of "retry_backoff_ms" false (Json.readOptional (Json.readUnsigned "u64"))
        (·.retryBackoffMillis) fun v d => { d with retryBackoffMillis := some v },
      .of "index" false (Json.readOptional Json.readText) (·.index)
        fun v d => { d with index := some v } ]

/-- What is left out is not set. -/
def Draft.complete (d : Draft) : FileSettings where
  hosts := d.hosts.getD none
  username := d.username.getD none
  password := d.password.getD none
  skipVerify := d.skipVerify.getD none
  timeoutSeconds := d.timeoutSeconds.getD none
  connectTimeoutSeconds := d.connectTimeoutSeconds.getD none
  maxRetries := d.maxRetries.getD none
  retryBackoffMillis := d.retryBackoffMillis.getD none
  index := d.index.getD none

def read : Json.Reader FileSettings := Json.readAs layout Draft.complete

end FileSettings

end ClusterOutput
