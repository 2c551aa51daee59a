/-
Passwords, which diagnostics never show, and the credentials made with them.
-/
import ClusterOutput.Text.Base64

namespace ClusterOutput

/-- A password. Its text is used to authenticate and to write configurations, nothing else. -/
structure Secret where
  reveal : String
  deriving DecidableEq

/-- What diagnostics show of a password, whichever it is. -/
def Secret.debugText (_ : Secret) : String := "SecretBox<str>([REDACTED])"

/-- A user name with its password. -/
structure Credentials where
  username : String
  password : Secret
  deriving DecidableEq

/-- The value of the header that authenticates by user name and password. -/
def basicAuthorization (username password : String) : String :=
  "Basic " ++ String.ofList (Text.base64 (Utf8.encode (username ++ ":" ++ password)))

def Credentials.authorization (c : Credentials) : String :=
  basicAuthorization c.username c.password.reveal

end ClusterOutput
