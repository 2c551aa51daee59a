/-
The ways in which a configuration cannot be made.
-/
import ClusterOutput.Duration
import ClusterOutput.Files.Path

namespace ClusterOutput

/-- What is wrong with the timeouts. -/
inductive TimeoutFault where
  | zeroTimeout
  | longTimeout
  | zeroConnectTimeout
  | connectLonger (connect timeout : Duration)
  deriving DecidableEq, Repr

/-- The longest timeout, in seconds. -/
def longestTimeout : Nat := 3600

/-- The most attempts for one request. -/
def mostRetries : Nat := 100

/-- The longest pause between attempts, in milliseconds. -/
def longestBackoff : Nat := 60000

def TimeoutFault.message : TimeoutFault → String
  | zeroTimeout => "timeout must be greater than 0 seconds"
  | longTimeout =>
    "timeout exceeds maximum allowed value of " ++ Text.ofNat longestTimeout ++ " seconds"
  | zeroConnectTimeout => "connect_timeout must be greater than 0 seconds"
  | connectLonger connect timeout =>
    "connect_timeout (" ++ Text.ofNat connect.seconds ++ "s) must not exceed timeout (" ++
      Text.ofNat timeout.seconds ++ "s)"

inductive ConfigError where
  | invalidValue (name message : String)
  | passwordWithoutUsername
  | fileMissing (path : Path)
  | fileRead (path : Path) (fault : FileFault)
  | fileParse (path : Path) (line column : Nat)
  | invalidTimeout (fault : TimeoutFault)
  | invalidMaxRetries (given : Nat)
  | invalidRetryBackoff
  /-- A line of the file of variables is malformed. The error does not hold the line, which may
  hold a password. -/
  | dotenvParse (position : Nat)
  | dotenvRead (fault : FileFault)
  deriving DecidableEq, Repr

def ConfigError.message : ConfigError → String
  | invalidValue name message => "Invalid value for " ++ name ++ ": " ++ message
  | passwordWithoutUsername => "A password is configured without a username"
  | fileMissing path => "Config file not found at " ++ Path.shown path
  | fileRead path fault =>
    "Failed to read config file at " ++ Path.shown path ++ ": " ++ fault.kind
  | fileParse path line column =>
    "Failed to parse config file at " ++ Path.shown path ++ " (line " ++ Text.ofNat line ++
      ", column " ++ Text.ofNat column ++ ")"
  | invalidTimeout fault => "invalid timeout: " ++ fault.message
  | invalidMaxRetries given =>
    "invalid max retries: must be between 0 and " ++ Text.ofNat mostRetries ++ " (got " ++
      Text.ofNat given ++ ")"
  | invalidRetryBackoff =>
    "invalid retry backoff: retry_backoff exceeds maximum allowed value of " ++
      Text.ofNat longestBackoff ++ " ms"
  | dotenvParse position =>
    "Failed to parse .env file at position " ++ Text.ofNat position ++
      ". Hint: set DOTENV_DISABLED=1 to skip .env loading"
  | dotenvRead fault => "Failed to read .env file: " ++ fault.kind

end ClusterOutput
