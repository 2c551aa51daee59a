/-
The ways in which a command fails, with what is told of them, and the exit
codes that tell them apart.
-/
import ClusterOutput.RequestError
import ClusterOutput.Text.Utf8

namespace ClusterOutput.Cli

/-- What the exit code of a run says. -/
inductive ExitCode where
  | success
  | generalError
  /-- The last attempt of a request met no answering node. -/
  | connectionError
  | notFound
  /-- The input or an answer is not what it has to be, or documents were rejected. -/
  | validationError
  /-- The last attempt of a request was answered with a status above 499. -/
  | serviceUnavailable
  | usage
  | interrupted
  deriving DecidableEq, Repr

def ExitCode.number : ExitCode → Nat
  | success => 0
  | generalError => 1
  | usage => 2
  | connectionError => 3
  | notFound => 4
  | validationError => 5
  | serviceUnavailable => 8
  | interrupted => 130

/-- Why an input cannot be opened or read. -/
inductive InputFault where
  | missing
  | belowFile
  | directory
  | notText (part : Utf8.BadPart)
  deriving DecidableEq, Repr

def InputFault.message : InputFault → String
  | missing => "No such file or directory (os error 2)"
  | belowFile => "Not a directory (os error 20)"
  | directory => "Is a directory (os error 21)"
  | notText ⟨start, some length⟩ =>
    "invalid utf-8 sequence of " ++ Text.ofNat length ++ " bytes from index " ++ Text.ofNat start
  | notText ⟨start, none⟩ => "incomplete utf-8 byte sequence from index " ++ Text.ofNat start

/-- Why a command failed. -/
inductive Failure where
  /-- A request failed, which was made for the reason given. -/
  | request (context : String) (error : RequestError)
  | input (context : String) (fault : InputFault)
  /-- There was no such document. -/
  | notFound (index id : String)
  | rejected (rejected total : Nat)
  /-- A line of the input is no JSON. -/
  | invalidLine (line : Nat) (error : Json.Error)

/-- The JSON error behind an error, which is told once more. -/
def jsonCause : RequestError → List String
  | .serialization e | .decode _ e => [e.message]
  | _ => []

/-- What happened, each part followed by its cause. -/
def Failure.chain : Failure → List String
  | request context error => [context, error.message] ++ jsonCause error
  | input context fault => [context, fault.message]
  | notFound index id => ["Document " ++ id ++ " not found in " ++ index]
  | rejected count total =>
    [Text.ofNat count ++ " of " ++ Text.ofNat total ++ " documents were rejected"]
  | invalidLine line error =>
    ["Invalid JSON on line " ++ Text.ofNat line ++ ": " ++ error.message, error.message]

def Failure.message (f : Failure) : String := ": ".intercalate f.chain

/-- The code for an error of a request. That all attempts failed counts as the last failure. -/
def codeOf : RequestError → ExitCode
  | .transport .. => .connectionError
  | .serverError .. => .serviceUnavailable
  | .serialization _ | .decode .. => .validationError
  | .cancelled => .interrupted
  | .retriesExhausted _ (some last) => codeOf last
  | .retriesExhausted _ none | .noConnections | .invalidUrl _ => .generalError

def Failure.code : Failure → ExitCode
  | request _ error => codeOf error
  | input .. => .generalError
  | notFound .. => .notFound
  | rejected .. | invalidLine .. => .validationError

/-- The run was interrupted. -/
def Failure.isInterruption : Failure → Bool
  | request _ .cancelled => true
  | _ => false

end ClusterOutput.Cli
