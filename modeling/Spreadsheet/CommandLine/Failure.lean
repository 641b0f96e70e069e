import Spreadsheet.CommandLine.Arguments
import Spreadsheet.Document

namespace Spreadsheet

inductive Failure
  | usage (e : UsageError)
  | document (e : DocumentError)
  | io (reason : String)
  | other (text : String)
  | inContext (context : String) (failure : Failure)
deriving DecidableEq, Repr

namespace Failure

def exitCode : Failure → Nat
  | usage _ => 1
  | document (.notFound _) => 1
  | document (.notReadable _) => 1
  | document (.io _) => 2
  | document (.load _) => 3
  | document (.print _) => 4
  | io _ => 2
  | other _ => 1
  | inContext _ failure => failure.exitCode

/-- The messages of a failure, from the outermost to what is behind it all. -/
def chain : Failure → List String
  | usage e => [e.message]
  | document e => e.message :: e.cause?.toList
  | io reason => [reason]
  | other text => [text]
  | inContext context failure => context :: failure.chain

def message (failure : Failure) : String :=
  failure.chain.head?.getD ""

def line (failure : Failure) : String :=
  "Error: " ++ ": ".intercalate failure.chain

end Failure

end Spreadsheet
