import TopicDirectory.Text.Decimal

/-!
# Faults of connections
-/

namespace TopicDirectory.Link

/-- What the system reports of a connection. -/
inductive Cause
  | unexpectedEnd
  | refused
  | noSuchHost
  | addressInUse
  | reset
deriving DecidableEq, Repr

/-- The name of a cause. -/
def Cause.name : Cause → String
  | unexpectedEnd => "UnexpectedEof"
  | refused => "ConnectionRefused"
  | noSuchHost => "Uncategorized"
  | addressInUse => "AddrInUse"
  | reset => "BrokenPipe"

/-- Why a connection is of no use. -/
inductive Fault
  | system (cause : Cause)
  | invalidEndpoint (text : String)
  | frameTooLarge (size limit : Nat)
  | closed
  | timeout
  | notAdmitted (reason : String)
deriving DecidableEq, Repr

/-- The wording of a fault. -/
def Fault.message : Fault → String
  | system cause => "I/O error: " ++ cause.name
  | invalidEndpoint text => "invalid endpoint: " ++ text
  | frameTooLarge size limit =>
    "frame too large: " ++ String.ofList (Decimal.digits size) ++ " > "
      ++ String.ofList (Decimal.digits limit)
  | closed => "connection closed"
  | timeout => "request timed out"
  | notAdmitted reason => "subscription rejected: " ++ reason

end TopicDirectory.Link
