/-!
# How serious an error is

Every error of the engine has a code, a message and a severity. The severity tells a front end
what to do with it: ask again, ask for a correction, report a fault of the rules, or stop.
-/

namespace GameTable

inductive Severity where
  /-- The same input may succeed later. -/
  | recoverable
  /-- The input has to be corrected first. -/
  | validation
  /-- The rules are at fault; the input cannot succeed until they change. -/
  | internal
  /-- The session cannot go on without an operator. -/
  | fatal
deriving DecidableEq, Repr

def Severity.name : Severity → String
  | .recoverable => "recoverable"
  | .validation => "validation"
  | .internal => "internal"
  | .fatal => "fatal"

/-- Errors with a stable code, a severity and a message. -/
class Coded (ε : Type) where
  code : ε → String
  severity : ε → Severity
  message : ε → String

end GameTable
