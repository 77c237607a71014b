import ContentAddress.Config
import ContentAddress.IoError

/-!
# Faults

Everything that can go wrong: a configuration that cannot be used, and a read that fails.
-/

namespace ContentAddress

open Text (Layout)

inductive Fault
  | io (error : IoError)
  | invalidConfig (fault : ConfigFault)
deriving DecidableEq, Repr

namespace Fault

def message : Fault → String
  | io error => "io error: " ++ error.text
  | invalidConfig fault => "invalid config: " ++ fault.message

/-- The text of the error behind the fault, if there is one. -/
def cause? : Fault → Option String
  | io error => some error.text
  | invalidConfig _ => none

def layout : Fault → Layout
  | io error => .wrap "Io" error.layout
  | invalidConfig fault =>
      .record "InvalidConfig" [("message", .atom (Text.quote fault.message))]

end Fault

end ContentAddress
