import ContentAddress.BlobId
import ContentAddress.IoError

/-!
# Events

What happens while content is identified is reported as events.  Each event has a level, and a
listener with a limit hears exactly the events at least as severe as the limit.
-/

namespace ContentAddress

/-- How severe an event is, from the most severe to the least. -/
inductive Level
  | error | warn | info | debug | trace
deriving DecidableEq, Repr

namespace Level

/-- Position in the order of severity; a larger number is less severe. -/
def verbosity : Level → Nat
  | error => 0
  | warn => 1
  | info => 2
  | debug => 3
  | trace => 4

/-- Whether a listener with this limit hears an event of the given level. -/
def admits (limit level : Level) : Bool := level.verbosity ≤ limit.verbosity

def name : Level → String
  | error => "ERROR"
  | warn => "WARN"
  | info => "INFO"
  | debug => "DEBUG"
  | trace => "TRACE"

def ofName? (text : String) : Option Level :=
  [error, warn, info, debug, trace].find? fun level => level.name.toLower = text

end Level

inductive Event
  /-- A chunk was taken over; `index` counts the chunks from zero. -/
  | appending (index length : Nat)
  | readerStopped (error : IoError) (bytesRead : Nat)
  | complete (chunks bytes : Nat) (id : BlobId) (algorithm : Algorithm)
deriving DecidableEq, Repr

inductive FieldValue
  | number (n : Nat)
  | text (text : String)
deriving DecidableEq, Repr

namespace Event

def level : Event → Level
  | appending .. => .trace
  | readerStopped .. => .warn
  | complete .. => .debug

def message : Event → String
  | appending .. => "appending chunk"
  | readerStopped .. => "reader source stopped on i/o error"
  | complete .. => "put complete"

def fields : Event → List (String × FieldValue)
  | appending index length => [("index", .number index), ("len", .number length)]
  | readerStopped error bytesRead =>
      [("error", .text error.text), ("bytes_read", .number bytesRead)]
  | complete chunks bytes id algorithm =>
      [("chunks", .number chunks), ("bytes", .number bytes), ("blob_id", .text id.hex),
        ("algorithm", .text algorithm.name)]

/-- The events that a listener with the given limit hears, in their order. -/
def heard (limit : Level) (events : List Event) : List Event :=
  events.filter fun event => limit.admits event.level

end Event

end ContentAddress
