import ResourceQuery.FilterError

namespace ResourceQuery

inductive EnumerationError
  | filter (cause : FilterError)
  | fault (code reason : String)
  | transport (reason : String)
  | decode (reason : String)
  | exhausted
  | missingContext
  | spawn (reason : String)
  deriving DecidableEq, Repr

namespace EnumerationError

def message : EnumerationError → String
  | filter cause => "Filter error: " ++ cause.message
  | fault code reason => s!"Service fault {code}: {reason}"
  | transport reason => s!"Transport error: {reason}"
  | decode reason => s!"Decode error: {reason}"
  | exhausted => "Enumeration sequence is exhausted"
  | missingContext => "Response signalled more data without an enumeration context"
  | spawn reason => s!"Failed to spawn enumeration worker: {reason}"

end EnumerationError

abbrev Outcome (α : Type) := Except EnumerationError α

end ResourceQuery
