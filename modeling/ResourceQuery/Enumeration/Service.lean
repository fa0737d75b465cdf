import ResourceQuery.Enumeration.Error
import ResourceQuery.Enumeration.Request
import ResourceQuery.Text.Listing

namespace ResourceQuery.Enumeration

-- How a context is listed.
def contextListing (context : String) : String :=
  Listing.alternative "EnumerationContext" context

structure Answer (ι : Type) where
  context : Option String := none
  items : List ι := []
  total : Option Nat := none
  endOfSequence : Bool := false
  deriving DecidableEq

-- The answer to a pull, and whether the caller's token is cancelled before it arrives.
structure PullAnswer (ι : Type) where
  outcome : Outcome (Answer ι)
  cancels : Bool := false

inductive Call
  | enumerate (opening : Opening)
  | pull (context : String) (maxElements : Nat)
  | release (context : String)
  deriving DecidableEq

inductive Note.Level
  | warn
  | debug
  | trace
  deriving DecidableEq

-- Lines of the log.
inductive Note
  | enumerate (opening : Opening)
  | enumerated (items : Nat) (total : Option Nat) (endOfSequence : Bool)
  | pull (context : String) (maxElements : Nat)
  | pulling (context : String) (maxElements : Nat)
  | pulled (items : Nat) (endOfSequence : Bool)
  | pullFailed (error : EnumerationError)
  | abandoned
  | releasing (context : String)
  | releaseFailed (context : String) (error : EnumerationError)
  | cancelled
  | buffered (items : Nat)
  | dequeued
  deriving DecidableEq

namespace Note

def level : Note → Level
  | releaseFailed _ _ => .warn
  | buffered _ | dequeued => .trace
  | _ => .debug

def message : Note → String
  | enumerate _ => "enumerate"
  | enumerated _ _ _ => "enumerate returned"
  | pull _ _ => "pull"
  | pulling _ _ => "pulling next page"
  | pulled _ _ => "pull returned"
  | pullFailed _ => "pull failed"
  | abandoned => "releasing abandoned enumeration"
  | releasing _ => "releasing enumeration context"
  | releaseFailed _ _ => "release failed; ignoring"
  | cancelled => "enumeration cancelled by consumer"
  | buffered _ => "buffered next page"
  | dequeued => "record dequeued"

def fields : Note → List (String × String)
  | enumerate o => [
      ("filter", o.filter),
      ("max_elements", toString o.maxElements),
      ("include_count", toString o.includeCount)
    ]
  | enumerated items total endOfSequence => [
      ("items", toString items),
      ("total_count", Listing.option (total.map toString)),
      ("end_of_sequence", toString endOfSequence)
    ]
  | pull context maxElements | pulling context maxElements => [
      ("context", context),
      ("max_elements", toString maxElements)
    ]
  | pulled items endOfSequence => [
      ("items", toString items),
      ("end_of_sequence", toString endOfSequence)
    ]
  | pullFailed error => [("error", error.message)]
  | releasing context => [("context", context)]
  | releaseFailed context error => [("context", context), ("error", error.message)]
  | buffered items => [("items", toString items)]
  | abandoned | cancelled | dequeued => []

-- Whether a note is in a log that goes as far as a level.
def isWithin (n : Note) : Level → Bool
  | .warn => n.level = .warn
  | .debug => n.level ≠ .trace
  | .trace => true

end Note

-- The service is a script with a list of answers for each kind of call, of which each call takes
-- the next, and the record of what has happened so far.
@[ext]
structure Service (ι : Type) where
  enumerates : List (Outcome (Answer ι)) := []
  pulls : List (PullAnswer ι) := []
  releases : List (Option EnumerationError) := []
  calls : List Call := []
  decoded : List ι := []
  notes : List Note := []

namespace Service

variable {ι : Type}

-- What a call gets that the script has no answer for.
def scriptExhausted : EnumerationError := .transport "script exhausted"

def note (s : Service ι) (n : Note) : Service ι :=
  { s with notes := s.notes ++ [n] }

-- Puts the notes back to those of an earlier state.
def forgetNotesSince (s before : Service ι) : Service ι :=
  { s with notes := before.notes }

def recordDecoding (s : Service ι) (item : ι) : Service ι :=
  { s with decoded := s.decoded ++ [item] }

def recordCall (s : Service ι) (c : Call) : Service ι :=
  { s with calls := s.calls ++ [c] }

def enumerate (s : Service ι) (o : Opening) : Outcome (Answer ι) × Service ι :=
  (s.enumerates.headD (.error scriptExhausted),
    { s.recordCall (.enumerate o) with enumerates := s.enumerates.tail })

def pull (s : Service ι) (context : String) (maxElements : Nat) : PullAnswer ι × Service ι :=
  (s.pulls.headD { outcome := .error scriptExhausted },
    { s.recordCall (.pull context maxElements) with pulls := s.pulls.tail })

-- Releases succeed when the script has no answer for them.
def release (s : Service ι) (context : String) : Option EnumerationError × Service ι :=
  (s.releases.headD none, { s.recordCall (.release context) with releases := s.releases.tail })

-- Releases a context and makes do with a note if that fails.
def releaseQuietly (s : Service ι) (context : String) : Service ι :=
  match (s.note (.releasing context)).release context with
  | (none, s) => s
  | (some error, s) => s.note (.releaseFailed context error)

end Service

end ResourceQuery.Enumeration
