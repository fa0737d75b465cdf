import ResourceQuery.Enumeration.OnDemand
import ResourceQuery.Enumeration.Paged
import ResourceQuery.Enumeration.Stream

namespace ResourceQuery.Enumeration.Client

variable {ι ρ : Type}

def send (o : Opening) (s : Service ι) : Outcome (Answer ι) × Service ι :=
  match (s.note (.enumerate o)).enumerate o with
  | (.ok answer, s) =>
    (.ok answer, s.note (.enumerated answer.items.length answer.total answer.endOfSequence))
  | (.error error, s) => (.error error, s)

def enumerate (config : Config) (search : Search) (s : Service ι) :
    Outcome (Answer ι) × Service ι :=
  send (search.opening config) s

-- A pull outside of all sessions. Only the first answer of an enumeration tells the total.
def pull (context : String) (hint : Int) (s : Service ι) :
    Outcome (Answer ι) × Service ι :=
  let maxElements := effectivePageSize hint
  let (answer, s) := (s.note (.pull context maxElements)).pull context maxElements
  (answer.outcome.map ({ · with total := none }), s)

def release (context : String) (s : Service ι) : Service ι :=
  s.releaseQuietly context

-- The number of matches. The enumeration that is opened for it is released at once.
def count (config : Config) (search : Search) (s : Service ι) : Outcome Nat × Service ι :=
  match send { search.opening config with maxElements := 0, includeCount := true } s with
  | (.error error, s) => (.error error, s)
  | (.ok answer, s) =>
    let s :=
      match answer.context with
      | some context => if answer.endOfSequence then s else release context s
      | none => s
    match answer.total with
    | some total => (.ok total, s)
    | none => (.error (.decode "response carried no total count"), s)

-- A cursor on the matches, and the first page of them.
def openCursor (config : Config) (search : Search) (s : Service ι) :
    Outcome (Cursor × List ι) × Service ι :=
  match send (search.opening config) s with
  | (.error error, s) => (.error error, s)
  | (.ok answer, s) => (Cursor.ofAnswer answer (search.maxElements config), s)

def searchOnDemand (config : Config) (search : Search) (s : Service ι) :
    Outcome (OnDemand ι) × Service ι :=
  match openCursor config search s with
  | (.error error, s) => (.error error, s)
  | (.ok (cursor, buffer), s) => (.ok { cursor, buffer }, s)

def searchPaged (config : Config) (search : Search) (s : Service ι) :
    Outcome (Paged ι) × Service ι :=
  match openCursor config search s with
  | (.error error, s) => (.error error, s)
  | (.ok (cursor, initial), s) => (.ok { cursor, initial }, s)

-- A stream and the total that its enumeration was opened with. The worker has not started yet.
def searchStreaming (config : Config) (search : Search) (s : Service ι) :
    Outcome (Stream ι ρ × Option Nat) × Service ι :=
  match openCursor config search s with
  | (.error error, s) => (.error error, s)
  | (.ok (cursor, initial), s) => (.ok (.new cursor initial config.queueCapacity, cursor.total), s)

end ResourceQuery.Enumeration.Client
