import ResourceQuery.Filter.Draft
import ResourceQuery.Filter.Envelope
import ResourceQuery.Schema.Catalog
import ResourceQuery.Enumeration.Config

namespace ResourceQuery.Enumeration

structure SortKey where
  name : String
  ascending : Bool
  deriving DecidableEq, Repr

-- The request that opens an enumeration.
structure Opening where
  filter : String
  maxElements : Nat
  selection : List String
  sorting : List SortKey
  includeCount : Bool
  deriving DecidableEq, Repr

-- The number of bytes of the envelope that the filter is sent in.
def Opening.envelopeSize (o : Opening) : Nat :=
  (Envelope.wrap o.filter).utf8ByteSize

-- What is not set is left to the client's settings.
structure Search where
  filter : String
  pageSize : Option Int := none
  selection : List String := []
  sorting : List SortKey := []
  includeCount : Option Bool := none
  deriving DecidableEq, Repr

namespace Search

def maxElements (s : Search) (config : Config) : Nat :=
  match s.pageSize with
  | some hint => effectivePageSize hint
  | none => config.maxElements

def opening (s : Search) (config : Config) : Opening where
  filter := s.filter
  maxElements := s.maxElements config
  selection := s.selection
  sorting := s.sorting
  includeCount := s.includeCount.getD config.includeCount

-- A filter that is given as text or still has to be built.
inductive Source
  | text (filter : String)
  | expression (draft : ResourceQuery.Draft.Expression) (catalog : Catalog)

inductive Refinement
  | pageSize (hint : Int)
  | select (name : String)
  | selectOnly (names : List String)
  | sortBy (key : SortKey)
  | includeCount (counted : Bool)

def Source.filter : Source → Except FilterError String
  | text filter => .ok filter
  | expression draft catalog => do
    let built ← draft.resolve.answer catalog.toSchema
    return built.render

def refine (s : Search) : Refinement → Search
  | .pageSize hint => { s with pageSize := hint }
  | .select name => { s with selection := s.selection ++ [name] }
  | .selectOnly names => { s with selection := names }
  | .sortBy key => { s with sorting := s.sorting ++ [key] }
  | .includeCount counted => { s with includeCount := counted }

structure Draft where
  source : Source
  refinements : List Refinement := []

def Draft.resolve (d : Draft) : Except FilterError Search := do
  let filter ← d.source.filter
  return d.refinements.foldl refine { filter }

end Search

end ResourceQuery.Enumeration
