import ResourceQuery.Filter.Query

namespace ResourceQuery

namespace Builder

-- A group to which children are still added.
structure Frame where
  connective : Connective := .default
  negated : Bool := false
  children : List Node := []

namespace Frame

def add (f : Frame) (node : Node) : Frame :=
  { f with children := f.children ++ [node] }

def close (f : Frame) : Except FilterError Node :=
  Node.ofChildren f.connective f.negated f.children

end Frame

end Builder

-- The innermost open group comes first in `opened`. The frame of the query itself is never closed.
structure Builder where
  objectType : String
  root : Builder.Frame := {}
  opened : List Builder.Frame := []
  link : Option String := none

namespace Builder

def new (objectType : String) : Inquiry Builder := do
  Inquiry.validateObjectType objectType
  return { objectType }

-- The number of open groups.
def depth (b : Builder) : Nat :=
  b.opened.length

-- Adds a node to the innermost frame.
def node (b : Builder) (added : Node) : Builder :=
  match b.opened with
  | [] => { b with root := b.root.add added }
  | frame :: below => { b with opened := frame.add added :: below }

def predicate (b : Builder) (name : String) (operator : Operator) (value : Value) (negated : Bool) :
    Inquiry Builder := do
  return b.node (.predicate (← Predicate.new name operator (some value) negated))

def present (b : Builder) (name : String) : Inquiry Builder := do
  return b.node (.predicate (← Predicate.present name))

def notPresent (b : Builder) (name : String) : Inquiry Builder := do
  return b.node (.predicate (← Predicate.notPresent name))

def startGroup (b : Builder) (connective : Connective) (negated : Bool) : Builder :=
  { b with opened := { connective, negated } :: b.opened }

def endGroup (b : Builder) : Except FilterError Builder :=
  match b.opened with
  | [] => .error .unbalancedGroup
  | frame :: below => do
    let group ← frame.close
    return { b with opened := below }.node group

-- Chooses the connective between the nodes outside of all groups.
def rootConnective (b : Builder) (connective : Connective) : Builder :=
  { b with root.connective := connective }

def dereference (b : Builder) (link : String) : Inquiry Builder := do
  Inquiry.requireReference link
  return { b with link }

-- The condition built so far, once all groups are closed. Only nodes that are joined become a
-- group.
def finish (b : Builder) : Except FilterError (Option Node) :=
  if b.opened.isEmpty then
    match b.root.children with
    | [] => .ok none
    | [only] => .ok (some only)
    | children => .ok (some (.group b.root.connective false children))
  else
    .error (.unterminatedGroup b.depth)

def build (b : Builder) : Inquiry Query := do
  let root ← Inquiry.ofExcept b.finish
  let filter ← Filter.new b.objectType root
  match b.link with
  | none => return .filter filter
  | some link => filter.dereference (some link)

-- The condition built so far, if there is one.
def target (b : Builder) : Except FilterError Node := do
  match ← b.finish with
  | some root => return root
  | none => throw .emptyGroup

def buildAscending (b : Builder) (link : String) : Inquiry Query := do
  let target ← Inquiry.ofExcept b.target
  Query.ascending b.objectType link target

def buildDescending (b : Builder) (link : String) : Inquiry Query := do
  let target ← Inquiry.ofExcept b.target
  Query.descending b.objectType link target

end Builder

end ResourceQuery
