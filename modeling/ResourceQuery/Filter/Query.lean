import ResourceQuery.Filter.Predicate

namespace ResourceQuery

namespace Node

-- Groups are never empty.
def ofChildren (connective : Connective) (negated : Bool) (children : List Node) :
    Except FilterError Node :=
  if children.isEmpty then .error .emptyGroup else .ok (.group connective negated children)

def all (children : List Node) : Except FilterError Node :=
  ofChildren .and false children

def any (children : List Node) : Except FilterError Node :=
  ofChildren .or false children

end Node

namespace Filter

def new (objectType : String) (root : Option Node) : Inquiry Filter := do
  Inquiry.validateObjectType objectType
  return { objectType, root }

-- What the matches of a filter refer to, or the matches themselves if there is no link.
def dereference (f : Filter) (link : Option String) : Inquiry Query := do
  if let some name := link then
    Inquiry.requireReference name
  return .dereferenced f link

end Filter

namespace Query

def ascending (objectType link : String) (target : Node) : Inquiry Query := do
  Inquiry.validateObjectType objectType
  Inquiry.requireReference link
  return .ascendant objectType link target

def descending (objectType link : String) (target : Node) : Inquiry Query := do
  Inquiry.validateObjectType objectType
  Inquiry.requireReference link
  return .descendant objectType link target

end Query

end ResourceQuery
