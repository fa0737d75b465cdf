import ResourceQuery.Attribute
import ResourceQuery.DateTime.Basic
import ResourceQuery.Uuid

namespace ResourceQuery

inductive Literal
  | integer (value : Int64)
  | boolean (value : Bool)
  | dateTime (value : DateTime)
  | string (value : String)
  | reference (value : Uuid)
  deriving DecidableEq

mutual

inductive Value
  | literal (value : Literal)
  | query (value : Query)

-- A comparison of one attribute, together with its text in the filter dialect.
structure Predicate where
  subject : Attribute
  operator : Operator
  value : Option Value
  negated : Bool
  text : String

inductive Node
  | predicate (predicate : Predicate)
  | group (connective : Connective) (negated : Bool) (children : List Node)

-- The resources of a type, all of them or those which meet a node.
structure Filter where
  objectType : String
  root : Option Node

-- Beside plain filters: the resources that matches refer to through `link`, and the resources above
-- or below matches in the hierarchy that `link` spans.
inductive Query
  | filter (filter : Filter)
  | dereferenced (filter : Filter) (link : Option String)
  | ascendant (objectType : String) (link : String) (target : Node)
  | descendant (objectType : String) (link : String) (target : Node)

end

def Literal.kind : Literal → String
  | .integer _ => "Integer"
  | .boolean _ => "Boolean"
  | .dateTime _ => "DateTime"
  | .string _ => "String"
  | .reference _ => "Reference"

def Value.kind : Value → String
  | .literal l => l.kind
  | .query _ => "Query"

def Query.objectType : Query → String
  | .filter f => f.objectType
  | .dereferenced f _ => f.objectType
  | .ascendant objectType _ _ => objectType
  | .descendant objectType _ _ => objectType

end ResourceQuery
