import ResourceQuery.Enumeration.Request
import ResourceQuery.Json.Basic

namespace ResourceQuery

namespace Json

def text? : Json → Option String
  | text s => s
  | _ => none

def boolean? : Json → Option Bool
  | boolean b => some b
  | _ => none

-- The name of an alternative, by itself or as the only key of an object with the value null.
def alternative? : Json → Option String
  | text s => s
  | object [(name, null)] => name
  | _ => none

-- The value of a field that stands in an object exactly once.
def field? (fields : List (Option String × Json)) (name : String) : Option Json :=
  match fields.filter (·.1 = some name) with
  | [(_, value)] => some value
  | _ => none

-- The values of the named fields, which stand in an object among others or are all of an array.
def structure? (names : List String) : Json → Option (List Json)
  | array items => if items.length = names.length then some items else none
  | object fields => if fields.all (·.1.isSome) then names.mapM (field? fields) else none
  | _ => none

end Json

open Enumeration

inductive Record
  | attributeType (value : AttributeType)
  | operator (value : Operator)
  | connective (value : Connective)
  | descriptor (value : Attribute)
  | sortKey (value : SortKey)

namespace Record

inductive Kind
  | attributeType
  | operator
  | connective
  | descriptor
  | sortKey
  deriving DecidableEq, Repr

def attributeType? (v : Json) : Option AttributeType := do
  AttributeType.ofName? (← v.alternative?)

def operator? (v : Json) : Option Operator := do
  Operator.ofName? (← v.alternative?)

def connective? (v : Json) : Option Connective := do
  Connective.ofText? (← v.alternative?)

def attribute? (v : Json) : Option Attribute := do
  match ← v.structure? ["name", "attribute_type", "multivalued"] with
  | [name, type, multivalued] =>
    let name ← name.text?
    let type ← attributeType? type
    let multivalued ← multivalued.boolean?
    return { name, type, multivalued }
  | _ => none

def sortKey? (v : Json) : Option SortKey := do
  match ← v.structure? ["attribute", "ascending"] with
  | [name, ascending] =>
    let name ← name.text?
    let ascending ← ascending.boolean?
    return { name, ascending }
  | _ => none

def ofJson? (v : Json) : Kind → Option Record
  | .attributeType => attributeType <$> attributeType? v
  | .operator => operator <$> operator? v
  | .connective => connective <$> connective? v
  | .descriptor => descriptor <$> attribute? v
  | .sortKey => sortKey <$> sortKey? v

def read? (kind : Kind) (input : String) : Option Record := do
  ofJson? (← Json.parse? input) kind

end Record

end ResourceQuery
