import ResourceQuery.Operator

namespace ResourceQuery

inductive AttributeType
  | integer
  | boolean
  | dateTime
  | reference
  | string
  | text
  | binary
  | unknown
  deriving DecidableEq, Repr

namespace AttributeType

def all : List AttributeType :=
  [integer, boolean, dateTime, reference, string, text, binary, unknown]

def name : AttributeType → String
  | integer => "Integer"
  | boolean => "Boolean"
  | dateTime => "DateTime"
  | reference => "Reference"
  | string => "String"
  | text => "Text"
  | binary => "Binary"
  | unknown => "Unknown"

def ofName? (name : String) : Option AttributeType :=
  all.find? (·.name = name)

def isQueryable : AttributeType → Bool
  | binary | unknown => false
  | _ => true

-- Ordered types have no substrings, texts have no order, and truth values and references can only
-- be told apart.
def allows : AttributeType → Operator → Bool
  | integer, o | dateTime, o => !o.isSubstring
  | boolean, o | reference, o => !o.isOrdering && !o.isSubstring
  | string, o | text, o => !o.isOrdering
  | binary, _ | unknown, _ => false

theorem allows_eq_false_of_not_isQueryable {t : AttributeType} (h : t.isQueryable = false)
    (o : Operator) : t.allows o = false := by
  cases t <;> simp_all [isQueryable, allows]

end AttributeType

-- What a schema says about an attribute.
structure Attribute where
  name : String
  type : AttributeType
  multivalued : Bool
  deriving DecidableEq, Repr

end ResourceQuery
