import ResourceQuery.Attribute

namespace ResourceQuery

-- The answer for a name may be an attribute of another name.
structure Schema where
  attribute? : String → Option Attribute
  hasObjectType : String → Bool

namespace Schema

-- What a name can be asked about as.
inductive Kind
  | attribute
  | objectType
  deriving DecidableEq, Repr

abbrev Kind.Answer : Kind → Type
  | .attribute => Option Attribute
  | .objectType => Bool

def tell (schema : Schema) : (kind : Kind) → String → kind.Answer
  | .attribute => schema.attribute?
  | .objectType => schema.hasObjectType

-- What a schema can be asked.
inductive Request
  | describe (name : String)
  | hasType (name : String)
  deriving DecidableEq, Repr

def Kind.request : Kind → String → Request
  | .attribute => .describe
  | .objectType => .hasType

end Schema

end ResourceQuery
