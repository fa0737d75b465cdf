import ResourceQuery.Schema.Basic

namespace ResourceQuery

-- Attributes have one entry for each name. An alias is asked for by its first component and comes
-- before the attributes.
structure Catalog where
  objectTypes : List String := []
  attributes : List Attribute := []
  aliases : List (String × Attribute) := []

namespace Catalog

-- A later attribute replaces an earlier one of the same name.
def insert (c : Catalog) (added : Attribute) : Catalog :=
  { c with attributes := c.attributes.filter (·.name != added.name) ++ [added] }

def ofLists (objectTypes : List String) (attributes : List Attribute)
    (aliases : List (String × Attribute)) : Catalog :=
  attributes.foldl insert { objectTypes, aliases }

def attribute? (c : Catalog) (name : String) : Option Attribute :=
  match c.aliases.lookup name with
  | some found => some found
  | none => c.attributes.find? (·.name = name)

def hasObjectType (c : Catalog) (name : String) : Bool :=
  c.objectTypes.contains name

def toSchema (c : Catalog) : Schema where
  attribute? := c.attribute?
  hasObjectType := c.hasObjectType

-- Aliases do not count.
def attributeCount (c : Catalog) : Nat :=
  c.attributes.length

end Catalog

end ResourceQuery
