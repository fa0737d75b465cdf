import ResourceQuery.Text.Listing
import ResourceQuery.Filter.Builder

namespace ResourceQuery

open Listing

def Connective.listing : Connective → String
  | .and => "And"
  | .or => "Or"

def Literal.listing : Literal → String
  | .integer i => alternative "Integer" (toString i.toInt)
  | .boolean b => alternative "Boolean" (toString b)
  | .dateTime t => alternative "DateTime" t.listing
  | .string s => alternative "String" (Escaped.quoted s)
  | .reference id => alternative "Reference" id.text

def traversalListing (name objectType link target : String) : String :=
  alternative name <| record (name ++ "Expression") [
    ("traversal", record "Traversal" [
      ("object_type", Escaped.quoted objectType),
      ("hierarchy_attribute", Escaped.quoted link),
      ("target", target)
    ])
  ]

mutual

def Value.listing : Value → String
  | .literal l => l.listing
  | .query q => alternative "Query" q.listing

def Value.listingOption : Option Value → String
  | none => option none
  | some v => option (some v.listing)

def Predicate.listing : Predicate → String
  | ⟨subject, operator, value, negated, text⟩ => record "Predicate" [
      ("attribute", Escaped.quoted subject.name),
      ("operator", operator.name),
      ("value", Value.listingOption value),
      ("negate", toString negated),
      ("attribute_type", subject.type.name),
      ("multivalued", toString subject.multivalued),
      ("text", Escaped.quoted text)
    ]

def Node.listing : Node → String
  | .predicate p => alternative "Predicate" p.listing
  | .group connective negated children => alternative "Group" <| record "PredicateGroup" [
      ("children", list (Node.listingList children)),
      ("operator", connective.listing),
      ("negate", toString negated)
    ]

def Node.listingList : List Node → List String
  | [] => []
  | node :: nodes => node.listing :: Node.listingList nodes

def Node.listingOption : Option Node → String
  | none => option none
  | some node => option (some node.listing)

def Filter.listing : Filter → String
  | ⟨objectType, root⟩ => record "FilterExpression" [
      ("object_type", Escaped.quoted objectType),
      ("root", Node.listingOption root)
    ]

def Query.listing : Query → String
  | .filter f => alternative "Filter" f.listing
  | .dereferenced f link => alternative "Dereferenced" <| record "DereferencedExpression" [
      ("filter", f.listing),
      ("dereference_attribute", option (link.map Escaped.quoted))
    ]
  | .ascendant objectType link target =>
    traversalListing "Ascendant" objectType link target.listing
  | .descendant objectType link target =>
    traversalListing "Descendant" objectType link target.listing

end

namespace Builder

def Frame.listing (f : Frame) : String :=
  record "Frame" [
    ("operator", f.connective.listing),
    ("negate", toString f.negated),
    ("children", list (f.children.map Node.listing))
  ]

-- The outermost open group is listed first.
def listing (b : Builder) : String :=
  record "XPathBuilder" [
    ("object_type", Escaped.quoted b.objectType),
    ("root", b.root.listing),
    ("stack", list (b.opened.reverse.map Frame.listing)),
    ("dereference", option (b.link.map Escaped.quoted))
  ]

end Builder

end ResourceQuery
