import ResourceQuery.Filter.Basic

namespace ResourceQuery

-- The negation of a text that stands in parentheses.
def negation (body : String) : String :=
  "(not" ++ body ++ ")"

namespace Node

-- A group of one child reads as the child, so it has no parentheses of its own.
def join (connective : Connective) : List String → String
  | [] => ""
  | [text] => text
  | texts => "(" ++ String.intercalate (" " ++ connective.text ++ " ") texts ++ ")"

mutual

def render : Node → String
  | .predicate p => p.text
  | .group connective negated children =>
    let body := join connective (renderAll children)
    if negated then negation body else body

def renderAll : List Node → List String
  | [] => []
  | node :: nodes => node.render :: renderAll nodes

end

end Node

def Filter.render (f : Filter) : String :=
  match f.root with
  | none => "/" ++ f.objectType
  | some root => "/" ++ f.objectType ++ "[" ++ root.render ++ "]"

-- The service names its functions from the point of view of the resources it returns, so the
-- ascendants of a target are the resources that have it among their descendants.
def Query.render : Query → String
  | .filter f => f.render
  | .dereferenced f none => f.render
  | .dereferenced f (some link) => f.render ++ "/" ++ link
  | .ascendant objectType link target =>
    "descendants(" ++ Filter.render ⟨objectType, target⟩ ++ ", '" ++ link ++ "')"
  | .descendant objectType link target =>
    "/" ++ objectType ++ "[descendant-in('" ++ link ++ "', " ++
      Filter.render ⟨objectType, target⟩ ++ ")]"

end ResourceQuery
