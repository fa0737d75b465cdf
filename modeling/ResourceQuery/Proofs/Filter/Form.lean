import ResourceQuery.Filter.Draft
import ResourceQuery.Proofs.Dialect.Writing

namespace ResourceQuery

open Dialect (Operand Condition Path)

def Literal.form : Literal → Operand
  | .integer i => .integer i.toInt
  | .boolean b => .boolean b
  | .dateTime t => .quoted t.format
  | .string s => .quoted s
  | .reference id => .quoted id.text

mutual

def Value.form : Value → Operand
  | .literal l => l.form
  | .query q => .path q.form

def Value.formOption : Option Value → Option Operand
  | none => none
  | some v => some v.form

-- An operator that is negative by itself and a negated predicate come to the same.
def Predicate.form : Predicate → Condition
  | ⟨subject, operator, value, negated, _⟩ =>
    .negateIf negated <| .negateIf operator.isNegative <|
      .comparison subject operator (Value.formOption value)

def Node.form : Node → Condition
  | .predicate p => p.form
  | .group connective negated children =>
    .negateIf negated (.join connective (Node.formAll children))

def Node.formAll : List Node → List Condition
  | [] => []
  | node :: nodes => node.form :: Node.formAll nodes

def Node.formOption : Option Node → Option Condition
  | none => none
  | some node => some node.form

def Filter.form (link : Option String) : Filter → Path
  | ⟨objectType, root⟩ => .selection objectType (Node.formOption root) link

def Query.form : Query → Path
  | .filter f => f.form none
  | .dereferenced f link => f.form link
  | .ascendant objectType link target => .ascendant objectType link target.form
  | .descendant objectType link target => .descendant objectType link target.form

end

def Expression.form : Expression → Dialect.Expression
  | .node n => .condition n.form
  | .query q => .path q.form

def Predicate.isRaw (type : AttributeType) : Option Value → Bool
  | some (.literal (.string s)) => type == .dateTime && !DateTime.isLiteral s
  | _ => false

mutual

def Value.isRawFree : Value → Bool
  | .literal _ => true
  | .query q => q.isRawFree

def Value.isRawFreeOption : Option Value → Bool
  | none => true
  | some v => v.isRawFree

def Predicate.isRawFree : Predicate → Bool
  | ⟨subject, _, value, _, _⟩ => !Predicate.isRaw subject.type value && Value.isRawFreeOption value

def Node.isRawFree : Node → Bool
  | .predicate p => p.isRawFree
  | .group _ _ children => Node.areRawFree children

def Node.areRawFree : List Node → Bool
  | [] => true
  | node :: nodes => node.isRawFree && Node.areRawFree nodes

def Node.isRawFreeOption : Option Node → Bool
  | none => true
  | some node => node.isRawFree

def Filter.isRawFree : Filter → Bool
  | ⟨_, root⟩ => Node.isRawFreeOption root

def Query.isRawFree : Query → Bool
  | .filter f => f.isRawFree
  | .dereferenced f _ => f.isRawFree
  | .ascendant _ _ target => target.isRawFree
  | .descendant _ _ target => target.isRawFree

end

def Expression.isRawFree : Expression → Bool
  | .node n => n.isRawFree
  | .query q => q.isRawFree

end ResourceQuery
