import ResourceQuery.Proofs.Filter.Validity
import ResourceQuery.Schema.Catalog

namespace ResourceQuery

mutual

def Value.draft : Value → Draft.Value
  | .literal l => .literal l
  | .query q => .query q.draft

def Value.draftOption : Option Value → Option Draft.Value
  | none => none
  | some v => some v.draft

def Predicate.draft : Predicate → Draft.Node
  | ⟨subject, operator, value, negated, _⟩ =>
    .described subject operator (Value.draftOption value) negated

def Node.draft : Node → Draft.Node
  | .predicate p => p.draft
  | .group connective negated children => .group connective negated (Node.draftList children)

def Node.draftList : List Node → List Draft.Node
  | [] => []
  | node :: nodes => node.draft :: Node.draftList nodes

def Node.draftOption : Option Node → Option Draft.Node
  | none => none
  | some node => some node.draft

def Query.draft : Query → Draft.Query
  | .filter ⟨objectType, root⟩ => .filter objectType (Node.draftOption root)
  | .dereferenced ⟨objectType, root⟩ link => .dereferenced objectType (Node.draftOption root) link
  | .ascendant objectType link target => .ascending objectType link target.draft
  | .descendant objectType link target => .descending objectType link target.draft

end

def Expression.draft : Expression → Draft.Expression
  | .node n => .node n.draft
  | .query q => .query q.draft

variable {p : Provider}

mutual

theorem Value.yields_draft : (v : Value) → v.Sound p → v.draft.resolve.Yields p v
  | .literal _, _ => .done
  | .query q, h => by
    simp only [Value.draft, Draft.Value.resolve, Inquiry.yields_bind_iff, Inquiry.yields_pure_iff]
    exact ⟨q, q.yields_draft h, rfl⟩

theorem Value.yields_draftOption : (v : Option Value) → Value.SoundOption p v →
    (Draft.Value.resolveOption (Value.draftOption v)).Yields p v
  | none, _ => .done
  | some v, h => by
    simp only [Value.draftOption, Draft.Value.resolveOption, Inquiry.yields_bind_iff,
      Inquiry.yields_pure_iff]
    exact ⟨v, v.yields_draft h, rfl⟩

theorem Predicate.yields_draft : (predicate : Predicate) → predicate.Sound p →
    predicate.draft.resolve.Yields p (.predicate predicate)
  | ⟨_, _, value, _, _⟩, h => by
    simp only [Predicate.draft, Draft.Node.resolve, Inquiry.yields_bind_iff,
      Inquiry.yields_ofExcept_iff, Inquiry.yields_pure_iff]
    exact ⟨value, Value.yields_draftOption value h.right, _, h.left, rfl⟩

theorem Node.yields_draft : (node : Node) → node.Sound p → node.draft.resolve.Yields p node
  | .predicate predicate, h => predicate.yields_draft h
  | .group _ _ children, h => by
    simp only [Node.draft, Draft.Node.resolve, Inquiry.yields_bind_iff,
      Inquiry.yields_ofExcept_iff]
    have hc : children.isEmpty = false := by simpa using h.left
    exact ⟨children, Node.yields_draftList children h.right, by simp [Node.ofChildren, hc]⟩

theorem Node.yields_draftList : (nodes : List Node) → Node.SoundList p nodes →
    (Draft.Node.resolveList (Node.draftList nodes)).Yields p nodes
  | [], _ => .done
  | node :: nodes, h => by
    simp only [Node.draftList, Draft.Node.resolveList, Inquiry.yields_bind_iff,
      Inquiry.yields_pure_iff]
    exact ⟨node, node.yields_draft h.left, nodes, Node.yields_draftList nodes h.right, rfl⟩

theorem Node.yields_draftOption : (root : Option Node) → Node.SoundOption p root →
    (Draft.Node.resolveOption (Node.draftOption root)).Yields p root
  | none, _ => .done
  | some node, h => by
    simp only [Node.draftOption, Draft.Node.resolveOption, Inquiry.yields_bind_iff,
      Inquiry.yields_pure_iff]
    exact ⟨node, node.yields_draft h, rfl⟩

theorem Query.yields_draft : (q : Query) → q.Sound p → q.draft.resolve.Yields p q
  | .filter ⟨_, root⟩, h => by
    simp only [Query.draft, Draft.Query.resolve, Inquiry.yields_bind_iff, Inquiry.yields_pure_iff]
    exact ⟨root, Node.yields_draftOption root h.right, _, Filter.yields_new h.left root, rfl⟩
  | .dereferenced ⟨_, root⟩ _, h => by
    simp only [Query.draft, Draft.Query.resolve, Inquiry.yields_bind_iff]
    exact ⟨root, Node.yields_draftOption root h.left.right, _,
      Filter.yields_new h.left.left root, Filter.yields_dereference _ h.right⟩
  | .ascendant _ _ target, h => by
    simp only [Query.draft, Draft.Query.resolve, Inquiry.yields_bind_iff]
    exact ⟨target, target.yields_draft h.right.right,
      Query.yields_traversal_iff.mpr ⟨h.left, h.right.left, rfl⟩⟩
  | .descendant _ _ target, h => by
    simp only [Query.draft, Draft.Query.resolve, Inquiry.yields_bind_iff]
    exact ⟨target, target.yields_draft h.right.right,
      Query.yields_traversal_iff.mpr ⟨h.left, h.right.left, rfl⟩⟩

end

namespace Expression

theorem yields_draft {x : Expression} (h : x.Sound p) : x.draft.resolve.Yields p x := by
  cases x
  case node n => exact Inquiry.yields_bind_iff.mpr ⟨n, n.yields_draft h, .done⟩
  case query q => exact Inquiry.yields_bind_iff.mpr ⟨q, q.yields_draft h, .done⟩

-- What can be built over a schema is exactly what is valid over it, at every depth and with the
-- stored texts. It is written as it is written plainly.
theorem obtainable_iff_valid (schema : Schema) (x : Expression) :
    ((∃ draft : Draft.Expression, draft.resolve.answer schema = .ok x) ↔
      x.Valid schema.toProvider) ∧
    (x.Valid schema.toProvider → x.render = x.plain) := by
  refine ⟨⟨fun ⟨draft, h⟩ => ?_, fun h => ⟨x.draft, ?_⟩⟩, render_eq_plain⟩
  · have hy := Inquiry.yields_toProvider_iff.mpr h
    exact sound_iff_valid.mp (Draft.Expression.sound_of_resolve hy)
  · exact Inquiry.yields_toProvider_iff.mp (yields_draft (sound_iff_valid.mpr h))

-- The managers of a search that compares a reference with a query and negates a group.
example :
    let schema := Catalog.toSchema {
      objectTypes := ["Person"]
      attributes := [
        ⟨"boss", .reference, false⟩, ⟨"age", .integer, false⟩, ⟨"name", .string, false⟩]
    }
    let others := Draft.Query.filter "Person"
      (some (.predicate "name" .contains (some (.literal (.string "it's"))) false))
    let draft := Draft.Expression.query (.built "Person" [
      .predicate "boss" .notEquals (.query others) false, .startGroup .or true,
      .predicate "age" .lessThan (.literal (.integer 18)) true, .present "name", .endGroup]
      (.ascending "boss"))
    (draft.resolve.answer schema).map plain =
      .ok ("descendants(/Person[((not(boss = /Person[(contains(name, \"it's\"))])) and " ++
        "(not((not(age < 18)) or (starts-with(name, '%')))))], 'boss')") :=
  rfl

end Expression

end ResourceQuery
