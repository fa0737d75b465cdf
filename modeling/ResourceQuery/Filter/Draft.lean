import ResourceQuery.Filter.Builder
import ResourceQuery.Filter.Equality

namespace ResourceQuery.Draft

-- How the query of a builder comes about.
inductive Finish
  | build
  | ascending (link : String)
  | descending (link : String)
  deriving DecidableEq, Repr

mutual

inductive Value
  | literal (value : Literal)
  | query (value : Query)

inductive Node
  | predicate (name : String) (operator : Operator) (value : Option Value) (negated : Bool)
  | described (subject : Attribute) (operator : Operator) (value : Option Value) (negated : Bool)
  | group (connective : Connective) (negated : Bool) (children : List Node)

inductive Query
  | filter (objectType : String) (root : Option Node)
  | dereferenced (objectType : String) (root : Option Node) (link : Option String)
  | ascending (objectType : String) (link : String) (target : Node)
  | descending (objectType : String) (link : String) (target : Node)
  | built (objectType : String) (steps : List Step) (finish : Finish)

-- A listing changes nothing.
inductive Step
  | predicate (name : String) (operator : Operator) (value : Value) (negated : Bool)
  | present (name : String)
  | notPresent (name : String)
  | node (node : Node)
  | startGroup (connective : Connective) (negated : Bool)
  | endGroup
  | rootConnective (connective : Connective)
  | dereference (link : String)
  | list

end

def Finish.resolve (b : Builder) : Finish → Inquiry ResourceQuery.Query
  | build => b.build
  | ascending link => b.buildAscending link
  | descending link => b.buildDescending link

-- The parts are checked before what holds them, from left to right, and a builder's object type
-- before its steps.
mutual

def Value.resolve : Value → Inquiry ResourceQuery.Value
  | .literal value => return .literal value
  | .query value => return .query (← value.resolve)

def Value.resolveOption : Option Value → Inquiry (Option ResourceQuery.Value)
  | none => return none
  | some value => return some (← value.resolve)

def Node.resolve : Node → Inquiry ResourceQuery.Node
  | .predicate name operator value negated => do
    let value ← Value.resolveOption value
    return .predicate (← Predicate.new name operator value negated)
  | .described subject operator value negated => do
    let value ← Value.resolveOption value
    return .predicate (← Inquiry.ofExcept (Predicate.ofAttribute subject operator value negated))
  | .group connective negated children => do
    let children ← Node.resolveList children
    Inquiry.ofExcept (ResourceQuery.Node.ofChildren connective negated children)

def Node.resolveList : List Node → Inquiry (List ResourceQuery.Node)
  | [] => return []
  | node :: nodes => return (← node.resolve) :: (← Node.resolveList nodes)

def Node.resolveOption : Option Node → Inquiry (Option ResourceQuery.Node)
  | none => return none
  | some node => return some (← node.resolve)

def Query.resolve : Query → Inquiry ResourceQuery.Query
  | .filter objectType root => do
    let root ← Node.resolveOption root
    return .filter (← Filter.new objectType root)
  | .dereferenced objectType root link => do
    let root ← Node.resolveOption root
    let filter ← Filter.new objectType root
    filter.dereference link
  | .ascending objectType link target => do
    let target ← target.resolve
    ResourceQuery.Query.ascending objectType link target
  | .descending objectType link target => do
    let target ← target.resolve
    ResourceQuery.Query.descending objectType link target
  | .built objectType steps finish => do
    let builder ← Builder.new objectType
    let builder ← Step.resolveList steps builder
    finish.resolve builder

def Step.resolve : Step → Builder → Inquiry Builder
  | .predicate name operator value negated, b => do
    let value ← value.resolve
    b.predicate name operator value negated
  | .present name, b => b.present name
  | .notPresent name, b => b.notPresent name
  | .node node, b => return b.node (← node.resolve)
  | .startGroup connective negated, b => return b.startGroup connective negated
  | .endGroup, b => Inquiry.ofExcept b.endGroup
  | .rootConnective connective, b => return b.rootConnective connective
  | .dereference link, b => b.dereference link
  | .list, b => return b

def Step.resolveList : List Step → Builder → Inquiry Builder
  | [], b => return b
  | step :: steps, b => do
    let b ← step.resolve b
    Step.resolveList steps b

end

inductive Expression
  | node (node : Node)
  | query (query : Query)

end ResourceQuery.Draft

namespace ResourceQuery

-- What can be written in the dialect.
inductive Expression
  | node (node : Node)
  | query (query : Query)
  deriving DecidableEq

def Expression.render : Expression → String
  | node n => n.render
  | query q => q.render

namespace Draft.Expression

def resolve : Draft.Expression → Inquiry ResourceQuery.Expression
  | node n => do
    let n ← n.resolve
    return .node n
  | query q => do
    let q ← q.resolve
    return .query q

end Draft.Expression

end ResourceQuery
