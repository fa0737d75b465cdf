import ResourceQuery.Attribute
import ResourceQuery.Text.Name
import ResourceQuery.Text.Quoted

namespace ResourceQuery

inductive FilterError
  | unknownAttribute (name : String)
  | unknownObjectType (name : String)
  | invalidName (name : String) (fault : Name.Fault)
  | illegalOperator (subject : String) (type : AttributeType) (operator : Operator)
  | unqueryable (subject : String) (type : AttributeType)
  | illegalNegation (operator : Operator)
  | missingValue (subject : String) (operator : Operator)
  | unexpectedValue (subject : String) (operator : Operator)
  | valueTypeMismatch (subject : String) (type : AttributeType) (kind : String)
  | unrepresentable (text : String)
  | emptyGroup
  | notAReference (subject : String) (type : AttributeType)
  | unbalancedGroup
  | unterminatedGroup (groups : Nat)
  deriving DecidableEq, Repr

namespace FilterError

def message : FilterError → String
  | unknownAttribute name => s!"unknown attribute: {name}"
  | unknownObjectType name => s!"unknown object type: {name}"
  | invalidName name fault => s!"invalid name '{name}': " ++ fault.message
  | illegalOperator subject type operator =>
    s!"operator {operator.name} is not valid for {type.name} attribute '{subject}'"
  | unqueryable subject type => s!"attribute '{subject}' of type {type.name} cannot be queried"
  | illegalNegation operator => s!"operator {operator.name} cannot be negated"
  | missingValue subject operator => s!"operator {operator.name} on '{subject}' requires a value"
  | unexpectedValue subject operator =>
    s!"operator {operator.name} on '{subject}' does not take a value"
  | valueTypeMismatch subject type kind =>
    s!"{kind} value is not valid for {type.name} attribute '{subject}'"
  | unrepresentable text =>
    s!"value contains both single and double quotes and cannot be quoted: {text}"
  | emptyGroup => "predicate group is empty"
  | notAReference subject type => s!"attribute '{subject}' is {type.name}, expected Reference"
  | unbalancedGroup => "no open group to end"
  | unterminatedGroup groups => s!"{groups} group(s) left open"

end FilterError

namespace Name

def check (name : String) : Except FilterError Unit :=
  match fault? name with
  | none => .ok ()
  | some fault => .error (.invalidName name fault)

def checkObjectType (name : String) : Except FilterError Unit :=
  match objectTypeFault? name with
  | none => .ok ()
  | some fault => .error (.invalidName name fault)

end Name

namespace Quoted

def quote (text : String) : Except FilterError String :=
  match quote? text with
  | some quoted => .ok quoted
  | none => .error (.unrepresentable text)

end Quoted

end ResourceQuery
