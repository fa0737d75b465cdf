import ResourceQuery.DateTime.Format
import ResourceQuery.DateTime.Literal
import ResourceQuery.Filter.Render
import ResourceQuery.Schema.Inquiry

namespace ResourceQuery

-- The greatest integer the service stores; no stored integer exceeds it.
def greatestInteger : Int64 := Int64.maxValue

-- The latest moment the service stores; no stored moment comes after it.
def latestMoment : String := "9999-12-31T23:59:59.997"

namespace Predicate

-- The dialect has no test for presence, so each type has a condition that all its values meet. The
-- percent sign is such a condition for texts by a convention of the service.
def presence? (name : String) : AttributeType → Option String
  | .reference => some s!"({name} = /*)"
  | .integer => some s!"({name} <= {greatestInteger.toInt})"
  | .dateTime => some s!"({name} <= '{latestMoment}')"
  | .boolean => some s!"(({name} = true) or ({name} = false))"
  | .string | .text => some s!"(starts-with({name}, '%'))"
  | .binary | .unknown => none

-- The text of a value next to an attribute. On a date-time attribute a text that is no literal is a
-- function expression, and stands without quotes.
def operand (subject : Attribute) (value : Value) : Except FilterError String :=
  match subject.type, value with
  | .integer, .literal (.integer i) => .ok (toString i.toInt)
  | .boolean, .literal (.boolean b) => .ok (toString b)
  | .dateTime, .literal (.dateTime t) => .ok ("'" ++ t.format ++ "'")
  | .dateTime, .literal (.string s) => .ok (if DateTime.isLiteral s then "'" ++ s ++ "'" else s)
  | .reference, .literal (.reference id) => .ok ("'" ++ id.text ++ "'")
  | .reference, .query q => .ok q.render
  | .reference, .literal (.string s) => Quoted.quote s
  | .string, .literal (.string s) => Quoted.quote s
  | .text, .literal (.string s) => Quoted.quote s
  | type, value => .error (.valueTypeMismatch subject.name type value.kind)

-- The value to compare with, if the operator takes one.
def admitted (subject : Attribute) (operator : Operator) (value : Option Value) :
    Except FilterError (Option Value) :=
  match operator.requiresValue, value with
  | true, some value => .ok (some value)
  | true, none => .error (.missingValue subject.name operator)
  | false, some _ => .error (.unexpectedValue subject.name operator)
  | false, none => .ok none

def presence (subject : Attribute) : Except FilterError String :=
  match presence? subject.name subject.type with
  | some text => .ok text
  | none => .error (.unqueryable subject.name subject.type)

-- The comparison with a value that has this text. Presence does not get here, since it takes none.
def comparison (subject : Attribute) (operator : Operator) (text : String) :
    Except FilterError String :=
  match operator.form with
  | .relation symbol => .ok s!"({subject.name} {symbol} {text})"
  | .function function => .ok s!"({function}({subject.name}, {text}))"
  | .presence => .error (.unexpectedValue subject.name operator)

-- The condition that an operator and its value state, before the operator's own negation.
def condition (subject : Attribute) (operator : Operator) (value : Option Value) :
    Except FilterError String := do
  match ← admitted subject operator value with
  | none => presence subject
  | some value => comparison subject operator (← operand subject value)

def compile (subject : Attribute) (operator : Operator) (value : Option Value) :
    Except FilterError String := do
  unless subject.type.isQueryable do
    throw (.unqueryable subject.name subject.type)
  unless subject.type.allows operator do
    throw (.illegalOperator subject.name subject.type operator)
  let text ← condition subject operator value
  return if operator.isNegative then negation text else text

-- A predicate on an attribute whose description is at hand.
def ofAttribute (subject : Attribute) (operator : Operator) (value : Option Value)
    (negated : Bool) : Except FilterError Predicate := do
  Name.check subject.name
  let text ← compile subject operator value
  if negated && !operator.allowsNegation then
    throw (.illegalNegation operator)
  return { subject, operator, value, negated, text := if negated then negation text else text }

-- A predicate on the attribute that the schema knows by a name.
def new (name : String) (operator : Operator) (value : Option Value) (negated : Bool) :
    Inquiry Predicate := do
  let subject ← Inquiry.resolveAttribute name
  Inquiry.ofExcept (ofAttribute subject operator value negated)

def compare (name : String) (operator : Operator) (value : Value) : Inquiry Predicate :=
  new name operator (some value) false

def present (name : String) : Inquiry Predicate :=
  new name .isPresent none false

def notPresent (name : String) : Inquiry Predicate :=
  new name .isNotPresent none false

end Predicate

end ResourceQuery
