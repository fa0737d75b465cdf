namespace ResourceQuery

inductive Operator
  | equals
  | notEquals
  | greaterThan
  | greaterThanOrEquals
  | lessThan
  | lessThanOrEquals
  | contains
  | startsWith
  | endsWith
  | isPresent
  | isNotPresent
  deriving DecidableEq, Repr

namespace Operator

def all : List Operator :=
  [equals, notEquals, greaterThan, greaterThanOrEquals, lessThan, lessThanOrEquals, contains,
    startsWith, endsWith, isPresent, isNotPresent]

def name : Operator → String
  | equals => "Equals"
  | notEquals => "NotEquals"
  | greaterThan => "GreaterThan"
  | greaterThanOrEquals => "GreaterThanOrEquals"
  | lessThan => "LessThan"
  | lessThanOrEquals => "LessThanOrEquals"
  | contains => "Contains"
  | startsWith => "StartsWith"
  | endsWith => "EndsWith"
  | isPresent => "IsPresent"
  | isNotPresent => "IsNotPresent"

def ofName? (name : String) : Option Operator :=
  all.find? (·.name = name)

def isOrdering : Operator → Bool
  | greaterThan | greaterThanOrEquals | lessThan | lessThanOrEquals => true
  | _ => false

def isSubstring : Operator → Bool
  | contains | startsWith | endsWith => true
  | _ => false

-- Presence takes no value, every comparison takes one.
def requiresValue : Operator → Bool
  | isPresent | isNotPresent => false
  | _ => true

-- Inequality and both presence operators are never negated: each has its opposite at hand.
def allowsNegation : Operator → Bool
  | notEquals | isPresent | isNotPresent => false
  | _ => true

-- The shape in which an operator is written.
inductive Form
  | relation (symbol : String)
  | function (name : String)
  | presence
  deriving DecidableEq, Repr

def form : Operator → Form
  | equals | notEquals => .relation "="
  | greaterThan => .relation ">"
  | greaterThanOrEquals => .relation ">="
  | lessThan => .relation "<"
  | lessThanOrEquals => .relation "<="
  | contains => .function "contains"
  | startsWith => .function "starts-with"
  | endsWith => .function "ends-with"
  | isPresent | isNotPresent => .presence

-- Whether an operator is written as the negation of its form.
def isNegative : Operator → Bool
  | notEquals | isNotPresent => true
  | _ => false

theorem requiresValue_iff (o : Operator) : o.requiresValue = true ↔ o.form ≠ .presence := by
  cases o <;> simp [requiresValue, form]

end Operator

inductive Connective
  | and
  | or
  deriving DecidableEq, Repr

namespace Connective

-- The connective of a group for which none is chosen.
def default : Connective := .and

def text : Connective → String
  | .and => "and"
  | .or => "or"

def ofText? : String → Option Connective
  | "and" => some .and
  | "or" => some .or
  | _ => none

end Connective

end ResourceQuery
