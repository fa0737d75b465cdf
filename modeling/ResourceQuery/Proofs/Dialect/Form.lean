import ResourceQuery.Proofs.Text.Delimited
import ResourceQuery.Operator

namespace ResourceQuery.Dialect

mutual

inductive Operand
  | integer (value : Int)
  | boolean (value : Bool)
  | quoted (text : String)
  | path (path : Path)

inductive Condition
  | relation (name symbol : String) (operand : Operand)
  | call (name function : String) (operand : Operand)
  | negation (condition : Condition)
  | junction (connective : Connective) (conditions : List Condition)

-- A selection takes the resources of a type, perhaps those under a condition, and perhaps what a
-- link leads to from there.
inductive Path
  | selection (objectType : String) (root : Option Condition) (link : Option String)
  | ascendant (objectType link : String) (target : Condition)
  | descendant (objectType link : String) (target : Condition)

end

-- All that has a text.
inductive Expression
  | condition (condition : Condition)
  | path (path : Path)

def quoteFor (text : String) : Char :=
  if text.toList.contains '\'' then '"' else '\''

def put (text : String) (rest : List Char) : List Char :=
  text.toList ++ rest

@[simp]
theorem put_inj {text : String} {r s : List Char} : put text r = put text s ↔ r = s :=
  List.append_right_inj text.toList

def writeLink : Option String → List Char → List Char
  | none, rest => rest
  | some link, rest => '/' :: put link rest

mutual

def Operand.write : Operand → List Char → List Char
  | .integer value, rest => put (toString value) rest
  | .boolean true, rest => put "true" rest
  | .boolean false, rest => put "false" rest
  | .quoted text, rest => quoteFor text :: put text (quoteFor text :: rest)
  | .path p, rest => p.write rest

def Condition.write : Condition → List Char → List Char
  | .relation name symbol operand, rest =>
    '(' :: put name (' ' :: put symbol (' ' :: operand.write (')' :: rest)))
  | .call name function operand, rest =>
    '(' :: put function ('(' :: put name (',' :: ' ' :: operand.write (')' :: ')' :: rest)))
  | .negation condition, rest => '(' :: put "not" (condition.write (')' :: rest))
  | .junction connective conditions, rest =>
    '(' :: Condition.writeAll connective conditions (')' :: rest)

def Condition.writeAll (connective : Connective) : List Condition → List Char → List Char
  | [], rest => rest
  | [condition], rest => condition.write rest
  | condition :: conditions, rest =>
    condition.write (' ' :: put connective.text (' ' ::
      Condition.writeAll connective conditions rest))

def Condition.writeRoot : Option Condition → List Char → List Char
  | none, rest => rest
  | some condition, rest => '[' :: condition.write (']' :: rest)

def Path.write : Path → List Char → List Char
  | .selection objectType root link, rest =>
    '/' :: put objectType (Condition.writeRoot root (writeLink link rest))
  | .ascendant objectType link target, rest =>
    put "descendants(/" (put objectType ('[' :: target.write
      (put "], '" (put link ('\'' :: ')' :: rest)))))
  | .descendant objectType link target, rest =>
    '/' :: put objectType ('[' :: put "descendant-in('" (put link ('\'' :: put ", /" (put objectType
      ('[' :: target.write (put "])]" rest))))))

end

def Expression.write : Expression → List Char → List Char
  | .condition c, rest => c.write rest
  | .path p, rest => p.write rest

mutual

def Operand.WellFormed : Operand → Prop
  | .integer _ | .boolean _ => True
  | .quoted text => '\'' ∉ text.toList ∨ '"' ∉ text.toList
  | .path p => p.WellFormed

def Condition.WellFormed : Condition → Prop
  | .relation name symbol operand =>
    Name.fault? name = none ∧ (∃ o : Operator, o.form = .relation symbol) ∧ operand.WellFormed
  | .call name function operand =>
    Name.fault? name = none ∧ (∃ o : Operator, o.form = .function function) ∧ operand.WellFormed
  | .negation condition => condition.WellFormed
  | .junction _ conditions => 2 ≤ conditions.length ∧ Condition.WellFormedList conditions

def Condition.WellFormedList : List Condition → Prop
  | [] => True
  | condition :: conditions => condition.WellFormed ∧ Condition.WellFormedList conditions

def Condition.WellFormedOption : Option Condition → Prop
  | none => True
  | some condition => condition.WellFormed

def Path.WellFormed : Path → Prop
  | .selection objectType root link =>
    Name.objectTypeFault? objectType = none ∧ Condition.WellFormedOption root ∧
      ∀ name ∈ link, Name.fault? name = none
  | .ascendant objectType link target | .descendant objectType link target =>
    Name.objectTypeFault? objectType = none ∧ Name.fault? link = none ∧ target.WellFormed

end

def Expression.WellFormed : Expression → Prop
  | .condition c => c.WellFormed
  | .path p => p.WellFormed

end ResourceQuery.Dialect
