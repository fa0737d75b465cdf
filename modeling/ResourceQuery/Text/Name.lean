namespace ResourceQuery

-- The object type which stands for every resource.
def anyObjectType : String := "*"

namespace Name

-- Why a text is not a name. Positions are counted in bytes of its UTF-8 form.
inductive Fault
  | empty
  | unexpected (position : Nat)
  deriving DecidableEq, Repr

def Fault.message : Fault → String
  | .empty => "name is empty"
  | .unexpected position => s!"unexpected character at position {position}"

-- ASCII letters and the underscore.
def isStart (c : Char) : Bool :=
  c.isAlpha || c == '_'

-- ASCII letters, ASCII digits and the underscore.
def isPart (c : Char) : Bool :=
  c.isAlphanum || c == '_'

-- The byte position of the first character that is no part of a name, if there is one, in a text
-- which begins at `position`.
def firstBad? (position : Nat) : List Char → Option Nat
  | [] => none
  | c :: cs => if isPart c then firstBad? (position + c.utf8Size) cs else some position

def fault? (name : String) : Option Fault :=
  match name.toList with
  | [] => some .empty
  | c :: cs => if isStart c then (firstBad? c.utf8Size cs).map .unexpected else some (.unexpected 0)

-- Object types may also be the wildcard.
def objectTypeFault? (name : String) : Option Fault :=
  if name = anyObjectType then none else fault? name

end Name

end ResourceQuery
