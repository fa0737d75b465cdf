import ResourceQuery.Json.Token

namespace ResourceQuery

-- No record holds a number, so numbers are not kept. Fields are, in order and with repetitions.
inductive Json
  | null
  | boolean (value : Bool)
  | number
  | text (value : Option String)
  | array (items : List Json)
  | object (fields : List (Option String × Json))

namespace Json

-- The tokens after a value, of which there are fewer than before it.
abbrev Rest (ts : List Token) := { rest : List Token // rest.length < ts.length }

theorem length_lt_cons {t : Token} {ts : List Token} : ts.length < (t :: ts).length :=
  Nat.lt_succ_self ts.length

theorem length_lt_cons_of_lt {t : Token} {ts rest : List Token} (h : rest.length < ts.length) :
    rest.length < (t :: ts).length :=
  Nat.lt_succ_of_lt h

mutual

def value? (ts : List Token) : Option (Json × Rest ts) :=
  match ts with
  | .null :: rest => some (null, ⟨rest, length_lt_cons⟩)
  | .boolean b :: rest => some (boolean b, ⟨rest, length_lt_cons⟩)
  | .number :: rest => some (number, ⟨rest, length_lt_cons⟩)
  | .text s :: rest => some (text s, ⟨rest, length_lt_cons⟩)
  | .openBracket :: .closeBracket :: rest =>
    some (array [], ⟨rest, length_lt_cons_of_lt length_lt_cons⟩)
  | .openBracket :: rest =>
    match items? rest with
    | none => none
    | some (items, ⟨after, h⟩) => some (array items, ⟨after, length_lt_cons_of_lt h⟩)
  | .openBrace :: .closeBrace :: rest =>
    some (object [], ⟨rest, length_lt_cons_of_lt length_lt_cons⟩)
  | .openBrace :: rest =>
    match fields? rest with
    | none => none
    | some (fields, ⟨after, h⟩) => some (object fields, ⟨after, length_lt_cons_of_lt h⟩)
  | _ => none
termination_by (ts.length, 0)
decreasing_by all_goals exact Prod.Lex.left _ _ length_lt_cons

-- One item or more, with the closing bracket.
def items? (ts : List Token) : Option (List Json × Rest ts) :=
  match value? ts with
  | some (item, ⟨.closeBracket :: rest, h⟩) => some ([item], ⟨rest, by grind⟩)
  | some (item, ⟨.comma :: rest, h⟩) =>
    match items? rest with
    | none => none
    | some (items, ⟨after, h'⟩) => some (item :: items, ⟨after, by grind⟩)
  | _ => none
termination_by (ts.length, 1)
decreasing_by all_goals grind

-- One field or more, with the closing brace.
def fields? (ts : List Token) : Option (List (Option String × Json) × Rest ts) :=
  match ts with
  | .text key :: .colon :: ts =>
    match value? ts with
    | some (v, ⟨.closeBrace :: rest, h⟩) => some ([(key, v)], ⟨rest, by grind⟩)
    | some (v, ⟨.comma :: rest, h⟩) =>
      match fields? rest with
      | none => none
      | some (fields, ⟨after, h'⟩) => some ((key, v) :: fields, ⟨after, by grind⟩)
    | _ => none
  | _ => none
termination_by (ts.length, 1)
decreasing_by all_goals grind

end

-- Reads a text that holds one value and nothing else.
def parse? (input : String) : Option Json := do
  let ts ← Token.ofChars? input.toList
  match value? ts with
  | some (v, ⟨[], _⟩) => some v
  | _ => none

end Json

end ResourceQuery
