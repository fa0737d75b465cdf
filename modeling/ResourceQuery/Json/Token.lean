namespace ResourceQuery.Json

-- A text token without a value has an escape for half of a character, without the other half.
inductive Token
  | openBrace
  | closeBrace
  | openBracket
  | closeBracket
  | comma
  | colon
  | null
  | boolean (value : Bool)
  | number
  | text (value : Option String)
  deriving DecidableEq

namespace Token

-- A piece of a text: a character, or a sixteen bit unit that is written as an escape.
inductive Piece
  | char (c : Char)
  | unit (u : Nat)

def hexValue? (c : Char) : Option Nat :=
  if c.isDigit then some (c.toNat - '0'.toNat)
  else if 'a' ≤ c ∧ c ≤ 'f' then some (c.toNat - 'a'.toNat + 10)
  else if 'A' ≤ c ∧ c ≤ 'F' then some (c.toNat - 'A'.toNat + 10)
  else none

def unit? (digits : List Char) : Option Nat := do
  let values ← digits.mapM hexValue?
  return values.foldl (fun u d => 16 * u + d) 0

def shortEscape? : Char → Option Char
  | '"' => some '"'
  | '\\' => some '\\'
  | '/' => some '/'
  | 'b' => some '\x08'
  | 'f' => some '\x0c'
  | 'n' => some '\n'
  | 'r' => some '\r'
  | 't' => some '\t'
  | _ => none

-- The pieces of a text up to its closing quote, and what follows the quote.
def pieces : List Char → Option (List Piece × List Char)
  | [] => none
  | '"' :: cs => some ([], cs)
  | '\\' :: 'u' :: a :: b :: c :: d :: cs => do
    let u ← unit? [a, b, c, d]
    let (ps, rest) ← pieces cs
    return (.unit u :: ps, rest)
  | '\\' :: e :: cs => do
    let c ← shortEscape? e
    let (ps, rest) ← pieces cs
    return (.char c :: ps, rest)
  | c :: cs =>
    if c.toNat < 0x20 then none
    else do
      let (ps, rest) ← pieces cs
      return (.char c :: ps, rest)

def isLeading (u : Nat) : Bool := 0xD800 ≤ u && u ≤ 0xDBFF

def isTrailing (u : Nat) : Bool := 0xDC00 ≤ u && u ≤ 0xDFFF

-- Joins each leading unit to the trailing unit that has to follow.
def join : List Piece → Option (List Char)
  | [] => some []
  | .char c :: ps => return c :: (← join ps)
  | .unit u :: .unit v :: ps =>
    if isLeading u && isTrailing v then
      return Char.ofNat (0x10000 + (u - 0xD800) * 0x400 + (v - 0xDC00)) :: (← join ps)
    else if isLeading u || isTrailing u then none
    else return Char.ofNat u :: (← join (.unit v :: ps))
  | .unit u :: ps =>
    if isLeading u || isTrailing u then none else return Char.ofNat u :: (← join ps)

def skipDigits : List Char → List Char
  | [] => []
  | c :: cs => if c.isDigit then skipDigits cs else c :: cs

-- What follows one digit or more.
def afterDigits? : List Char → Option (List Char)
  | [] => none
  | c :: cs => if c.isDigit then some (skipDigits cs) else none

-- What follows a whole number, which has no leading zero.
def afterWhole? : List Char → Option (List Char)
  | '0' :: cs => some cs
  | cs => afterDigits? cs

def afterFraction? : List Char → Option (List Char)
  | '.' :: cs => afterDigits? cs
  | cs => some cs

def skipSign : List Char → List Char
  | '+' :: cs => cs
  | '-' :: cs => cs
  | cs => cs

def afterExponent? : List Char → Option (List Char)
  | 'e' :: cs => afterDigits? (skipSign cs)
  | 'E' :: cs => afterDigits? (skipSign cs)
  | cs => some cs

-- What follows a number.
def afterNumber? (cs : List Char) : Option (List Char) := do
  let cs ← afterWhole? (if cs.head? = some '-' then cs.tail else cs)
  let cs ← afterFraction? cs
  afterExponent? cs

-- A blank is no token.
def next? : List Char → Option (Option Token × List Char)
  | [] => none
  | ' ' :: cs | '\n' :: cs | '\r' :: cs | '\t' :: cs => some (none, cs)
  | '\x7b' :: cs => some (some .openBrace, cs)
  | '\x7d' :: cs => some (some .closeBrace, cs)
  | '[' :: cs => some (some .openBracket, cs)
  | ']' :: cs => some (some .closeBracket, cs)
  | ',' :: cs => some (some .comma, cs)
  | ':' :: cs => some (some .colon, cs)
  | 'n' :: 'u' :: 'l' :: 'l' :: cs => some (some .null, cs)
  | 't' :: 'r' :: 'u' :: 'e' :: cs => some (some (.boolean true), cs)
  | 'f' :: 'a' :: 'l' :: 's' :: 'e' :: cs => some (some (.boolean false), cs)
  | '"' :: cs =>
    match pieces cs with
    | none => none
    | some (ps, rest) => some (some (.text ((join ps).map String.ofList)), rest)
  | cs =>
    match afterNumber? cs with
    | none => none
    | some rest => some (some .number, rest)

theorem length_lt_of_pieces {cs rest : List Char} {ps : List Piece}
    (h : pieces cs = some (ps, rest)) : rest.length < cs.length := by
  fun_induction pieces cs generalizing ps rest with
  | case1 => simp at h
  | case2 => simp_all
  | case3 a b c d cs ih =>
    simp only [bind, Option.bind_eq_some_iff, pure, Option.some.injEq, Prod.mk.injEq] at h
    obtain ⟨_, _, _, hp, _, rfl⟩ := h
    have := ih hp
    simp
    omega
  | case4 e cs _ ih =>
    simp only [bind, Option.bind_eq_some_iff, pure, Option.some.injEq, Prod.mk.injEq] at h
    obtain ⟨_, _, _, hp, _, rfl⟩ := h
    have := ih hp
    simp
    omega
  | case5 => cases h
  | case6 c cs _ _ _ _ ih =>
    simp only [bind, Option.bind_eq_some_iff, pure, Option.some.injEq, Prod.mk.injEq] at h
    obtain ⟨_, hp, _, rfl⟩ := h
    have := ih hp
    simp
    omega

theorem length_skipDigits_le (cs : List Char) : (skipDigits cs).length ≤ cs.length := by
  fun_induction skipDigits cs <;> simp_all
  omega

theorem length_lt_of_afterDigits {cs rest : List Char} (h : afterDigits? cs = some rest) :
    rest.length < cs.length := by
  fun_cases afterDigits? cs <;> simp_all [afterDigits?]
  subst h
  have := length_skipDigits_le ‹_›
  omega

theorem length_lt_of_afterWhole {cs rest : List Char} (h : afterWhole? cs = some rest) :
    rest.length < cs.length := by
  fun_cases afterWhole? cs <;> simp_all [afterWhole?]
  exact length_lt_of_afterDigits h

theorem length_le_of_afterFraction {cs rest : List Char} (h : afterFraction? cs = some rest) :
    rest.length ≤ cs.length := by
  fun_cases afterFraction? cs <;> simp_all [afterFraction?]
  have := length_lt_of_afterDigits h
  omega

theorem length_skipSign_le (cs : List Char) : (skipSign cs).length ≤ cs.length := by
  fun_cases skipSign cs <;> simp_all

theorem length_le_of_afterExponent {cs rest : List Char} (h : afterExponent? cs = some rest) :
    rest.length ≤ cs.length := by
  fun_cases afterExponent? cs <;> simp_all [afterExponent?]
  all_goals
    have := length_lt_of_afterDigits h
    have := length_skipSign_le ‹_›
    omega

theorem length_lt_of_afterNumber {cs rest : List Char} (h : afterNumber? cs = some rest) :
    rest.length < cs.length := by
  simp only [afterNumber?, Option.bind_eq_bind, Option.bind_eq_some_iff] at h
  obtain ⟨_, hw, _, hf, he⟩ := h
  have := length_lt_of_afterWhole hw
  have := length_le_of_afterFraction hf
  have := length_le_of_afterExponent he
  split at hw <;> simp_all <;> omega

theorem length_lt_of_next {cs rest : List Char} {t : Option Token} (h : next? cs = some (t, rest)) :
    rest.length < cs.length := by
  fun_cases next? cs
  case case16 hp =>
    have := length_lt_of_pieces hp
    simp_all [next?]
    omega
  case case18 hn =>
    have := length_lt_of_afterNumber hn
    simp_all [next?]
  all_goals simp_all [next?] <;> omega

-- The tokens of a whole text, unless a part of it is none.
def ofChars? (cs : List Char) : Option (List Token) :=
  if cs = [] then some []
  else
    match _h : next? cs with
    | none => none
    | some (none, rest) => ofChars? rest
    | some (some t, rest) => return t :: (← ofChars? rest)
termination_by cs.length
decreasing_by all_goals exact length_lt_of_next (by assumption)

end Token

end ResourceQuery.Json
