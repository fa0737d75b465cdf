namespace ResourceQuery

structure Uuid where
  digits : List (Fin 16)
  length_digits : digits.length = 32
  deriving DecidableEq

namespace Uuid

def digitText (d : Fin 16) : Char :=
  if d.val < 10 then Char.ofNat ('0'.toNat + d.val) else Char.ofNat ('a'.toNat + (d.val - 10))

def digitValue? (c : Char) : Option (Fin 16) :=
  if c.isDigit then some (Fin.ofNat 16 (c.toNat - '0'.toNat))
  else if 'a' ≤ c ∧ c ≤ 'f' then some (Fin.ofNat 16 (c.toNat - 'a'.toNat + 10))
  else if 'A' ≤ c ∧ c ≤ 'F' then some (Fin.ofNat 16 (c.toNat - 'A'.toNat + 10))
  else none

-- The lengths of the groups of digits between the hyphens.
def groupLengths : List Nat := [8, 4, 4, 4, 12]

-- Cuts a list into groups of the given lengths.
def groups {α : Type} : List Nat → List α → List (List α)
  | [], _ => []
  | n :: ns, xs => xs.take n :: groups ns (xs.drop n)

-- Lower-case digits with hyphens between the groups.
def text (id : Uuid) : String :=
  String.ofList (List.intercalate ['-'] (groups groupLengths (id.digits.map digitText)))

def ofDigits? (digits : List (Fin 16)) : Option Uuid :=
  if h : digits.length = 32 then some ⟨digits, h⟩ else none

-- Reads the hyphenated form, with digits of either case.
def parse? (text : String) : Option Uuid := do
  let parts := text.splitOn "-"
  guard (parts.map String.length = groupLengths)
  let digits ← (parts.flatMap String.toList).mapM digitValue?
  ofDigits? digits

end Uuid

end ResourceQuery
