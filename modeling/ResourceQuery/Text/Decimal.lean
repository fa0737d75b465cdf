namespace ResourceQuery.Decimal

def digit (n : Nat) : Char :=
  Char.ofNat ('0'.toNat + n % 10)

-- The last `width` digits of a number.
def lastDigits : Nat → Nat → List Char
  | 0, _ => []
  | width + 1, n => lastDigits width (n / 10) ++ [digit n]

theorem length_lastDigits (width n : Nat) : (lastDigits width n).length = width := by
  induction width generalizing n with
  | zero => rfl
  | succ width ih => simp [lastDigits, ih]

-- All digits of a number, and at least `width` of them.
def padded (width n : Nat) : List Char :=
  if n < Nat.pow 10 width then lastDigits width n else Nat.toDigits 10 n

end ResourceQuery.Decimal
