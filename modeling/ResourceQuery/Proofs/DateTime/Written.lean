import Mathlib.Algebra.Group.Nat.Defs
import ResourceQuery.Proofs.Filter.Refusal

namespace ResourceQuery

namespace Decimal

theorem isDigit_digit (n : Nat) : (digit n).isDigit := by
  have h : ∀ m < 10, (Char.ofNat ('0'.toNat + m)).isDigit := by decide
  exact h (n % 10) (Nat.mod_lt n (by decide))

theorem isDigit_of_mem_lastDigits {c : Char} {width n : Nat} (h : c ∈ lastDigits width n) :
    c.isDigit := by
  induction width generalizing n with
  | zero => cases h
  | succ width ih =>
    rcases List.mem_append.mp h with h | h
    · exact ih h
    · exact List.mem_singleton.mp h ▸ isDigit_digit n

end Decimal

open Decimal

namespace DateTime

-- The same in every field that is written: all but the part of the fraction below milliseconds.
structure Alike (t u : DateTime) : Prop where
  year_eq : t.year = u.year
  month_eq : t.month = u.month
  day_eq : t.day = u.day
  hour_eq : t.hour = u.hour
  minute_eq : t.minute = u.minute
  second_eq : t.writtenSecond = u.writtenSecond
  millisecond_eq : t.fraction / 1000000 = u.fraction / 1000000

namespace Literal

variable {ds rest : List Char}

@[simp]
theorem char_cons (c : Char) (rest : List Char) : char c (c :: rest) = some rest :=
  if_pos rfl

theorem digits_append (h : ∀ c ∈ ds, c.isDigit) (rest : List Char) :
    digits ds.length (ds ++ rest) = some rest := by
  induction ds with
  | nil => rfl
  | cons c ds ih =>
    have ⟨hc, hds⟩ := List.forall_mem_cons.mp h
    simp [digits, hc, ih hds]

@[simp]
theorem digits_lastDigits_append (width n : Nat) (rest : List Char) :
    digits width (lastDigits width n ++ rest) = some rest := by
  have hd : ∀ c ∈ lastDigits width n, c.isDigit := fun _ => isDigit_of_mem_lastDigits
  simpa only [length_lastDigits] using digits_append hd rest

-- Digits are taken as long as there are any, so nothing is left over if there are few enough.
theorem upToDigits_append {limit : Nat} (h : ∀ c ∈ ds, c.isDigit) (hl : ds.length ≤ limit)
    (hr : ∀ c ∈ rest.head?, ¬c.isDigit) : upToDigits limit (ds ++ rest) = rest := by
  induction limit generalizing ds with
  | zero =>
    obtain rfl := List.eq_nil_of_length_eq_zero (Nat.le_zero.mp hl)
    rfl
  | succ limit ih =>
    cases ds with
    | nil => cases rest <;> simp_all [upToDigits]
    | cons c ds =>
      have ⟨hc, hds⟩ := List.forall_mem_cons.mp h
      simp [upToDigits, hc, ih hds (Nat.le_of_succ_le_succ hl)]

theorem fraction_cons (h : ∀ c ∈ ds, c.isDigit) (hl : 1 ≤ ds.length) (hu : ds.length ≤ 7)
    (hr : ∀ c ∈ rest.head?, ¬c.isDigit) : fraction ('.' :: (ds ++ rest)) = some rest := by
  cases ds with
  | nil => simp at hl
  | cons c ds =>
    have ⟨hc, hds⟩ := List.forall_mem_cons.mp h
    simp [fraction, digits, hc, upToDigits_append hds (Nat.le_of_succ_le_succ hu) hr]

end Literal

end DateTime

namespace Predicate

variable {subject : Attribute} {v w : Value}

end Predicate

namespace DateTime

-- Outside of these years, what is written is taken for a function expression.
example : isLiteral "-0001-01-01T00:00:00.000" = false ∧
    isLiteral "+10000-01-01T00:00:00.000" = false := by
  decide

end DateTime

end ResourceQuery
