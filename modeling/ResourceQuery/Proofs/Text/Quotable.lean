import ResourceQuery.DateTime.Format
import ResourceQuery.DateTime.Literal
import ResourceQuery.Uuid

namespace ResourceQuery

-- Digits and the other characters of dates, times and identifiers.
def Quotable (cs : List Char) : Prop :=
  '\'' ∉ cs

namespace Quotable

instance (cs : List Char) : Decidable (Quotable cs) :=
  inferInstanceAs (Decidable ('\'' ∉ cs))

variable {cs ds : List Char} {c : Char}

@[simp]
theorem nil : Quotable [] :=
  List.not_mem_nil

@[simp]
theorem cons_iff : Quotable (c :: cs) ↔ c ≠ '\'' ∧ Quotable cs := by
  simp [Quotable, eq_comm]

@[simp]
theorem append_iff : Quotable (cs ++ ds) ↔ Quotable cs ∧ Quotable ds := by
  simp [Quotable]

theorem intercalate {separator : List Char} {pieces : List (List Char)} (hs : Quotable separator)
    (hp : ∀ piece ∈ pieces, Quotable piece) : Quotable (separator.intercalate pieces) := by
  induction pieces with
  | nil => simp
  | cons piece pieces ih =>
    have ⟨hh, ht⟩ := List.forall_mem_cons.mp hp
    cases pieces with
    | nil => simpa using hh
    | cons next pieces => simp [List.intercalate_cons_cons, hh, hs, ih ht]

end Quotable

namespace Decimal

theorem digit_ne_quote (n : Nat) : digit n ≠ '\'' := by
  have h : ∀ m < 10, Char.ofNat ('0'.toNat + m) ≠ '\'' := by decide
  exact h (n % 10) (Nat.mod_lt n (by decide))

@[simp]
theorem quotable_lastDigits (width n : Nat) : Quotable (lastDigits width n) := by
  induction width generalizing n with
  | zero => simp [lastDigits]
  | succ width ih => simp [lastDigits, ih, digit_ne_quote]

@[simp]
theorem quotable_padded (width n : Nat) : Quotable (padded width n) := by
  rw [padded]
  split
  · exact quotable_lastDigits width n
  · intro h
    exact absurd (Nat.isDigit_of_mem_toDigits (by decide) (by decide) h) (by decide)

end Decimal

namespace DateTime

@[simp]
theorem quotable_yearText (year : Int) : Quotable (yearText year) := by
  rw [yearText]
  split
  · simp
  · split <;> simp

theorem quotable_format (t : DateTime) : Quotable t.format.toList := by
  simp [format, wholeText]

namespace Literal

-- A reader that passes over no quote.
def Reader.KeepsQuotes (reader : Reader) : Prop :=
  ∀ ⦃cs rest⦄, reader cs = some rest → Quotable rest → Quotable cs

theorem keepsQuotes_char (expected : Char) (h : expected ≠ '\'') :
    Reader.KeepsQuotes (char expected) := by
  intro cs rest hr hq
  cases cs with
  | nil => simp [char] at hr
  | cons c cs =>
    by_cases hc : c = expected
    case pos =>
      simp only [char, hc, if_true, Option.some.injEq] at hr
      simp [hc, h, hr, hq]
    case neg => simp [char, hc] at hr

theorem ne_quote_of_isDigit {c : Char} (h : c.isDigit) : c ≠ '\'' :=
  fun hc => absurd (hc ▸ h) (by decide)

theorem keepsQuotes_digits (count : Nat) : Reader.KeepsQuotes (digits count) := by
  induction count with
  | zero =>
    intro cs rest hr hq
    simp only [digits, Option.some.injEq] at hr
    exact hr ▸ hq
  | succ count ih =>
    intro cs rest hr hq
    cases cs with
    | nil => simp [digits] at hr
    | cons c cs =>
      by_cases hc : c.isDigit
      case pos =>
        simp only [digits, hc, if_true] at hr
        simp [ne_quote_of_isDigit hc, ih hr hq]
      case neg => simp [digits, hc] at hr

theorem quotable_of_upToDigits {limit : Nat} {cs : List Char} (h : Quotable (upToDigits limit cs)) :
    Quotable cs := by
  induction limit generalizing cs with
  | zero => exact h
  | succ limit ih =>
    cases cs with
    | nil => simp
    | cons c cs =>
      by_cases hc : c.isDigit
      case pos =>
        simp only [upToDigits, hc, if_true] at h
        simp [ne_quote_of_isDigit hc, ih h]
      case neg => simpa [upToDigits, hc] using h

theorem quotable_of_optionally {reader : Reader} {cs : List Char} (hr : Reader.KeepsQuotes reader)
    (h : Quotable (optionally reader cs)) : Quotable cs := by
  rw [optionally] at h
  cases ho : reader cs with
  | none => simpa [ho] using h
  | some rest => exact hr ho (by simpa [ho] using h)

theorem Reader.KeepsQuotes.bind {first second : Reader} (h₁ : first.KeepsQuotes)
    (h₂ : second.KeepsQuotes) : Reader.KeepsQuotes (fun cs => first cs >>= second) := by
  intro cs rest hr hq
  have ⟨between, hf, hs⟩ := Option.bind_eq_some_iff.mp hr
  exact h₁ hf (h₂ hs hq)

theorem keepsQuotes_fraction : Reader.KeepsQuotes fraction := by
  intro cs rest hr hq
  simp only [fraction, Option.bind_eq_bind, Option.bind_eq_some_iff, Option.some.injEq] at hr
  have ⟨_, hc, _, hd, hu⟩ := hr
  exact keepsQuotes_char _ (by decide) hc
    (keepsQuotes_digits 1 hd (quotable_of_upToDigits (hu ▸ hq)))

theorem keepsQuotes_seconds : Reader.KeepsQuotes seconds := by
  intro cs rest hr hq
  simp only [seconds, Option.bind_eq_bind, Option.bind_eq_some_iff, Option.some.injEq] at hr
  have ⟨_, hc, _, hd, ho⟩ := hr
  have hs := quotable_of_optionally keepsQuotes_fraction (ho ▸ hq)
  exact keepsQuotes_char _ (by decide) hc (keepsQuotes_digits 2 hd hs)

theorem keepsQuotes_dateAndMinute : Reader.KeepsQuotes dateAndMinute := by
  have digits {count : Nat} := keepsQuotes_digits count
  have hyphen := keepsQuotes_char '-' (by decide)
  have separator := keepsQuotes_char 'T' (by decide)
  have colon := keepsQuotes_char ':' (by decide)
  exact digits.bind <| hyphen.bind <| digits.bind <| hyphen.bind <| digits.bind <|
    separator.bind <| digits.bind <| colon.bind digits

theorem keepsQuotes_literal : Reader.KeepsQuotes literal := by
  intro cs rest hr hq
  simp only [literal, Option.bind_eq_bind, Option.bind_eq_some_iff, Option.some.injEq] at hr
  have ⟨_, hd, ho⟩ := hr
  have hz := quotable_of_optionally (keepsQuotes_char 'Z' (by decide)) (ho ▸ hq)
  exact keepsQuotes_dateAndMinute hd (quotable_of_optionally keepsQuotes_seconds hz)

end Literal

theorem quotable_of_isLiteral {text : String} (h : isLiteral text) : Quotable text.toList :=
  Literal.keepsQuotes_literal (by simpa [isLiteral] using h) Quotable.nil

end DateTime

namespace Uuid

theorem digitText_ne_quote (d : Fin 16) : digitText d ≠ '\'' := by
  revert d
  decide

theorem mem_of_mem_groups {α : Type} {lengths : List Nat} {xs group : List α}
    (h : group ∈ groups lengths xs) : ∀ x ∈ group, x ∈ xs := by
  induction lengths generalizing xs with
  | nil => cases h
  | cons n lengths ih =>
    cases h with
    | head => exact fun x hx => List.mem_of_mem_take hx
    | tail _ h => exact fun x hx => List.mem_of_mem_drop (ih h x hx)

theorem quotable_text (id : Uuid) : Quotable id.text.toList := by
  have digits : Quotable (id.digits.map digitText) := by
    simp [Quotable, digitText_ne_quote]
  simp only [text, String.toList_ofList]
  refine Quotable.intercalate (by simp) fun group hg hq => ?_
  exact digits (mem_of_mem_groups hg _ hq)

end Uuid

end ResourceQuery
