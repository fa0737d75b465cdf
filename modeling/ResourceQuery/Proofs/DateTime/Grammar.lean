import Mathlib.Data.List.Basic
import ResourceQuery.Proofs.DateTime.Written

namespace ResourceQuery

namespace DateTime.Literal

-- So many ASCII digits.
structure Digits (count : Nat) (cs : List Char) : Prop where
  length_eq : cs.length = count
  isDigit : ∀ c ∈ cs, '0' ≤ c ∧ c ≤ '9'

-- A part, or nothing.
inductive Optional (Part : List Char → Prop) : List Char → Prop
  | absent : Optional Part []
  | present {part} : Part part → Optional Part part

inductive Fraction : List Char → Prop
  | mk {count ds} : 1 ≤ count → count ≤ 7 → Digits count ds → Fraction ('.' :: ds)

inductive Seconds : List Char → Prop
  | mk {ds fraction} : Digits 2 ds → Optional Fraction fraction → Seconds (':' :: (ds ++ fraction))

inductive Minute : List Char → Prop
  | mk {year month day hour minute} :
    Digits 4 year → Digits 2 month → Digits 2 day → Digits 2 hour → Digits 2 minute →
    Minute (year ++ '-' :: (month ++ '-' :: (day ++ 'T' :: (hour ++ ':' :: minute))))

abbrev Zone : List Char → Prop :=
  Optional (· = ['Z'])

inductive Grammar : List Char → Prop
  | mk {minute seconds zone} :
    Minute minute → Optional Seconds seconds → Zone zone → Grammar (minute ++ (seconds ++ zone))

variable {cs ds rest : List Char} {count : Nat} {reader : Reader} {Part : List Char → Prop}

theorem isDigit_iff {c : Char} : c.isDigit ↔ '0' ≤ c ∧ c ≤ '9' := by
  simp [Char.isDigit, Char.le_def]

theorem char_eq_some_iff {expected : Char} :
    char expected cs = some rest ↔ cs = expected :: rest := by
  cases cs with
  | nil => simp [char]
  | cons c cs => by_cases hc : c = expected <;> simp [char, hc]

theorem digits_nil : Digits 0 [] :=
  ⟨rfl, nofun⟩

theorem digits_cons {c : Char} : Digits (count + 1) (c :: ds) ↔ c.isDigit ∧ Digits count ds where
  mp h :=
    have ⟨hc, hds⟩ := List.forall_mem_cons.mp h.isDigit
    ⟨isDigit_iff.mpr hc, Nat.succ.inj h.length_eq, hds⟩
  mpr h :=
    ⟨congrArg Nat.succ h.right.length_eq,
      List.forall_mem_cons.mpr ⟨isDigit_iff.mp h.left, h.right.isDigit⟩⟩

theorem Digits.append {further : Nat} {es : List Char} (hd : Digits count ds)
    (he : Digits further es) : Digits (count + further) (ds ++ es) where
  length_eq := by rw [List.length_append, hd.length_eq, he.length_eq]
  isDigit := List.forall_mem_append.mpr ⟨hd.isDigit, he.isDigit⟩

theorem Digits.forall_isDigit (h : Digits count ds) : ∀ c ∈ ds, c.isDigit :=
  fun c hc => isDigit_iff.mpr (h.isDigit c hc)

theorem digits_eq_some_iff :
    digits count cs = some rest ↔ ∃ ds, Digits count ds ∧ cs = ds ++ rest := by
  constructor
  case mp =>
    induction count generalizing cs with
    | zero => exact fun h => ⟨[], digits_nil, by simpa [digits] using h⟩
    | succ count ih =>
      cases cs with
      | nil => simp [digits]
      | cons c cs =>
        intro h
        by_cases hc : c.isDigit
        case pos =>
          obtain ⟨ds, hds, rfl⟩ := ih (by simpa [digits, hc] using h)
          exact ⟨c :: ds, digits_cons.mpr ⟨hc, hds⟩, rfl⟩
        case neg => simp [digits, hc] at h
  case mpr =>
    rintro ⟨ds, hds, rfl⟩
    exact hds.length_eq ▸ digits_append hds.forall_isDigit rest

theorem dateAndMinute_eq_some_iff :
    dateAndMinute cs = some rest ↔ ∃ minute, Minute minute ∧ cs = minute ++ rest := by
  simp only [dateAndMinute, Option.bind_eq_bind, Option.bind_eq_some_iff, char_eq_some_iff,
    digits_eq_some_iff]
  constructor
  case mp =>
    rintro ⟨_, ⟨year, hyear, rfl⟩, _, rfl, _, ⟨month, hmonth, rfl⟩, _, rfl, _, ⟨day, hday, rfl⟩, _,
      rfl, _, ⟨hour, hhour, rfl⟩, _, rfl, minute, hminute, rfl⟩
    exact ⟨_, .mk hyear hmonth hday hhour hminute, by simp⟩
  case mpr =>
    rintro ⟨_, ⟨hyear, hmonth, hday, hhour, hminute⟩, rfl⟩
    simp only [List.append_assoc, List.cons_append]
    exact ⟨_, ⟨_, hyear, rfl⟩, _, rfl, _, ⟨_, hmonth, rfl⟩, _, rfl, _, ⟨_, hday, rfl⟩, _, rfl, _,
      ⟨_, hhour, rfl⟩, _, rfl, _, hminute, rfl⟩

theorem zone_iff : Zone cs ↔ cs = [] ∨ cs = ['Z'] where
  mp h := by
    cases h with
    | absent => exact .inl rfl
    | present h => exact .inr h
  mpr h := by
    rcases h with rfl | rfl
    · exact .absent
    · exact .present rfl

theorem optionally_utc_eq_nil_iff : optionally (char 'Z') cs = [] ↔ Zone cs := by
  rw [zone_iff, optionally]
  cases hr : char 'Z' cs with
  | none =>
    have hcs : cs ≠ ['Z'] := fun h => by simp [h] at hr
    simp [hcs]
  | some rest =>
    rw [char_eq_some_iff.mp hr]
    simp

-- What a reader reads in front of the zone. It does not begin as the zone does.
structure Reads (reader : Reader) (Part : List Char → Prop) : Prop where
  accepts_iff : ∀ cs, (∃ zone, reader cs = some zone ∧ Zone zone) ↔
    ∃ part zone, Part part ∧ Zone zone ∧ cs = part ++ zone
  utc_eq_none : reader ['Z'] = none
  nil_eq_none : reader [] = none

theorem Reads.eq_none (h : Reads reader Part) {zone : List Char} (hz : Zone zone) :
    reader zone = none := by
  rcases zone_iff.mp hz with rfl | rfl
  · exact h.nil_eq_none
  · exact h.utc_eq_none

-- A part that is not there is not read, and of one that is there no more than the zone is left.
theorem Reads.optionally_iff (h : Reads reader Part) :
    Zone (optionally reader cs) ↔
      ∃ part zone, Optional Part part ∧ Zone zone ∧ cs = part ++ zone := by
  have ha := h.accepts_iff cs
  constructor
  case mp =>
    rw [optionally]
    intro hz
    cases hr : reader cs with
    | none => exact ⟨[], cs, .absent, by simpa [hr] using hz, rfl⟩
    | some rest =>
      obtain ⟨part, zone, hp, hz, hcs⟩ := ha.mp ⟨rest, hr, by simpa [hr] using hz⟩
      exact ⟨part, zone, .present hp, hz, hcs⟩
  case mpr =>
    rintro ⟨part, zone, hp, hz, rfl⟩
    cases hp with
    | absent => simpa [optionally, h.eq_none hz] using hz
    | present hp =>
      obtain ⟨rest, hr, hz⟩ := ha.mpr ⟨part, zone, hp, hz, rfl⟩
      simpa [optionally, hr] using hz

theorem upToDigits_spec (limit : Nat) (cs : List Char) :
    ∃ count ≤ limit, ∃ ds, Digits count ds ∧ cs = ds ++ upToDigits limit cs := by
  induction limit generalizing cs with
  | zero => exact ⟨0, Nat.le_refl 0, [], digits_nil, rfl⟩
  | succ limit ih =>
    cases cs with
    | nil => exact ⟨0, Nat.zero_le _, [], digits_nil, rfl⟩
    | cons c cs =>
      by_cases hc : c.isDigit
      case pos =>
        have ⟨count, hl, ds, hds, hcs⟩ := ih cs
        refine ⟨count + 1, Nat.succ_le_succ hl, c :: ds, digits_cons.mpr ⟨hc, hds⟩, ?_⟩
        simpa [upToDigits, hc] using hcs
      case neg => exact ⟨0, Nat.zero_le _, [], digits_nil, by simp [upToDigits, hc]⟩

theorem reads_fraction : Reads fraction Fraction where
  accepts_iff cs := by
    constructor
    case mp =>
      simp only [fraction, Option.bind_eq_bind, Option.bind_eq_some_iff, char_eq_some_iff,
        digits_eq_some_iff, Option.some.injEq]
      rintro ⟨zone, ⟨_, rfl, rest, ⟨first, hfirst, rfl⟩, rfl⟩, hz⟩
      obtain ⟨count, hl, ds, hds, hrest⟩ := upToDigits_spec 6 rest
      refine ⟨_, _, .mk (by omega) (by omega) (hfirst.append hds), hz, ?_⟩
      rw [List.cons_append, List.append_assoc, ← hrest]
    case mpr =>
      rintro ⟨_, zone, ⟨hl, hu, hds⟩, hz, rfl⟩
      have hdigit : ∀ c ∈ zone.head?, ¬c.isDigit := by
        rcases zone_iff.mp hz with rfl | rfl <;> simp
      rw [← hds.length_eq] at hl hu
      exact ⟨zone, fraction_cons hds.forall_isDigit hl hu hdigit, hz⟩
  utc_eq_none := rfl
  nil_eq_none := rfl

theorem reads_seconds : Reads seconds Seconds where
  accepts_iff cs := by
    simp only [seconds, Option.bind_eq_bind, Option.bind_eq_some_iff, char_eq_some_iff,
      digits_eq_some_iff, Option.some.injEq]
    constructor
    case mp =>
      rintro ⟨_, ⟨_, rfl, rest, ⟨ds, hds, rfl⟩, rfl⟩, hz⟩
      obtain ⟨fraction, zone, hf, hzone, rfl⟩ := reads_fraction.optionally_iff.mp hz
      exact ⟨_, zone, .mk hds hf, hzone, by simp⟩
    case mpr =>
      rintro ⟨_, zone, ⟨hds, hf⟩, hz, rfl⟩
      simp only [List.append_assoc, List.cons_append]
      exact ⟨_, ⟨_, rfl, _, ⟨_, hds, rfl⟩, rfl⟩,
        reads_fraction.optionally_iff.mpr ⟨_, zone, hf, hz, rfl⟩⟩
  utc_eq_none := rfl
  nil_eq_none := rfl

theorem literal_eq_nil_iff : literal cs = some [] ↔ Grammar cs := by
  simp only [literal, Option.bind_eq_bind, Option.bind_eq_some_iff, Option.some.injEq,
    dateAndMinute_eq_some_iff, optionally_utc_eq_nil_iff, reads_seconds.optionally_iff]
  constructor
  case mp =>
    rintro ⟨_, ⟨minute, hm, rfl⟩, seconds, zone, hs, hz, rfl⟩
    exact .mk hm hs hz
  case mpr =>
    rintro ⟨hm, hs, hz⟩
    exact ⟨_, ⟨_, hm, rfl⟩, _, _, hs, hz, rfl⟩

instance : DecidablePred Grammar :=
  fun _ => decidable_of_iff _ literal_eq_nil_iff

theorem Digits.point_notMem (h : Digits count ds) : '.' ∉ ds :=
  fun hp => absurd (h.isDigit '.' hp) (by decide)

theorem Minute.point_notMem {minute : List Char} (h : Minute minute) : '.' ∉ minute := by
  obtain ⟨hyear, hmonth, hday, hhour, hminute⟩ := h
  simp [hyear.point_notMem, hmonth.point_notMem, hday.point_notMem, hhour.point_notMem,
    hminute.point_notMem]

theorem Grammar.before_point {before after : List Char} (h : Grammar (before ++ '.' :: after)) :
    ∃ minute ds, Minute minute ∧ Digits 2 ds ∧ before = minute ++ ':' :: ds := by
  generalize hcs : before ++ '.' :: after = cs at h
  have hp : '.' ∈ cs := hcs ▸ by simp
  obtain @⟨minute, _, zone, hm, hs, hz⟩ := h
  have hzone : '.' ∉ zone := by rcases zone_iff.mp hz with rfl | rfl <;> simp
  cases hs with
  | absent => simp [hm.point_notMem, hzone] at hp
  | present hs =>
    obtain @⟨ds, _, hd, hf⟩ := hs
    cases hf with
    | absent => simp [hm.point_notMem, hd.point_notMem, hzone] at hp
    | present hf =>
      obtain @⟨_, fs, _, _, hfs⟩ := hf
      have hx : '.' ∉ minute ++ ':' :: ds := by simp [hm.point_notMem, hd.point_notMem]
      have hy : '.' ∉ fs ++ zone := by simp [hfs.point_notMem, hzone]
      have he : (minute ++ ':' :: ds) ++ '.' :: (fs ++ zone) = before ++ '.' :: after := by
        simp [hcs]
      exact ⟨minute, ds, hm, hd, ((List.append_cons_inj_of_notMem hx hy).mp he).left.symm⟩

end DateTime.Literal

theorem AttributeType.allows_dateTime {operator : Operator} {symbol : String}
    (h : operator.form = .relation symbol) : AttributeType.dateTime.allows operator := by
  cases operator <;> first | rfl | cases h

theorem Operator.isNegative_eq_false {operator : Operator} (h : operator.allowsNegation = true) :
    operator.isNegative = false := by
  cases operator <;> first | rfl | cases h

namespace Predicate

-- The text is quoted if it is a literal, and stands for itself otherwise.
theorem text_ofAttribute_string {subject : Attribute} {operator : Operator} {symbol : String}
    {negated : Bool} (ht : subject.type = .dateTime) (hn : Name.fault? subject.name = none)
    (ho : operator.form = .relation symbol)
    (ha : negated = true → operator.allowsNegation = true) (s : String) :
    (ofAttribute subject operator (some (.literal (.string s))) negated).map text =
      let written := if DateTime.isLiteral s then "'" ++ s ++ "'" else s
      let body := s!"({subject.name} {symbol} {written})"
      .ok (if operator.isNegative || negated then negation body else body) := by
  extract_lets written body
  have hoperand : operand subject (.literal (.string s)) = .ok written := by
    simp [operand, ht, written]
  have hbody : condition subject operator (some (.literal (.string s))) = .ok body := by
    have hr : operator.requiresValue = true := operator.requiresValue_iff.mpr (by simp [ho])
    exact condition_some_eq_ok_iff.mpr ⟨hr, _, hoperand, by rw [comparison, ho]⟩
  have hallows : subject.type.allows operator := ht ▸ AttributeType.allows_dateTime ho
  have hqueryable : subject.type.isQueryable := ht ▸ rfl
  have hcompile := compile_eq_ok_iff.mpr ⟨hqueryable, hallows, body, hbody, rfl⟩
  rw [ofAttribute_eq_ok_iff.mpr ⟨hn, ha, _, hcompile, rfl⟩, Except.map]
  cases negated with
  | false => simp
  | true => simp [Operator.isNegative_eq_false (ha rfl)]

end Predicate

open DateTime.Literal

namespace DateTime

-- A text is recognized if and only if it is a word of the grammar, in which a fraction comes after
-- seconds only. On a date-time attribute these words are quoted, and all other texts stand as they
-- are given.
theorem literals_are_exactly_grammatical (s : String) :
    (isLiteral s = true ↔ Grammar s.toList) ∧
    (Grammar s.toList → ∀ before after, s.toList = before ++ '.' :: after →
      ∃ minute ds, Minute minute ∧ Digits 2 ds ∧ before = minute ++ ':' :: ds) ∧
    ∀ (subject : Attribute) (operator : Operator) (symbol : String) (negated : Bool),
      subject.type = .dateTime → Name.fault? subject.name = none →
      operator.form = .relation symbol → (negated = true → operator.allowsNegation = true) →
      (Predicate.ofAttribute subject operator (some (.literal (.string s))) negated).map
          Predicate.text =
        let written := if Grammar s.toList then "'" ++ s ++ "'" else s
        let body := s!"({subject.name} {symbol} {written})"
        .ok (if operator.isNegative || negated then negation body else body) := by
  have hiff : isLiteral s = true ↔ Grammar s.toList := by
    rw [isLiteral, beq_iff_eq, literal_eq_nil_iff]
  refine ⟨hiff, fun hg before after hs => ?_, fun subject operator symbol negated ht hn ho ha => ?_⟩
  · exact (hs ▸ hg).before_point
  · simp only [Predicate.text_ofAttribute_string ht hn ho ha, hiff]

-- A literal in full length, and a function expression.
theorem literals_are_exactly_grammatical_negated :
    let subject : Attribute := ⟨"ExpirationTime", .dateTime, false⟩
    let literal := "2024-01-31T12:00:59.1234567Z"
    Grammar literal.toList ∧ ¬Grammar "fn:current-dateTime()".toList ∧
      (Predicate.ofAttribute subject .lessThan (some (.literal (.string literal))) true).map
          Predicate.text = .ok "(not(ExpirationTime < '2024-01-31T12:00:59.1234567Z'))" ∧
      (Predicate.ofAttribute subject .notEquals
          (some (.literal (.string "fn:current-dateTime()"))) false).map Predicate.text =
        .ok "(not(ExpirationTime = fn:current-dateTime()))" := by
  intro subject literal
  have ⟨hliteral, _, htext⟩ := literals_are_exactly_grammatical literal
  have ⟨hfunction, _, hverbatim⟩ := literals_are_exactly_grammatical "fn:current-dateTime()"
  have hg : Grammar literal.toList := hliteral.mp (by decide)
  have hn : ¬Grammar "fn:current-dateTime()".toList :=
    fun hg => absurd (hfunction.mpr hg) (by decide)
  refine ⟨hg, hn, ?_, ?_⟩
  · rw [htext subject .lessThan "<" true rfl (by decide) rfl (fun _ => rfl), if_pos hg]
    rfl
  · rw [hverbatim subject .notEquals "=" false rfl (by decide) rfl nofun, if_neg hn]
    rfl

end DateTime

end ResourceQuery
