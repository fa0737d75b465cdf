import ResourceQuery.Proofs.Schema.Provider
import ResourceQuery.Proofs.Text.Delimited

namespace ResourceQuery.Name

-- ASCII letters and the underscore.
def Initial (c : Char) : Prop :=
  ('a' ≤ c ∧ c ≤ 'z') ∨ ('A' ≤ c ∧ c ≤ 'Z') ∨ c = '_'

def Numeral (c : Char) : Prop :=
  '0' ≤ c ∧ c ≤ '9'

inductive Identifier : List Char → Prop
  | mk {c cs} : Initial c → (∀ d ∈ cs, Initial d ∨ Numeral d) → Identifier (c :: cs)

-- The longest identifier at the beginning of a text, or nothing if there is none.
structure Longest (cs beginning : List Char) : Prop where
  isPrefix : beginning <+: cs
  identifier : beginning ≠ [] → Identifier beginning
  longest : ∀ p, p <+: cs → Identifier p → p <+: beginning

variable {name : String} {c : Char} {cs : List Char} {position : Nat}

theorem isAlpha_iff : c.isAlpha ↔ ('a' ≤ c ∧ c ≤ 'z') ∨ ('A' ≤ c ∧ c ≤ 'Z') := by
  have hlower : c.isLower ↔ 'a' ≤ c ∧ c ≤ 'z' := by
    rw [← decide_eq_true_iff (p := _ ∧ _), Bool.decide_and]
    rfl
  have hupper : c.isUpper ↔ 'A' ≤ c ∧ c ≤ 'Z' :=
    decide_eq_true_iff
  rw [← hlower, ← hupper, or_comm, ← Bool.or_eq_true]
  rfl

theorem isStart_iff : isStart c ↔ Initial c := by
  simp only [isStart, Initial, Bool.or_eq_true, beq_iff_eq, isAlpha_iff, or_assoc]

theorem isPart_iff : isPart c ↔ Initial c ∨ Numeral c := by
  rw [← isStart_iff]
  simp [isPart, isStart, Numeral, Char.isAlphanum, Char.isDigit, Char.le_def]
  grind

theorem identifier_cons : Identifier (c :: cs) ↔ isStart c ∧ ∀ d ∈ cs, isPart d := by
  simp only [isStart_iff, isPart_iff]
  exact ⟨fun ⟨hc, hcs⟩ => ⟨hc, hcs⟩, fun ⟨hc, hcs⟩ => ⟨hc, hcs⟩⟩

theorem Identifier.isPart (h : Identifier cs) : ∀ c ∈ cs, Name.isPart c := by
  cases h with
  | mk hc hcs =>
    rw [List.forall_mem_cons]
    exact ⟨isPart_iff.mpr (.inl hc), fun d hd => isPart_iff.mpr (hcs d hd)⟩

theorem fault?_eq_none_iff_identifier : fault? name = none ↔ Identifier name.toList := by
  rw [fault?_eq_none_iff]
  constructor
  case mp =>
    rintro ⟨c, cs, hn, h⟩
    exact hn ▸ identifier_cons.mpr h
  case mpr =>
    intro h
    generalize name.toList = cs at h
    cases h with
    | mk hc hcs => exact ⟨_, _, rfl, identifier_cons.mp ⟨hc, hcs⟩⟩

-- The size of a text in bytes of its UTF-8 form.
def bytes (cs : List Char) : Nat :=
  (String.ofList cs).utf8ByteSize

theorem bytes_append (cs ds : List Char) : bytes (cs ++ ds) = bytes cs + bytes ds := by
  simp [bytes]

theorem bytes_cons (c : Char) (cs : List Char) : bytes (c :: cs) = c.utf8Size + bytes cs := by
  simp [bytes, String.ofList_cons]

-- The first character that is no part of a name, and what comes before it.
theorem firstBad?_eq_some {found : Nat} (h : firstBad? position cs = some found) :
    ∃ before bad after, cs = before ++ bad :: after ∧ (∀ c ∈ before, isPart c) ∧ ¬isPart bad ∧
      found = position + bytes before := by
  induction cs generalizing position with
  | nil => cases h
  | cons c cs ih =>
    by_cases hc : isPart c
    case pos =>
      obtain ⟨before, bad, after, rfl, hb, hbad, rfl⟩ := ih (by simpa [firstBad?, hc] using h)
      refine ⟨c :: before, bad, after, rfl, List.forall_mem_cons.mpr ⟨hc, hb⟩, hbad, ?_⟩
      rw [bytes_cons, Nat.add_assoc]
    case neg =>
      obtain rfl : position = found := by simpa [firstBad?, hc] using h
      exact ⟨[], c, cs, rfl, List.forall_mem_nil _, hc, rfl⟩

-- A beginning that no identifier goes on from is the longest one.
theorem longest_append {before after : List Char} {bad : Char}
    (h : before ≠ [] → Identifier before) (hbad : ∀ cs, ¬Identifier (before ++ bad :: cs)) :
    Longest (before ++ bad :: after) before where
  isPrefix := List.prefix_append _ _
  identifier := h
  longest p hp hi := by
    rcases List.prefix_or_prefix_of_prefix hp (List.prefix_append before _) with hle | ⟨t, rfl⟩
    · exact hle
    · cases t with
      | nil => simp
      | cons d t =>
        obtain ⟨rfl, -⟩ := List.cons_prefix_cons.mp ((List.prefix_append_right_inj before).mp hp)
        exact absurd hi (hbad t)

-- A text that is no name is refused at a character that the longest beginning stops at.
theorem fault?_eq_unexpected (hn : name ≠ "") (hi : ¬Identifier name.toList) :
    ∃ beginning bad after, name.toList = beginning ++ bad :: after ∧
      Longest name.toList beginning ∧ fault? name = some (.unexpected (bytes beginning)) := by
  cases hcs : name.toList with
  | nil => exact absurd (String.toList_eq_nil_iff.mp hcs) hn
  | cons c cs =>
    rw [hcs, identifier_cons, not_and] at hi
    rw [fault?, hcs]
    by_cases hc : isStart c
    case pos =>
      obtain ⟨found, hf⟩ : ∃ found, firstBad? c.utf8Size cs = some found :=
        Option.ne_none_iff_exists'.mp (mt firstBad?_eq_none_iff.mp (hi hc))
      obtain ⟨before, bad, after, rfl, hb, hbad, rfl⟩ := firstBad?_eq_some hf
      have hi : Identifier (c :: before) := identifier_cons.mpr ⟨hc, hb⟩
      refine ⟨c :: before, bad, after, rfl, longest_append (fun _ => hi) ?_, ?_⟩
      · exact fun t ht => hbad (ht.isPart bad (by simp))
      · simp [hc, hf, bytes_cons]
    case neg =>
      refine ⟨[], c, cs, rfl, longest_append (absurd rfl) ?_, ?_⟩
      · exact fun t ht => hc (identifier_cons.mp ht).left
      · simp [hc, bytes]

-- The position of a character is a valid one, and within the text.
theorem isValid_bytes {beginning after : List Char} {bad : Char}
    (h : name.toList = beginning ++ bad :: after) :
    String.Pos.Raw.IsValid name ⟨bytes beginning⟩ ∧ bytes beginning < name.utf8ByteSize := by
  have hsplit : name = String.ofList beginning ++ String.ofList (bad :: after) := by
    rw [← String.ofList_append, ← h, String.ofList_toList]
  have hsize : name.utf8ByteSize = bytes beginning + (bad.utf8Size + bytes after) := by
    rw [← bytes_cons, ← bytes_append, ← h, bytes, String.ofList_toList]
  refine ⟨String.Pos.Raw.isValid_iff_exists_append.mpr ⟨_, _, hsplit, rfl⟩, ?_⟩
  rw [hsize]
  exact Nat.lt_add_of_pos_right (Nat.add_pos_left bad.utf8Size_pos _)

-- The characters that separate or enclose names in the dialect.
def punctuation : List Char :=
  ['\'', '"', '[', ']', '(', ')', '/', ' ', ',']

theorem isPart_eq_false_of_mem_punctuation {c : Char} (h : c ∈ punctuation) :
    isPart c = false ∧ c ≠ '*' := by
  have hall : punctuation.all fun c => !isPart c && c != '*' := by decide
  simpa using List.all_eq_true.mp hall c h

-- A text is accepted if and only if it is an identifier. Any other one is refused at a position
-- within the text, which is where its longest identifier ends. Object types may be the wildcard as
-- well, so that no accepted name contains punctuation.
theorem names_are_exactly_identifiers (name : String) :
    (check name = .ok () ↔ Identifier name.toList) ∧
    (name = "" → check name = .error (.invalidName name .empty) ∧
      Fault.empty.message = "name is empty") ∧
    (name ≠ "" → ¬Identifier name.toList → ∃ beginning, Longest name.toList beginning ∧
      let position := (String.ofList beginning).utf8ByteSize
      check name = .error (.invalidName name (.unexpected position)) ∧
      (Fault.unexpected position).message = s!"unexpected character at position {position}" ∧
      String.Pos.Raw.IsValid name ⟨position⟩ ∧ position < name.utf8ByteSize) ∧
    (checkObjectType name = .ok () ↔ name = "*" ∨ Identifier name.toList) ∧
    (name ≠ "*" → checkObjectType name = check name) ∧
    (checkObjectType name = .ok () → ∀ c ∈ name.toList, c ∉ punctuation) := by
  have hcheck : check name = .ok () ↔ Identifier name.toList :=
    Inquiry.check_eq_ok_iff.trans fault?_eq_none_iff_identifier
  have hobject : name ≠ "*" → checkObjectType name = check name := by
    intro hw
    rw [checkObjectType, objectTypeFault?, anyObjectType, if_neg hw, check]
  refine ⟨hcheck, fun hn => ?_, fun hn hi => ?_, ?_, hobject, fun ho => ?_⟩
  · subst hn
    exact ⟨rfl, rfl⟩
  · obtain ⟨beginning, bad, after, hcs, hl, hf⟩ := fault?_eq_unexpected hn hi
    refine ⟨beginning, hl, ?_, rfl, isValid_bytes hcs⟩
    rw [check, hf]
    rfl
  · by_cases hw : name = "*"
    case pos => simp [hw, checkObjectType, objectTypeFault?, anyObjectType]
    case neg => simp [hw, hobject, hcheck]
  · intro c hc hp
    obtain ⟨hpart, hstar⟩ := isPart_eq_false_of_mem_punctuation hp
    rcases isPart_or_wildcard_of_mem (Inquiry.checkObjectType_eq_ok_iff.mp ho) c hc with h | h
    · simp [hpart] at h
    · exact hstar h

-- The third character is the first one that is no ASCII letter. Its position counts bytes.
theorem names_are_exactly_identifiers_umlaut :
    "Größe" ≠ "" ∧ ¬Identifier "Größe".toList ∧ ∃ beginning, Longest "Größe".toList beginning ∧
      (String.ofList beginning).utf8ByteSize = 2 ∧ String.Pos.Raw.IsValid "Größe" ⟨2⟩ := by
  have hcheck : check "Größe" = .error (.invalidName "Größe" (.unexpected 2)) := rfl
  have ⟨hiff, _, hfault, _⟩ := names_are_exactly_identifiers "Größe"
  have hi : ¬Identifier "Größe".toList := fun h => nomatch hcheck.symm.trans (hiff.mpr h)
  have ⟨beginning, hl, hc, _, hv, _⟩ := hfault (by decide) hi
  have hp : (String.ofList beginning).utf8ByteSize = 2 := by
    simpa using hc.symm.trans hcheck
  exact ⟨by decide, hi, beginning, hl, hp, hp ▸ hv⟩

end ResourceQuery.Name
