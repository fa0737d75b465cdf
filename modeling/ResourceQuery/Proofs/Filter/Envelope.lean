import ResourceQuery.Filter.Envelope

namespace ResourceQuery

namespace Markup

-- Characters that begin or end markup, or an attribute of it.
def delimiters : List Char :=
  ['<', '>', '"', '\'']

def entities : List (List Char) :=
  ["&amp;".toList, "&lt;".toList, "&gt;".toList, "&quot;".toList, "&apos;".toList]

-- One pass from left to right. An ampersand that begins no entity stands for itself.
def expandAll : List Char → List Char
  | '&' :: 'a' :: 'm' :: 'p' :: ';' :: rest => '&' :: expandAll rest
  | '&' :: 'l' :: 't' :: ';' :: rest => '<' :: expandAll rest
  | '&' :: 'g' :: 't' :: ';' :: rest => '>' :: expandAll rest
  | '&' :: 'q' :: 'u' :: 'o' :: 't' :: ';' :: rest => '"' :: expandAll rest
  | '&' :: 'a' :: 'p' :: 'o' :: 's' :: ';' :: rest => '\'' :: expandAll rest
  | c :: rest => c :: expandAll rest
  | [] => []

def expand (text : String) : String :=
  String.ofList (expandAll text.toList)

variable {c : Char} {cs : List Char}

theorem expandAll_cons (h : c ≠ '&') (rest : List Char) :
    expandAll (c :: rest) = c :: expandAll rest := by
  rw [expandAll.eq_def]
  split <;> simp_all

theorem toList_escape (text : String) :
    (escape text).toList = text.toList.flatMap escapeChar :=
  String.toList_ofList

-- A character is written as its entity, or as itself if it has no meaning.
theorem escapeChar_cases (c : Char) :
    escapeChar c ∈ entities ∧ (∀ rest, expandAll (escapeChar c ++ rest) = c :: expandAll rest) ∨
    escapeChar c = [c] ∧ c ≠ '&' ∧ c ∉ delimiters := by
  rw [escapeChar, entity?.eq_def]
  split
  case h_6 => exact .inr ⟨rfl, by simp_all [delimiters]⟩
  all_goals exact .inl ⟨by decide, fun _ => rfl⟩

-- Expansion does not read past the character at hand, so what follows makes no difference.
theorem expandAll_escapeChar_append (c : Char) (rest : List Char) :
    expandAll (escapeChar c ++ rest) = c :: expandAll rest := by
  rcases escapeChar_cases c with ⟨_, he⟩ | ⟨he, hc, _⟩
  case inl => exact he rest
  case inr => rw [he, List.singleton_append, expandAll_cons hc]

theorem expandAll_flatMap_escapeChar (cs : List Char) :
    expandAll (cs.flatMap escapeChar) = cs := by
  induction cs with
  | nil => rfl
  | cons c cs ih => rw [List.flatMap_cons, expandAll_escapeChar_append, ih]

theorem expand_escape (text : String) : expand (escape text) = text := by
  rw [expand, toList_escape, expandAll_flatMap_escapeChar, String.ofList_toList]

theorem escape_append (s t : String) : escape (s ++ t) = escape s ++ escape t := by
  apply String.toList_injective
  simp [toList_escape]

theorem notMem_delimiters_of_mem_entities {entity : List Char} (h : entity ∈ entities) :
    ∀ c ∈ entity, c ∉ delimiters := by
  have hall : entities.all (·.all (!delimiters.contains ·)) := by decide
  simpa using List.all_eq_true.mp hall entity h

theorem notMem_delimiters_of_mem_escapeChar {d : Char} (h : d ∈ escapeChar c) :
    d ∉ delimiters := by
  rcases escapeChar_cases c with ⟨he, _⟩ | ⟨he, _, hc⟩
  case inl => exact notMem_delimiters_of_mem_entities he d h
  case inr =>
    rw [he, List.mem_singleton] at h
    exact h ▸ hc

theorem notMem_delimiters_of_mem_escape {text : String} (h : c ∈ (escape text).toList) :
    c ∉ delimiters := by
  rw [toList_escape] at h
  have ⟨_, _, hc⟩ := List.mem_flatMap.mp h
  exact notMem_delimiters_of_mem_escapeChar hc

-- Only the first character of an entity is an ampersand.
theorem eq_nil_of_entity_eq {before after : List Char} (h : before ++ '&' :: after ∈ entities) :
    before = [] := by
  have hall : ∀ entity ∈ entities, '&' ∉ entity.tail := by decide
  cases before with
  | nil => rfl
  | cons c before => exact absurd (by simp) (hall _ h)

-- An ampersand begins what some character is written as.
theorem entity_of_escapeChar_eq {before after : List Char}
    (h : escapeChar c = before ++ '&' :: after) : before = [] ∧ '&' :: after ∈ entities := by
  rcases escapeChar_cases c with ⟨he, _⟩ | ⟨he, hc, _⟩
  case inl =>
    rw [h] at he
    obtain rfl := eq_nil_of_entity_eq he
    exact ⟨rfl, he⟩
  case inr =>
    have hm : '&' ∈ [c] := he ▸ h ▸ by simp
    exact absurd (List.mem_singleton.mp hm).symm hc

theorem exists_entity_of_flatMap_eq {before after : List Char}
    (h : cs.flatMap escapeChar = before ++ '&' :: after) :
    ∃ entity ∈ entities, entity <+: '&' :: after := by
  induction cs generalizing before with
  | nil => simp at h
  | cons c cs ih =>
    rw [List.flatMap_cons, List.append_eq_append_iff] at h
    rcases h with ⟨between, _, hrest⟩ | ⟨between, hc, hrest⟩
    case inl => exact ih hrest
    case inr =>
      cases between with
      | nil =>
        have hnext : cs.flatMap escapeChar = [] ++ '&' :: after := hrest.symm
        exact ih hnext
      | cons d between =>
        obtain ⟨rfl, rfl⟩ : '&' = d ∧ after = between ++ cs.flatMap escapeChar := by
          simpa using hrest
        have ⟨_, he⟩ := entity_of_escapeChar_eq hc
        exact ⟨_, he, List.prefix_append _ _⟩

end Markup

namespace Envelope

-- What lies between the first tag and the next one.
def content (envelope : String) : String :=
  String.ofList ((envelope.toList.dropWhile (· != '>')).tail.takeWhile (· != '<'))

theorem content_eq {before inside after : List Char} (hb : '>' ∉ before) (hi : '<' ∉ inside) :
    content (String.ofList (before ++ '>' :: (inside ++ '<' :: after))) = String.ofList inside := by
  have hbefore : ∀ c ∈ before, (c != '>') = true := fun c hc => by
    simpa using ne_of_mem_of_not_mem hc hb
  have hinside : ∀ c ∈ inside, (c != '<') = true := fun c hc => by
    simpa using ne_of_mem_of_not_mem hc hi
  rw [content, String.toList_ofList, List.dropWhile_append_of_pos hbefore]
  simp [List.takeWhile_append_of_pos hinside]

-- The first tag ends where the opening of an envelope does.
theorem exists_opening_eq : ∃ before, opening.toList = before ++ ['>'] ∧ '>' ∉ before :=
  ⟨opening.toList.dropLast, by decide +kernel⟩

theorem content_wrap (text : String) : content (wrap text) = Markup.escape text := by
  have ⟨before, hopening, hb⟩ := exists_opening_eq
  have hclosing : closing.toList = '<' :: closing.toList.tail := by decide
  have hi : '<' ∉ (Markup.escape text).toList :=
    fun h => Markup.notMem_delimiters_of_mem_escape h (by decide)
  have hwrap : wrap text = String.ofList (before ++
      '>' :: ((Markup.escape text).toList ++ '<' :: closing.toList.tail)) := by
    apply String.toList_injective
    simp only [wrap, String.toList_append, String.toList_ofList, hopening, ← hclosing]
    simp
  rw [hwrap, content_eq hb hi, String.ofList_toList]

theorem expand_content_wrap (text : String) : Markup.expand (content (wrap text)) = text := by
  rw [content_wrap, Markup.expand_escape]

theorem wrap_injective : Function.Injective wrap := by
  intro s t h
  rw [← expand_content_wrap s, h, expand_content_wrap]

-- Escaped text holds no delimiter, every ampersand of it begins an entity, and its entities expand
-- to the text. What an envelope has between its tags expands to the filter, so no two filters have
-- the same envelope.
theorem envelope_lossless :
    (∀ text : String,
      (∀ c ∈ (Markup.escape text).toList, c ∉ Markup.delimiters) ∧
      (∀ before after, (Markup.escape text).toList = before ++ '&' :: after →
        ∃ entity ∈ Markup.entities, entity <+: '&' :: after) ∧
      Markup.expand (Markup.escape text) = text ∧
      Markup.expand (content (wrap text)) = text) ∧
    (∀ s t, Markup.escape (s ++ t) = Markup.escape s ++ Markup.escape t) ∧
    Function.Injective wrap := by
  refine ⟨fun text => ⟨fun _ => Markup.notMem_delimiters_of_mem_escape, fun _ _ h => ?_,
    Markup.expand_escape text, expand_content_wrap text⟩, Markup.escape_append, wrap_injective⟩
  exact Markup.exists_entity_of_flatMap_eq (Markup.toList_escape text ▸ h)

-- Text that looks escaped is escaped once more.
example :
    Markup.escape "&amp;lt;" = "&amp;amp;lt;" ∧ Markup.expand "&amp;amp;lt;" = "&amp;lt;" := by
  decide

end Envelope

end ResourceQuery
