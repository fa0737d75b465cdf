import ResourceQuery.Proofs.Dialect.Form

namespace ResourceQuery

namespace Operator

variable {o : Operator} {symbol function : String}

theorem blank_notMem_relation (h : o.form = .relation symbol) : ' ' ∉ symbol.toList := by
  cases o <;> simp only [form, Form.relation.injEq, reduceCtorEq] at h <;> subst h <;> simp

theorem mem_of_form_function (h : o.form = .function function) :
    function ∈ ["contains", "starts-with", "ends-with"] := by
  cases o <;> simp only [form, Form.function.injEq, reduceCtorEq] at h <;> subst h <;> simp

end Operator

namespace Dialect

-- What a condition shows after its parenthesis: a word, which may be empty, and the character that
-- ends it.
def Condition.opening : Condition → List Char × Char
  | .relation name _ _ => (name.toList, ' ')
  | .call _ function _ => (function.toList, '(')
  | .negation _ => ("not".toList, '(')
  | .junction _ _ => ([], '(')

namespace Condition

inductive Kind
  | relation
  | call
  | negation
  | junction
  deriving DecidableEq

def kind : Condition → Kind
  | .relation _ _ _ => .relation
  | .call _ _ _ => .call
  | .negation _ => .negation
  | .junction _ _ => .junction

-- The kind of a condition shows in its opening.
def Kind.ofOpening (opening : List Char × Char) : Kind :=
  if opening.2 = ' ' then .relation
  else if opening.1 = [] then .junction
  else if opening.1 = "not".toList then .negation
  else .call

theorem Kind.ofOpening_opening {c : Condition} (hc : c.WellFormed) :
    ofOpening c.opening = c.kind := by
  cases c
  case relation => rfl
  case call name function operand =>
    have ⟨o, ho⟩ := hc.right.left
    have hf := Operator.mem_of_form_function ho
    simp only [List.mem_cons, List.not_mem_nil, or_false] at hf
    rcases hf with rfl | rfl | rfl <;> simp [ofOpening, opening, kind]
  case negation => simp [ofOpening, opening, kind]
  case junction => rfl

theorem write_eq_cons (c : Condition) (rest : List Char) : ∃ tail, c.write rest = '(' :: tail := by
  cases c <;> exact ⟨_, by simp only [write]; rfl⟩

theorem writeAll_eq_cons (connective : Connective) {cs : List Condition} (h : cs ≠ [])
    (rest : List Char) : ∃ tail, writeAll connective cs rest = '(' :: tail := by
  match cs with
  | [c] => exact c.write_eq_cons rest
  | c :: d :: cs => exact c.write_eq_cons _

theorem ne_nil_of_wellFormed_junction {k : Connective} {cs : List Condition}
    (h : (junction k cs).WellFormed) : cs ≠ [] := by
  rintro rfl
  simp [WellFormed] at h

theorem write_eq_opening {c : Condition} (hc : c.WellFormed) (rest : List Char) :
    ∃ tail, c.write rest = '(' :: (c.opening.1 ++ c.opening.2 :: tail) := by
  cases c
  case relation => exact ⟨_, rfl⟩
  case call => exact ⟨_, rfl⟩
  case negation c =>
    have ⟨tail, ht⟩ := c.write_eq_cons (')' :: rest)
    exact ⟨tail, by rw [write, ht]; rfl⟩
  case junction connective cs =>
    have hcs := ne_nil_of_wellFormed_junction hc
    have ⟨tail, ht⟩ := writeAll_eq_cons connective hcs (')' :: rest)
    exact ⟨tail, by rw [write, ht]; rfl⟩

theorem of_mem_opening {c : Condition} (hc : c.WellFormed) :
    ∀ x ∈ c.opening.1, x ≠ ' ' ∧ x ≠ '(' := by
  cases c
  case relation name symbol operand =>
    have hn := Name.isPart_of_mem hc.left
    intro x hx
    constructor <;> rintro rfl <;> exact absurd (hn _ hx) (by decide)
  case call name function operand =>
    have ⟨o, ho⟩ := hc.right.left
    have hf := Operator.mem_of_form_function ho
    simp only [List.mem_cons, List.not_mem_nil, or_false] at hf
    rcases hf with rfl | rfl | rfl <;> simp [opening]
  case negation => simp [opening]
  case junction => simp [opening]

theorem opening_snd (c : Condition) : ¬(c.opening.2 ≠ ' ' ∧ c.opening.2 ≠ '(') := by
  cases c <;> simp [opening]

theorem opening_eq_of_write_eq {c d : Condition} (hc : c.WellFormed) (hd : d.WellFormed)
    {r s : List Char} (h : c.write r = d.write s) : c.opening = d.opening := by
  have ⟨t, ht⟩ := write_eq_opening hc r
  have ⟨u, hu⟩ := write_eq_opening hd s
  rw [ht, hu, List.cons.injEq] at h
  have ⟨h₁, h₂, _⟩ := Delimited.append_cons_inj (of_mem_opening hc) (of_mem_opening hd)
    c.opening_snd d.opening_snd h.right
  exact Prod.ext h₁ h₂

theorem kind_eq_of_write_eq {c d : Condition} (hc : c.WellFormed) (hd : d.WellFormed)
    {r s : List Char} (h : c.write r = d.write s) : c.kind = d.kind := by
  rw [← Kind.ofOpening_opening hc, ← Kind.ofOpening_opening hd, opening_eq_of_write_eq hc hd h]

end Condition

namespace Operand

inductive Kind
  | number
  | truth
  | quotation
  | path
  deriving DecidableEq

def kind : Operand → Kind
  | .integer _ => .number
  | .boolean _ => .truth
  | .quoted _ => .quotation
  | .path _ => .path

-- The kind of an operand shows in its first character.
def Kind.ofLead (c : Char) : Kind :=
  if c = 't' ∨ c = 'f' then .truth
  else if c = '\'' ∨ c = '"' then .quotation
  else if c = '/' ∨ c = 'd' then .path
  else .number

theorem Kind.ofLead_eq_number {c : Char} (h : c.isDigit ∨ c = '-') : ofLead c = .number := by
  have hne {d : Char} (hd : ¬(d.isDigit ∨ d = '-')) : c ≠ d := fun hc => hd (hc ▸ h)
  simp only [ofLead, hne (d := 't') (by decide), hne (d := 'f') (by decide),
    hne (d := '\'') (by decide), hne (d := '"') (by decide), hne (d := '/') (by decide),
    hne (d := 'd') (by decide), or_self, if_false]

theorem exists_lead (a : Operand) (rest : List Char) :
    ∃ c tail, a.write rest = c :: tail ∧ Kind.ofLead c = a.kind := by
  cases a
  case integer i =>
    have ⟨c, cs, hc⟩ := List.exists_cons_of_ne_nil (Decimal.toList_toString_ne_nil i)
    have hd := Decimal.isDigit_or_minus_of_mem_toString i c (hc ▸ List.mem_cons_self)
    exact ⟨c, cs ++ rest, by rw [write, put, hc, List.cons_append], Kind.ofLead_eq_number hd⟩
  case boolean b =>
    cases b
    case false => exact ⟨'f', put "alse" rest, by simp [write, put], rfl⟩
    case true => exact ⟨'t', put "rue" rest, by simp [write, put], rfl⟩
  case quoted text =>
    refine ⟨quoteFor text, _, by rw [write], ?_⟩
    rw [quoteFor]
    split <;> rfl
  case path q =>
    cases q
    case selection => exact ⟨'/', _, by rw [write, Path.write], rfl⟩
    case ascendant =>
      have hd : "descendants(/".toList = 'd' :: "escendants(/".toList := by simp
      exact ⟨'d', _, by rw [write, Path.write, put, hd, List.cons_append], rfl⟩
    case descendant => exact ⟨'/', _, by rw [write, Path.write], rfl⟩

theorem kind_eq_of_write_eq {a b : Operand} {r s : List Char} (h : a.write r = b.write s) :
    a.kind = b.kind := by
  have ⟨c, t, ha, hc⟩ := a.exists_lead r
  have ⟨d, u, hb, hd⟩ := b.exists_lead s
  rw [ha, hb, List.cons.injEq] at h
  rw [← hc, ← hd, h.left]

end Operand

theorem quoteFor_notMem {text : String} (h : (Operand.quoted text).WellFormed) :
    quoteFor text ∉ text.toList := by
  rw [quoteFor]
  split
  case isTrue hc => exact h.resolve_left (by simpa using hc)
  case isFalse hc => simpa using hc

theorem Operand.write_quoted_inj {t u : String} {r s : List Char}
    (ht : (Operand.quoted t).WellFormed) (hu : (Operand.quoted u).WellFormed)
    (h : (Operand.quoted t).write r = (Operand.quoted u).write s) : t = u ∧ r = s := by
  simp only [Operand.write, List.cons.injEq] at h
  have ⟨hq, h⟩ := h
  rw [← hq] at h
  have ⟨htu, hrs⟩ := Delimited.append_cons_inj_of_notMem (quoteFor_notMem ht)
    (hq ▸ quoteFor_notMem hu) h
  exact ⟨String.toList_injective htu, hrs⟩

theorem Operand.write_integer_inj {i j : Int} {r s : List Char}
    (h : (Operand.integer i).write (')' :: r) = (Operand.integer j).write (')' :: s)) :
    i = j ∧ r = s := by
  have hp (i : Int) : ')' ∉ (toString i).toList := fun hm =>
    absurd (Decimal.isDigit_or_minus_of_mem_toString i _ hm) (by decide)
  have ⟨hij, hrs⟩ := Delimited.append_cons_inj_of_notMem (hp i) (hp j) h
  exact ⟨Decimal.toList_toString_injective hij, hrs⟩

theorem Operand.write_boolean_inj {a b : Bool} {r s : List Char}
    (h : (Operand.boolean a).write r = (Operand.boolean b).write s) : a = b ∧ r = s := by
  cases a <;> cases b <;> simp_all [Operand.write, put]

theorem put_objectType_inj {n m : String} {r s : List Char} (hn : Name.objectTypeFault? n = none)
    (hm : Name.objectTypeFault? m = none) (hr : Name.Ends r) (hs : Name.Ends s)
    (h : put n r = put m s) : n = m ∧ r = s :=
  Name.append_inj hn hm hr hs h

theorem put_name_inj {n m : String} {c d : Char} {r s : List Char} (hn : Name.fault? n = none)
    (hm : Name.fault? m = none) (hc : ¬(Name.isPart c ∨ c = '*')) (hd : ¬(Name.isPart d ∨ d = '*'))
    (h : put n (c :: r) = put m (d :: s)) : n = m ∧ r = s := by
  have ⟨hnm, hrs⟩ := put_objectType_inj (Name.objectTypeFault?_eq_none hn)
    (Name.objectTypeFault?_eq_none hm) (Name.ends_cons hc) (Name.ends_cons hd) h
  exact ⟨hnm, (List.cons.inj hrs).right⟩

theorem exists_writeLink_eq_cons (link : Option String) (r : List Char) :
    ∃ c tail, writeLink link (')' :: r) = c :: tail ∧ (c = ')' ∨ c = '/') := by
  cases link
  case none => exact ⟨')', r, rfl, .inl rfl⟩
  case some => exact ⟨'/', _, rfl, .inr rfl⟩

theorem writeRoot_ends (root : Option Condition) (link : Option String) (r : List Char) :
    Name.Ends (Condition.writeRoot root (writeLink link (')' :: r))) := by
  cases root
  case none =>
    have ⟨c, tail, hw, hc⟩ := exists_writeLink_eq_cons link r
    rw [Condition.writeRoot, hw]
    rcases hc with rfl | rfl <;> exact Name.ends_cons (by decide)
  case some =>
    rw [Condition.writeRoot]
    exact Name.ends_cons (by decide)

theorem writeLink_inj {l m : Option String} {r s : List Char}
    (hl : ∀ name ∈ l, Name.fault? name = none) (hm : ∀ name ∈ m, Name.fault? name = none)
    (h : writeLink l (')' :: r) = writeLink m (')' :: s)) : l = m ∧ r = s := by
  cases l <;> cases m <;> simp only [writeLink, List.cons.injEq] at h
  case none.none => exact ⟨rfl, h.right⟩
  case none.some => exact absurd h.left (by decide)
  case some.none => exact absurd h.left (by decide)
  case some.some =>
    have ⟨hn, hrs⟩ := put_name_inj (hl _ rfl) (hm _ rfl) (by decide) (by decide) h.right
    exact ⟨congrArg some hn, hrs⟩

-- After the object type, a selection has a condition where a descendant has a function.
theorem write_selection_ne_descendant {t u m : String} {c : Option Condition} {l : Option String}
    {d : Condition} {r s : List Char} (hp : (Path.selection t c l).WellFormed)
    (hq : (Path.descendant u m d).WellFormed) :
    (Path.selection t c l).write (')' :: r) ≠ (Path.descendant u m d).write s := by
  intro h
  simp only [Path.write, List.cons.injEq, true_and] at h
  have ⟨_, h⟩ := put_objectType_inj hp.left hq.left (writeRoot_ends c l r)
    (Name.ends_cons (by decide)) h
  cases c with
  | none =>
    have ⟨_, _, hw, hc⟩ := exists_writeLink_eq_cons l r
    simp only [Condition.writeRoot, hw, List.cons.injEq] at h
    rcases hc with rfl | rfl <;> exact absurd h.left (by decide)
  | some root =>
    have ⟨_, hw⟩ := root.write_eq_cons (']' :: writeLink l (')' :: r))
    simp [Condition.writeRoot, hw, put] at h

theorem put_connective_inj {j k : Connective} {r s : List Char}
    (h : put j.text r = put k.text s) : j = k ∧ r = s := by
  cases j <;> cases k <;> simp_all [Connective.text, put]

open Operand Condition

mutual

theorem Operand.write_inj {r s : List Char} : (a b : Operand) → a.WellFormed → b.WellFormed →
    a.write (')' :: r) = b.write (')' :: s) → a = b ∧ r = s
  | .integer i, .integer j, _, _, h => by
    have ⟨hij, hrs⟩ := write_integer_inj h
    exact ⟨congrArg Operand.integer hij, hrs⟩
  | .boolean a, .boolean b, _, _, h => by
    have ⟨hab, hrs⟩ := write_boolean_inj h
    exact ⟨congrArg Operand.boolean hab, (List.cons.inj hrs).right⟩
  | .quoted t, .quoted u, ht, hu, h => by
    have ⟨htu, hrs⟩ := write_quoted_inj ht hu h
    exact ⟨congrArg Operand.quoted htu, (List.cons.inj hrs).right⟩
  | .path p, .path q, hp, hq, h => by
    have ⟨hpq, hrs⟩ := Path.write_inj p q hp hq h
    exact ⟨congrArg Operand.path hpq, hrs⟩
  | .integer _, .boolean _, _, _, h | .integer _, .quoted _, _, _, h
  | .integer _, .path _, _, _, h | .boolean _, .integer _, _, _, h
  | .boolean _, .quoted _, _, _, h | .boolean _, .path _, _, _, h
  | .quoted _, .integer _, _, _, h | .quoted _, .boolean _, _, _, h
  | .quoted _, .path _, _, _, h | .path _, .integer _, _, _, h
  | .path _, .boolean _, _, _, h | .path _, .quoted _, _, _, h =>
    nomatch Operand.kind_eq_of_write_eq h
termination_by structural a => a

theorem Condition.write_inj {r s : List Char} : (c d : Condition) → c.WellFormed → d.WellFormed →
    c.write r = d.write s → c = d ∧ r = s
  | .relation n x a, .relation m y b, hc, hd, h => by
    simp only [Condition.write, List.cons.injEq, true_and] at h
    have ⟨hn, h⟩ := put_name_inj hc.left hd.left (by decide) (by decide) h
    have ⟨⟨_, hx⟩, ⟨_, hy⟩⟩ := And.intro hc.right.left hd.right.left
    have ⟨hxy, h⟩ := Delimited.append_cons_inj_of_notMem (Operator.blank_notMem_relation hx)
      (Operator.blank_notMem_relation hy) h
    have ⟨hab, hrs⟩ := Operand.write_inj a b hc.right.right hd.right.right h
    exact ⟨by rw [hn, String.toList_injective hxy, hab], hrs⟩
  | .call n f a, .call m g b, hc, hd, h => by
    have hfg := String.toList_injective (congrArg Prod.fst (opening_eq_of_write_eq hc hd h))
    simp only [Condition.write, hfg, List.cons.injEq, true_and, put_inj] at h
    have ⟨hn, h⟩ := put_name_inj hc.left hd.left (by decide) (by decide) h
    have ⟨hab, hrs⟩ := Operand.write_inj a b hc.right.right hd.right.right (List.cons.inj h).right
    exact ⟨by rw [hn, hfg, hab], (List.cons.inj hrs).right⟩
  | .negation c, .negation d, hc, hd, h => by
    simp only [Condition.write, List.cons.injEq, put_inj, true_and] at h
    have ⟨hcd, hrs⟩ := Condition.write_inj c d hc hd h
    exact ⟨congrArg Condition.negation hcd, (List.cons.inj hrs).right⟩
  | .junction j cs, .junction k ds, hc, hd, h => by
    simp only [Condition.write, List.cons.injEq, true_and] at h
    have ⟨hcd, hrs, hjk⟩ := Condition.writeAll_inj cs ds hc.right hd.right
      (ne_nil_of_wellFormed_junction hc) (ne_nil_of_wellFormed_junction hd) h
    exact ⟨by rw [hjk hc.left, hcd], hrs⟩
  | .relation _ _ _, .call _ _ _, hc, hd, h | .relation _ _ _, .negation _, hc, hd, h
  | .relation _ _ _, .junction _ _, hc, hd, h | .call _ _ _, .relation _ _ _, hc, hd, h
  | .call _ _ _, .negation _, hc, hd, h | .call _ _ _, .junction _ _, hc, hd, h
  | .negation _, .relation _ _ _, hc, hd, h | .negation _, .call _ _ _, hc, hd, h
  | .negation _, .junction _ _, hc, hd, h | .junction _ _, .relation _ _ _, hc, hd, h
  | .junction _ _, .call _ _ _, hc, hd, h | .junction _ _, .negation _, hc, hd, h =>
    nomatch Condition.kind_eq_of_write_eq hc hd h
termination_by structural c => c

theorem Condition.writeAll_inj {j k : Connective} {r s : List Char} :
    (cs ds : List Condition) → Condition.WellFormedList cs → Condition.WellFormedList ds →
      cs ≠ [] → ds ≠ [] →
      Condition.writeAll j cs (')' :: r) = Condition.writeAll k ds (')' :: s) →
      cs = ds ∧ r = s ∧ (2 ≤ cs.length → j = k)
  | [c], [d], hc, hd, _, _, h => by
    have ⟨hcd, hrs⟩ := Condition.write_inj c d hc.left hd.left h
    exact ⟨by rw [hcd], (List.cons.inj hrs).right, by simp⟩
  | [c], d :: d' :: ds, hc, hd, _, _, h => by
    have ⟨_, hrs⟩ := Condition.write_inj c d hc.left hd.left h
    exact absurd (List.cons.inj hrs).left (by decide)
  | c :: c' :: cs, [d], hc, hd, _, _, h => by
    have ⟨_, hrs⟩ := Condition.write_inj c d hc.left hd.left h
    exact absurd (List.cons.inj hrs).left (by decide)
  | c :: c' :: cs, d :: d' :: ds, hc, hd, _, _, h => by
    have ⟨hcd, h⟩ := Condition.write_inj c d hc.left hd.left h
    have ⟨hjk, h⟩ := put_connective_inj (List.cons.inj h).right
    have ⟨hcs, hrs, _⟩ := Condition.writeAll_inj (c' :: cs) (d' :: ds) hc.right hd.right
      nofun nofun (List.cons.inj h).right
    exact ⟨by rw [hcd, hcs], hrs, fun _ => hjk⟩
termination_by structural cs => cs

theorem Condition.writeRoot_inj {l m : Option String} {r s : List Char} :
    (c d : Option Condition) → Condition.WellFormedOption c → Condition.WellFormedOption d →
      Condition.writeRoot c (writeLink l (')' :: r)) =
        Condition.writeRoot d (writeLink m (')' :: s)) →
      c = d ∧ writeLink l (')' :: r) = writeLink m (')' :: s)
  | none, none, _, _, h => ⟨rfl, h⟩
  | some c, some d, hc, hd, h => by
    simp only [Condition.writeRoot, List.cons.injEq, true_and] at h
    have ⟨hcd, h⟩ := Condition.write_inj c d hc hd h
    exact ⟨congrArg some hcd, (List.cons.inj h).right⟩
  | none, some _, _, _, h => by
    have ⟨_, _, hw, hc⟩ := exists_writeLink_eq_cons l r
    simp only [Condition.writeRoot, hw, List.cons.injEq] at h
    rcases hc with rfl | rfl <;> exact absurd h.left (by decide)
  | some _, none, _, _, h => by
    have ⟨_, _, hw, hc⟩ := exists_writeLink_eq_cons m s
    simp only [Condition.writeRoot, hw, List.cons.injEq] at h
    rcases hc with rfl | rfl <;> exact absurd h.left (by decide)
termination_by structural c => c

theorem Path.write_inj {r s : List Char} : (p q : Path) → p.WellFormed → q.WellFormed →
    p.write (')' :: r) = q.write (')' :: s) → p = q ∧ r = s
  | .selection t c l, .selection u d m, hp, hq, h => by
    simp only [Path.write, List.cons.injEq, true_and] at h
    have ⟨htu, h⟩ :=
      put_objectType_inj hp.left hq.left (writeRoot_ends c l r) (writeRoot_ends d m s) h
    have ⟨hcd, h⟩ := Condition.writeRoot_inj c d hp.right.left hq.right.left h
    have ⟨hlm, hrs⟩ := writeLink_inj hp.right.right hq.right.right h
    exact ⟨by rw [htu, hcd, hlm], hrs⟩
  | .ascendant t l c, .ascendant u m d, hp, hq, h => by
    simp only [Path.write, put_inj] at h
    have ⟨htu, h⟩ := put_objectType_inj hp.left hq.left (Name.ends_cons (by decide))
      (Name.ends_cons (by decide)) h
    have ⟨hcd, h⟩ := Condition.write_inj c d hp.right.right hq.right.right (List.cons.inj h).right
    have ⟨hlm, h⟩ := put_name_inj hp.right.left hq.right.left (by decide) (by decide) (put_inj.mp h)
    exact ⟨by rw [htu, hcd, hlm], (List.cons.inj (List.cons.inj h).right).right⟩
  | .descendant t l c, .descendant u m d, hp, hq, h => by
    simp only [Path.write, List.cons.injEq, true_and] at h
    have ⟨htu, h⟩ := put_objectType_inj hp.left hq.left (Name.ends_cons (by decide))
      (Name.ends_cons (by decide)) h
    simp only [List.cons.injEq, true_and, put_inj] at h
    have ⟨hlm, h⟩ := put_name_inj hp.right.left hq.right.left (by decide) (by decide) h
    simp only [htu, put_inj, List.cons.injEq, true_and] at h
    have ⟨hcd, h⟩ := Condition.write_inj c d hp.right.right hq.right.right h
    exact ⟨by rw [htu, hcd, hlm], (List.cons.inj (put_inj.mp h)).right⟩
  | .selection t c l, .descendant u m d, hp, hq, h => by
    exact absurd h (write_selection_ne_descendant hp hq)
  | .descendant t l c, .selection u d m, hp, hq, h => by
    exact absurd h.symm (write_selection_ne_descendant hq hp)
  | .ascendant _ _ _, .selection _ _ _, _, _, h => by simp [Path.write, put] at h
  | .ascendant _ _ _, .descendant _ _ _, _, _, h => by simp [Path.write, put] at h
  | .selection _ _ _, .ascendant _ _ _, _, _, h => by simp [Path.write, put] at h
  | .descendant _ _ _, .ascendant _ _ _, _, _, h => by simp [Path.write, put] at h
termination_by structural p => p

end

theorem Condition.write_ne_write_path (c : Condition) (p : Path) (r s : List Char) :
    c.write r ≠ p.write s := by
  have ⟨_, hc⟩ := c.write_eq_cons r
  rw [hc]
  cases p <;> simp [Path.write, put]

theorem Expression.write_inj {r s : List Char} {x y : Expression} (hx : x.WellFormed)
    (hy : y.WellFormed) (h : x.write (')' :: r) = y.write (')' :: s)) : x = y ∧ r = s := by
  cases x <;> cases y
  case condition.condition c d =>
    have ⟨hcd, hrs⟩ := Condition.write_inj c d hx hy h
    exact ⟨congrArg Expression.condition hcd, (List.cons.inj hrs).right⟩
  case path.path p q =>
    have ⟨hpq, hrs⟩ := Path.write_inj p q hx hy h
    exact ⟨congrArg Expression.path hpq, hrs⟩
  case condition.path c p => exact absurd h (c.write_ne_write_path p _ _)
  case path.condition p c => exact absurd h.symm (c.write_ne_write_path p _ _)

end Dialect

end ResourceQuery
