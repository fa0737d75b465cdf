import ResourceQuery.Proofs.Filter.Construction

namespace ResourceQuery

def Quoted.plain (text : String) : String :=
  if text.toList.contains '\'' then "\"" ++ text ++ "\"" else "'" ++ text ++ "'"

-- Texts are function expressions on date-time attributes, unless they are literals.
def Literal.plain (type : AttributeType) : Literal → String
  | .integer i => toString i.toInt
  | .boolean b => toString b
  | .dateTime t => "'" ++ t.format ++ "'"
  | .reference id => "'" ++ id.text ++ "'"
  | .string s =>
    if type = .dateTime then
      if DateTime.isLiteral s then "'" ++ s ++ "'" else s
    else
      Quoted.plain s

-- The condition on an attribute, given the text of the value if there is one.
def Predicate.plainCondition (subject : Attribute) (operator : Operator) :
    Option String → String
  | none => (presence? subject.name subject.type).getD ""
  | some text =>
    match operator.form with
    | .relation symbol => s!"({subject.name} {symbol} {text})"
    | .function function => s!"({function}({subject.name}, {text}))"
    | .presence => ""

-- The resources of a type, with the text of a condition if there is one.
def Filter.plainSelection (objectType : String) : Option String → String
  | none => "/" ++ objectType
  | some condition => "/" ++ objectType ++ "[" ++ condition ++ "]"

mutual

def Value.plain (type : AttributeType) : Value → String
  | .literal l => l.plain type
  | .query q => q.plain

def Value.plainOption (type : AttributeType) : Option Value → Option String
  | none => none
  | some v => some (v.plain type)

def Predicate.plain : Predicate → String
  | ⟨subject, operator, value, negated, _⟩ =>
    let body := Predicate.plainCondition subject operator (Value.plainOption subject.type value)
    let body := if operator.isNegative then negation body else body
    if negated then negation body else body

def Node.plain : Node → String
  | .predicate p => p.plain
  | .group connective negated children =>
    let body := Node.join connective (Node.plainAll children)
    if negated then negation body else body

def Node.plainAll : List Node → List String
  | [] => []
  | node :: nodes => node.plain :: Node.plainAll nodes

def Node.plainOption : Option Node → Option String
  | none => none
  | some node => some node.plain

def Filter.plain : Filter → String
  | ⟨objectType, root⟩ => Filter.plainSelection objectType (Node.plainOption root)

def Query.plain : Query → String
  | .filter f => f.plain
  | .dereferenced f none => f.plain
  | .dereferenced f (some link) => f.plain ++ "/" ++ link
  | .ascendant objectType link target =>
    "descendants(" ++ Filter.plainSelection objectType (some target.plain) ++ ", '" ++ link ++ "')"
  | .descendant objectType link target =>
    "/" ++ objectType ++ "[descendant-in('" ++ link ++ "', " ++
      Filter.plainSelection objectType (some target.plain) ++ ")]"

end

def Expression.plain : Expression → String
  | .node n => n.plain
  | .query q => q.plain

-- The types of attributes which a value can stand next to.
def Literal.fits : Literal → AttributeType → Bool
  | .integer _, type => type = .integer
  | .boolean _, type => type = .boolean
  | .dateTime _, type => type = .dateTime
  | .reference _, type => type = .reference
  | .string _, type => [.dateTime, .reference, .string, .text].contains type

def Value.fits : Value → AttributeType → Bool
  | .literal l, type => l.fits type
  | .query _, type => type = .reference

-- Texts that need quotes must not contain both of them.
def Literal.isWritable : Literal → AttributeType → Bool
  | .string s, type => type = .dateTime || (Quoted.quote? s).isSome
  | _, _ => true

def Value.isWritable : Value → AttributeType → Bool
  | .literal l, type => l.isWritable type
  | .query _, _ => true

structure Predicate.Legal (subject : Attribute) (operator : Operator) (value : Option Value)
    (negated : Bool) : Prop where
  name : Name.fault? subject.name = none
  allowed : subject.type.allows operator
  valued : value.isSome = operator.requiresValue
  fits : ∀ v ∈ value, v.fits subject.type
  writable : ∀ v ∈ value, v.isWritable subject.type
  negatable : negated → operator.allowsNegation

mutual

def Value.Valid (p : Provider) : Value → Prop
  | .literal _ => True
  | .query q => q.Valid p

def Value.ValidOption (p : Provider) : Option Value → Prop
  | none => True
  | some v => v.Valid p

def Predicate.Valid (p : Provider) : Predicate → Prop
  | ⟨subject, operator, value, negated, text⟩ =>
    Predicate.Legal subject operator value negated ∧
      text = Predicate.plain ⟨subject, operator, value, negated, text⟩ ∧ Value.ValidOption p value

def Node.Valid (p : Provider) : Node → Prop
  | .predicate predicate => predicate.Valid p
  | .group _ _ children => children ≠ [] ∧ Node.ValidAll p children

def Node.ValidAll (p : Provider) : List Node → Prop
  | [] => True
  | node :: nodes => node.Valid p ∧ Node.ValidAll p nodes

def Node.ValidOption (p : Provider) : Option Node → Prop
  | none => True
  | some node => node.Valid p

def Filter.Valid (p : Provider) : Filter → Prop
  | ⟨objectType, root⟩ => p.KnowsType objectType ∧ Node.ValidOption p root

def Query.Valid (p : Provider) : Query → Prop
  | .filter f => f.Valid p
  | .dereferenced f link => f.Valid p ∧ ∀ name ∈ link, p.KnowsLink name
  | .ascendant objectType link target | .descendant objectType link target =>
    p.KnowsType objectType ∧ p.KnowsLink link ∧ target.Valid p

end

def Expression.Valid (p : Provider) : Expression → Prop
  | .node n => n.Valid p
  | .query q => q.Valid p

variable {p : Provider}

mutual

theorem Node.render_eq_plain : (node : Node) → node.Valid p → node.render = node.plain
  | .predicate ⟨_, _, _, _, _⟩, h => h.right.left
  | .group connective negated children, h => by
    simp only [Node.render, Node.plain, Node.renderAll_eq_plainAll children h.right]

theorem Node.renderAll_eq_plainAll : (nodes : List Node) → Node.ValidAll p nodes →
    Node.renderAll nodes = Node.plainAll nodes
  | [], _ => by simp only [Node.renderAll, Node.plainAll]
  | node :: nodes, h => by
    simp only [Node.renderAll, Node.plainAll, Node.render_eq_plain node h.left,
      Node.renderAll_eq_plainAll nodes h.right]

end

theorem Filter.render_eq_plainSelection {objectType : String} {root : Node} (h : root.Valid p) :
    Filter.render ⟨objectType, some root⟩ = plainSelection objectType (some root.plain) :=
  congrArg (fun text => plainSelection objectType (some text)) (root.render_eq_plain h)

theorem Filter.render_eq_plain : {f : Filter} → f.Valid p → f.render = f.plain
  | ⟨_, none⟩, _ => by simp only [render, plain, Node.plainOption, plainSelection]
  | ⟨_, some _⟩, h => by
    simp only [plain, Node.plainOption, render_eq_plainSelection h.right]

theorem Query.render_eq_plain : {q : Query} → q.Valid p → q.render = q.plain
  | .filter _, h => Filter.render_eq_plain (p := p) h
  | .dereferenced _ none, h => Filter.render_eq_plain h.left
  | .dereferenced _ (some link), h => congrArg (· ++ "/" ++ link) (Filter.render_eq_plain h.left)
  | .ascendant _ link _, h =>
    congrArg ("descendants(" ++ · ++ ", '" ++ link ++ "')")
      (Filter.render_eq_plainSelection h.right.right)
  | .descendant objectType link _, h =>
    congrArg ("/" ++ objectType ++ "[descendant-in('" ++ link ++ "', " ++ · ++ ")]")
      (Filter.render_eq_plainSelection h.right.right)

theorem Expression.render_eq_plain {x : Expression} (h : x.Valid p) : x.render = x.plain := by
  cases x
  case node n => exact n.render_eq_plain h
  case query q => exact Query.render_eq_plain h

theorem Quoted.quote_eq_ok_iff {text quoted : String} :
    quote text = .ok quoted ↔ (quote? text).isSome ∧ quoted = plain text := by
  rw [quote, quote?, plain]
  by_cases hs : '\'' ∈ text.toList
  case neg => simp [hs, eq_comm (a := quoted)]
  case pos => by_cases hd : '"' ∈ text.toList <;> simp [hs, hd, eq_comm (a := quoted)]

namespace Predicate

variable {subject : Attribute} {operator : Operator} {value : Option Value} {negated : Bool}
variable {text body : String}

theorem operand_eq_ok_iff {v : Value} (hv : v.Valid p) :
    operand subject v = .ok text ↔
      v.fits subject.type ∧ v.isWritable subject.type ∧ text = v.plain subject.type := by
  fun_cases operand subject v with
  | case1 i ht | case2 b ht | case3 t ht | case4 s ht | case5 id ht =>
    simp [Value.fits, Literal.fits, Value.isWritable, Literal.isWritable, Value.plain,
      Literal.plain, ht, eq_comm (a := text)]
  | case6 q ht =>
    simp [Value.fits, Value.isWritable, Value.plain, ht, Query.render_eq_plain hv,
      eq_comm (a := text)]
  | case7 s ht | case8 s ht | case9 s ht =>
    simp [Value.fits, Literal.fits, Value.isWritable, Literal.isWritable, Value.plain,
      Literal.plain, ht, Quoted.quote_eq_ok_iff]
  | case10 =>
    cases v with
    | query q => simp_all [Value.fits]
    | literal l => cases l <;> simp_all [Value.fits, Literal.fits]

theorem isSome_presence? (name : String) (type : AttributeType) :
    (presence? name type).isSome = type.isQueryable := by
  cases type <;> rfl

theorem comparison_eq_ok_iff (h : operator.requiresValue = true) :
    comparison subject operator text = .ok body ↔
      body = plainCondition subject operator (some text) := by
  rw [Operator.requiresValue_iff] at h
  cases hf : operator.form <;> simp_all [comparison, plainCondition, eq_comm (a := body)]

theorem condition_eq_ok_iff (hq : subject.type.isQueryable) (hv : Value.ValidOption p value) :
    condition subject operator value = .ok body ↔
      value.isSome = operator.requiresValue ∧ (∀ v ∈ value, v.fits subject.type) ∧
        (∀ v ∈ value, v.isWritable subject.type) ∧
        body = plainCondition subject operator (Value.plainOption subject.type value) := by
  cases value with
  | none =>
    rw [← isSome_presence? subject.name, Option.isSome_iff_exists] at hq
    have ⟨text, ht⟩ := hq
    simp [condition_none_eq_ok_iff, Value.plainOption, plainCondition, ht, eq_comm (a := body),
      eq_comm (b := operator.requiresValue)]
  | some v =>
    have hv : v.Valid p := hv
    rw [condition_some_eq_ok_iff, Option.isSome_some, eq_comm (a := true), and_congr_right_iff]
    intro hr
    simp [operand_eq_ok_iff hv, comparison_eq_ok_iff hr, Value.plainOption, and_assoc]

theorem isQueryable_of_allows (h : subject.type.allows operator) : subject.type.isQueryable := by
  cases hq : subject.type.isQueryable with
  | true => rfl
  | false => simp [AttributeType.allows_eq_false_of_not_isQueryable hq] at h

-- A predicate is made of legal parts, all of them, and with no other text than the plain one.
theorem ofAttribute_eq_ok_iff_legal (hv : Value.ValidOption p value) :
    ofAttribute subject operator value negated = .ok ⟨subject, operator, value, negated, text⟩ ↔
      Legal subject operator value negated ∧
        text = Predicate.plain ⟨subject, operator, value, negated, text⟩ := by
  rw [ofAttribute_eq_ok_iff, Predicate.plain]
  constructor
  case mp =>
    intro ⟨hn, hneg, inner, hi, he⟩
    have ⟨hq, ha, body, hb, hbody⟩ := compile_eq_ok_iff.mp hi
    have ⟨hr, hf, hw, hplain⟩ := (condition_eq_ok_iff hq hv).mp hb
    refine ⟨⟨hn, ha, hr, hf, hw, hneg⟩, ?_⟩
    rw [← hplain, ← hbody]
    exact (mk.inj he).right.right.right.right
  case mpr =>
    intro ⟨h, ht⟩
    have hq := isQueryable_of_allows h.allowed
    have hb := (condition_eq_ok_iff hq hv).mpr ⟨h.valued, h.fits, h.writable, rfl⟩
    exact ⟨h.name, h.negatable, _, compile_eq_ok_iff.mpr ⟨hq, h.allowed, _, hb, rfl⟩, by rw [← ht]⟩

end Predicate

mutual

theorem Value.sound_iff_valid : (v : Value) → (v.Sound p ↔ v.Valid p)
  | .literal _ => .rfl
  | .query q => q.sound_iff_valid

theorem Value.soundOption_iff_valid : (v : Option Value) →
    (Value.SoundOption p v ↔ Value.ValidOption p v)
  | none => .rfl
  | some v => v.sound_iff_valid

theorem Predicate.sound_iff_valid : (predicate : Predicate) →
    (predicate.Sound p ↔ predicate.Valid p)
  | ⟨_, _, value, _, _⟩ => by
    have hv := Value.soundOption_iff_valid value
    constructor
    case mp =>
      intro h
      have ⟨hl, ht⟩ := (Predicate.ofAttribute_eq_ok_iff_legal (hv.mp h.right)).mp h.left
      exact ⟨hl, ht, hv.mp h.right⟩
    case mpr =>
      intro ⟨hl, ht, h⟩
      exact ⟨(Predicate.ofAttribute_eq_ok_iff_legal h).mpr ⟨hl, ht⟩, hv.mpr h⟩

theorem Node.sound_iff_valid : (node : Node) → (node.Sound p ↔ node.Valid p)
  | .predicate predicate => predicate.sound_iff_valid
  | .group _ _ children => and_congr_right fun _ => Node.soundList_iff_valid children

theorem Node.soundList_iff_valid : (nodes : List Node) →
    (Node.SoundList p nodes ↔ Node.ValidAll p nodes)
  | [] => .rfl
  | node :: nodes => and_congr node.sound_iff_valid (Node.soundList_iff_valid nodes)

theorem Node.soundOption_iff_valid : (root : Option Node) →
    (Node.SoundOption p root ↔ Node.ValidOption p root)
  | none => .rfl
  | some node => node.sound_iff_valid

theorem Filter.sound_iff_valid : (f : Filter) → (f.Sound p ↔ f.Valid p)
  | ⟨_, root⟩ => and_congr_right fun _ => Node.soundOption_iff_valid root

theorem Query.sound_iff_valid : (q : Query) → (q.Sound p ↔ q.Valid p)
  | .filter f => f.sound_iff_valid
  | .dereferenced f _ => and_congr_left fun _ => f.sound_iff_valid
  | .ascendant _ _ target | .descendant _ _ target =>
    and_congr_right fun _ => and_congr_right fun _ => target.sound_iff_valid

end

theorem Expression.sound_iff_valid {x : Expression} : x.Sound p ↔ x.Valid p := by
  cases x
  case node n => exact n.sound_iff_valid
  case query q => exact q.sound_iff_valid

end ResourceQuery
