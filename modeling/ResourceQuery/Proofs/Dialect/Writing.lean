import ResourceQuery.Filter.Predicate
import ResourceQuery.Proofs.Dialect.Reading
import ResourceQuery.Proofs.Text.Quotable

namespace ResourceQuery.Dialect

namespace Condition

def negateIf (negated : Bool) (c : Condition) : Condition :=
  if negated then .negation c else c

-- A single condition is not joined with anything.
def join (connective : Connective) : List Condition → Condition
  | [c] => c
  | cs => .junction connective cs

-- The condition that all values of a type meet. Nothing is asked of the types for which there is
-- none.
def presence (name : String) : AttributeType → Condition
  | .reference => .relation name "=" (.path (.selection anyObjectType none none))
  | .integer => .relation name "<=" (.integer greatestInteger.toInt)
  | .dateTime => .relation name "<=" (.quoted latestMoment)
  | .boolean =>
    .junction .or [.relation name "=" (.boolean true), .relation name "=" (.boolean false)]
  | .string | .text => .call name "starts-with" (.quoted "%")
  | .binary | .unknown => .junction .or []

def comparison (subject : Attribute) (operator : Operator) (operand : Option Operand) : Condition :=
  match operator.form, operand with
  | .relation symbol, some a => .relation subject.name symbol a
  | .function function, some a => .call subject.name function a
  | _, _ => presence subject.name subject.type

end Condition

structure Operand.Writes (a : Operand) (text : String) : Prop where
  wellFormed : a.WellFormed
  write_eq : ∀ rest, a.write rest = put text rest

structure Condition.Writes (c : Condition) (text : String) : Prop where
  wellFormed : c.WellFormed
  write_eq : ∀ rest, c.write rest = put text rest

structure Condition.WritesAll (connective : Connective) (cs : List Condition)
    (texts : List String) : Prop where
  wellFormed : Condition.WellFormedList cs
  length_eq : cs.length = texts.length
  write_eq : ∀ rest, Condition.writeAll connective cs rest =
    put (String.intercalate (" " ++ connective.text ++ " ") texts) rest

structure Path.Writes (p : Path) (text : String) : Prop where
  wellFormed : p.WellFormed
  write_eq : ∀ rest, p.write rest = put text rest

structure Expression.Writes (x : Expression) (text : String) : Prop where
  wellFormed : x.WellFormed
  write_eq : ∀ rest, x.write rest = put text rest

variable {name text : String} {a : Operand} {c : Condition} {connective : Connective}

namespace Operand

theorem writes_integer (i : Int) : (integer i).Writes (toString i) :=
  ⟨trivial, fun _ => rfl⟩

theorem writes_boolean (b : Bool) : (boolean b).Writes (toString b) :=
  ⟨trivial, fun _ => by cases b <;> rfl⟩

theorem writes_path {p : Path} (h : p.Writes text) : (path p).Writes text :=
  ⟨h.wellFormed, h.write_eq⟩

theorem writes_quoted {content : String} (h : Quoted.quote? content = some text) :
    (quoted content).Writes text := by
  rw [Quoted.quote?] at h
  split at h
  case isTrue hs =>
    cases h
    have hn : '\'' ∉ content.toList := by simpa using hs
    exact ⟨.inl hn, fun rest => by simp [write, quoteFor, hn, put]⟩
  case isFalse hs =>
    split at h
    case isFalse => cases h
    case isTrue hd =>
      cases h
      have hm : '\'' ∈ content.toList := by simpa using hs
      have hn : '"' ∉ content.toList := by simpa using hd
      exact ⟨.inr hn, fun rest => by simp [write, quoteFor, hm, put]⟩

theorem writes_quotable (content : String) (h : Quotable content.toList) :
    (quoted content).Writes ("'" ++ content ++ "'") := by
  have hn : '\'' ∉ content.toList := h
  exact writes_quoted (by simp [Quoted.quote?, hn])

end Operand

namespace Condition

theorem Writes.congr {other : String} (h : c.Writes text) (he : text.toList = other.toList) :
    c.Writes other :=
  String.toList_injective he ▸ h

theorem writes_relation {operator : Operator} {symbol : String} (hn : Name.fault? name = none)
    (ho : operator.form = .relation symbol) (ha : a.Writes text) :
    (relation name symbol a).Writes s!"({name} {symbol} {text})" :=
  ⟨⟨hn, ⟨operator, ho⟩, ha.wellFormed⟩, fun rest => by simp [write, ha.write_eq, put, toString]⟩

theorem writes_call {operator : Operator} {function : String} (hn : Name.fault? name = none)
    (ho : operator.form = .function function) (ha : a.Writes text) :
    (call name function a).Writes s!"({function}({name}, {text}))" :=
  ⟨⟨hn, ⟨operator, ho⟩, ha.wellFormed⟩, fun rest => by simp [write, ha.write_eq, put, toString]⟩

theorem writes_negateIf (negated : Bool) (h : c.Writes text) :
    (negateIf negated c).Writes (if negated then ResourceQuery.negation text else text) := by
  cases negated
  case false => exact h
  case true =>
    exact ⟨h.wellFormed, fun rest => by
      simp [negateIf, write, h.write_eq, ResourceQuery.negation, put]⟩

theorem writesAll_nil : WritesAll connective [] [] :=
  ⟨trivial, rfl, fun _ => by simp [writeAll, put]⟩

theorem writesAll_cons {cs : List Condition} {texts : List String} (h : c.Writes text)
    (hs : WritesAll connective cs texts) : WritesAll connective (c :: cs) (text :: texts) := by
  refine ⟨⟨h.wellFormed, hs.wellFormed⟩, by simp [hs.length_eq], fun rest => ?_⟩
  have hl := hs.length_eq
  match cs, texts with
  | [], [] => simp [writeAll, h.write_eq]
  | d :: ds, u :: us =>
    simp [writeAll, h.write_eq, hs.write_eq, String.intercalate_cons_cons, put]

theorem writes_join {cs : List Condition} {texts : List String}
    (h : WritesAll connective cs texts) (hn : cs ≠ []) :
    (join connective cs).Writes (Node.join connective texts) := by
  have hl := h.length_eq
  match cs, texts with
  | [c], [t] =>
    exact ⟨h.wellFormed.left, by simpa [join, Node.join, writeAll] using h.write_eq⟩
  | c :: d :: cs, t :: u :: us =>
    refine ⟨⟨by simp, h.wellFormed⟩, fun rest => ?_⟩
    simp [join, write, Node.join, h.write_eq, put]

theorem writes_presence {type : AttributeType} (hn : Name.fault? name = none)
    (h : Predicate.presence? name type = some text) : (presence name type).Writes text := by
  have he : Operator.equals.form = .relation "=" := rfl
  have hl : Operator.lessThanOrEquals.form = .relation "<=" := rfl
  have hs : Operator.startsWith.form = .function "starts-with" := rfl
  cases type <;> cases h
  case reference =>
    have hp : Path.Writes (.selection anyObjectType none none) "/*" :=
      ⟨⟨by decide, trivial, by simp⟩, fun _ => rfl⟩
    exact (writes_relation hn he (Operand.writes_path hp)).congr (by simp [toString])
  case integer =>
    exact (writes_relation hn hl (Operand.writes_integer _)).congr (by simp [toString])
  case dateTime =>
    have hq := Operand.writes_quotable latestMoment (by decide)
    exact (writes_relation hn hl hq).congr (by simp [toString])
  case boolean =>
    have hb (b : Bool) := writes_relation hn he (Operand.writes_boolean b)
    have hw : WritesAll .or _ _ :=
      writesAll_cons (hb true) (writesAll_cons (hb false) writesAll_nil)
    exact (writes_join hw (by simp)).congr (by
      simp [Node.join, String.intercalate_cons_cons, Connective.text, toString])
  case string | text =>
    have hq := Operand.writes_quotable "%" (by decide)
    exact (writes_call hn hs hq).congr (by simp [toString])

end Condition

-- A text is written by one expression, and an expression has one text.
theorem Expression.eq_iff_eq_of_writes {x y : Expression} {t u : String} (hx : x.Writes t)
    (hy : y.Writes u) : t = u ↔ x = y := by
  constructor
  case mp =>
    intro h
    have he : x.write [')'] = y.write [')'] := by rw [hx.write_eq, hy.write_eq, h]
    exact (write_inj hx.wellFormed hy.wellFormed he).left
  case mpr =>
    intro h
    have he : put t [] = put u [] := by rw [← hx.write_eq, ← hy.write_eq, h]
    exact String.toList_injective (by simpa [put] using he)

end ResourceQuery.Dialect
