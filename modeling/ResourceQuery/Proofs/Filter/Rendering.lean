import ResourceQuery.Proofs.Filter.Construction
import ResourceQuery.Proofs.Filter.Form
import ResourceQuery.Schema.Catalog

namespace ResourceQuery

open Dialect (Operand Condition Path)

theorem Value.writes_form {subject : Attribute} {v : Value} {text : String}
    (hr : Predicate.isRaw subject.type (some v) = false)
    (hq : ∀ q, v = .query q → q.form.Writes q.render)
    (h : Predicate.operand subject v = .ok text) : v.form.Writes text := by
  have quoted {s t : String} (h : Quoted.quote s = .ok t) : (Operand.quoted s).Writes t := by
    rw [Quoted.quote] at h
    split at h <;> cases h
    exact Operand.writes_quoted ‹_›
  simp only [Predicate.operand] at h
  split at h
  case h_1 => cases h; exact Operand.writes_integer _
  case h_2 => cases h; exact Operand.writes_boolean _
  case h_3 t _ => cases h; exact Operand.writes_quotable _ t.quotable_format
  case h_4 s ht =>
    have hl : DateTime.isLiteral s := by simpa [Predicate.isRaw, ht] using hr
    simp only [hl, if_true] at h
    cases h
    exact Operand.writes_quotable s (DateTime.quotable_of_isLiteral hl)
  case h_5 id _ => cases h; exact Operand.writes_quotable _ id.quotable_text
  case h_6 q _ => cases h; exact Operand.writes_path (hq q rfl)
  case h_7 | h_8 | h_9 => exact quoted h
  case h_10 => cases h

theorem Predicate.writes_comparison {subject : Attribute} {operator : Operator}
    {value : Option Value} {text : String} (hn : Name.fault? subject.name = none)
    (hv : ∀ v t, value = some v → operand subject v = .ok t → v.form.Writes t)
    (h : condition subject operator value = .ok text) :
    (Condition.comparison subject operator (Value.formOption value)).Writes text := by
  cases value with
  | none =>
    have ⟨hr, hp⟩ := condition_none_eq_ok_iff.mp h
    have ho : operator.form = .presence := by simpa [hr] using operator.requiresValue_iff
    simpa [Value.formOption, Condition.comparison, ho] using Condition.writes_presence hn hp
  | some v =>
    have ⟨_, t, ht, hc⟩ := condition_some_eq_ok_iff.mp h
    rw [Predicate.comparison] at hc
    split at hc <;> cases hc
    case h_1 symbol ho =>
      simpa [Value.formOption, Condition.comparison, ho] using
        Condition.writes_relation hn ho (hv v t rfl ht)
    case h_2 function ho =>
      simpa [Value.formOption, Condition.comparison, ho] using
        Condition.writes_call hn ho (hv v t rfl ht)

theorem Filter.writes_form {objectType : String} {root : Option Node} {link : Option String}
    (ht : Name.objectTypeFault? objectType = none) (hl : ∀ name ∈ link, Name.fault? name = none)
    (hr : ∀ node ∈ root, node.form.Writes node.render) :
    (Filter.form link ⟨objectType, root⟩).Writes
      (Query.render (.dereferenced ⟨objectType, root⟩ link)) := by
  cases root
  case none =>
    refine ⟨⟨ht, trivial, hl⟩, fun rest => ?_⟩
    cases link <;> simp [Filter.form, Node.formOption, Path.write, Condition.writeRoot,
      Dialect.writeLink, Query.render, Filter.render, Dialect.put]
  case some node =>
    have hw := hr node rfl
    refine ⟨⟨ht, hw.wellFormed, hl⟩, fun rest => ?_⟩
    cases link <;> simp [Filter.form, Node.formOption, Path.write, Condition.writeRoot,
      Dialect.writeLink, Query.render, Filter.render, Dialect.put, hw.write_eq]

theorem Query.writes_ascendant {objectType link : String} {target : Node}
    (ht : Name.objectTypeFault? objectType = none) (hl : Name.fault? link = none)
    (hw : target.form.Writes target.render) :
    (Query.form (.ascendant objectType link target)).Writes
      (Query.render (.ascendant objectType link target)) :=
  ⟨⟨ht, hl, hw.wellFormed⟩, fun rest => by
    simp [Query.form, Path.write, hw.write_eq, Query.render, Filter.render, Dialect.put]⟩

theorem Query.writes_descendant {objectType link : String} {target : Node}
    (ht : Name.objectTypeFault? objectType = none) (hl : Name.fault? link = none)
    (hw : target.form.Writes target.render) :
    (Query.form (.descendant objectType link target)).Writes
      (Query.render (.descendant objectType link target)) :=
  ⟨⟨ht, hl, hw.wellFormed⟩, fun rest => by
    simp [Query.form, Path.write, hw.write_eq, Query.render, Filter.render, Dialect.put]⟩

variable {p q : Provider}

theorem Predicate.writes_form {subject : Attribute} {operator : Operator} {value : Option Value}
    {negated : Bool} {text : String}
    (h : ofAttribute subject operator value negated = .ok ⟨subject, operator, value, negated, text⟩)
    (hr : isRaw subject.type value = false)
    (hq : ∀ q, value = some (.query q) → q.form.Writes q.render) :
    (Predicate.form ⟨subject, operator, value, negated, text⟩).Writes text := by
  have ⟨hn, _, inner, hi, he⟩ := ofAttribute_eq_ok_iff.mp h
  have ⟨_, _, body, hb, hbody⟩ := compile_eq_ok_iff.mp hi
  have hv (v : Value) (t : String) (hvalue : value = some v) (ht : operand subject v = .ok t) :
      v.form.Writes t :=
    Value.writes_form (hvalue ▸ hr) (fun q hvq => hq q (hvq ▸ hvalue)) ht
  have hw := Condition.writes_negateIf operator.isNegative (writes_comparison hn hv hb)
  rw [← hbody] at hw
  exact (mk.inj he).right.right.right.right ▸ Condition.writes_negateIf negated hw

mutual

theorem Value.query_writes_form : (v : Value) → v.Sound p → v.isRawFree →
    ∀ q, v = .query q → q.form.Writes q.render
  | .literal _, _, _, _, h => by cases h
  | .query q, hs, hr, _, h => by
    cases h
    exact Query.writes_form_render q hs hr

theorem Value.query_writes_formOption : (v : Option Value) → Value.SoundOption p v →
    Value.isRawFreeOption v → ∀ q, v = some (.query q) → q.form.Writes q.render
  | none, _, _, _, h => by cases h
  | some v, hs, hr, q, h => Value.query_writes_form v hs hr q (Option.some.inj h)

theorem Predicate.writes_form_text : (predicate : Predicate) → predicate.Sound p →
    predicate.isRawFree → predicate.form.Writes predicate.text
  | ⟨subject, operator, value, negated, text⟩, hs, hr => by
    simp only [Predicate.isRawFree, Bool.and_eq_true, Bool.not_eq_true'] at hr
    exact Predicate.writes_form hs.left hr.left
      (Value.query_writes_formOption value hs.right hr.right)

theorem Node.writes_form_render : (node : Node) → node.Sound p → node.isRawFree →
    node.form.Writes node.render
  | .predicate predicate, hs, hr => Predicate.writes_form_text predicate hs hr
  | .group connective negated children, hs, hr => by
    have hw := Node.writesAll_form_render children hs.right hr connective
    have hn : Node.formAll children ≠ [] := by
      cases children
      case nil => exact absurd rfl hs.left
      case cons => simp [Node.formAll]
    exact Condition.writes_negateIf negated (Condition.writes_join hw hn)

theorem Node.writesAll_form_render : (nodes : List Node) → Node.SoundList p nodes →
    Node.areRawFree nodes → ∀ connective,
      Condition.WritesAll connective (Node.formAll nodes) (Node.renderAll nodes)
  | [], _, _, _ => Condition.writesAll_nil
  | node :: nodes, hs, hr, connective => by
    simp only [Node.areRawFree, Bool.and_eq_true] at hr
    exact Condition.writesAll_cons (Node.writes_form_render node hs.left hr.left)
      (Node.writesAll_form_render nodes hs.right hr.right connective)

theorem Node.writes_formOption : (root : Option Node) → Node.SoundOption p root →
    Node.isRawFreeOption root → ∀ node ∈ root, node.form.Writes node.render
  | none, _, _, _, h => by cases h
  | some node, hs, hr, _, h => by
    cases h
    exact Node.writes_form_render node hs hr

theorem Filter.writes_form_render : (f : Filter) → f.Sound p → f.isRawFree → ∀ link,
    (∀ name ∈ link, Name.fault? name = none) →
      (f.form link).Writes (Query.render (.dereferenced f link))
  | ⟨_, root⟩, hs, hr, _, hl =>
    Filter.writes_form hs.left.valid hl (Node.writes_formOption root hs.right hr)

theorem Query.writes_form_render : (q : Query) → q.Sound p → q.isRawFree →
    q.form.Writes q.render
  | .filter f, hs, hr => Filter.writes_form_render f hs hr none (by simp)
  | .dereferenced f link, hs, hr =>
    Filter.writes_form_render f hs.left hr link fun name hn => (hs.right name hn).valid
  | .ascendant _ _ target, hs, hr =>
    Query.writes_ascendant hs.left.valid hs.right.left.valid
      (Node.writes_form_render target hs.right.right hr)
  | .descendant _ _ target, hs, hr =>
    Query.writes_descendant hs.left.valid hs.right.left.valid
      (Node.writes_form_render target hs.right.right hr)

end

namespace Expression

theorem writes_form_render {x : Expression} (hs : x.Sound p) (hr : x.isRawFree) :
    x.form.Writes x.render := by
  cases x
  case node n =>
    have hw := Node.writes_form_render n hs hr
    exact ⟨hw.wellFormed, hw.write_eq⟩
  case query q =>
    have hw := Query.writes_form_render q hs hr
    exact ⟨hw.wellFormed, hw.write_eq⟩

-- The text of what was built tells what it stands for, and nothing else.
theorem render_eq_iff_form_eq {a b : Draft.Expression} {x y : Expression}
    (ha : a.resolve.Yields p x) (hb : b.resolve.Yields q y) (hx : x.isRawFree) (hy : y.isRawFree) :
    x.render = y.render ↔ x.form = y.form :=
  Dialect.Expression.eq_iff_eq_of_writes
    (writes_form_render (Draft.Expression.sound_of_resolve ha) hx)
    (writes_form_render (Draft.Expression.sound_of_resolve hb) hy)

-- People with a boss and an age.
def people : Schema :=
  Catalog.toSchema {
    objectTypes := ["Person"]
    attributes := [⟨"boss", .reference, false⟩, ⟨"age", .integer, false⟩]
  }

-- Inequality, and a negated group of one equality. One query asks for an age and the other one
-- compares it with the greatest integer.
theorem render_eq_iff_form_eq_inequality :
    let aged := Draft.Query.filter "Person" (some (.predicate "age" .isPresent none false))
    let bounded := Draft.Query.dereferenced "Person"
      (some (.predicate "age" .lessThanOrEquals (some (.literal (.integer greatestInteger))) false))
      none
    let unequal := Draft.Expression.node
      (.predicate "boss" .notEquals (some (.query aged)) false)
    let notEqual := Draft.Expression.node
      (.group .or true [.predicate "boss" .equals (some (.query bounded)) false])
    ∃ x y, unequal.resolve.answer people = .ok x ∧ notEqual.resolve.answer people = .ok y ∧
      x ≠ y ∧ x.form = y.form := by
  intro aged bounded unequal notEqual
  let boss : Attribute := ⟨"boss", .reference, false⟩
  let age : Attribute := ⟨"age", .integer, false⟩
  let text := "(age <= 9223372036854775807)"
  let equality := "(boss = /Person[(age <= 9223372036854775807)])"
  let x : Expression := .node (.predicate ⟨boss, .notEquals,
    some (.query (.filter ⟨"Person", some (.predicate ⟨age, .isPresent, none, false, text⟩)⟩)),
    false, negation equality⟩)
  let y : Expression := .node (.group .or true [.predicate ⟨boss, .equals,
    some (.query (.dereferenced ⟨"Person", some (.predicate ⟨age, .lessThanOrEquals,
      some (.literal (.integer greatestInteger)), false, text⟩)⟩ none)), false, equality⟩])
  have hx : unequal.resolve.Yields people.toProvider x := Inquiry.yields_toProvider_iff.mpr rfl
  have hy : notEqual.resolve.Yields people.toProvider y := Inquiry.yields_toProvider_iff.mpr rfl
  exact ⟨x, y, rfl, rfl, by simp [x, y], (render_eq_iff_form_eq hx hy rfl rfl).mp rfl⟩

end Expression

end ResourceQuery
