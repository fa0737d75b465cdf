import ResourceQuery.Filter.Draft
import ResourceQuery.Proofs.Schema.Provider

namespace ResourceQuery

mutual

def Value.Sound (p : Provider) : Value → Prop
  | .literal _ => True
  | .query q => q.Sound p

def Value.SoundOption (p : Provider) : Option Value → Prop
  | none => True
  | some v => v.Sound p

def Predicate.Sound (p : Provider) : Predicate → Prop
  | ⟨subject, operator, value, negated, text⟩ =>
    Predicate.ofAttribute subject operator value negated =
      .ok ⟨subject, operator, value, negated, text⟩ ∧ Value.SoundOption p value

def Node.Sound (p : Provider) : Node → Prop
  | .predicate predicate => predicate.Sound p
  | .group _ _ children => children ≠ [] ∧ Node.SoundList p children

def Node.SoundList (p : Provider) : List Node → Prop
  | [] => True
  | node :: nodes => node.Sound p ∧ Node.SoundList p nodes

def Node.SoundOption (p : Provider) : Option Node → Prop
  | none => True
  | some node => node.Sound p

def Filter.Sound (p : Provider) : Filter → Prop
  | ⟨objectType, root⟩ => p.KnowsType objectType ∧ Node.SoundOption p root

def Query.Sound (p : Provider) : Query → Prop
  | .filter f => f.Sound p
  | .dereferenced f link => f.Sound p ∧ ∀ name ∈ link, p.KnowsLink name
  | .ascendant objectType link target | .descendant objectType link target =>
    p.KnowsType objectType ∧ p.KnowsLink link ∧ target.Sound p

end

def Expression.Sound (p : Provider) : Expression → Prop
  | .node n => n.Sound p
  | .query q => q.Sound p

variable {p : Provider}

theorem bind_eq_ok_iff {ε α β : Type} {e : Except ε α} {f : α → Except ε β} {b : β} :
    e >>= f = .ok b ↔ ∃ a, e = .ok a ∧ f a = .ok b := by
  cases e <;> simp [bind, Except.bind]

theorem unless_throw_eq_ok_iff {ε α β : Type} {c : Prop} [Decidable c] {error : ε}
    {e : Except ε β} {f : α → Except ε β} {b : β} :
    (if c then e else throw error >>= f) = .ok b ↔ c ∧ e = .ok b := by
  by_cases h : c <;> simp [h, bind, Except.bind, throw, throwThe, MonadExceptOf.throw]

theorem if_throw_eq_ok_iff {ε α β : Type} {c : Prop} [Decidable c] {error : ε}
    {e : Except ε β} {f : α → Except ε β} {b : β} :
    (if c then throw error >>= f else e) = .ok b ↔ ¬c ∧ e = .ok b := by
  rw [← ite_not, unless_throw_eq_ok_iff]

theorem Node.soundList_iff {nodes : List Node} :
    Node.SoundList p nodes ↔ ∀ node ∈ nodes, node.Sound p := by
  induction nodes with
  | nil => simp [Node.SoundList]
  | cons node nodes ih => simp [Node.SoundList, ih]

namespace Predicate

section Condition

variable {subject : Attribute} {operator : Operator} {value found : Option Value} {v : Value}
variable {body : String}

theorem admitted_eq_ok_iff :
    admitted subject operator value = .ok found ↔
      value.isSome = operator.requiresValue ∧ found = value := by
  cases hr : operator.requiresValue <;> cases value <;>
    simp [admitted, hr, eq_comm (a := found)]

theorem presence_eq_ok_iff :
    presence subject = .ok body ↔ presence? subject.name subject.type = some body := by
  cases h : presence? subject.name subject.type <;> simp [presence, h]

theorem condition_none_eq_ok_iff :
    condition subject operator none = .ok body ↔
      operator.requiresValue = false ∧ presence? subject.name subject.type = some body := by
  simp [condition, bind_eq_ok_iff, admitted_eq_ok_iff, presence_eq_ok_iff, and_assoc,
    eq_comm (b := operator.requiresValue)]

theorem condition_some_eq_ok_iff :
    condition subject operator (some v) = .ok body ↔
      operator.requiresValue = true ∧
        ∃ text, operand subject v = .ok text ∧ comparison subject operator text = .ok body := by
  simp [condition, bind_eq_ok_iff, admitted_eq_ok_iff, and_assoc,
    eq_comm (b := operator.requiresValue)]

-- Presence takes no value, so it is never compared with one.
theorem exists_comparison_eq_ok (h : operator.requiresValue = true) (text : String) :
    ∃ body, comparison subject operator text = .ok body := by
  rw [Operator.requiresValue_iff] at h
  cases hf : operator.form with
  | relation => exact ⟨_, by rw [comparison, hf]⟩
  | function => exact ⟨_, by rw [comparison, hf]⟩
  | presence => exact absurd hf h

end Condition

theorem compile_eq_ok_iff {subject : Attribute} {operator : Operator} {value : Option Value}
    {text : String} :
    compile subject operator value = .ok text ↔
      subject.type.isQueryable ∧ subject.type.allows operator ∧
        ∃ body, condition subject operator value = .ok body ∧
          text = if operator.isNegative then negation body else body := by
  simp only [compile, unless_throw_eq_ok_iff, bind_eq_ok_iff]
  simp [pure, Except.pure, eq_comm (a := text)]

theorem ofAttribute_eq_ok_iff {subject : Attribute} {operator : Operator} {value : Option Value}
    {negated : Bool} {predicate : Predicate} :
    ofAttribute subject operator value negated = .ok predicate ↔
      Name.fault? subject.name = none ∧ (negated → operator.allowsNegation) ∧
        ∃ text, compile subject operator value = .ok text ∧
          predicate = ⟨subject, operator, value, negated,
            if negated then negation text else text⟩ := by
  simp only [ofAttribute, bind_eq_ok_iff, if_throw_eq_ok_iff, ← Inquiry.check_eq_ok_iff]
  constructor
  case mp =>
    intro ⟨_, hc, text, ht, hn, hp⟩
    exact ⟨hc, by simpa using hn, text, ht, (Except.ok.inj hp).symm⟩
  case mpr =>
    intro ⟨hc, hn, text, ht, hp⟩
    exact ⟨(), hc, text, ht, by simpa using hn, hp ▸ rfl⟩

theorem sound_of_ofAttribute {subject : Attribute} {operator : Operator} {value : Option Value}
    {negated : Bool} {predicate : Predicate} (hv : Value.SoundOption p value)
    (h : ofAttribute subject operator value negated = .ok predicate) : predicate.Sound p := by
  have ⟨_, _, _, _, hp⟩ := ofAttribute_eq_ok_iff.mp h
  subst hp
  exact ⟨h, hv⟩

theorem sound_of_new {name : String} {operator : Operator} {value : Option Value} {negated : Bool}
    {predicate : Predicate} (hv : Value.SoundOption p value)
    (h : (new name operator value negated).Yields p predicate) : predicate.Sound p := by
  simp only [new, Inquiry.yields_bind_iff, Inquiry.yields_ofExcept_iff] at h
  obtain ⟨_, _, h⟩ := h
  exact sound_of_ofAttribute hv h

theorem sound_of_present {name : String} {predicate : Predicate}
    (h : (present name).Yields p predicate) : predicate.Sound p :=
  have hv : Value.SoundOption p none := trivial
  sound_of_new hv h

theorem sound_of_notPresent {name : String} {predicate : Predicate}
    (h : (notPresent name).Yields p predicate) : predicate.Sound p :=
  have hv : Value.SoundOption p none := trivial
  sound_of_new hv h

end Predicate

theorem Node.sound_of_ofChildren {connective : Connective} {negated : Bool} {children : List Node}
    {node : Node} (hc : Node.SoundList p children)
    (h : Node.ofChildren connective negated children = .ok node) : node.Sound p := by
  rw [Node.ofChildren] at h
  split at h
  case isTrue => cases h
  case isFalse he =>
    cases h
    exact ⟨by simpa using he, hc⟩

theorem Filter.sound_of_new {objectType : String} {root : Option Node} {f : Filter}
    (hr : Node.SoundOption p root) (h : (Filter.new objectType root).Yields p f) : f.Sound p := by
  simp only [Filter.new, Inquiry.yields_bind_iff, Inquiry.yields_pure_iff] at h
  obtain ⟨_, ht, hf⟩ := h
  exact hf ▸ ⟨Inquiry.yields_validateObjectType_iff.mp ht, hr⟩

theorem Filter.sound_of_dereference {f : Filter} {link : Option String} {q : Query}
    (hf : f.Sound p) (h : (f.dereference link).Yields p q) : q.Sound p := by
  cases link
  case none =>
    simp only [Filter.dereference, Inquiry.yields_pure_iff] at h
    exact h ▸ ⟨hf, by simp⟩
  case some =>
    simp only [Filter.dereference, Inquiry.yields_bind_iff, Inquiry.yields_pure_iff] at h
    obtain ⟨_, hl, hq⟩ := h
    exact hq ▸ ⟨hf, by simpa using Inquiry.yields_requireReference_iff.mp hl⟩

theorem Filter.yields_new {objectType : String} (h : p.KnowsType objectType) (root : Option Node) :
    (Filter.new objectType root).Yields p ⟨objectType, root⟩ :=
  Inquiry.yields_bind_iff.mpr ⟨(), Inquiry.yields_validateObjectType_iff.mpr h, .done⟩

theorem Filter.yields_dereference {link : Option String} (f : Filter)
    (h : ∀ name ∈ link, p.KnowsLink name) :
    (f.dereference link).Yields p (.dereferenced f link) := by
  cases link with
  | none => exact .done
  | some name =>
    have hl : (Inquiry.requireReference name).Yields p () :=
      Inquiry.yields_requireReference_iff.mpr (h name rfl)
    exact Inquiry.yields_bind_iff.mpr ⟨(), hl, .done⟩

theorem Query.yields_traversal_iff {objectType link : String} {q r : Query} :
    (do Inquiry.validateObjectType objectType; Inquiry.requireReference link; return q).Yields p r ↔
      p.KnowsType objectType ∧ p.KnowsLink link ∧ q = r := by
  simp only [Inquiry.yields_bind_iff, Inquiry.yields_validateObjectType_iff,
    Inquiry.yields_requireReference_iff, Inquiry.yields_pure_iff, exists_const]

theorem Query.sound_of_ascending {objectType link : String} {target : Node} {q : Query}
    (ht : target.Sound p) (h : (Query.ascending objectType link target).Yields p q) :
    q.Sound p := by
  have ⟨ho, hl, hq⟩ := Query.yields_traversal_iff.mp h
  exact hq ▸ ⟨ho, hl, ht⟩

theorem Query.sound_of_descending {objectType link : String} {target : Node} {q : Query}
    (ht : target.Sound p) (h : (Query.descending objectType link target).Yields p q) :
    q.Sound p := by
  have ⟨ho, hl, hq⟩ := Query.yields_traversal_iff.mp h
  exact hq ▸ ⟨ho, hl, ht⟩

namespace Builder

structure Sound (p : Provider) (b : Builder) : Prop where
  objectType : p.KnowsType b.objectType
  root : Node.SoundList p b.root.children
  opened : ∀ frame ∈ b.opened, Node.SoundList p frame.children
  link : ∀ name ∈ b.link, p.KnowsLink name

theorem Frame.sound_add {frame : Frame} {node : Node} (hf : Node.SoundList p frame.children)
    (hn : node.Sound p) : Node.SoundList p (frame.add node).children := by
  rw [Node.soundList_iff] at hf ⊢
  simp only [Frame.add, List.mem_append, List.mem_singleton]
  rintro _ (h | rfl)
  · exact hf _ h
  · exact hn

theorem sound_of_new {objectType : String} {b : Builder} (h : (Builder.new objectType).Yields p b) :
    b.Sound p := by
  simp only [Builder.new, Inquiry.yields_bind_iff, Inquiry.yields_pure_iff] at h
  obtain ⟨_, ht, hb⟩ := h
  subst hb
  exact ⟨Inquiry.yields_validateObjectType_iff.mp ht, trivial, by simp, by simp⟩

namespace Sound

variable {b : Builder}

theorem node {added : Node} (hb : b.Sound p) (hn : added.Sound p) : (b.node added).Sound p := by
  rw [Builder.node]
  split
  case h_1 => exact ⟨hb.objectType, Frame.sound_add hb.root hn, hb.opened, hb.link⟩
  case h_2 frame below ho =>
    have hf := hb.opened
    simp only [ho, List.forall_mem_cons] at hf
    refine ⟨hb.objectType, hb.root, ?_, hb.link⟩
    simp only [List.forall_mem_cons]
    exact ⟨Frame.sound_add hf.left hn, hf.right⟩

theorem startGroup (connective : Connective) (negated : Bool) (hb : b.Sound p) :
    (b.startGroup connective negated).Sound p := by
  refine ⟨hb.objectType, hb.root, ?_, hb.link⟩
  simp only [Builder.startGroup, List.forall_mem_cons]
  exact ⟨trivial, hb.opened⟩

theorem endGroup {c : Builder} (hb : b.Sound p) (h : b.endGroup = .ok c) : c.Sound p := by
  rw [Builder.endGroup] at h
  split at h
  case h_1 => cases h
  case h_2 frame below ho =>
    have ⟨group, hg, hc⟩ := bind_eq_ok_iff.mp h
    have hf := hb.opened
    simp only [ho, List.forall_mem_cons] at hf
    have hs : ({ b with opened := below }).Sound p :=
      ⟨hb.objectType, hb.root, hf.right, hb.link⟩
    exact Except.ok.inj hc ▸ hs.node (Node.sound_of_ofChildren hf.left hg)

theorem rootConnective (connective : Connective) (hb : b.Sound p) :
    (b.rootConnective connective).Sound p :=
  ⟨hb.objectType, hb.root, hb.opened, hb.link⟩

theorem dereference {link : String} {c : Builder} (hb : b.Sound p)
    (h : (b.dereference link).Yields p c) : c.Sound p := by
  simp only [Builder.dereference, Inquiry.yields_bind_iff, Inquiry.yields_pure_iff] at h
  obtain ⟨_, hl, hc⟩ := h
  subst hc
  refine ⟨hb.objectType, hb.root, hb.opened, ?_⟩
  simpa using Inquiry.yields_requireReference_iff.mp hl

theorem finish {root : Option Node} (hb : b.Sound p) (h : b.finish = .ok root) :
    Node.SoundOption p root := by
  have hr := hb.root
  rw [Builder.finish] at h
  split at h
  case isFalse => cases h
  case isTrue =>
    split at h <;> cases h
    case h_1 => trivial
    case h_2 only ho =>
      rw [ho] at hr
      exact hr.left
    case h_3 he _ => exact ⟨he, hr⟩

theorem target {node : Node} (hb : b.Sound p) (h : b.target = .ok node) : node.Sound p := by
  have ⟨root, hf, hr⟩ := bind_eq_ok_iff.mp h
  cases root <;> cases hr
  exact hb.finish hf

theorem build {q : Query} (hb : b.Sound p) (h : b.build.Yields p q) : q.Sound p := by
  simp only [Builder.build, Inquiry.yields_bind_iff, Inquiry.yields_ofExcept_iff] at h
  obtain ⟨root, hr, f, hf, hq⟩ := h
  have hs := Filter.sound_of_new (hb.finish hr) hf
  split at hq
  case h_1 => exact Inquiry.yields_pure_iff.mp hq ▸ hs
  case h_2 => exact Filter.sound_of_dereference hs hq

end Sound

end Builder

namespace Draft

theorem Finish.sound_of_resolve {finish : Finish} {b : Builder} {q : ResourceQuery.Query}
    (hb : b.Sound p) (h : (finish.resolve b).Yields p q) : q.Sound p := by
  cases finish
  case build => exact hb.build h
  case ascending =>
    simp only [Finish.resolve, Builder.buildAscending, Inquiry.yields_bind_iff,
      Inquiry.yields_ofExcept_iff] at h
    obtain ⟨_, ht, hq⟩ := h
    exact Query.sound_of_ascending (hb.target ht) hq
  case descending =>
    simp only [Finish.resolve, Builder.buildDescending, Inquiry.yields_bind_iff,
      Inquiry.yields_ofExcept_iff] at h
    obtain ⟨_, ht, hq⟩ := h
    exact Query.sound_of_descending (hb.target ht) hq

mutual

theorem Value.sound_of_resolve {v : ResourceQuery.Value} :
    (draft : Value) → draft.resolve.Yields p v → v.Sound p
  | .literal _, h => by
    simp only [Value.resolve, Inquiry.yields_pure_iff] at h
    exact h ▸ trivial
  | .query q, h => by
    simp only [Value.resolve, Inquiry.yields_bind_iff, Inquiry.yields_pure_iff] at h
    have ⟨_, hq, hv⟩ := h
    exact hv ▸ Query.sound_of_resolve q hq

theorem Value.soundOption_of_resolve {v : Option ResourceQuery.Value} :
    (draft : Option Value) → (Value.resolveOption draft).Yields p v →
      ResourceQuery.Value.SoundOption p v
  | none, h => by
    simp only [Value.resolveOption, Inquiry.yields_pure_iff] at h
    exact h ▸ trivial
  | some draft, h => by
    simp only [Value.resolveOption, Inquiry.yields_bind_iff, Inquiry.yields_pure_iff] at h
    have ⟨_, hd, hv⟩ := h
    exact hv ▸ Value.sound_of_resolve draft hd

theorem Node.sound_of_resolve {n : ResourceQuery.Node} :
    (draft : Node) → draft.resolve.Yields p n → n.Sound p
  | .predicate _ _ value _, h => by
    simp only [Node.resolve, Inquiry.yields_bind_iff, Inquiry.yields_pure_iff] at h
    have ⟨_, hv, _, hp, hn⟩ := h
    exact hn ▸ Predicate.sound_of_new (Value.soundOption_of_resolve value hv) hp
  | .described _ _ value _, h => by
    simp only [Node.resolve, Inquiry.yields_bind_iff, Inquiry.yields_pure_iff,
      Inquiry.yields_ofExcept_iff] at h
    have ⟨_, hv, _, hp, hn⟩ := h
    exact hn ▸ Predicate.sound_of_ofAttribute (Value.soundOption_of_resolve value hv) hp
  | .group _ _ children, h => by
    simp only [Node.resolve, Inquiry.yields_bind_iff, Inquiry.yields_ofExcept_iff] at h
    have ⟨_, hc, hn⟩ := h
    exact Node.sound_of_ofChildren (Node.soundList_of_resolve children hc) hn

theorem Node.soundList_of_resolve {ns : List ResourceQuery.Node} :
    (drafts : List Node) → (Node.resolveList drafts).Yields p ns →
      ResourceQuery.Node.SoundList p ns
  | [], h => by
    simp only [Node.resolveList, Inquiry.yields_pure_iff] at h
    exact h ▸ trivial
  | draft :: drafts, h => by
    simp only [Node.resolveList, Inquiry.yields_bind_iff, Inquiry.yields_pure_iff] at h
    have ⟨_, hd, _, hds, hn⟩ := h
    exact hn ▸ ⟨Node.sound_of_resolve draft hd, Node.soundList_of_resolve drafts hds⟩

theorem Node.soundOption_of_resolve {n : Option ResourceQuery.Node} :
    (draft : Option Node) → (Node.resolveOption draft).Yields p n →
      ResourceQuery.Node.SoundOption p n
  | none, h => by
    simp only [Node.resolveOption, Inquiry.yields_pure_iff] at h
    exact h ▸ trivial
  | some draft, h => by
    simp only [Node.resolveOption, Inquiry.yields_bind_iff, Inquiry.yields_pure_iff] at h
    have ⟨_, hd, hn⟩ := h
    exact hn ▸ Node.sound_of_resolve draft hd

theorem Query.sound_of_resolve {q : ResourceQuery.Query} :
    (draft : Query) → draft.resolve.Yields p q → q.Sound p
  | .filter _ root, h => by
    simp only [Query.resolve, Inquiry.yields_bind_iff, Inquiry.yields_pure_iff] at h
    have ⟨_, hr, _, hf, hq⟩ := h
    exact hq ▸ Filter.sound_of_new (Node.soundOption_of_resolve root hr) hf
  | .dereferenced _ root _, h => by
    simp only [Query.resolve, Inquiry.yields_bind_iff] at h
    have ⟨_, hr, _, hf, hq⟩ := h
    have hs := Filter.sound_of_new (Node.soundOption_of_resolve root hr) hf
    exact Filter.sound_of_dereference hs hq
  | .ascending _ _ target, h => by
    simp only [Query.resolve, Inquiry.yields_bind_iff] at h
    have ⟨_, ht, hq⟩ := h
    exact ResourceQuery.Query.sound_of_ascending (Node.sound_of_resolve target ht) hq
  | .descending _ _ target, h => by
    simp only [Query.resolve, Inquiry.yields_bind_iff] at h
    have ⟨_, ht, hq⟩ := h
    exact ResourceQuery.Query.sound_of_descending (Node.sound_of_resolve target ht) hq
  | .built _ steps _, h => by
    simp only [Query.resolve, Inquiry.yields_bind_iff] at h
    have ⟨_, hn, _, hs, hq⟩ := h
    exact Finish.sound_of_resolve (Step.soundList_of_resolve steps (Builder.sound_of_new hn) hs) hq

theorem Step.sound_of_resolve {b c : Builder} :
    (step : Step) → b.Sound p → (step.resolve b).Yields p c → c.Sound p
  | .predicate _ _ value _, hb, h => by
    simp only [Step.resolve, Builder.predicate, Inquiry.yields_bind_iff,
      Inquiry.yields_pure_iff] at h
    have ⟨v, hv, _, hp, hc⟩ := h
    have hs : ResourceQuery.Value.SoundOption p (some v) := Value.sound_of_resolve value hv
    exact hc ▸ hb.node (Predicate.sound_of_new hs hp)
  | .present _, hb, h => by
    simp only [Step.resolve, Builder.present, Inquiry.yields_bind_iff, Inquiry.yields_pure_iff] at h
    have ⟨_, hp, hc⟩ := h
    exact hc ▸ hb.node (Predicate.sound_of_present hp)
  | .notPresent _, hb, h => by
    simp only [Step.resolve, Builder.notPresent, Inquiry.yields_bind_iff,
      Inquiry.yields_pure_iff] at h
    have ⟨_, hp, hc⟩ := h
    exact hc ▸ hb.node (Predicate.sound_of_notPresent hp)
  | .node node, hb, h => by
    simp only [Step.resolve, Inquiry.yields_bind_iff, Inquiry.yields_pure_iff] at h
    have ⟨_, hn, hc⟩ := h
    exact hc ▸ hb.node (Node.sound_of_resolve node hn)
  | .startGroup connective negated, hb, h => by
    simp only [Step.resolve, Inquiry.yields_pure_iff] at h
    exact h ▸ hb.startGroup connective negated
  | .endGroup, hb, h => by
    simp only [Step.resolve, Inquiry.yields_ofExcept_iff] at h
    exact hb.endGroup h
  | .rootConnective connective, hb, h => by
    simp only [Step.resolve, Inquiry.yields_pure_iff] at h
    exact h ▸ hb.rootConnective connective
  | .dereference _, hb, h => by
    simp only [Step.resolve] at h
    exact hb.dereference h
  | .list, hb, h => by
    simp only [Step.resolve, Inquiry.yields_pure_iff] at h
    exact h ▸ hb

theorem Step.soundList_of_resolve {b c : Builder} :
    (steps : List Step) → b.Sound p → (Step.resolveList steps b).Yields p c → c.Sound p
  | [], hb, h => by
    simp only [Step.resolveList, Inquiry.yields_pure_iff] at h
    exact h ▸ hb
  | step :: steps, hb, h => by
    simp only [Step.resolveList, Inquiry.yields_bind_iff] at h
    have ⟨_, hs, hss⟩ := h
    exact Step.soundList_of_resolve steps (Step.sound_of_resolve step hb hs) hss

end

theorem Expression.sound_of_resolve {draft : Expression} {e : ResourceQuery.Expression}
    (h : draft.resolve.Yields p e) : e.Sound p := by
  cases draft <;>
    simp only [Expression.resolve, Inquiry.yields_bind_iff, Inquiry.yields_pure_iff] at h
  case node draft =>
    have ⟨_, hn, he⟩ := h
    exact he ▸ Node.sound_of_resolve draft hn
  case query draft =>
    have ⟨_, hq, he⟩ := h
    exact he ▸ Query.sound_of_resolve draft hq

end Draft

end ResourceQuery
