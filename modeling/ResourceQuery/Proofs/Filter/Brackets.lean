import Mathlib.Data.List.Induction
import ResourceQuery.Proofs.Filter.Construction
import ResourceQuery.Schema.Catalog

namespace ResourceQuery

namespace Draft.Step

-- How a step comes by the node that it adds, if it adds one at once.
def addition : Step → Option (Inquiry ResourceQuery.Node)
  | .predicate name operator value negated => some do
    let value ← value.resolve
    return .predicate (← Predicate.new name operator (some value) negated)
  | .present name => some do return .predicate (← Predicate.present name)
  | .notPresent name => some do return .predicate (← Predicate.notPresent name)
  | .node draft => some draft.resolve
  | .startGroup _ _ | .endGroup | .rootConnective _ | .dereference _ | .list => none

def isStart : Step → Bool
  | .startGroup _ _ => true
  | _ => false

def isEnd : Step → Bool
  | .endGroup => true
  | _ => false

-- Whether a step is of no concern to the groups.
def isNeutral : Step → Bool
  | .rootConnective _ | .dereference _ | .list => true
  | _ => false

def connective? : Step → Option Connective
  | .rootConnective connective => some connective
  | _ => none

def link? : Step → Option String
  | .dereference link => some link
  | _ => none

-- Steps that are refused at most for the sake of the brackets.
structure Admissible (schema : Schema) (step : Step) : Prop where
  constructs : ∀ i, step.addition = some i → ∃ node, i.answer schema = .ok node
  refers : ∀ link, step.link? = some link → (Inquiry.requireReference link).answer schema = .ok ()

variable {step : Step} {i : Inquiry ResourceQuery.Node}

theorem addition_or (step : Step) :
    (∃ i, step.addition = some i) ∨ (∃ connective negated, step = .startGroup connective negated) ∨
      step = .endGroup ∨ step.isNeutral := by
  cases step <;> simp [addition, isNeutral]

theorem resolve_of_addition {b : Builder} (h : step.addition = some i) :
    step.resolve b = do return b.node (← i) := by
  cases step <;> cases h <;>
    simp [resolve, Builder.predicate, Builder.present, Builder.notPresent]

theorem not_bracket_of_addition (h : step.addition = some i) :
    step.isStart = false ∧ step.isEnd = false := by
  cases step <;> simp_all [addition, isStart, isEnd]

theorem not_bracket_of_isNeutral (h : step.isNeutral) :
    step.isStart = false ∧ step.isEnd = false := by
  cases step <;> simp_all [isNeutral, isStart, isEnd]

end Draft.Step

open Draft (Step)

namespace Builder

def starts (steps : List Step) : Nat :=
  steps.countP Step.isStart

def ends (steps : List Step) : Nat :=
  steps.countP Step.isEnd

-- The latest choice of a connective between the nodes outside of all groups.
def outerConnective (steps : List Step) : Connective :=
  (steps.filterMap Step.connective?).getLast?.getD .default

def lastLink? (steps : List Step) : Option String :=
  (steps.filterMap Step.link?).getLast?

-- The nodes that a list of steps stands for.
inductive Reads (schema : Schema) : List Step → List Node → Prop
  | nil : Reads schema [] []
  | add {step i node steps nodes} :
    step.addition = some i → i.answer schema = .ok node → Reads schema steps nodes →
    Reads schema (step :: steps) (node :: nodes)
  | group {connective negated inner children steps nodes} :
    Reads schema inner children → children ≠ [] → Reads schema steps nodes →
    Reads schema (.startGroup connective negated :: inner ++ .endGroup :: steps)
      (.group connective negated children :: nodes)
  | neutral {step steps nodes} :
    step.isNeutral → Reads schema steps nodes → Reads schema (step :: steps) nodes

-- What is wrong with a closing bracket after some steps: there is no group to be closed, or nothing
-- has been added to it since it was opened.
inductive Faulty : List Step → FilterError → Prop
  | unbalanced {steps} : starts steps = ends steps → Faulty steps .unbalancedGroup
  | empty {steps connective negated inner} :
    (∀ step ∈ inner, step.isNeutral) →
    Faulty (steps ++ .startGroup connective negated :: inner) .emptyGroup

-- The first closing bracket with which something is wrong.
structure StopsAt (steps before : List Step) (error : FilterError) : Prop where
  reached : before ++ [.endGroup] <+: steps
  faulty : Faulty before error
  first : ∀ earlier e, earlier ++ [.endGroup] <+: before → ¬Faulty earlier e

-- The condition that nodes outside of all groups amount to.
def joined? (connective : Connective) : List Node → Option Node
  | [] => none
  | [only] => some only
  | nodes => some (.group connective false nodes)

-- The resources of a type which meet a condition, or those that a link leads to from there.
def selection (objectType : String) (root : Option Node) : Option String → Query
  | none => .filter ⟨objectType, root⟩
  | some link => .dereferenced ⟨objectType, root⟩ (some link)

-- What has become of a builder after some steps.
def after (schema : Schema) (steps : List Step) (b : Builder) : Except FilterError Builder :=
  (Step.resolveList steps b).answer schema

structure Nesting where
  opened : List Frame
  top : List Node

-- Nodes go to the innermost open group.
def Nesting.addAll (n : Nesting) (nodes : List Node) : Nesting :=
  match n.opened with
  | [] => { n with top := n.top ++ nodes }
  | frame :: below =>
    { n with opened := { frame with children := frame.children ++ nodes } :: below }

def nesting (b : Builder) : Nesting where
  opened := b.opened
  top := b.root.children

-- The nodes that a list of steps leaves in each frame.
inductive Nests (schema : Schema) : List Step → Nesting → Prop
  | top {steps nodes} : Reads schema steps nodes → Nests schema steps ⟨[], nodes⟩
  | group {before connective negated inner children opened top} :
    Nests schema before ⟨opened, top⟩ → Reads schema inner children →
    Nests schema (before ++ .startGroup connective negated :: inner)
      ⟨⟨connective, negated, children⟩ :: opened, top⟩

-- What a step that is accepted does to a builder.
inductive Does (schema : Schema) (b : Builder) : Step → Builder → Prop
  | adds {step i node} :
    step.addition = some i → i.answer schema = .ok node → Does schema b step (b.node node)
  | opens {connective negated} :
    Does schema b (.startGroup connective negated) (b.startGroup connective negated)
  | closes {frame below} :
    b.opened = frame :: below → frame.children ≠ [] →
    Does schema b .endGroup
      ({ b with opened := below }.node (.group frame.connective frame.negated frame.children))
  | chooses {step} :
    step.isNeutral →
    Does schema b step { b with
      root.connective := step.connective?.getD b.root.connective
      link := step.link?.or b.link }

-- What is known of a builder after some steps.
structure Tracks (schema : Schema) (objectType : String) (steps : List Step) (b : Builder) :
    Prop where
  objectType : b.objectType = objectType
  nesting : Nests schema steps b.nesting
  connective : b.root.connective = outerConnective steps
  link : b.link = lastLink? steps

variable {schema : Schema} {step : Step} {steps before inner : List Step}
variable {nodes children : List Node} {n : Nesting} {b b₀ c : Builder} {error : FilterError}

@[simp]
theorem starts_cons : starts (step :: steps) = starts steps + if step.isStart then 1 else 0 :=
  List.countP_cons

@[simp]
theorem ends_cons : ends (step :: steps) = ends steps + if step.isEnd then 1 else 0 :=
  List.countP_cons

@[simp]
theorem starts_append : starts (steps ++ inner) = starts steps + starts inner :=
  List.countP_append

@[simp]
theorem ends_append : ends (steps ++ inner) = ends steps + ends inner :=
  List.countP_append

@[simp]
theorem outerConnective_concat :
    outerConnective (steps ++ [step]) = step.connective?.getD (outerConnective steps) := by
  cases h : step.connective? <;> simp [outerConnective, h]

@[simp]
theorem lastLink?_concat : lastLink? (steps ++ [step]) = step.link?.or (lastLink? steps) := by
  cases h : step.link? <;> simp [lastLink?, h]

namespace Reads

theorem append (h : Reads schema steps nodes) (hi : Reads schema inner children) :
    Reads schema (steps ++ inner) (nodes ++ children) := by
  induction h with
  | nil => exact hi
  | add hs ha _ ih => exact .add hs ha ih
  | group hg hn _ _ ih => simpa using Reads.group hg hn ih
  | neutral hs _ ih => exact .neutral hs ih

theorem starts_eq_ends (h : Reads schema steps nodes) : starts steps = ends steps := by
  induction h with
  | nil => rfl
  | add hs _ _ ih => simp [Step.not_bracket_of_addition hs, ih]
  | group _ _ _ hi hs =>
    simp only [List.cons_append, starts_cons, starts_append, ends_cons, ends_append, Step.isStart,
      Step.isEnd, hi, hs, if_true, if_false, Bool.false_eq_true]
    omega
  | neutral hs _ ih => simp [Step.not_bracket_of_isNeutral hs, ih]

theorem isNeutral_of_nil (h : Reads schema steps []) : ∀ step ∈ steps, step.isNeutral := by
  generalize hn : ([] : List Node) = nodes at h
  induction h with
  | nil => simp
  | add => cases hn
  | group => cases hn
  | neutral hs _ ih => simpa [hs] using ih hn

theorem nil_of_isNeutral (h : ∀ step ∈ steps, step.isNeutral) : Reads schema steps [] := by
  induction steps with
  | nil => exact .nil
  | cons step steps ih =>
    simp only [List.forall_mem_cons] at h
    exact .neutral h.left (ih h.right)

end Reads

@[simp]
theorem Nesting.addAll_top (top nodes : List Node) :
    Nesting.addAll ⟨[], top⟩ nodes = ⟨[], top ++ nodes⟩ :=
  rfl

@[simp]
theorem Nesting.addAll_opened (frame : Frame) (below : List Frame) (top nodes : List Node) :
    Nesting.addAll ⟨frame :: below, top⟩ nodes =
      ⟨{ frame with children := frame.children ++ nodes } :: below, top⟩ :=
  rfl

@[simp]
theorem Nesting.addAll_nil (n : Nesting) : n.addAll [] = n := by
  obtain ⟨opened, top⟩ := n
  cases opened <;> simp

theorem Nesting.addAll_addAll (n : Nesting) (nodes more : List Node) :
    (n.addAll nodes).addAll more = n.addAll (nodes ++ more) := by
  obtain ⟨opened, top⟩ := n
  cases opened <;> simp

theorem nesting_node (b : Builder) (added : Node) :
    (b.node added).nesting = b.nesting.addAll [added] := by
  obtain ⟨_, _, opened, _⟩ := b
  cases opened <;> rfl

theorem node_choices (b : Builder) (added : Node) :
    (b.node added).objectType = b.objectType ∧
      (b.node added).root.connective = b.root.connective ∧ (b.node added).link = b.link := by
  obtain ⟨_, _, opened, _⟩ := b
  cases opened <;> exact ⟨rfl, rfl, rfl⟩

namespace Does

theorem of_endGroup (h : b.endGroup = .ok c) : Does schema b .endGroup c := by
  rw [Builder.endGroup] at h
  split at h
  case h_1 => cases h
  case h_2 frame below ho =>
    obtain ⟨group, hg, hc⟩ := bind_eq_ok_iff.mp h
    rw [Frame.close, Node.ofChildren] at hg
    split at hg
    case isTrue => cases hg
    case isFalse he =>
      cases hg
      cases hc
      exact .closes ho (by simpa using he)

theorem of_dereference {link : String} (h : (b.dereference link).answer schema = .ok c) :
    Does schema b (.dereference link) c := by
  simp only [Builder.dereference, Inquiry.answer_bind, bind_eq_ok_iff] at h
  obtain ⟨_, _, hc⟩ := h
  cases hc
  exact .chooses rfl

theorem of_answer (h : (step.resolve b).answer schema = .ok c) : Does schema b step c := by
  obtain ⟨i, hi⟩ | ⟨_, _, rfl⟩ | rfl | hn := step.addition_or
  case inl =>
    rw [Step.resolve_of_addition hi, Inquiry.answer_bind, bind_eq_ok_iff] at h
    obtain ⟨node, ha, hc⟩ := h
    cases hc
    exact .adds hi ha
  case inr.inl =>
    cases h
    exact .opens
  case inr.inr.inl => exact of_endGroup (by simpa [Step.resolve] using h)
  case inr.inr.inr =>
    cases step <;> cases hn
    case rootConnective | list => cases h; exact .chooses rfl
    case dereference => exact of_dereference h

theorem nesting_of_isNeutral (h : Does schema b step c) (hn : step.isNeutral) :
    c.nesting = b.nesting := by
  cases h with
  | adds hs => cases step <;> cases hn <;> cases hs
  | opens | closes => cases hn
  | chooses => rfl

theorem nesting_of_endGroup {frame : Frame} {below : List Frame} {top : List Node}
    (h : Does schema b .endGroup c) (hb : b.nesting = ⟨frame :: below, top⟩) :
    c.nesting = Nesting.addAll ⟨below, top⟩
      [.group frame.connective frame.negated frame.children] := by
  cases h with
  | adds hs => cases hs
  | chooses hn => cases hn
  | closes ho =>
    simp only [nesting, ho, Nesting.mk.injEq, List.cons.injEq] at hb
    obtain ⟨⟨rfl, rfl⟩, rfl⟩ := hb
    rw [nesting_node]
    rfl

theorem objectType (h : Does schema b step c) : c.objectType = b.objectType := by
  cases h with
  | adds | closes => exact (node_choices _ _).left
  | opens | chooses => rfl

theorem connective (h : Does schema b step c) :
    c.root.connective = step.connective?.getD b.root.connective := by
  cases h with
  | adds hs =>
    have hn : step.connective? = none := by cases step <;> cases hs <;> rfl
    rw [hn]
    exact (node_choices _ _).right.left
  | closes => exact (node_choices _ _).right.left
  | opens | chooses => rfl

theorem link (h : Does schema b step c) : c.link = step.link?.or b.link := by
  cases h with
  | adds hs =>
    have hn : step.link? = none := by cases step <;> cases hs <;> rfl
    rw [hn]
    exact (node_choices _ _).right.right
  | closes => exact (node_choices _ _).right.right
  | opens | chooses => rfl

end Does

-- Steps that are refused all the same are closing brackets.
theorem endGroup_of_refused (ha : step.Admissible schema)
    (h : (step.resolve b).answer schema = .error error) :
    step = .endGroup ∧ b.endGroup = .error error := by
  obtain ⟨i, hi⟩ | ⟨_, _, rfl⟩ | rfl | hn := step.addition_or
  case inl =>
    have ⟨node, hnode⟩ := ha.constructs i hi
    rw [Step.resolve_of_addition hi, Inquiry.answer_bind, hnode] at h
    cases h
  case inr.inl => cases h
  case inr.inr.inl => exact ⟨rfl, by simpa [Step.resolve] using h⟩
  case inr.inr.inr =>
    cases step <;> cases hn
    case rootConnective | list => cases h
    case dereference link =>
      rw [Step.resolve, Builder.dereference, Inquiry.answer_bind, ha.refers link rfl] at h
      cases h

theorem endGroup_eq_error_iff :
    b.endGroup = .error error ↔
      (b.opened = [] ∧ error = .unbalancedGroup) ∨
        ∃ frame below, b.opened = frame :: below ∧ frame.children = [] ∧ error = .emptyGroup := by
  rw [Builder.endGroup]
  split
  case h_1 ho => simp [ho, eq_comm]
  case h_2 frame below ho =>
    by_cases he : frame.children = []
    case pos => simp [ho, he, Frame.close, Node.ofChildren, bind, Except.bind, eq_comm]
    case neg => simp [ho, he, Frame.close, Node.ofChildren, bind, Except.bind, pure, Except.pure]

namespace Nests

theorem append (h : Nests schema steps n) (hi : Reads schema inner nodes) :
    Nests schema (steps ++ inner) (n.addAll nodes) := by
  cases h with
  | top hs => exact .top (hs.append hi)
  | group hb hs => simpa using Nests.group hb (hs.append hi)

theorem starts_eq (h : Nests schema steps n) : starts steps = ends steps + n.opened.length := by
  induction h with
  | top hs => simpa using hs.starts_eq_ends
  | group _ hi ih =>
    simp only [starts_cons, starts_append, ends_cons, ends_append, Step.isStart, Step.isEnd,
      hi.starts_eq_ends, ih, List.length_cons, if_true, if_false, Bool.false_eq_true]
    omega

-- What a step does to a builder is what it does to the reading.
theorem does (h : Nests schema steps b.nesting) (hd : Does schema b step c) :
    Nests schema (steps ++ [step]) c.nesting := by
  cases hd with
  | adds hs ha =>
    rw [nesting_node]
    exact h.append (.add hs ha .nil)
  | opens => exact h.group .nil
  | closes ho he =>
    rw [nesting_node]
    simp only [nesting, ho] at h ⊢
    cases h with
    | group hb hi => simpa using hb.append (.group hi he .nil)
  | chooses hn =>
    have ha := h.append (.neutral hn .nil)
    rw [Nesting.addAll_nil] at ha
    exact ha

end Nests

theorem Tracks.does {objectType : String} (h : Tracks schema objectType steps b)
    (hd : Does schema b step c) : Tracks schema objectType (steps ++ [step]) c where
  objectType := hd.objectType.trans h.objectType
  nesting := h.nesting.does hd
  connective := by rw [hd.connective, outerConnective_concat, h.connective]
  link := by rw [hd.link, lastLink?_concat, h.link]

theorem finish_eq (b : Builder) :
    b.finish = if 0 < b.depth then .error (.unterminatedGroup b.depth)
      else .ok (joined? b.root.connective b.root.children) := by
  obtain ⟨_, ⟨_, _, children⟩, opened, _⟩ := b
  cases opened
  case cons => rfl
  case nil =>
    match children with
    | [] | [_] | _ :: _ :: _ => rfl

-- Nothing that was checked before is refused when the query is built.
theorem Sound.yields_build {p : Provider} {root : Option Node} (hs : b.Sound p)
    (hf : b.finish = .ok root) : b.build.Yields p (selection b.objectType root b.link) := by
  simp only [Builder.build, Inquiry.yields_bind_iff, Inquiry.yields_ofExcept_iff]
  refine ⟨root, hf, _, Filter.yields_new hs.objectType root, ?_⟩
  cases hl : b.link with
  | none => exact .done
  | some link => exact Filter.yields_dereference _ (hl ▸ hs.link)

theorem eq_of_new {objectType : String} (h : (Builder.new objectType).answer schema = .ok b) :
    b = { objectType } := by
  rw [Builder.new, Inquiry.answer_bind, bind_eq_ok_iff] at h
  obtain ⟨_, _, hb⟩ := h
  exact (Except.ok.inj hb).symm

theorem tracks_of_new {objectType : String} (h : (Builder.new objectType).answer schema = .ok b) :
    Tracks schema objectType [] b :=
  eq_of_new h ▸ ⟨rfl, .top .nil, rfl, rfl⟩

theorem after_cons (b : Builder) :
    b.after schema (step :: steps) = (step.resolve b).answer schema >>= (·.after schema steps) := by
  simp [after, Step.resolveList]

theorem after_singleton (b : Builder) :
    b.after schema [step] = (step.resolve b).answer schema := by
  simp [after, Step.resolveList]

theorem after_append (b : Builder) :
    b.after schema (steps ++ inner) = b.after schema steps >>= (·.after schema inner) := by
  induction steps generalizing b with
  | nil => rfl
  | cons step steps ih => simp [after_cons, ih]

theorem after_cons_eq_ok_iff :
    b.after schema (step :: steps) = .ok c ↔
      ∃ d, (step.resolve b).answer schema = .ok d ∧ d.after schema steps = .ok c := by
  rw [after_cons, bind_eq_ok_iff]

theorem after_append_eq_ok_iff :
    b.after schema (steps ++ inner) = .ok c ↔
      ∃ d, b.after schema steps = .ok d ∧ d.after schema inner = .ok c := by
  rw [after_append, bind_eq_ok_iff]

theorem after_append_of_ok (h : b.after schema steps = .ok c) :
    b.after schema (steps ++ inner) = c.after schema inner := by
  rw [after_append, h]
  rfl

theorem after_append_of_error (h : b.after schema steps = .error error) :
    b.after schema (steps ++ inner) = .error error := by
  rw [after_append, h]
  rfl

theorem after_endGroup (b : Builder) : b.after schema [.endGroup] = b.endGroup := by
  rw [after_singleton, Step.resolve, Inquiry.answer_ofExcept]

theorem after_of_prefix (h : b.after schema steps = .ok c) (hp : before <+: steps) :
    ∃ d, b.after schema before = .ok d := by
  obtain ⟨_, rfl⟩ := hp
  have ⟨d, hd, _⟩ := after_append_eq_ok_iff.mp h
  exact ⟨d, hd⟩

-- What is accepted is admissible, whatever the builder.
theorem admissible_of_answer (h : (step.resolve b).answer schema = .ok c) :
    step.Admissible schema where
  constructs i hi := by
    rw [Step.resolve_of_addition hi, Inquiry.answer_bind, bind_eq_ok_iff] at h
    obtain ⟨node, hn, _⟩ := h
    exact ⟨node, hn⟩
  refers link hl := by
    cases step <;> cases hl
    rw [Step.resolve, Builder.dereference, Inquiry.answer_bind, bind_eq_ok_iff] at h
    obtain ⟨_, hr, _⟩ := h
    exact hr

theorem admissible_of_after (h : b.after schema steps = .ok c) :
    ∀ step ∈ steps, step.Admissible schema := by
  induction steps generalizing b with
  | nil => simp
  | cons step steps ih =>
    have ⟨_, hd, hc⟩ := after_cons_eq_ok_iff.mp h
    simpa [admissible_of_answer hd] using ih hc

-- However a builder came to where it is, it takes up what further steps stand for.
theorem Reads.nesting_eq (h : Reads schema steps nodes) (ha : b.after schema steps = .ok c) :
    c.nesting = b.nesting.addAll nodes := by
  induction h generalizing b c with
  | nil =>
    cases ha
    simp
  | @add step _ node _ _ hs hn _ ih =>
    have hd : (step.resolve b).answer schema = .ok (b.node node) := by
      rw [Step.resolve_of_addition hs, Inquiry.answer_bind, hn]
      rfl
    rw [after_cons, hd] at ha
    rw [ih ha, nesting_node, Nesting.addAll_addAll, List.singleton_append]
  | group _ _ _ hi hs =>
    -- The opened frame is empty, takes up the children, and is closed into one node of the frame
    -- below, with which the rest goes on.
    have ⟨d, hd, he⟩ := after_append_eq_ok_iff.mp ha
    have ⟨_, ho, hd⟩ := after_cons_eq_ok_iff.mp hd
    have ⟨e, he, ha⟩ := after_cons_eq_ok_iff.mp he
    cases ho
    rw [hs ha, (Does.of_answer he).nesting_of_endGroup (hi hd), Nesting.addAll_addAll]
    rfl
  | neutral hn _ ih =>
    have ⟨d, hd, ha⟩ := after_cons_eq_ok_iff.mp ha
    rw [ih ha, (Does.of_answer hd).nesting_of_isNeutral hn]

section

variable {objectType : String} (hn : (Builder.new objectType).answer schema = .ok b₀)

include hn

theorem tracks_of_after (ha : b₀.after schema steps = .ok b) :
    Tracks schema objectType steps b := by
  induction steps using List.reverseRecOn generalizing b with
  | nil =>
    cases ha
    exact tracks_of_new hn
  | append_singleton steps step ih =>
    have ⟨c, hc, hb⟩ := after_append_eq_ok_iff.mp ha
    rw [after_singleton] at hb
    exact (ih hc).does (.of_answer hb)

theorem sound_of_after (ha : b₀.after schema steps = .ok b) : b.Sound schema.toProvider :=
  have h₀ := Inquiry.yields_toProvider_iff.mpr hn
  Step.soundList_of_resolve steps (sound_of_new h₀) (Inquiry.yields_toProvider_iff.mpr ha)

-- The closing brackets that a builder refuses are those with which something is wrong.
theorem endGroup_eq_error_iff_faulty (ha : b₀.after schema steps = .ok b) :
    b.endGroup = .error error ↔ Faulty steps error := by
  have ht := (tracks_of_after hn ha).nesting
  rw [endGroup_eq_error_iff]
  constructor
  case mp =>
    rintro (⟨ho, rfl⟩ | ⟨frame, below, ho, he, rfl⟩)
    · exact .unbalanced (by simpa [nesting, ho] using ht.starts_eq)
    · simp only [nesting, ho] at ht
      cases ht with
      | group _ hi =>
        cases he
        exact .empty hi.isNeutral_of_nil
  case mpr =>
    intro hf
    cases hf with
    | unbalanced he => exact .inl ⟨by simpa [nesting, he] using ht.starts_eq, rfl⟩
    | empty hi =>
      have ⟨c, _, hc⟩ := after_append_eq_ok_iff.mp ha
      have ⟨_, ho, hb⟩ := after_cons_eq_ok_iff.mp hc
      cases ho
      have hb := (Reads.nil_of_isNeutral hi).nesting_eq hb
      rw [Nesting.addAll_nil] at hb
      exact .inr ⟨_, _, congrArg Nesting.opened hb, rfl, rfl⟩

theorem not_faulty_of_after (ha : b₀.after schema steps = .ok b)
    (hp : before ++ [.endGroup] <+: steps) : ¬Faulty before error := by
  intro hf
  have ⟨_, hd⟩ := after_of_prefix ha hp
  have ⟨c, hc, hd⟩ := after_append_eq_ok_iff.mp hd
  rw [after_endGroup, (endGroup_eq_error_iff_faulty hn hc).mpr hf] at hd
  cases hd

theorem exists_stopsAt_of_after (hs : ∀ step ∈ steps, step.Admissible schema)
    (ha : b₀.after schema steps = .error error) : ∃ before, StopsAt steps before error := by
  -- The last step is either not reached, or it is the one that is refused.
  induction steps using List.reverseRecOn with
  | nil => cases ha
  | append_singleton steps step ih =>
    simp only [List.forall_mem_append, List.forall_mem_singleton] at hs
    cases hb : b₀.after schema steps with
    | error =>
      rw [after_append_of_error hb] at ha
      cases ha
      have ⟨before, h⟩ := ih hs.left hb
      exact ⟨before, h.reached.trans (List.prefix_append _ _), h.faulty, h.first⟩
    | ok b =>
      rw [after_append_of_ok hb, after_singleton] at ha
      have ⟨hstep, he⟩ := endGroup_of_refused hs.right ha
      subst hstep
      have hf := (endGroup_eq_error_iff_faulty hn hb).mp he
      exact ⟨steps, List.prefix_rfl, hf, fun _ _ => not_faulty_of_after hn hb⟩

theorem after_of_stopsAt (hs : ∀ step ∈ steps, step.Admissible schema)
    (h : StopsAt steps before error) : b₀.after schema steps = .error error := by
  obtain ⟨rest, rfl⟩ := h.reached
  simp only [List.forall_mem_append] at hs
  cases hb : b₀.after schema before with
  | error =>
    -- Then another closing bracket would have come first.
    have ⟨earlier, he⟩ := exists_stopsAt_of_after hn hs.left.left hb
    exact absurd he.faulty (h.first _ _ he.reached)
  | ok b =>
    refine after_append_of_error ?_
    rw [after_append_of_ok hb, after_endGroup]
    exact (endGroup_eq_error_iff_faulty hn hb).mpr h.faulty

theorem build_of_after (ha : b₀.after schema steps = .ok b) :
    b.build.answer schema =
      if 0 < b.depth then .error (.unterminatedGroup b.depth)
      else .ok (selection objectType (joined? (outerConnective steps) b.root.children)
        (lastLink? steps)) := by
  have ht := tracks_of_after hn ha
  have hf := b.finish_eq
  split at hf
  case isTrue ho =>
    rw [if_pos ho, build, Inquiry.answer_bind, Inquiry.answer_ofExcept, hf]
    rfl
  case isFalse ho =>
    have hb := (sound_of_after hn ha).yields_build hf
    rw [ht.objectType, ht.connective, ht.link] at hb
    rw [if_neg ho, Inquiry.yields_toProvider_iff.mp hb]

-- The reading of the steps of a builder without open groups is unique.
theorem reads_iff_of_after (ha : b₀.after schema steps = .ok b) (hd : ¬0 < b.depth) :
    Reads schema steps nodes ↔ nodes = b.root.children := by
  have ho : b.opened = [] := by simpa [depth] using hd
  constructor
  case mp =>
    intro hr
    have hc := hr.nesting_eq ha
    rw [eq_of_new hn] at hc
    exact (congrArg Nesting.top hc).symm
  case mpr =>
    rintro rfl
    have ht := (tracks_of_after hn ha).nesting
    simp only [nesting, ho] at ht
    cases ht with
    | top h => exact h

end

-- A builder does what its steps say as brackets: as many groups are open as were opened and not
-- closed, the first closing bracket with which something is wrong is refused and nothing else is,
-- and once all groups are closed the query asks for what the steps stand for.
theorem steps_denote {objectType : String} (hn : (Builder.new objectType).answer schema = .ok b₀)
    (hs : ∀ step ∈ steps, step.Admissible schema) :
    (∀ before b, before <+: steps → b₀.after schema before = .ok b →
      b.depth + ends before = starts before) ∧
    (∀ error, b₀.after schema steps = .error error ↔ ∃ before, StopsAt steps before error) ∧
    ∀ b, b₀.after schema steps = .ok b →
      (0 < b.depth → b.build.answer schema = .error (.unterminatedGroup b.depth)) ∧
      (b.depth = 0 → ∃ nodes, (∀ other, Reads schema steps other ↔ other = nodes) ∧
        b.build.answer schema = .ok
          (selection objectType (joined? (outerConnective steps) nodes) (lastLink? steps))) := by
  refine ⟨fun before b _ ha => ?_, fun error => ⟨?_, ?_⟩, fun b ha => ⟨fun hd => ?_, fun hd => ?_⟩⟩
  · have h := (tracks_of_after hn ha).nesting.starts_eq
    rw [h, Nat.add_comm]
    rfl
  · exact exists_stopsAt_of_after hn hs
  · exact fun ⟨_, h⟩ => after_of_stopsAt hn hs h
  · rw [build_of_after hn ha, if_pos hd]
  · have hd := Nat.not_lt.mpr (Nat.le_zero.mpr hd)
    refine ⟨b.root.children, fun _ => reads_iff_of_after hn ha hd, ?_⟩
    rw [build_of_after hn ha, if_neg hd]

-- A negated group inside of another one, after a node outside of both. The connective of all comes
-- last, and the link is chosen while both groups are open.
theorem steps_denote_nested :
    let schema := Catalog.toSchema {
      objectTypes := ["Person"]
      attributes := [⟨"boss", .reference, false⟩, ⟨"age", .integer, false⟩]
    }
    let steps := [
      .present "age", .startGroup .or false, .present "boss", .startGroup .and true,
      .dereference "boss", .notPresent "age", .endGroup, .endGroup, .rootConnective .or]
    let aged : Node := .predicate ⟨⟨"age", .integer, false⟩, .isPresent, none, false,
      "(age <= 9223372036854775807)"⟩
    let led : Node := .predicate ⟨⟨"boss", .reference, false⟩, .isPresent, none, false,
      "(boss = /*)"⟩
    let ageless : Node := .predicate ⟨⟨"age", .integer, false⟩, .isNotPresent, none, false,
      "(not(age <= 9223372036854775807))"⟩
    let nodes := [aged, .group .or false [led, .group .and true [ageless]]]
    ∃ b, (Builder.new "Person").answer schema >>= after schema steps = .ok b ∧
      Reads schema steps nodes ∧
      b.build.answer schema =
        .ok (.dereferenced ⟨"Person", some (.group .or false nodes)⟩ (some "boss")) := by
  intro schema steps aged led ageless nodes
  let b : Builder := ⟨"Person", ⟨.or, false, nodes⟩, [], some "boss"⟩
  have hn : (Builder.new "Person").answer schema = .ok { objectType := "Person" } := rfl
  have ha : after schema steps { objectType := "Person" } = .ok b := rfl
  have ⟨_, _, h⟩ := steps_denote hn (admissible_of_after ha)
  have ⟨read, hr, hb⟩ := (h b ha).right rfl
  have hnodes : Reads schema steps nodes :=
    (reads_iff_of_after hn ha (Nat.lt_irrefl 0)).mpr rfl
  obtain rfl := (hr nodes).mp hnodes
  exact ⟨b, ha, hnodes, hb⟩

end Builder

end ResourceQuery
