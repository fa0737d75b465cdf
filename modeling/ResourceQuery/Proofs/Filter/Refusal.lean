import ResourceQuery.Proofs.Filter.Validity
import ResourceQuery.Proofs.Text.Delimited

namespace ResourceQuery.Predicate

-- What is asked for, before anything is checked.
structure Request where
  subject : Attribute
  operator : Operator
  value : Option Value
  negated : Bool

def Request.outcome (r : Request) : Except FilterError Predicate :=
  ofAttribute r.subject r.operator r.value r.negated

inductive Demand
  | named
  | queryable
  | legal
  | valued
  | fitting
  | quotable
  | negatable
  deriving DecidableEq

namespace Demand

-- The demands in the order in which they are checked.
def inOrder : List Demand :=
  [named, queryable, legal, valued, fitting, quotable, negatable]

-- How a request is refused that does not meet a demand.
def refusal? (r : Request) : Demand → Option FilterError
  | named => (Name.fault? r.subject.name).map (.invalidName r.subject.name)
  | queryable =>
    if r.subject.type = .binary ∨ r.subject.type = .unknown then
      some (.unqueryable r.subject.name r.subject.type)
    else
      none
  | legal =>
    if r.subject.type.allows r.operator then none
    else some (.illegalOperator r.subject.name r.subject.type r.operator)
  | valued =>
    match r.operator.requiresValue, r.value with
    | true, none => some (.missingValue r.subject.name r.operator)
    | false, some _ => some (.unexpectedValue r.subject.name r.operator)
    | _, _ => none
  | fitting =>
    r.value.bind fun v =>
      if v.fits r.subject.type then none
      else some (.valueTypeMismatch r.subject.name r.subject.type v.kind)
  | quotable =>
    match r.subject.type, r.value with
    | .reference, some (.literal (.string s)) | .string, some (.literal (.string s))
    | .text, some (.literal (.string s)) =>
      if '\'' ∈ s.toList ∧ '"' ∈ s.toList then some (.unrepresentable s) else none
    | _, _ => none
  | negatable =>
    if r.negated = true ∧ r.operator ∈ [.notEquals, .isPresent, .isNotPresent] then
      some (.illegalNegation r.operator)
    else
      none

-- The refusal by the first demand of a list that is not met.
def first? (r : Request) (demands : List Demand) : Option FilterError :=
  demands.findSome? (refusal? r)

variable {r : Request}

@[simp]
theorem first?_nil : first? r [] = none :=
  rfl

@[simp]
theorem first?_cons (demand : Demand) (demands : List Demand) :
    first? r (demand :: demands) = (demand.refusal? r).or (first? r demands) := by
  rw [first?, List.findSome?_cons]
  cases demand.refusal? r <;> rfl

theorem first?_append (demands further : List Demand) :
    first? r (demands ++ further) = (first? r demands).or (first? r further) :=
  List.findSome?_append

theorem first?_eq_none_iff {demands : List Demand} :
    first? r demands = none ↔ ∀ demand ∈ demands, demand.refusal? r = none :=
  List.findSome?_eq_none_iff

end Demand

variable {r : Request} {α β : Type}

-- A computation fails exactly if some demand of a list is not met, and as the first of them says.
def Reports (r : Request) (demands : List Demand) (e : Except FilterError α) : Prop :=
  ∀ error, e = .error error ↔ Demand.first? r demands = some error

namespace Reports

variable {demands further : List Demand} {demand : Demand} {e : Except FilterError α}

theorem first?_eq_none {a : α} (h : Reports r demands e) (he : e = .ok a) :
    Demand.first? r demands = none :=
  Option.eq_none_iff_forall_ne_some.mpr fun error hd => nomatch he.symm.trans ((h error).mpr hd)

theorem bind {f : α → Except FilterError β} (he : Reports r demands e)
    (hf : ∀ a, e = .ok a → Reports r further (f a)) :
    Reports r (demands ++ further) (e >>= f) := by
  intro error
  rw [Demand.first?_append]
  cases e with
  | error first => simp [(he first).mp rfl, Bind.bind, Except.bind]
  | ok a =>
    rw [he.first?_eq_none rfl, Option.none_or]
    exact hf a rfl error

theorem pure (a : α) : Reports r [] (Pure.pure a) := by
  intro error
  simp [Pure.pure, Except.pure]

-- A condition that is checked before the rest.
theorem guarded {error : FilterError} {c : Prop} [Decidable c] {f : Unit → Except FilterError α}
    (hd : demand.refusal? r = if c then none else some error) (he : c → Reports r demands e) :
    Reports r (demand :: demands) (if c then e else throw error >>= f) := by
  intro first
  by_cases h : c
  case pos => simpa [hd, h] using he h first
  case neg => simp [hd, h, Bind.bind, Except.bind, throw, throwThe, MonadExceptOf.throw]

theorem skip (hd : demand.refusal? r = none) (he : Reports r demands e) :
    Reports r (demand :: demands) e := by
  intro error
  simpa [hd] using he error

end Reports

theorem quote_eq_error_iff {text : String} {error : FilterError} :
    Quoted.quote text = .error error ↔
      ('\'' ∈ text.toList ∧ '"' ∈ text.toList) ∧ .unrepresentable text = error := by
  rw [Quoted.quote, Quoted.quote?]
  by_cases hs : '\'' ∈ text.toList <;> by_cases hd : '"' ∈ text.toList <;> simp [hs, hd]

theorem reports_check : Reports r [.named] (Name.check r.subject.name) := by
  intro error
  rw [Name.check]
  cases h : Name.fault? r.subject.name <;> simp [Demand.refusal?, h]

theorem reports_operand {v : Value} (hv : r.value = some v) :
    Reports r [.fitting, .quotable] (operand r.subject v) := by
  obtain ⟨⟨name, type, multivalued⟩, operator, value, negated⟩ := r
  subst hv
  intro error
  cases v with
  | query q => cases type <;> simp [operand, Demand.refusal?, Value.fits]
  | literal l =>
    cases l <;> cases type <;>
      simp [operand, Demand.refusal?, Value.fits, Literal.fits, quote_eq_error_iff]

theorem reports_admitted : Reports r [.valued] (admitted r.subject r.operator r.value) := by
  intro error
  cases hr : r.operator.requiresValue <;> cases hv : r.value <;>
    simp [admitted, Demand.refusal?, hr, hv]

theorem comparison_of_admitted {v : Value}
    (h : admitted r.subject r.operator r.value = .ok (some v)) (text : String) :
    ∃ body, comparison r.subject r.operator text = .ok body := by
  have ⟨hr, hv⟩ := admitted_eq_ok_iff.mp h
  rw [← hv, Option.isSome_some] at hr
  exact exists_comparison_eq_ok hr.symm text

theorem reports_condition (hq : r.subject.type.isQueryable) :
    Reports r [.valued, .fitting, .quotable] (condition r.subject r.operator r.value) := by
  refine reports_admitted.bind fun found ha => ?_
  have ⟨_, hf⟩ := admitted_eq_ok_iff.mp ha
  subst hf
  cases hv : r.value with
  | none =>
    rw [← isSome_presence? r.subject.name, Option.isSome_iff_exists] at hq
    have ⟨text, ht⟩ := hq
    rw [presence_eq_ok_iff.mpr ht]
    exact .skip (by simp [Demand.refusal?, hv]) (.skip (by simp [Demand.refusal?, hv]) (.pure text))
  | some v =>
    refine (reports_operand hv).bind fun text _ => ?_
    have ⟨body, hb⟩ := comparison_of_admitted (ha.trans (congrArg _ hv)) text
    rw [hb]
    exact .pure body

theorem reports_compile :
    Reports r [.queryable, .legal, .valued, .fitting, .quotable]
      (compile r.subject r.operator r.value) := by
  rw [compile]
  refine .guarded ?_ fun hq => .guarded ?_ fun _ => (reports_condition hq).bind fun _ _ => .pure _
  case refine_1 => cases h : r.subject.type <;> simp [Demand.refusal?, h, AttributeType.isQueryable]
  case refine_2 => rfl

theorem reports_outcome : Reports r Demand.inOrder r.outcome := by
  rw [Request.outcome, ofAttribute]
  refine reports_check.bind fun _ _ => reports_compile.bind fun text _ => ?_
  rw [← ite_not]
  refine .guarded ?_ fun _ => .pure _
  cases h : r.operator <;> cases hn : r.negated <;>
    simp [Demand.refusal?, h, hn, Operator.allowsNegation]

theorem outcome_eq_ok_iff {predicate : Predicate} (h : r.outcome = .ok predicate) :
    predicate = ⟨r.subject, r.operator, r.value, r.negated, predicate.text⟩ := by
  have ⟨_, _, _, _, hp⟩ := ofAttribute_eq_ok_iff.mp h
  rw [hp]

theorem Reports.isOk_iff {demands : List Demand} {e : Except FilterError α}
    (h : Reports r demands e) : (∃ a, e = .ok a) ↔ Demand.first? r demands = none := by
  cases e with
  | error error => simp [(h error).mp rfl]
  | ok a => simp [h.first?_eq_none rfl]

theorem Demand.mem_inOrder (demand : Demand) : demand ∈ inOrder := by
  cases demand <;> decide

-- A name is checked before the schema is asked for the attribute.
theorem answer_new (schema : Schema) (name : String) (operator : Operator) (value : Option Value)
    (negated : Bool) :
    (new name operator value negated).answer schema =
      match Name.fault? name, schema.attribute? name with
      | some fault, _ => .error (.invalidName name fault)
      | none, none => .error (.unknownAttribute name)
      | none, some subject => Request.outcome { subject, operator, value, negated } := by
  simp only [new, Inquiry.resolveAttribute, Inquiry.describeAttribute, Inquiry.answer_bind,
    Inquiry.answer_ofExcept, Name.check]
  cases Name.fault? name with
  | some fault => rfl
  | none =>
    cases h : schema.attribute? name <;>
      simp [Inquiry.answer, h, Bind.bind, Except.bind, Pure.pure, Request.outcome]

-- Of the demands that a request does not meet the first one refuses it, and the predicate that is
-- asked for comes of a request that meets them all. Once a value is admitted, the comparison with
-- it is not refused.
theorem refused_by_first_unmet_demand (r : Request) :
    (∀ error, r.outcome = .error error ↔ Demand.first? r Demand.inOrder = some error) ∧
    ((∃ text, r.outcome = .ok ⟨r.subject, r.operator, r.value, r.negated, text⟩) ↔
      ∀ demand : Demand, demand.refusal? r = none) ∧
    (Demand.named.refusal? r = none ↔ ∃ c cs, r.subject.name.toList = c :: cs ∧
      Name.isStart c ∧ ∀ d ∈ cs, Name.isPart d) ∧
    (r.subject.type.isQueryable → ∀ error, condition r.subject r.operator r.value = .error error ↔
      Demand.first? r [.valued, .fitting, .quotable] = some error) ∧
    (∀ v text, admitted r.subject r.operator r.value = .ok (some v) →
      ∃ body, comparison r.subject r.operator text = .ok body) ∧
    ∀ schema name, (new name r.operator r.value r.negated).answer schema =
      match Name.fault? name, schema.attribute? name with
      | some fault, _ => .error (.invalidName name fault)
      | none, none => .error (.unknownAttribute name)
      | none, some subject => { r with subject }.outcome := by
  refine ⟨reports_outcome, ?granted, ?named, reports_condition,
    fun _ text h => comparison_of_admitted h text, fun schema name => answer_new ..⟩
  case granted =>
    have hok := reports_outcome (r := r).isOk_iff
    rw [Demand.first?_eq_none_iff] at hok
    constructor
    case mp => exact fun ⟨_, ht⟩ demand => hok.mp ⟨_, ht⟩ demand demand.mem_inOrder
    case mpr =>
      intro h
      have ⟨predicate, hp⟩ := hok.mpr fun demand _ => h demand
      exact ⟨predicate.text, hp.trans (congrArg _ (outcome_eq_ok_iff hp))⟩
  case named => simp [Demand.refusal?, Name.fault?_eq_none_iff]

-- A binary attribute is refused before the operator, the value and the negation are looked at.
example :
    Request.outcome {
      subject := { name := "Photo", type := .binary, multivalued := false }
      operator := .isPresent
      value := some (.literal (.boolean true))
      negated := true
    } = .error (.unqueryable "Photo" .binary) :=
  rfl

end ResourceQuery.Predicate
