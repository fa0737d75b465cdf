import ResourceQuery.Schema.Inquiry

namespace ResourceQuery

-- The answers that a provider may give to each question.
structure Provider where
  describes : String → Option Attribute → Prop
  tells : String → Bool → Prop

namespace Provider

-- May give any answer to any question.
def unconstrained : Provider where
  describes _ _ := True
  tells _ _ := True

structure KnowsType (p : Provider) (objectType : String) : Prop where
  valid : Name.objectTypeFault? objectType = none
  known : objectType = anyObjectType ∨ p.tells objectType true

structure KnowsLink (p : Provider) (link : String) : Prop where
  valid : Name.fault? link = none
  known : ∃ found, p.describes link (some found) ∧ found.type = .reference

end Provider

def Schema.toProvider (schema : Schema) : Provider where
  describes name answer := schema.attribute? name = answer
  tells name answer := schema.hasObjectType name = answer

namespace Inquiry

variable {α β σ : Type} {p : Provider}

inductive Yields (p : Provider) : Inquiry α → α → Prop
  | done {result} : Yields p (.done result) result
  | describe {name next answer result} :
    p.describes name answer → Yields p (next answer) result → Yields p (.describe name next) result
  | hasType {name next answer result} :
    p.tells name answer → Yields p (next answer) result → Yields p (.hasType name next) result

@[simp]
theorem yields_pure_iff {a b : α} : (pure a : Inquiry α).Yields p b ↔ a = b where
  mp  := fun | .done => rfl
  mpr := fun h => h ▸ .done

@[simp]
theorem not_yields_refuse {error : FilterError} {a : α} : ¬(refuse error).Yields p a :=
  nofun

@[simp]
theorem yields_ofExcept_iff {e : Except FilterError α} {a : α} :
    (ofExcept e).Yields p a ↔ e = .ok a := by
  cases e
  case error => simp [ofExcept]
  case ok => exact yields_pure_iff.trans (by simp)

theorem yields_describe_iff {name : String} {next : Option Attribute → Inquiry α} {a : α} :
    (describe name next).Yields p a ↔
      ∃ answer, p.describes name answer ∧ (next answer).Yields p a where
  mp  := fun | .describe h y => ⟨_, h, y⟩
  mpr := fun ⟨_, h, y⟩ => .describe h y

theorem yields_hasType_iff {name : String} {next : Bool → Inquiry α} {a : α} :
    (hasType name next).Yields p a ↔ ∃ answer, p.tells name answer ∧ (next answer).Yields p a where
  mp  := fun | .hasType h y => ⟨_, h, y⟩
  mpr := fun ⟨_, h, y⟩ => .hasType h y

@[simp]
theorem yields_bind_iff {i : Inquiry α} {f : α → Inquiry β} {b : β} :
    (i >>= f).Yields p b ↔ ∃ a, i.Yields p a ∧ (f a).Yields p b := by
  constructor
  case mp =>
    intro h
    induction i
    case done result => exact ⟨result, .done, h⟩
    case refuse => cases h
    case describe name next ih =>
      have ⟨answer, hd, hy⟩ := yields_describe_iff.mp h
      have ⟨a, ha, hb⟩ := ih answer hy
      exact ⟨a, .describe hd ha, hb⟩
    case hasType name next ih =>
      have ⟨answer, ht, hy⟩ := yields_hasType_iff.mp h
      have ⟨a, ha, hb⟩ := ih answer hy
      exact ⟨a, .hasType ht ha, hb⟩
  case mpr =>
    intro ⟨a, ha, hb⟩
    induction ha
    case done => exact hb
    case describe hd _ ih => exact .describe hd (ih hb)
    case hasType ht _ ih => exact .hasType ht (ih hb)

-- A schema is the provider that always answers alike.
theorem yields_toProvider_iff {schema : Schema} {i : Inquiry α} {a : α} :
    i.Yields schema.toProvider a ↔ i.answer schema = .ok a := by
  induction i
  case done => exact yields_pure_iff.trans (by simp [answer])
  case refuse => simp
  case describe name next ih =>
    simp only [yields_describe_iff, ih, answer]
    simp [Schema.toProvider]
  case hasType name next ih =>
    simp only [yields_hasType_iff, ih, answer]
    simp [Schema.toProvider]

-- Nothing comes of an inquiry that an unconstrained provider could not bring about, however the
-- answers depend on what was asked before.
theorem yields_of_answerWith {describe? : String → σ → Option Attribute × σ}
    {hasType? : String → σ → Bool × σ} {i : Inquiry α} {s : σ} {a : α}
    (h : (i.answerWith describe? hasType? s).1 = .ok a) : i.Yields .unconstrained a := by
  induction i generalizing s
  case done => exact yields_pure_iff.mpr (Except.ok.inj h)
  case refuse => cases h
  case describe ih => exact .describe trivial (ih _ h)
  case hasType ih => exact .hasType trivial (ih _ h)

theorem check_eq_ok_iff {name : String} : Name.check name = .ok () ↔ Name.fault? name = none := by
  rw [Name.check]
  split <;> simp_all

theorem checkObjectType_eq_ok_iff {objectType : String} :
    Name.checkObjectType objectType = .ok () ↔ Name.objectTypeFault? objectType = none := by
  rw [Name.checkObjectType]
  split <;> simp_all

theorem yields_resolveAttribute_iff {name : String} {found : Attribute} :
    (resolveAttribute name).Yields p found ↔
      Name.fault? name = none ∧ p.describes name (some found) := by
  simp only [resolveAttribute, describeAttribute, yields_bind_iff, yields_ofExcept_iff,
    ← check_eq_ok_iff]
  constructor
  case mp =>
    intro ⟨_, hc, told, hd, hy⟩
    have ⟨_, ht, hr⟩ := yields_describe_iff.mp hd
    cases yields_pure_iff.mp hr
    cases told <;> simp at hy
    exact ⟨hc, hy ▸ ht⟩
  case mpr => exact fun ⟨hc, hd⟩ => ⟨(), hc, some found, .describe hd .done, by simp⟩

theorem yields_validateObjectType_iff {objectType : String} {u : Unit} :
    (validateObjectType objectType).Yields p u ↔ p.KnowsType objectType := by
  simp only [validateObjectType, yields_bind_iff, yields_ofExcept_iff]
  constructor
  case mp =>
    intro ⟨_, hc, hy⟩
    refine ⟨checkObjectType_eq_ok_iff.mp hc, ?_⟩
    by_cases hw : objectType = anyObjectType
    case pos => exact .inl hw
    case neg =>
      simp only [hw, if_false, hasObjectType, yields_bind_iff, yields_hasType_iff] at hy
      have ⟨known, ⟨told, ht, hd⟩, hy⟩ := hy
      cases known <;> simp at hy
      exact .inr (yields_pure_iff.mp hd ▸ ht)
  case mpr =>
    intro h
    refine ⟨(), checkObjectType_eq_ok_iff.mpr h.valid, ?_⟩
    by_cases hw : objectType = anyObjectType
    case pos => simp [hw]
    case neg =>
      have ht := h.known.resolve_left hw
      simp only [hw, if_false, hasObjectType, yields_bind_iff]
      exact ⟨true, .hasType ht .done, by simp⟩

theorem yields_requireReference_iff {link : String} {u : Unit} :
    (requireReference link).Yields p u ↔ p.KnowsLink link := by
  simp only [requireReference, attributeType, yields_bind_iff, yields_pure_iff,
    yields_resolveAttribute_iff]
  constructor
  case mp =>
    intro ⟨type, ⟨found, ⟨hv, hd⟩, hf⟩, hy⟩
    refine ⟨hv, found, hd, ?_⟩
    by_cases ht : type = .reference
    case pos => exact hf.trans ht
    case neg => simp [ht] at hy
  case mpr =>
    intro ⟨hv, found, hd, ht⟩
    exact ⟨found.type, ⟨found, ⟨hv, hd⟩, rfl⟩, by simp [ht]⟩

end Inquiry

end ResourceQuery
