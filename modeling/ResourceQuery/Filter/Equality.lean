import ResourceQuery.Filter.Basic

namespace ResourceQuery

mutual

def Value.beq : Value → Value → Bool
  | .literal l₁, .literal l₂ => l₁ == l₂
  | .query q₁, .query q₂ => q₁.beq q₂
  | _, _ => false

def Value.beqOption : Option Value → Option Value → Bool
  | none, none => true
  | some v₁, some v₂ => v₁.beq v₂
  | _, _ => false

def Predicate.beq : Predicate → Predicate → Bool
  | ⟨subject₁, operator₁, value₁, negated₁, text₁⟩,
    ⟨subject₂, operator₂, value₂, negated₂, text₂⟩ =>
    subject₁ == subject₂ && operator₁ == operator₂ && Value.beqOption value₁ value₂ &&
      negated₁ == negated₂ && text₁ == text₂

def Node.beq : Node → Node → Bool
  | .predicate p₁, .predicate p₂ => p₁.beq p₂
  | .group connective₁ negated₁ children₁, .group connective₂ negated₂ children₂ =>
    connective₁ == connective₂ && negated₁ == negated₂ && Node.beqList children₁ children₂
  | _, _ => false

def Node.beqList : List Node → List Node → Bool
  | [], [] => true
  | n₁ :: ns₁, n₂ :: ns₂ => n₁.beq n₂ && Node.beqList ns₁ ns₂
  | _, _ => false

def Node.beqOption : Option Node → Option Node → Bool
  | none, none => true
  | some n₁, some n₂ => n₁.beq n₂
  | _, _ => false

def Filter.beq : Filter → Filter → Bool
  | ⟨objectType₁, root₁⟩, ⟨objectType₂, root₂⟩ =>
    objectType₁ == objectType₂ && Node.beqOption root₁ root₂

def Query.beq : Query → Query → Bool
  | .filter f₁, .filter f₂ => f₁.beq f₂
  | .dereferenced f₁ link₁, .dereferenced f₂ link₂ => f₁.beq f₂ && link₁ == link₂
  | .ascendant objectType₁ link₁ target₁, .ascendant objectType₂ link₂ target₂ =>
    objectType₁ == objectType₂ && link₁ == link₂ && target₁.beq target₂
  | .descendant objectType₁ link₁ target₁, .descendant objectType₂ link₂ target₂ =>
    objectType₁ == objectType₂ && link₁ == link₂ && target₁.beq target₂
  | _, _ => false

end

mutual

theorem Value.beq_iff : (v₁ v₂ : Value) → (v₁.beq v₂ = true ↔ v₁ = v₂)
  | .literal _, .literal _ => by simp [Value.beq]
  | .query q₁, .query q₂ => by simp [Value.beq, q₁.beq_iff q₂]
  | .literal _, .query _ => by simp [Value.beq]
  | .query _, .literal _ => by simp [Value.beq]

theorem Value.beqOption_iff : (v₁ v₂ : Option Value) → (Value.beqOption v₁ v₂ = true ↔ v₁ = v₂)
  | none, none => by simp [Value.beqOption]
  | some v₁, some v₂ => by simp [Value.beqOption, v₁.beq_iff v₂]
  | none, some _ => by simp [Value.beqOption]
  | some _, none => by simp [Value.beqOption]

theorem Predicate.beq_iff : (p₁ p₂ : Predicate) → (p₁.beq p₂ = true ↔ p₁ = p₂)
  | ⟨_, _, value₁, _, _⟩, ⟨_, _, value₂, _, _⟩ => by
    simp [Predicate.beq, Value.beqOption_iff value₁ value₂, and_assoc]

theorem Node.beq_iff : (n₁ n₂ : Node) → (n₁.beq n₂ = true ↔ n₁ = n₂)
  | .predicate p₁, .predicate p₂ => by simp [Node.beq, p₁.beq_iff p₂]
  | .group _ _ children₁, .group _ _ children₂ => by
    simp [Node.beq, Node.beqList_iff children₁ children₂, and_assoc]
  | .predicate _, .group _ _ _ => by simp [Node.beq]
  | .group _ _ _, .predicate _ => by simp [Node.beq]

theorem Node.beqList_iff : (ns₁ ns₂ : List Node) → (Node.beqList ns₁ ns₂ = true ↔ ns₁ = ns₂)
  | [], [] => by simp [Node.beqList]
  | n₁ :: ns₁, n₂ :: ns₂ => by simp [Node.beqList, n₁.beq_iff n₂, Node.beqList_iff ns₁ ns₂]
  | [], _ :: _ => by simp [Node.beqList]
  | _ :: _, [] => by simp [Node.beqList]

theorem Node.beqOption_iff : (n₁ n₂ : Option Node) → (Node.beqOption n₁ n₂ = true ↔ n₁ = n₂)
  | none, none => by simp [Node.beqOption]
  | some n₁, some n₂ => by simp [Node.beqOption, n₁.beq_iff n₂]
  | none, some _ => by simp [Node.beqOption]
  | some _, none => by simp [Node.beqOption]

theorem Filter.beq_iff : (f₁ f₂ : Filter) → (f₁.beq f₂ = true ↔ f₁ = f₂)
  | ⟨_, root₁⟩, ⟨_, root₂⟩ => by simp [Filter.beq, Node.beqOption_iff root₁ root₂]

theorem Query.beq_iff : (q₁ q₂ : Query) → (q₁.beq q₂ = true ↔ q₁ = q₂)
  | .filter f₁, .filter f₂ => by simp [Query.beq, f₁.beq_iff f₂]
  | .dereferenced f₁ _, .dereferenced f₂ _ => by simp [Query.beq, f₁.beq_iff f₂]
  | .ascendant _ _ target₁, .ascendant _ _ target₂ => by
    simp [Query.beq, target₁.beq_iff target₂, and_assoc]
  | .descendant _ _ target₁, .descendant _ _ target₂ => by
    simp [Query.beq, target₁.beq_iff target₂, and_assoc]
  | .filter _, .dereferenced _ _ => by simp [Query.beq]
  | .filter _, .ascendant _ _ _ => by simp [Query.beq]
  | .filter _, .descendant _ _ _ => by simp [Query.beq]
  | .dereferenced _ _, .filter _ => by simp [Query.beq]
  | .dereferenced _ _, .ascendant _ _ _ => by simp [Query.beq]
  | .dereferenced _ _, .descendant _ _ _ => by simp [Query.beq]
  | .ascendant _ _ _, .filter _ => by simp [Query.beq]
  | .ascendant _ _ _, .dereferenced _ _ => by simp [Query.beq]
  | .ascendant _ _ _, .descendant _ _ _ => by simp [Query.beq]
  | .descendant _ _ _, .filter _ => by simp [Query.beq]
  | .descendant _ _ _, .dereferenced _ _ => by simp [Query.beq]
  | .descendant _ _ _, .ascendant _ _ _ => by simp [Query.beq]

end

instance : DecidableEq Value := fun v₁ v₂ => decidable_of_iff _ (v₁.beq_iff v₂)

instance : DecidableEq Predicate := fun p₁ p₂ => decidable_of_iff _ (p₁.beq_iff p₂)

instance : DecidableEq Node := fun n₁ n₂ => decidable_of_iff _ (n₁.beq_iff n₂)

instance : DecidableEq Filter := fun f₁ f₂ => decidable_of_iff _ (f₁.beq_iff f₂)

instance : DecidableEq Query := fun q₁ q₂ => decidable_of_iff _ (q₁.beq_iff q₂)

end ResourceQuery
