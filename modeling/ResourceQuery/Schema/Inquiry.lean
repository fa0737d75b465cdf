import ResourceQuery.FilterError
import ResourceQuery.Schema.Basic

namespace ResourceQuery

-- A computation that asks a schema. Who answers is left open.
inductive Inquiry (α : Type)
  | done (result : α)
  | refuse (error : FilterError)
  | describe (name : String) (next : Option Attribute → Inquiry α)
  | hasType (name : String) (next : Bool → Inquiry α)

namespace Inquiry

variable {α β σ : Type}

protected def bind : Inquiry α → (α → Inquiry β) → Inquiry β
  | done result, f => f result
  | refuse error, _ => refuse error
  | describe name next, f => describe name fun answer => (next answer).bind f
  | hasType name next, f => hasType name fun answer => (next answer).bind f

instance : Monad Inquiry where
  pure := done
  bind := Inquiry.bind

protected theorem bind_done (i : Inquiry α) : i.bind done = i := by
  induction i with
  | done => rfl
  | refuse => rfl
  | describe name next ih => simp [Inquiry.bind, ih]
  | hasType name next ih => simp [Inquiry.bind, ih]

protected theorem bind_assoc {γ : Type} (i : Inquiry α) (f : α → Inquiry β) (g : β → Inquiry γ) :
    (i.bind f).bind g = i.bind fun a => (f a).bind g := by
  induction i with
  | done => rfl
  | refuse => rfl
  | describe name next ih => simp [Inquiry.bind, ih]
  | hasType name next ih => simp [Inquiry.bind, ih]

instance : LawfulMonad Inquiry :=
  .mk' Inquiry Inquiry.bind_done (fun _ _ => rfl) Inquiry.bind_assoc

def ofExcept : Except FilterError α → Inquiry α
  | .ok result => done result
  | .error error => refuse error

-- The outcome with the answers of one schema.
def answer (schema : Schema) : Inquiry α → Except FilterError α
  | done result => .ok result
  | refuse error => .error error
  | describe name next => (next (schema.attribute? name)).answer schema
  | hasType name next => (next (schema.hasObjectType name)).answer schema

-- The outcome with answers from elsewhere, which may come with a change of state.
def answerWith (describe? : String → σ → Option Attribute × σ) (hasType? : String → σ → Bool × σ) :
    Inquiry α → σ → Except FilterError α × σ
  | done result, s => (.ok result, s)
  | refuse error, s => (.error error, s)
  | describe name next, s =>
    let (found, s) := describe? name s
    (next found).answerWith describe? hasType? s
  | hasType name next, s =>
    let (found, s) := hasType? name s
    (next found).answerWith describe? hasType? s

-- The outcome with the answers of one schema, and the requests the schema got, after those that it
-- got before.
def answerRecorded (schema : Schema) :
    Inquiry α → List Schema.Request → Except FilterError α × List Schema.Request :=
  answerWith
    (fun name requests => (schema.attribute? name, requests ++ [.describe name]))
    (fun name requests => (schema.hasObjectType name, requests ++ [.hasType name]))

theorem answerRecorded_fst (schema : Schema) (i : Inquiry α) (requests : List Schema.Request) :
    (i.answerRecorded schema requests).1 = i.answer schema := by
  induction i generalizing requests with
  | done => rfl
  | refuse => rfl
  | describe name next ih => exact ih _ _
  | hasType name next ih => exact ih _ _

@[simp]
theorem answer_pure (schema : Schema) (result : α) :
    (pure result : Inquiry α).answer schema = .ok result :=
  rfl

@[simp]
theorem answer_refuse (schema : Schema) (error : FilterError) :
    (refuse error : Inquiry α).answer schema = .error error :=
  rfl

@[simp]
theorem answer_ofExcept (schema : Schema) (e : Except FilterError α) :
    (ofExcept e).answer schema = e := by
  cases e <;> rfl

@[simp]
theorem answer_bind (schema : Schema) (i : Inquiry α) (f : α → Inquiry β) :
    (i >>= f).answer schema = (i.answer schema >>= fun a => (f a).answer schema) := by
  induction i with
  | done => rfl
  | refuse => rfl
  | describe name next ih => exact ih _
  | hasType name next ih => exact ih _

def describeAttribute (name : String) : Inquiry (Option Attribute) :=
  describe name done

def hasObjectType (name : String) : Inquiry Bool :=
  hasType name done

def resolveAttribute (name : String) : Inquiry Attribute := do
  ofExcept (Name.check name)
  match ← describeAttribute name with
  | some found => pure found
  | none => refuse (.unknownAttribute name)

def attributeType (name : String) : Inquiry AttributeType := do
  return (← resolveAttribute name).type

def isMultivalued (name : String) : Inquiry Bool := do
  return (← resolveAttribute name).multivalued

def validateAttribute (name : String) : Inquiry Unit := do
  let _ ← resolveAttribute name

-- The wildcard needs no place in the schema.
def validateObjectType (name : String) : Inquiry Unit := do
  ofExcept (Name.checkObjectType name)
  if name = anyObjectType then
    return
  unless ← hasObjectType name do
    refuse (.unknownObjectType name)

-- Refuses attributes which are not references.
def requireReference (name : String) : Inquiry Unit := do
  let type ← attributeType name
  unless type = .reference do
    refuse (.notAReference name type)

end Inquiry

end ResourceQuery
