import ResourceQuery.Enumeration.Error

namespace ResourceQuery.Enumeration

-- A decoder may also panic, or cancel the enumeration, but only if it runs on a worker of its own.
structure Decoder (ι ρ : Type) where
  decode : ι → Outcome ρ
  panics : ι → Bool := fun _ => false
  cancels : ι → Bool := fun _ => false

namespace Decoder

-- Items are records.
def raw {ι : Type} : Decoder ι ι where
  decode := .ok

-- Labels items as records, with the exceptions that are listed.
def labelling (rejected panicking cancelling : List String) : Decoder String String where
  decode item :=
    if rejected.contains item then .error (.decode s!"record {item} is malformed")
    else .ok s!"record-{item}"
  panics := panicking.contains
  cancels := cancelling.contains

end Decoder

end ResourceQuery.Enumeration
