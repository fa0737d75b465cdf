import ResourceQuery.Filter.Draft
import ResourceQuery.Filter.Listing

namespace ResourceQuery.Builder

inductive Observation
  | depth (groups : Nat)
  | listing (text : String)
  | built (query : Query)
  | refused (error : FilterError)

namespace Observation

-- What a step shows of the builder it starts from.
def before (b : Builder) : Draft.Step → List Observation
  | .list => [listing b.listing]
  | _ => []

-- The observations from a builder on.
def following (schema : Schema) (finish : Draft.Finish) :
    List Draft.Step → Builder → List Observation
  | [], b =>
    match (finish.resolve b).answer schema with
    | .ok query => [built query]
    | .error error => [refused error]
  | step :: steps, b =>
    before b step ++
      match (step.resolve b).answer schema with
      | .ok b => depth b.depth :: following schema finish steps b
      | .error error => [refused error]

end Observation

def report (schema : Schema) (objectType : String) (steps : List Draft.Step)
    (finish : Draft.Finish) : List Observation :=
  match (Builder.new objectType).answer schema with
  | .ok b => .depth b.depth :: Observation.following schema finish steps b
  | .error error => [.refused error]

end ResourceQuery.Builder
