import ResourceQuery.Filter.Draft
import ResourceQuery.Schema.Cache
import ResourceQuery.Schema.Catalog

namespace ResourceQuery.Consultation

-- A question to the schema.
inductive Question
  | attributeType (name : String)
  | isMultivalued (name : String)
  | validateAttribute (name : String)
  | validateObjectType (name : String)
  | resolveAttribute (name : String)
  | describeAttribute (name : String)
  | hasObjectType (name : String)
  | express (expression : Draft.Expression)

-- A look at the cache itself, or its clearance.
inductive Inspection
  | clear
  | statistics
  | listing
  | catalogSize

inductive Step
  | ask (question : Question)
  | inspect (inspection : Inspection)

inductive Finding
  | type (type : AttributeType)
  | truth (value : Bool)
  | valid
  | described (found : Option Attribute)
  | expression (built : Expression)
  | statistics (statistics : Cache.Statistics)
  | listing (text : String)
  | size (entries : Nat)
  | nothing

-- `requests` are those that reached the catalog during the step, and `statistics` those of the
-- cache after it.
structure Reply where
  finding : Except FilterError Finding
  requests : List Schema.Request := []
  statistics : Option Cache.Statistics := none

def Question.inquiry : Question → Inquiry Finding
  | attributeType name => return .type (← Inquiry.attributeType name)
  | isMultivalued name => return .truth (← Inquiry.isMultivalued name)
  | validateAttribute name => do
    Inquiry.validateAttribute name
    return .valid
  | validateObjectType name => do
    Inquiry.validateObjectType name
    return .valid
  | resolveAttribute name => return .described (some (← Inquiry.resolveAttribute name))
  | describeAttribute name => return .described (← Inquiry.describeAttribute name)
  | hasObjectType name => return .truth (← Inquiry.hasObjectType name)
  | express draft => return .expression (← draft.resolve)

def Inspection.perform (catalog : Catalog) (c : Cache) : Inspection → Finding × Cache
  | clear => (.statistics c.clear.statistics, c.clear)
  | statistics => (.statistics c.statistics, c)
  | listing => (.listing c.listing, c)
  | catalogSize => (.size catalog.attributeCount, c)

-- Without a cache there is nothing to inspect.
def Step.direct (catalog : Catalog) : Step → Reply
  | ask question =>
    let (finding, requests) := question.inquiry.answerRecorded catalog.toSchema []
    { finding, requests }
  | inspect _ => { finding := .ok .nothing }

def Step.cached (catalog : Catalog) (now : Nat) (c : Cache) :
    Step → Except FilterError Finding × Cache
  | ask question => question.inquiry.answerCached catalog.toSchema (fun _ => now) c
  | inspect inspection =>
    let (finding, c) := inspection.perform catalog c
    (.ok finding, c)

-- Time passes from one step to the next, but not within a step.
def runCached (catalog : Catalog) : Nat → Cache → List Step → List Reply
  | _, _, [] => []
  | now, before, step :: steps =>
    let (finding, c) := step.cached catalog now before
    { finding
      requests := c.forwarded.drop before.forwarded.length
      statistics := some c.statistics } :: runCached catalog (now + 1) c steps

-- Without a configuration there is no cache.
def run (catalog : Catalog) (config : Option Cache.Config) (steps : List Step) : List Reply :=
  match config with
  | none => steps.map (·.direct catalog)
  | some config => runCached catalog 1 (.empty config) steps

end ResourceQuery.Consultation
