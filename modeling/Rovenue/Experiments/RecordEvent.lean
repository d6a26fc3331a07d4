import Rovenue.Experiments.Lifecycle
import Rovenue.Import.Keys
import Rovenue.Threads.System

/-! `recordEvent` for any number of calls at once. A call reads the running assignments of its
subscriber, and then writes to each of them the events it read with its own at the end. -/

namespace Rovenue.Experiments
open Threads
open Txn (Table)
open Js (Json Value)
open Import (UtcDate)

/-- The columns of `experiments` that the query joins. -/
structure RunningColumns where
  status : ExperimentStatus
  metrics : Value

structure Conversion where
  convertedAt : Option UtcDate := none
  purchaseId : Option Json := none
  -- the text of the number; the column is a decimal
  revenue : Option String := none

structure AssignmentRow extends Conversion where
  experimentId : String
  subscriberId : String
  events : Json := .arr []

structure AssignmentDb where
  experiments : Table String RunningColumns
  experimentAssignments : Table String AssignmentRow

structure AssignmentWithMetrics where
  events : Json
  convertedAt : Option UtcDate
  metrics : Value

structure AssignmentEventPatch extends Conversion where
  events : Json

namespace AssignmentDb
variable (db : AssignmentDb)

def findAssignmentsWithMetrics (subscriberId : String) : Table String AssignmentWithMetrics :=
  db.experimentAssignments.filterMap fun _ a =>
    (db.experiments.get? a.experimentId).bind fun experiment =>
      if a.subscriberId = subscriberId ∧ experiment.status = .running then
        some ⟨a.events, a.convertedAt, experiment.metrics⟩
      else none

def applyPatch (patch : AssignmentEventPatch) (row : AssignmentRow) : AssignmentRow :=
  { row with
    events := patch.events
    convertedAt := patch.convertedAt.or row.convertedAt
    purchaseId := patch.purchaseId.or row.purchaseId
    revenue := patch.revenue.or row.revenue }

def updateAssignmentEvents (id : String) (patch : AssignmentEventPatch) : AssignmentDb :=
  { db with experimentAssignments := db.experimentAssignments.modify id (applyPatch patch) }

end AssignmentDb

abbrev RecordEventMetadata := List (String × Value)

structure RecordEventCall where
  subscriberId : String
  eventType : String
  metadata : Option RecordEventMetadata

namespace RecordEventCall
variable (call : RecordEventCall)

def property (name : String) : Value :=
  call.metadata.bind fun metadata => (metadata.lookup name).join

def storedMetadata : List (String × Json) :=
  match call.metadata with
  | none | some [] => []
  | some metadata => [("metadata", .obj (metadata.filterMap fun f => f.2.map fun v => (f.1, v)))]

def event (now : UtcDate) : Json :=
  .obj ([("type", .str call.eventType), ("timestamp", .str (String.ofList now.toISOString))] ++
    call.storedMetadata)

def isConversion (metrics : Value) : Bool :=
  -- `metrics.includes(eventType)`; metrics that are no array count as none
  (Json.elements metrics).any fun metric => Json.text? (some metric) = some call.eventType

def conversion (now : UtcDate) : Conversion where
  convertedAt := some now
  purchaseId := (call.property "purchaseId").filter fun id => Json.truthy (some id)
  revenue := (Json.number? (call.property "revenue")).map Js.NumberLiteral.toText

end RecordEventCall

structure Recording where
  call : RecordEventCall
  now : UtcDate

namespace Recording
variable (r : Recording)

def event : Json := r.call.event r.now

def patch (a : AssignmentWithMetrics) : AssignmentEventPatch :=
  { toConversion :=
      if r.call.isConversion a.metrics ∧ a.convertedAt = none then r.call.conversion r.now else {}
    events := .arr (Json.elements (some a.events) ++ [r.event]) }

end Recording

inductive RecordingTask where
  | idle
  | called (call : RecordEventCall)
  -- the assignments it has read and not yet written
  | writing (r : Recording) (assignments : Table String AssignmentWithMetrics)

inductive RecordingInput where
  | recordEvent (call : RecordEventCall)
  | read (now : UtcDate)
  | update (id : String)

def settle (r : Recording) (assignments : Table String AssignmentWithMetrics) : RecordingTask :=
  if assignments.entries = [] then .idle else .writing r assignments

def recordingStep (db : AssignmentDb) (task : RecordingTask) (input : RecordingInput) :
    AssignmentDb × RecordingTask :=
  match task, input with
  | .idle, .recordEvent call => (db, .called call)
  | .called call, .read now =>
    (db, settle ⟨call, now⟩ (db.findAssignmentsWithMetrics call.subscriberId))
  | .writing r assignments, .update id =>
    match assignments.get? id with
    | some a => (db.updateAssignmentEvents id (r.patch a), settle r (assignments.erase id))
    | none => (db, .writing r assignments)
  | task, _ => (db, task)

def recordingSystem : System AssignmentDb RecordingTask RecordingInput Empty where
  step := recordingStep
  env _ d := d.elim
  reset _ d := d.elim

abbrev RecordingEvent (ι : Type) := Event ι RecordingInput Empty

abbrev RecordingWorld (ι : Type) := World ι AssignmentDb RecordingTask

def foundIn {ι : Type} (id : String) (x : RecordingWorld ι × RecordingEvent ι) :
    Option (ι × Recording) :=
  match x.2 with
  | .act i (.read now) =>
    match x.1.task i with
    | .called call =>
      ((x.1.shared.findAssignmentsWithMetrics call.subscriberId).get? id).map
        fun _ => (i, ⟨call, now⟩)
    | _ => none
  | _ => none

def landedIn {ι : Type} (id : String) (x : RecordingWorld ι × RecordingEvent ι) :
    Option (ι × Recording) :=
  match x.2 with
  | .act i (.update id') =>
    match x.1.task i with
    | .writing r assignments =>
      if id' = id then (assignments.get? id).map fun _ => (i, r) else none
    | _ => none
  | _ => none

/-- The update lands on the assignment as its call read it. -/
def LandsAsRead {ι : Type} (id : String) (w : RecordingWorld ι) (e : RecordingEvent ι) : Prop :=
  ∀ i r assignments a row, e = .act i (.update id) → w.task i = .writing r assignments →
    assignments.get? id = some a → w.shared.experimentAssignments.get? id = some row →
      row.events = a.events ∧ row.convertedAt = a.convertedAt

end Rovenue.Experiments
