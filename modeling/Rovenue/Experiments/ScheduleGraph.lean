import Rovenue.Experiments.Lifecycle
import Rovenue.Graph.Chain

/-! The schedule graph: an experiment starts after another one. A request that sets such an edge
looks for a cycle in one statement and writes in another. -/

namespace Rovenue.Experiments
open Txn (Table)
open Threads

def Referenced (rows : Table String ExperimentRow) : Prop :=
  ∀ id row p, rows.get? id = some row → row.startAfterExperimentId = some p →
    (rows.get? p).isSome = true

structure ScheduleDb where
  experiments : Table String ExperimentRow
  references : Referenced experiments

def ScheduleDb.exists? (s : ScheduleDb) (id : Option String) : Bool :=
  id.all fun p => (s.experiments.get? p).isSome

def ExperimentRow.startAfter (p : Option String) (row : ExperimentRow) : ExperimentRow :=
  { row with startAfterExperimentId := p }

theorem referenced_insert {s : ScheduleDb} {id : String} {row : ExperimentRow}
    (h : s.exists? row.startAfterExperimentId = true) :
    Referenced (s.experiments.insert id row) := by
  have hkept : ∀ q, (s.experiments.get? q).isSome = true →
      ((s.experiments.insert id row).get? q).isSome = true := by
    intro q hq
    rw [Table.get?_insert]
    split_ifs
    · rfl
    · exact hq
  intro id' row' p hget hp
  rw [Table.get?_insert] at hget
  split_ifs at hget with hid
  · cases hold : s.experiments.get? id with
    | none =>
      rw [hold] at hget
      obtain rfl := Option.some.inj hget
      have hrow : row.startAfterExperimentId = some p := hp
      unfold ScheduleDb.exists? at h
      rw [hrow] at h
      exact hkept p h
    | some row₀ =>
      rw [hold] at hget
      obtain rfl := Option.some.inj hget
      exact hkept p (s.references id _ p hold hp)
  · exact hkept p (s.references id' row' p hget hp)

theorem referenced_modify {s : ScheduleDb} {id : String} {f : ExperimentRow → ExperimentRow}
    (h : ∀ row, s.experiments.get? id = some row →
      s.exists? (f row).startAfterExperimentId = true) :
    Referenced (s.experiments.modify id f) := by
  have hkept : ∀ q, (s.experiments.get? q).isSome = true →
      ((s.experiments.modify id f).get? q).isSome = true := by
    intro q hq
    rw [Table.get?_modify]
    split_ifs
    · rw [Option.isSome_map]
      exact hq
    · exact hq
  intro id' row' p hget hp
  rw [Table.get?_modify] at hget
  split_ifs at hget with hid
  · subst hid
    obtain ⟨row, hrow, rfl⟩ := Option.map_eq_some_iff.1 hget
    have hexists := h row hrow
    unfold ScheduleDb.exists? at hexists
    rw [hp] at hexists
    exact hkept p hexists
  · exact hkept p (s.references id' row' p hget hp)

theorem referenced_delete {s : ScheduleDb} {id : String} :
    Referenced ((s.experiments.erase id).map (ExperimentRow.forget id)) := by
  intro id' row' p hget hp
  rw [Table.get?_map, Table.get?_erase] at hget
  split_ifs at hget with hid
  · cases hget
  · obtain ⟨row, hrow, rfl⟩ := Option.map_eq_some_iff.1 hget
    unfold ExperimentRow.forget at hp
    split_ifs at hp with hpoints
    · have hne : p ≠ id := fun heq => hpoints (heq ▸ hp)
      rw [Table.get?_map, Table.get?_erase, if_neg hne, Option.isSome_map]
      exact s.references id' row p hrow hp

namespace ScheduleDb
variable (s : ScheduleDb)

def findExperimentById (id : String) : Option ExperimentRow := s.experiments.get? id

def findByIdInProject (id projectId : String) : Option ExperimentRow :=
  (s.experiments.get? id).filter fun row => row.projectId = projectId

def findScheduleChainByProject (projectId : String) : List (String × Option String) :=
  (s.experiments.entries.filter fun e => e.2.projectId = projectId).map fun e =>
    (e.1, e.2.startAfterExperimentId)

def createExperiment (id : String) (row : ExperimentRow) : ScheduleDb :=
  -- `createExperiment`. A row that refers to no other one is refused, as is an id in use.
  if h : s.exists? row.startAfterExperimentId = true then
    ⟨s.experiments.insert id row, referenced_insert h⟩
  else s

def updateExperiment (id : String) (p : Option String) : ScheduleDb :=
  if h : s.exists? p = true then
    ⟨s.experiments.modify id (ExperimentRow.startAfter p), referenced_modify fun _ _ => h⟩
  else s

def deleteExperiment (id : String) : ScheduleDb :=
  ⟨(s.experiments.erase id).map (ExperimentRow.forget id), referenced_delete⟩

def setStatus (id : String) (status : ExperimentStatus) : ScheduleDb :=
  ⟨s.experiments.modify id fun row => { row with status := status },
    referenced_modify fun row hrow => by
      unfold exists?
      rw [Option.all_eq_true]
      exact fun p hp => s.references id row p hrow hp⟩

end ScheduleDb

def nextOf (chain : List (String × Option String)) (id : String) : Option String :=
  -- `new Map(entries)` keeps the last of the entries for a key; an empty id is no id
  ((chain.reverse.find? fun e => e.1 = id).bind Prod.snd).filter (· ≠ "")

def scheduleWalk (chain : List (String × Option String)) (experimentId : Option String)
    (startAfterExperimentId : String) : Option Bool :=
  Graph.walk (nextOf chain) experimentId (chain.length + 1) [] (some startAfterExperimentId)

def selfReferenceMessage : String := "startAfterExperimentId cannot reference the experiment itself"

def foreignMessage (p : String) : String :=
  "startAfterExperimentId " ++ p ++ " does not belong to this project"

def cycleMessage : String := "startAfterExperimentId would create a scheduling cycle"

def assertNoScheduleCycle (s : ScheduleDb) (projectId : String) (experimentId : Option String)
    (startAfterExperimentId : Option String) : Except String Unit :=
  match startAfterExperimentId.filter (· ≠ "") with
  | none => .ok ()
  | some p =>
    if experimentId = some p then .error selfReferenceMessage
    else if s.findByIdInProject p projectId = none then .error (foreignMessage p)
    else if scheduleWalk (s.findScheduleChainByProject projectId) experimentId p = some true then
      .error cycleMessage
    else .ok ()

inductive ScheduleRequest where
  | create (row : ExperimentRow)
  -- `none` where the body leaves the field out
  | update (startAfterExperimentId : Option (Option String))
  | delete

inductive ScheduleStage where
  | waiting
  -- the request's row, or the one that it makes
  | read (existing : ExperimentRow)
  | found (existing : ExperimentRow)
  -- past the check, with the chain that it walked
  | checked (existing : ExperimentRow) (chain : List (String × Option String))
  | finished
  | rejected (message : String)
  | lost

structure ScheduleCall where
  id : String
  request : ScheduleRequest
  stage : ScheduleStage := .waiting

inductive ScheduleEvent where
  | next | crash

def notFoundMessage : String := "Experiment not found"

def cannotEditMessage (status : ExperimentStatus) : String :=
  "Cannot edit experiment in status " ++ status.label

def cannotDeleteMessage (status : ExperimentStatus) : String :=
  "Cannot delete experiment in status " ++ status.label ++ " — only DRAFT can be deleted"

def ScheduleRequest.begin (s : ScheduleDb) (id : String) : ScheduleRequest → ScheduleStage
  | .create row =>
    match row.startAfterExperimentId.filter (· ≠ "") with
    | none => .checked row []
    | some p =>
      if s.findByIdInProject p row.projectId = none then .rejected (foreignMessage p)
      else .found row
  | .update body =>
    match s.findExperimentById id with
    | none => .rejected notFoundMessage
    | some existing =>
      match existing.status with
      | .completed | .paused => .rejected (cannotEditMessage existing.status)
      -- the schedule of a running experiment is not editable
      | .running => .finished
      | .draft =>
        match (body.join).filter (· ≠ "") with
        | none => .checked existing []
        | some p => if p = id then .rejected selfReferenceMessage else .read existing
  | .delete =>
    match s.findExperimentById id with
    | none => .rejected notFoundMessage
    | some existing =>
      if existing.status = .draft then .read existing
      else .rejected (cannotDeleteMessage existing.status)

def ScheduleRequest.predecessor : ScheduleRequest → Option String
  | .create row => row.startAfterExperimentId.filter (· ≠ "")
  | .update body => (body.join).filter (· ≠ "")
  | .delete => none

def ScheduleCall.experimentId (t : ScheduleCall) : Option String :=
  match t.request with
  | .create _ => none
  | _ => some t.id

def ScheduleCall.to (t : ScheduleCall) (stage : ScheduleStage) : ScheduleCall :=
  { t with stage := stage }

def ScheduleCall.write (s : ScheduleDb) (t : ScheduleCall) : ScheduleDb :=
  match t.request with
  | .create row => s.createExperiment t.id row
  | .update (some p) => s.updateExperiment t.id p
  | .update none => s
  | .delete => s.deleteExperiment t.id

def ScheduleCall.step (s : ScheduleDb) (t : ScheduleCall) : ScheduleEvent → ScheduleDb × ScheduleCall
  | .crash => (s, t.to .lost)
  | .next =>
    match t.stage, t.request with
    | .waiting, request => (s, t.to (request.begin s t.id))
    | .read _, .delete => (t.write s, t.to .finished)
    | .read existing, request =>
      match request.predecessor with
      | none => (s, t)
      | some p =>
        if s.findByIdInProject p existing.projectId = none then
          (s, t.to (.rejected (foreignMessage p)))
        else (s, t.to (.found existing))
    | .found existing, request =>
      match request.predecessor with
      | none => (s, t)
      | some p =>
        let chain := s.findScheduleChainByProject existing.projectId
        if scheduleWalk chain t.experimentId p = some true then (s, t.to (.rejected cycleMessage))
        else (s, t.to (.checked existing chain))
    | .checked _ _, _ => (t.write s, t.to .finished)
    | _, _ => (s, t)

structure StatusChange where
  id : String
  status : ExperimentStatus

def scheduleSystem : System ScheduleDb ScheduleCall ScheduleEvent StatusChange where
  step s t e := t.step s e
  env s d := s.setStatus d.id d.status
  reset t _ := t

abbrev ScheduleWorld (ι : Type) := World ι ScheduleDb ScheduleCall

/-- The edges of a project. -/
def ScheduleDb.next (s : ScheduleDb) (projectId : String) : String → Option String :=
  nextOf (s.findScheduleChainByProject projectId)

def ScheduleDb.Acyclic (s : ScheduleDb) (projectId : String) : Prop :=
  ¬Graph.Cyclic (s.next projectId)

variable {ι : Type}

/-- From an update's check to its write, the chain of the predecessor is the one that it walked. -/
def ChainHolds (projectId : String) (w : ScheduleWorld ι) :
    Event ι ScheduleEvent StatusChange → Prop
  | .act i .next => ∀ existing chain, (w.task i).stage = .checked existing chain →
      ∀ body p, (w.task i).request = .update body → p ∈ (w.task i).request.predecessor →
        ∀ a b, Relation.ReflTransGen (Graph.Leads (w.shared.next projectId)) p a →
          w.shared.next projectId a = some b → nextOf chain a = some b
  | _ => True

end Rovenue.Experiments
