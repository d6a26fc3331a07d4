import Rovenue.Experiments.Variants
import Rovenue.Js.Json
import Rovenue.Threads.System

/-! The lifecycle of experiments. A request of the dashboard checks a status that it has read
and then writes without a condition; a sweep of the scheduler claims rows by conditional
updates. A stop also rewrites the placements that show the experiment. -/

namespace Rovenue.Experiments
open Txn (Table)
open Threads
open Js (Json)

inductive ExperimentStatus where
  | draft | running | paused | completed
  deriving DecidableEq, Repr

def ExperimentStatus.label : ExperimentStatus → String
  | .draft => "DRAFT"
  | .running => "RUNNING"
  | .paused => "PAUSED"
  | .completed => "COMPLETED"

structure ExperimentRow where
  projectId : String
  type : ExperimentType
  variants : List (Variant Json) := []
  status : ExperimentStatus := .draft
  startedAt : Option ℤ := none
  completedAt : Option ℤ := none
  winnerVariantId : Option String := none
  scheduledStartAt : Option ℤ := none
  scheduledEndAt : Option ℤ := none
  startAfterExperimentId : Option String := none
  autoWinnerOnStop : Bool := false

inductive PlacementTarget where
  | paywall (paywallId : String)
  | experiment (experimentId : String)
  | none
  deriving DecidableEq

structure PlacementRow where
  -- `none` is all users
  audienceId : Option String
  target : PlacementTarget
  deriving DecidableEq

structure Placement where
  projectId : String
  rows : List PlacementRow
  revision : ℕ := 0
  deriving DecidableEq

def placementRowsValid (rows : List PlacementRow) : Bool :=
  -- `placementRowsSchema`: one row for all users at most, and that one last
  rows.dropLast.all fun row => row.audienceId.isSome

structure StopRecord where
  experimentId : String
  winnerVariantId : Option String
  deriving DecidableEq

structure LifecycleDb where
  experiments : Table String ExperimentRow
  placements : Table String Placement
  -- rows that the transaction of a stop has updated, up to its commit
  locked : List String := []
  -- nothing in the code reads it
  stops : List StopRecord := []

def winnerPaywallId (exp : ExperimentRow) (winnerVariantId : Option String) : Option String :=
  if exp.type = .paywall then
    match (winnerVariantId.filter (· ≠ "")).bind fun id => exp.variants.find? fun v => v.id = id with
    | none => none
    | some winner =>
      match winner.value.get "paywallId" with
      | some (.str paywallId) => if paywallId ≠ "" then some paywallId else none
      | _ => none
  else none

def PlacementRow.repoint (experimentId paywallId : String) (row : PlacementRow) : PlacementRow :=
  if row.target = .experiment experimentId then { row with target := .paywall paywallId } else row

def Placement.repoint (experimentId paywallId : String) (placement : Placement) :
    List PlacementRow := placement.rows.map (PlacementRow.repoint experimentId paywallId)

def Placement.shows (placement : Placement) (experimentId : String) : Bool :=
  placement.rows.any fun row => row.target = .experiment experimentId

def Placement.setRows (rows : List PlacementRow) (placement : Placement) : Placement :=
  { placement with rows := rows, revision := placement.revision + 1 }

structure StopTx where
  existing : ExperimentRow
  winnerVariantId : Option String
  listed : List (String × Placement)

namespace LifecycleDb
variable (s : LifecycleDb)

def listPlacements (projectId : String) : List (String × Placement) :=
  s.placements.entries.filter fun e => e.2.projectId = projectId

def openStop (existing : ExperimentRow) (winnerVariantId : Option String) : Option StopTx :=
  let listed := match winnerPaywallId existing winnerVariantId with
    | none => []
    | some _ => s.listPlacements existing.projectId
  if listed.all fun e => placementRowsValid e.2.rows then
    some ⟨existing, winnerVariantId, listed⟩
  else none

end LifecycleDb

def StopTx.repointAll (tx : StopTx) (experimentId : String) (placements : Table String Placement) :
    Table String Placement :=
  match winnerPaywallId tx.existing tx.winnerVariantId with
  | none => placements
  | some paywallId =>
    tx.listed.foldl (fun placements e =>
      if e.2.shows experimentId then
        placements.modify e.1 (Placement.setRows (e.2.repoint experimentId paywallId))
      else placements) placements

def ExperimentRow.complete (winnerVariantId : Option String) (completedAt : ℤ) (exp : ExperimentRow) :
    ExperimentRow :=
  { exp with
    status := .completed
    completedAt := some completedAt
    winnerVariantId := winnerVariantId.or exp.winnerVariantId }

structure ExperimentPatch where
  status : Option ExperimentStatus := none
  startedAt : Option ℤ := none
  scheduledEndAt : Option (Option ℤ) := none

def ExperimentPatch.apply (p : ExperimentPatch) (exp : ExperimentRow) : ExperimentRow :=
  { exp with
    status := p.status.getD exp.status
    startedAt := p.startedAt.or exp.startedAt
    scheduledEndAt := p.scheduledEndAt.getD exp.scheduledEndAt }

namespace LifecycleDb
variable (s : LifecycleDb)

def predecessorDone (exp : ExperimentRow) : Bool :=
  exp.startAfterExperimentId.all fun id =>
    (s.experiments.get? id).any fun predecessor => predecessor.status = .completed

def startDue (exp : ExperimentRow) (now : ℤ) : Bool :=
  exp.status = .draft && exp.scheduledStartAt.any (· ≤ now) && s.predecessorDone exp

def stopDue (exp : ExperimentRow) (now : ℤ) : Bool :=
  exp.status = .running && exp.scheduledEndAt.any (· ≤ now)

def findScheduledStartCandidates (now : ℤ) : List String :=
  (s.experiments.entries.filter fun e => s.startDue e.2 now).map Prod.fst

def findScheduledStopCandidates (now : ℤ) : List (String × ℤ) :=
  (s.experiments.entries.filter fun e => stopDue e.2 now).filterMap fun e =>
    e.2.scheduledEndAt.map fun t => (e.1, t)

end LifecycleDb

inductive LifecycleWrite where
  | update (id : String) (patch : ExperimentPatch)
  | claimStart (id : String) (now : ℤ)
  | claimStop (id : String) (now : ℤ)
  | delete (id : String)
  -- the transaction of a stop commits
  | stop (id : String) (tx : StopTx) (completedAt : ℤ)
  | lock (id : String)
  | unlock (id : String)

def ExperimentRow.forget (id : String) (exp : ExperimentRow) : ExperimentRow :=
  if exp.startAfterExperimentId = some id then { exp with startAfterExperimentId := none } else exp

def LifecycleDb.write (s : LifecycleDb) : LifecycleWrite → LifecycleDb
  | .update id patch => { s with experiments := s.experiments.modify id patch.apply }
  | .claimStart id now =>
    { s with experiments := s.experiments.modify id fun exp =>
        if s.startDue exp now then { exp with status := .running, startedAt := some now } else exp }
  | .claimStop id now =>
    { s with experiments := s.experiments.modify id fun exp =>
        if LifecycleDb.stopDue exp now then { exp with scheduledEndAt := none } else exp }
  | .delete id => { s with experiments := (s.experiments.erase id).map (ExperimentRow.forget id) }
  | .stop id tx completedAt =>
    { s with
      experiments := s.experiments.modify id (ExperimentRow.complete tx.winnerVariantId completedAt)
      placements := tx.repointAll id s.placements
      locked := s.locked.filter (· ≠ id)
      stops := s.stops ++ [⟨id, tx.winnerVariantId⟩] }
  | .lock id => { s with locked := id :: s.locked }
  | .unlock id => { s with locked := s.locked.filter (· ≠ id) }

end Rovenue.Experiments
