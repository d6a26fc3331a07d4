import Rovenue.Experiments.Lifecycle

/-! Those who move experiments: requests and sweeps, each statement and each transaction a step of
its own, and what is promised of their runs. -/

namespace Rovenue.Experiments
open Threads

inductive LifecycleRequest where
  | start
  | pause
  | resume
  | stop (winnerVariantId : Option String)
  | delete
  deriving DecidableEq

namespace LifecycleRequest

def accepts : LifecycleRequest → ExperimentStatus → Bool
  | .start, status => status = .draft
  | .pause, status => status = .running
  | .resume, status => status = .paused
  | .stop _, status => status = .running || status = .paused
  | .delete, status => status = .draft

def refusal (current : ExperimentStatus) : LifecycleRequest → String
  | .start => "Can only start DRAFT experiments (current: " ++ current.label ++ ")"
  | .pause => "Can only pause RUNNING experiments (current: " ++ current.label ++ ")"
  | .resume => "Can only resume PAUSED experiments (current: " ++ current.label ++ ")"
  | .stop _ => "Can only stop RUNNING/PAUSED experiments (current: " ++ current.label ++ ")"
  | .delete =>
    "Cannot delete experiment in status " ++ current.label ++ " — only DRAFT can be deleted"

end LifecycleRequest

def experimentNotFound : String := "Experiment not found"

inductive RequestStage where
  | waiting
  | checked (existing : ExperimentRow)
  | stopping (tx : StopTx)
  | finished
  | refused (status : ℕ) (message : String)
  | lost

inductive LifecycleEvent where
  -- the next statement goes through, at this time
  | next (clock : ℤ)
  -- the winner that the decision engine recommends to ship
  | decide (leadingVariantId : Option String)
  -- the statement throws
  | fail
  | crash

def requestPlan (s : LifecycleDb) (id : String) (request : LifecycleRequest) :
    RequestStage → LifecycleEvent → Option LifecycleWrite × RequestStage
  | .waiting, .next _ =>
    match s.experiments.get? id with
    | none => (none, .refused 404 experimentNotFound)
    | some existing =>
      if request.accepts existing.status then (none, .checked existing)
      else (none, .refused 400 (request.refusal existing.status))
  | .checked existing, .next clock =>
    if id ∈ s.locked then (none, .checked existing)
    else if (s.experiments.get? id).isNone then (none, .refused 404 experimentNotFound)
    else match request with
      | .start =>
        (some (.update id { status := some .running, startedAt := some clock }), .finished)
      | .pause => (some (.update id { status := some .paused }), .finished)
      | .resume => (some (.update id { status := some .running }), .finished)
      | .stop winnerVariantId =>
        match s.openStop existing winnerVariantId with
        | none => (none, .lost)
        | some tx => (some (.lock id), .stopping tx)
      | .delete => (some (.delete id), .finished)
  | .stopping tx, .next clock => (some (.stop id tx clock), .finished)
  | .stopping _, .fail | .stopping _, .crash => (some (.unlock id), .lost)
  | .waiting, .fail | .waiting, .crash | .checked _, .fail | .checked _, .crash => (none, .lost)
  | t, _ => (none, t)

abbrev StopCandidate := String × ℤ

inductive SweepStage where
  | waiting
  | starts (rest : List String)
  | stops (rest : List StopCandidate)
  -- the end of the candidate is cleared
  | claimed (c : StopCandidate) (rest : List StopCandidate)
  | deciding (c : StopCandidate) (existing : ExperimentRow) (rest : List StopCandidate)
  | decided (c : StopCandidate) (existing : ExperimentRow) (winnerVariantId : Option String)
    (rest : List StopCandidate)
  | stopping (c : StopCandidate) (tx : StopTx) (rest : List StopCandidate)
  -- past the commit, with a cache and an audit entry to go
  | stopped (c : StopCandidate) (rest : List StopCandidate)
  -- in the handler, about to put the end back
  | releasing (c : StopCandidate) (rest : List StopCandidate)
  | finished
  | lost

def sweepPlan (s : LifecycleDb) (now : ℤ) :
    SweepStage → LifecycleEvent → Option LifecycleWrite × SweepStage
  | .waiting, .next _ => (none, .starts (s.findScheduledStartCandidates now))
  | .starts [], .next _ => (none, .stops (s.findScheduledStopCandidates now))
  | .starts (id :: rest), .next _ =>
    if id ∈ s.locked then (none, .starts (id :: rest))
    else (some (.claimStart id now), .starts rest)
  | .starts (_ :: rest), .fail => (none, .starts rest)
  | .stops [], .next _ => (none, .finished)
  | .stops (c :: rest), .next _ =>
    if c.1 ∈ s.locked then (none, .stops (c :: rest))
    else if (s.experiments.get? c.1).any fun exp => LifecycleDb.stopDue exp now then
      (some (.claimStop c.1 now), .claimed c rest)
    else (none, .stops rest)
  | .claimed c rest, .next _ =>
    match s.experiments.get? c.1 with
    | none => (none, .stops rest)
    | some existing =>
      if existing.autoWinnerOnStop then (none, .deciding c existing rest)
      else (none, .decided c existing none rest)
  | .deciding c existing rest, .decide leadingVariantId =>
    (none, .decided c existing leadingVariantId rest)
  | .decided c existing winnerVariantId rest, .next _ =>
    if c.1 ∈ s.locked then (none, .decided c existing winnerVariantId rest)
    else if (s.experiments.get? c.1).isNone then (none, .releasing c rest)
    else match s.openStop existing winnerVariantId with
      | none => (none, .releasing c rest)
      | some tx => (some (.lock c.1), .stopping c tx rest)
  | .stopping c tx rest, .next clock => (some (.stop c.1 tx clock), .stopped c rest)
  | .stopped _ rest, .next _ => (none, .stops rest)
  | .releasing c rest, .next _ =>
    if c.1 ∈ s.locked then (none, .releasing c rest)
    else (some (.update c.1 { scheduledEndAt := some (some c.2) }), .stops rest)
  | .stopping c _ rest, .fail => (some (.unlock c.1), .releasing c rest)
  | .claimed c rest, .fail | .deciding c _ rest, .fail | .decided c _ _ rest, .fail
  | .stopped c rest, .fail => (none, .releasing c rest)
  | .stopping c _ _, .crash => (some (.unlock c.1), .lost)
  -- what is thrown outside the loop's `try` ends the sweep
  | .waiting, .fail | .starts [], .fail | .stops _, .fail | .releasing .., .fail => (none, .lost)
  | .waiting, .crash | .starts _, .crash | .stops _, .crash | .claimed .., .crash
  | .deciding .., .crash | .decided .., .crash | .stopped .., .crash | .releasing .., .crash =>
    (none, .lost)
  | t, _ => (none, t)

inductive LifecycleTask where
  | request (id : String) (kind : LifecycleRequest) (stage : RequestStage)
  | sweep (now : ℤ) (stage : SweepStage)

def LifecycleTask.plan (s : LifecycleDb) (e : LifecycleEvent) :
    LifecycleTask → Option LifecycleWrite × LifecycleTask
  | .request id kind stage =>
    ((requestPlan s id kind stage e).1, .request id kind (requestPlan s id kind stage e).2)
  | .sweep now stage => ((sweepPlan s now stage e).1, .sweep now (sweepPlan s now stage e).2)

def LifecycleDb.writeAll (s : LifecycleDb) (write : Option LifecycleWrite) : LifecycleDb :=
  write.elim s s.write

@[simp] theorem LifecycleDb.writeAll_some {s : LifecycleDb} {write : LifecycleWrite} :
    s.writeAll (some write) = s.write write := rfl

def lifecycleSystem : System LifecycleDb LifecycleTask LifecycleEvent Empty where
  step s t e := (s.writeAll (t.plan s e).1, (t.plan s e).2)
  env _ d := nomatch d
  reset _ d := nomatch d

abbrev LifecycleWorld (ι : Type) := World ι LifecycleDb LifecycleTask

/-- A request or a sweep that has not begun. -/
def LifecycleTask.waiting : LifecycleTask → Prop
  | .request _ _ stage => stage = .waiting
  | .sweep _ stage => stage = .waiting

def LifecycleTask.checks : LifecycleTask → Option (String × LifecycleRequest)
  | .request id kind (.checked _) => some (id, kind)
  | _ => none

def LifecycleTask.toStop : LifecycleTask → Option String
  | .sweep _ (.claimed c _) | .sweep _ (.deciding c _ _) | .sweep _ (.decided c _ _ _) => some c.1
  | _ => none

def LifecycleTask.inStop : LifecycleTask → Option (String × StopTx)
  | .request id _ (.stopping tx) => some (id, tx)
  | .sweep _ (.stopping c tx _) => some (c.1, tx)
  | _ => none

def LifecycleTask.holds : LifecycleTask → Option String
  | .sweep _ (.claimed c _) | .sweep _ (.deciding c _ _) | .sweep _ (.decided c _ _ _)
  | .sweep _ (.stopping c _ _) | .sweep _ (.releasing c _) => some c.1
  | _ => none

def statusAt (s : LifecycleDb) (id : String) : Option ExperimentStatus :=
  (s.experiments.get? id).map ExperimentRow.status

def ExperimentStatus.canBecome : ExperimentStatus → ExperimentStatus → Bool
  | .draft, .running | .running, .paused | .paused, .running | .running, .completed
  | .paused, .completed => true
  | a, b => a = b

/-- Along the edges, and only a draft is ever deleted. -/
def StatusMoves : Option ExperimentStatus → Option ExperimentStatus → Prop
  | some a, some b => a.canBecome b
  | some a, none => a = .draft
  | none, after => after = none

def LifecycleDb.stoppedPaywall (s : LifecycleDb) (projectId id : String) : Option String :=
  if s.stops.any fun stop => stop.experimentId = id then
    ((s.experiments.get? id).filter fun exp => exp.projectId = projectId).bind fun exp =>
      winnerPaywallId exp exp.winnerVariantId
  else none

def PlacementRow.afterStops (s : LifecycleDb) (projectId : String) (row : PlacementRow) :
    PlacementRow :=
  match row.target with
  | .experiment id =>
    match s.stoppedPaywall projectId id with
    | some paywallId => { row with target := .paywall paywallId }
    | none => row
  | _ => row

def Placement.columns (p : Placement) : String × List PlacementRow := (p.projectId, p.rows)

/-- One stop at most for each experiment, its winner stored, and the placements repointed to it. -/
structure StopsHonoured (s₀ s : LifecycleDb) : Prop where
  once : (s.stops.map StopRecord.experimentId).Nodup
  stored : ∀ stop ∈ s.stops, ∃ exp, s.experiments.get? stop.experimentId = some exp ∧
    exp.status = .completed ∧ exp.winnerVariantId = stop.winnerVariantId
  repointed : ∀ id, (s.placements.get? id).map Placement.columns =
    (s₀.placements.get? id).map fun p =>
      (p.projectId, p.rows.map (PlacementRow.afterStops s p.projectId))

def Selectable (s : LifecycleDb) (id : String) : Prop :=
  ∃ now end', (id, end') ∈ s.findScheduledStopCandidates now

def hasEnd (s : LifecycleDb) (id : String) : Bool :=
  (s.experiments.get? id).any fun exp => exp.scheduledEndAt.isSome

variable {ι : Type}

/-- Not yet started, paused, completed, selectable, or in the hands of the sweep that claimed it. -/
def EndKept (s₀ : LifecycleDb) (w : LifecycleWorld ι) : Prop :=
  ∀ id, hasEnd s₀ id = true → ∀ status ∈ statusAt w.shared id,
    status ≠ .running ∨ Selectable w.shared id ∨ ∃ i, (w.task i).holds = some id

def LifecycleWrite.moved (s : LifecycleDb) : LifecycleWrite → Option String
  | .update id patch => if patch.status.isSome then some id else none
  | .claimStart id now =>
    if (s.experiments.get? id).any fun exp => s.startDue exp now then some id else none
  | .delete id | .stop id _ _ => some id
  | .claimStop .. | .lock _ | .unlock _ => none

def LifecycleWrite.stops : LifecycleWrite → Option (String × StopTx)
  | .stop id tx _ => some (id, tx)
  | _ => none

def StopTx.rewrites (id : String) (tx : StopTx) : List String :=
  (tx.listed.filter fun e => e.2.shows id).map Prod.fst

def LifecycleEvent.isNext : LifecycleEvent → Bool
  | .next _ => true
  | _ => false

/-- A write of one caller that comes between no other's look at the tables and its write. -/
structure LifecycleWrite.InTurn (w : LifecycleWorld ι) (i : ι) (write : LifecycleWrite) : Prop where
  -- no status is set between another request's read of it and that request's write
  requests : ∀ id ∈ write.moved w.shared, ∀ j, j ≠ i →
    (w.task j).checks.map Prod.fst ≠ some id
  -- no experiment is stopped between another sweep's claim of it and that sweep's stop
  claims : ∀ stop ∈ write.stops, ∀ j, j ≠ i → (w.task j).toStop ≠ some stop.1
  -- of two stops that rewrite one placement, one commits before the other lists
  placements : ∀ stop ∈ write.stops, ∀ j, j ≠ i → ∀ other ∈ (w.task j).inStop,
    ∀ pid ∈ stop.2.rewrites stop.1, pid ∉ other.2.rewrites other.1

/-- The writes come in turn, and no sweep dies with the claim of an experiment in hand that is
not completed. -/
structure InTurn (w : LifecycleWorld ι) (i : ι) (e : LifecycleEvent) : Prop where
  writes : ∀ write ∈ ((w.task i).plan w.shared e).1, write.InTurn w i
  keeps : ∀ id ∈ (w.task i).holds, ((w.task i).plan w.shared e).2.holds ≠ some id →
    ∀ status ∈ statusAt w.shared id, status ≠ .completed → e.isNext = true

def StepInTurn (w : LifecycleWorld ι) : Event ι LifecycleEvent Empty → Prop
  | .act i e => InTurn w i e

section Decidable
variable [Fintype ι] [DecidableEq ι] (w : LifecycleWorld ι) (i : ι)

instance (write : LifecycleWrite) : Decidable (write.InTurn w i) :=
  decidable_of_iff
    ((∀ id ∈ write.moved w.shared, ∀ j, j ≠ i → (w.task j).checks.map Prod.fst ≠ some id) ∧
    (∀ stop ∈ write.stops, ∀ j, j ≠ i → (w.task j).toStop ≠ some stop.1) ∧
    ∀ stop ∈ write.stops, ∀ j, j ≠ i → ∀ other ∈ (w.task j).inStop,
      ∀ pid ∈ stop.2.rewrites stop.1, pid ∉ other.2.rewrites other.1)
    ⟨fun h => ⟨h.1, h.2.1, h.2.2⟩, fun h => ⟨h.1, h.2, h.3⟩⟩

instance (e : LifecycleEvent) : Decidable (InTurn w i e) :=
  decidable_of_iff
    ((∀ write ∈ ((w.task i).plan w.shared e).1, write.InTurn w i) ∧
    ∀ id ∈ (w.task i).holds, ((w.task i).plan w.shared e).2.holds ≠ some id →
      ∀ status ∈ statusAt w.shared id, status ≠ .completed → e.isNext = true)
    ⟨fun h => ⟨h.1, h.2⟩, fun h => ⟨h.1, h.2⟩⟩

instance : (ev : Event ι LifecycleEvent Empty) → Decidable (StepInTurn w ev)
  | .act i e => inferInstanceAs (Decidable (InTurn w i e))

end Decidable

end Rovenue.Experiments
