import Rovenue.Threads.System

/-! The data subject requests of one subscriber. An export writes its artifact to object storage
and then completes its row; an erasure anonymizes the subscriber, purges the artifacts and then
completes its own. Storage takes no part in the transactions. -/

namespace Rovenue.Gdpr
open Txn (Table)
open Threads

inductive DsarType where
  | export | erasure
  deriving DecidableEq, Repr

inductive DsarStatus where
  | pending | running | completed | failed
  deriving DecidableEq, Repr

structure DsarRequest where
  type : DsarType
  status : DsarStatus := .pending
  artifactKey : Option String := none
  expiresAt : Option ℤ := none
  completedAt : Option ℤ := none
  error : Option String := none
  updatedAt : ℤ
  deriving DecidableEq

structure DsarState where
  requests : Table String DsarRequest := .empty
  -- of the subscriber
  deletedAt : Option ℤ := none
  -- the subscriber's export artifacts
  storage : List String := []
  -- what erasures have deleted from storage; nothing in the code reads it
  purged : List String := []

def purgeTotalBudgetMs : ℤ := 90000

def claimStaleRunningMarginMs : ℤ := 150000

def claimStaleRunningMs : ℤ := purgeTotalBudgetMs + claimStaleRunningMarginMs

def artifactTtlMs : ℤ := 30 * 24 * 60 * 60 * 1000

def DsarRequest.claimable (now : ℤ) (row : DsarRequest) : Bool :=
  row.status = .pending || row.status = .running && row.updatedAt < now - claimStaleRunningMs

def DsarRequest.claim (now : ℤ) (row : DsarRequest) : DsarRequest :=
  { row with status := .running, updatedAt := now }

def DsarRequest.complete (artifactKey : Option String) (expiresAt : Option ℤ) (now : ℤ)
    (row : DsarRequest) : DsarRequest :=
  { row with
    status := .completed
    artifactKey := artifactKey
    expiresAt := expiresAt
    completedAt := some now
    updatedAt := now }

def DsarRequest.fail (error : String) (now : ℤ) (row : DsarRequest) : DsarRequest :=
  { row with status := .failed, error := some error, updatedAt := now }

def DsarRequest.invalidate (now : ℤ) (row : DsarRequest) : DsarRequest :=
  { row with artifactKey := none, expiresAt := none, updatedAt := now }

def DsarState.findCompletedExportArtifacts (s : DsarState) : List (String × String) :=
  s.requests.entries.filterMap fun e =>
    if e.2.type = .export ∧ e.2.status = .completed then
      e.2.artifactKey.map fun key => (e.1, key)
    else none

inductive DsarWrite where
  | claim (id : String) (now : ℤ)
  | put (key : String)
  -- an export cleans up
  | delete (key : String)
  -- an erasure deletes an artifact
  | purge (key : String)
  | complete (id : String) (artifactKey : Option String) (expiresAt : Option ℤ) (now : ℤ)
  | fail (id : String) (error : String) (now : ℤ)
  | anonymize (now : ℤ)
  | invalidate (ids : List String) (now : ℤ)
  deriving DecidableEq

def DsarState.write (s : DsarState) : DsarWrite → DsarState
  | .claim id now => { s with requests := s.requests.modify id (DsarRequest.claim now) }
  | .put key => { s with storage := key :: s.storage }
  | .delete key => { s with storage := s.storage.filter (· ≠ key) }
  | .purge key => { s with storage := s.storage.filter (· ≠ key), purged := key :: s.purged }
  | .complete id artifactKey expiresAt now =>
    { s with requests := s.requests.modify id (DsarRequest.complete artifactKey expiresAt now) }
  | .fail id error now => { s with requests := s.requests.modify id (DsarRequest.fail error now) }
  | .anonymize now => { s with deletedAt := some now }
  | .invalidate ids now =>
    { s with requests := ids.foldl (fun t id => t.modify id (DsarRequest.invalidate now)) s.requests }

def buildDsarExportStorageKey (projectId dsarRequestId : String) : String :=
  "dsar-exports/" ++ projectId ++ "/" ++ dsarRequestId ++ ".json"

inductive DsarEvent where
  -- the next call goes through, at this time
  | next (now : ℤ)
  -- it throws
  | throw (message : String)
  | crash

inductive ExportStage where
  | waiting
  | claimed
  -- the subscriber's data is read
  | read
  -- the artifact is in storage
  | written
  -- in the handler, with the artifact it has yet to clean up
  | failing (artifactKey : Option String) (message : String)
  | finished
  | skippedRace
  | lost

def subscriberErasedMessage (subscriberId : String) : String :=
  "Subscriber " ++ subscriberId ++ " has been erased and can no longer be exported"

def erasedWhileWritingMessage : String :=
  "Subscriber was erased while this export was being written — refusing to publish the artifact"

structure Subject where
  projectId : String
  subscriberId : String
  requestType : String → DsarType

def claimableIn (s : DsarState) (id : String) (now : ℤ) : Bool :=
  (s.requests.get? id).any (DsarRequest.claimable now)

def exportPlan (subject : Subject) (s : DsarState) (id : String) :
    ExportStage → DsarEvent → Option DsarWrite × ExportStage
  | .waiting, .next now =>
    if claimableIn s id now then (some (.claim id now), .claimed) else (none, .skippedRace)
  | .claimed, .next _ =>
    if s.deletedAt.isSome then
      (none, .failing none (subscriberErasedMessage subject.subscriberId))
    else (none, .read)
  | .read, .next _ => (some (.put (buildDsarExportStorageKey subject.projectId id)), .written)
  | .written, .next now =>
    let key := buildDsarExportStorageKey subject.projectId id
    -- the locked read of the subscriber, in the completing transaction
    if s.deletedAt.isSome then (none, .failing (some key) erasedWhileWritingMessage)
    else (some (.complete id (some key) (some (now + artifactTtlMs)) now), .finished)
  | .failing (some key) message, .next _ => (some (.delete key), .failing none message)
  | .failing none message, .next now => (some (.fail id message now), .finished)
  | .claimed, .throw message | .read, .throw message => (none, .failing none message)
  | .written, .throw message =>
    (none, .failing (some (buildDsarExportStorageKey subject.projectId id)) message)
  -- a failed cleanup is logged
  | .failing (some _) message, .throw _ => (none, .failing none message)
  | .waiting, .throw _ | .failing none _, .throw _ => (none, .lost)
  | .waiting, .crash | .claimed, .crash | .read, .crash | .written, .crash | .failing .., .crash =>
    (none, .lost)
  | t, _ => (none, t)

inductive ErasureStage where
  | waiting
  | claimed
  | anonymized
  -- with the artifacts still to delete, and the rows to invalidate after them
  | purging (rest : List String) (ids : List String)
  | purged
  -- past the analytics store
  | swept
  | failing (message : String)
  | finished
  | skippedRace
  | lost

def erasurePlan (s : DsarState) (id : String) :
    ErasureStage → DsarEvent → Option DsarWrite × ErasureStage
  | .waiting, .next now =>
    if claimableIn s id now then (some (.claim id now), .claimed) else (none, .skippedRace)
  | .claimed, .next now => (some (.anonymize now), .anonymized)
  | .anonymized, .next _ =>
    if s.findCompletedExportArtifacts = [] then (none, .purged)
    else (none, .purging (s.findCompletedExportArtifacts.map Prod.snd)
      (s.findCompletedExportArtifacts.map Prod.fst))
  | .purging (key :: rest) ids, .next _ => (some (.purge key), .purging rest ids)
  | .purging [] ids, .next now => (some (.invalidate ids now), .purged)
  | .purged, .next _ => (none, .swept)
  | .swept, .next now => (some (.complete id none none now), .finished)
  | .failing message, .next now => (some (.fail id message now), .finished)
  | .claimed, .throw message | .anonymized, .throw message | .purging .., .throw message
  | .purged, .throw message | .swept, .throw message => (none, .failing message)
  | .waiting, .throw _ | .failing _, .throw _ => (none, .lost)
  | .waiting, .crash | .claimed, .crash | .anonymized, .crash | .purging .., .crash
  | .purged, .crash | .swept, .crash | .failing _, .crash => (none, .lost)
  | t, _ => (none, t)

inductive DsarRun where
  | exportRun (id : String) (stage : ExportStage)
  | erasureRun (id : String) (stage : ErasureStage)

def DsarRun.plan (subject : Subject) (s : DsarState) (e : DsarEvent) :
    DsarRun → Option DsarWrite × DsarRun
  | .exportRun id stage =>
    ((exportPlan subject s id stage e).1, .exportRun id (exportPlan subject s id stage e).2)
  | .erasureRun id stage =>
    ((erasurePlan s id stage e).1, .erasureRun id (erasurePlan s id stage e).2)

structure NewRequest where
  id : String
  now : ℤ

def DsarState.create (subject : Subject) (s : DsarState) (new : NewRequest) : DsarState :=
  { s with
    requests := s.requests.insert new.id
      { type := subject.requestType new.id, updatedAt := new.now } }

def dsarSystem (subject : Subject) : System DsarState DsarRun DsarEvent NewRequest where
  step s t e := ((t.plan subject s e).1.elim s s.write, (t.plan subject s e).2)
  env := DsarState.create subject
  reset t _ := t

abbrev DsarWorld (ι : Type) := World ι DsarState DsarRun

def dsarStart {ι : Type} (run : ι → DsarRun) : DsarWorld ι := ⟨{}, run⟩

namespace DsarRun

def id : DsarRun → String
  | .exportRun id _ | .erasureRun id _ => id

def type : DsarRun → DsarType
  | .exportRun .. => .export
  | .erasureRun .. => .erasure

def waiting : DsarRun → Bool
  | .exportRun _ .waiting | .erasureRun _ .waiting => true
  | _ => false

def inProgress : DsarRun → Bool
  | .exportRun _ .waiting | .exportRun _ .finished | .exportRun _ .skippedRace | .exportRun _ .lost
  | .erasureRun _ .waiting | .erasureRun _ .finished | .erasureRun _ .skippedRace
  | .erasureRun _ .lost => false
  | _ => true

def lists : DsarRun → DsarEvent → Bool
  | .erasureRun _ .anonymized, .next _ => true
  | _, _ => false

def holds (subject : Subject) : DsarRun → Option String
  | .exportRun id .written => some (buildDsarExportStorageKey subject.projectId id)
  | .exportRun _ (.failing key _) => key
  | _ => none

def letsGo : DsarRun → DsarEvent → Bool
  | .exportRun _ .written, .crash => true
  | .exportRun _ (.failing (some _) _), .crash => true
  | .exportRun _ (.failing (some _) _), .throw _ => true
  | _, _ => false

def toPurge : DsarRun → List String
  | .erasureRun _ (.purging rest _) => rest
  | _ => []

end DsarRun

def dsarStatusAt (s : DsarState) (id : String) : Option DsarStatus :=
  (s.requests.get? id).map DsarRequest.status

def DsarState.erased (s : DsarState) : Prop :=
  ∃ id row, s.requests.get? id = some row ∧ row.type = .erasure ∧ row.status = .completed

variable {ι : Type}

/-- Once an erasure is completed and no run is in progress, no artifact is left. -/
def NoArtifactLeft (w : DsarWorld ι) : Prop :=
  w.shared.erased → (∀ i, (w.task i).inProgress = false) → w.shared.storage = []

def ArtifactsThere (s : DsarState) : Prop :=
  ∀ a ∈ s.findCompletedExportArtifacts, a.2 ∈ s.storage ∨ a.2 ∈ s.purged

/-- A completed request stays so. -/
def StaysFinished (s s' : DsarState) : Prop :=
  ∀ id, dsarStatusAt s id = some .completed → dsarStatusAt s' id = some .completed

def pendingWrite (subject : Subject) (w : DsarWorld ι) :
    Event ι DsarEvent NewRequest → Option DsarWrite
  | .act i e => ((w.task i).plan subject w.shared e).1
  | .env _ => none

/-- A run finds the request that it works on, and its artifact, as it left them. -/
def DsarWrite.Undisturbed (s : DsarState) : DsarWrite → Prop
  | .fail id _ _ => dsarStatusAt s id ≠ some .completed
  | .delete key => ∀ a ∈ s.findCompletedExportArtifacts, a.2 ≠ key
  | .complete _ artifactKey _ _ => ∀ key ∈ artifactKey, key ∈ s.storage
  | _ => True

def Accounted (subject : Subject) (w : DsarWorld ι) : Prop :=
  ∀ key ∈ w.shared.storage, (∃ a ∈ w.shared.findCompletedExportArtifacts, a.2 = key) ∨
    ∃ i, (w.task i).holds subject = some key

def ListsAll (subject : Subject) (w : DsarWorld ι) : Event ι DsarEvent NewRequest → Prop
  | .act i e => (w.task i).lists e = true → Accounted subject w
  | .env _ => True

def CleansUp (subject : Subject) (w : DsarWorld ι) : Event ι DsarEvent NewRequest → Prop
  | .act i e => ∀ key ∈ (w.task i).holds subject, w.shared.deletedAt.isSome = true →
    ((w.task i).plan subject w.shared e).2.holds subject ≠ some key →
      ((w.task i).plan subject w.shared e).1 = some (.delete key)
  | .env _ => True

structure Clean (subject : Subject) (w : DsarWorld ι) (ev : Event ι DsarEvent NewRequest) :
    Prop where
  undisturbed : ∀ write ∈ pendingWrite subject w ev, write.Undisturbed w.shared
  listsAll : ListsAll subject w ev
  cleansUp : CleansUp subject w ev

end Rovenue.Gdpr
