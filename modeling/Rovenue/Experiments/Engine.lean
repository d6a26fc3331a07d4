import Rovenue.Experiments.Variants
import Rovenue.Threads.System

/-! `evaluateExperiments` for one subscriber, as the steps between its awaits. The bundle of
running experiments comes from a cache, so each call brings its own. -/

namespace Rovenue.Experiments
open Threads
open Txn (Table)

structure CachedExperiment (V : Type) where
  id : String
  key : String
  type : ExperimentType
  audienceId : String
  mutualExclusionGroup : Option String
  variants : List (Variant V)

structure ExperimentBundle (V Q : Type) (groupOf : String → Option String) where
  experiments : List (CachedExperiment V)
  audiences : Table String (Table String Q)
  holdoutPercentage : ℚ
  fixed : ∀ exp ∈ experiments, exp.mutualExclusionGroup = groupOf exp.id

structure ExperimentResult (V : Type) where
  experimentId : String
  key : String
  type : ExperimentType
  variantId : String
  variantName : String
  value : V

/-- `sift` evaluates a query document; `sha256Head` is the head of a digest as a number. -/
structure Library (A Q : Type) where
  sift : Table String Q → A → Bool
  sha256Head : String → ℕ

def holdoutBucketSeed : String := "__rovenue_holdout_seed__"

section Helpers
variable {A Q : Type} (lib : Library A Q)

def matchesAudience (attributes : A) (rules : Table String Q) : Bool :=
  rules.entries.isEmpty || lib.sift rules attributes

def assignBucket (subscriberId seed : String) : ℕ :=
  lib.sha256Head (subscriberId ++ ":" ++ seed) % bucketCount

def isInRollout (subscriberId seed : String) (percentage : ℚ) : Bool :=
  if percentage ≤ 0 then false
  else if percentage ≥ 1 then true
  else (assignBucket lib subscriberId seed : ℚ) < percentage * bucketCount

end Helpers

def namespaceOf (group : Option String) : Option String := group.filter (· ≠ "")

abbrev Assignments := Table String String

structure Evaluation (V : Type) where
  namespacesClaimed : Finset String
  results : Table String (ExperimentResult V) := .empty
  newAssignments : List (String × String) := []
  exposures : List String := []

section Loop
variable {A Q V : Type} {groupOf : String → Option String} (lib : Library A Q)
  (bundle : ExperimentBundle V Q groupOf) (subscriberId : String) (attributes : A)
  (assigned : Assignments)

def Evaluation.record (ev : Evaluation V) (exp : CachedExperiment V) (variant : Variant V) :
    Evaluation V :=
  let result := ⟨exp.id, exp.key, exp.type, variant.id, variant.name, variant.value⟩
  { ev with results := ev.results.set exp.key result }

def Evaluation.assign (ev : Evaluation V) (exp : CachedExperiment V) (variant : Variant V) :
    Evaluation V :=
  { ev with
    newAssignments := ev.newAssignments ++ [(exp.id, variant.id)]
    namespacesClaimed :=
      ev.namespacesClaimed ∪ (namespaceOf exp.mutualExclusionGroup).toFinset }

def isHeldOut : Bool :=
  bundle.holdoutPercentage > 0 &&
    isInRollout lib subscriberId holdoutBucketSeed (bundle.holdoutPercentage / 100)

def excluded (ev : Evaluation V) (exp : CachedExperiment V) : Bool :=
  (namespaceOf exp.mutualExclusionGroup).any (· ∈ ev.namespacesClaimed) &&
    (assigned.get? exp.id).isNone

def stickyVariant (exp : CachedExperiment V) : Option (Variant V) :=
  ((assigned.get? exp.id).filter (· ≠ "")).bind fun variantId =>
    exp.variants.find? fun v => v.id = variantId

def evaluateExperiment (ev : Evaluation V) (exp : CachedExperiment V) : Option (Evaluation V) :=
  match bundle.audiences.get? exp.audienceId with
  | none => some ev
  | some rules =>
    if !matchesAudience lib attributes rules then some ev
    else if isHeldOut lib bundle subscriberId then
      some { ev with exposures := ev.exposures ++ [exp.id] }
    else if excluded assigned ev exp then some ev
    else match stickyVariant assigned exp with
      | some variant => some (ev.record exp variant)
      | none => (selectVariant (assignBucket lib subscriberId exp.key) exp.variants).map
          fun variant => (ev.assign exp variant).record exp variant

def claimedBy (groupOf : String → Option String) (assigned : Assignments) : Finset String :=
  ((assigned.entries.map Prod.fst).filterMap fun id => namespaceOf (groupOf id)).toFinset

def evaluate : Option (Evaluation V) :=
  bundle.experiments.foldlM (evaluateExperiment lib bundle subscriberId attributes assigned)
    { namespacesClaimed := claimedBy groupOf assigned }

end Loop

def insertAssignmentsSkipDuplicates (assigned : Assignments) (rows : List (String × String)) :
    Assignments :=
  rows.foldl (fun t row => t.insert row.1 row.2) assigned

inductive Stage (V Q : Type) (groupOf : String → Option String) where
  | waiting
  | loaded (bundle : ExperimentBundle V Q groupOf)
  | publishing (exposures : List String) (ev : Evaluation V)
  | inserting (ev : Evaluation V)
  | returned (results : Table String (ExperimentResult V))
  | failed

structure Call (A V Q : Type) (groupOf : String → Option String) where
  attributes : A
  stage : Stage V Q groupOf := .waiting

structure Outside (V Q : Type) (groupOf : String → Option String) where
  bundle : ExperimentBundle V Q groupOf
  fault : Bool := false

variable {A V Q : Type} {groupOf : String → Option String}

def afterLoop (ev : Evaluation V) : Stage V Q groupOf :=
  if ev.newAssignments = [] then .returned ev.results else .inserting ev

def evaluateExperiments (lib : Library A Q) (subscriberId : String) (s : Assignments)
    (t : Call A V Q groupOf) (e : Outside V Q groupOf) : Assignments × Call A V Q groupOf :=
  match t.stage with
  | .waiting =>
    if e.fault then (s, { t with stage := .failed })
    else if e.bundle.experiments = [] then (s, { t with stage := .returned .empty })
    else (s, { t with stage := .loaded e.bundle })
  | .loaded bundle =>
    if e.fault then (s, { t with stage := .failed })
    else match evaluate lib bundle subscriberId t.attributes s with
      | none => (s, { t with stage := .failed })
      | some ev => (s, { t with stage := .publishing ev.exposures ev })
  -- an exposure that fails to publish is logged, and so is a batch that fails to insert
  | .publishing (_ :: exposures) ev => (s, { t with stage := .publishing exposures ev })
  | .publishing [] ev => (s, { t with stage := afterLoop ev })
  | .inserting ev =>
    ((if e.fault then s else insertAssignmentsSkipDuplicates s ev.newAssignments),
      { t with stage := .returned ev.results })
  | .returned _ | .failed => (s, t)

def experimentEngine (lib : Library A Q) (subscriberId : String) :
    System Assignments (Call A V Q groupOf) (Outside V Q groupOf) Empty where
  step := evaluateExperiments lib subscriberId
  env s _ := s
  reset t _ := t

end Rovenue.Experiments
