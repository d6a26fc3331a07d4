import Rovenue.Experiments.LifecycleCallers

/-! What one step of a request or a sweep may write, and what it has in hand before and after. -/

namespace Rovenue.Experiments

variable {s : LifecycleDb} {id : String} {e : LifecycleEvent} {t t' : LifecycleTask}

def LifecycleTask.known : LifecycleTask → Option (String × ExperimentRow)
  | .request id _ (.checked existing) => some (id, existing)
  | .sweep _ (.deciding c existing _) | .sweep _ (.decided c existing _ _) => some (c.1, existing)
  | _ => none

structure LifecycleTask.Free (t : LifecycleTask) : Prop where
  checks : t.checks = none
  known : t.known = none
  toStop : t.toStop = none
  inStop : t.inStop = none

/-- Nothing in hand that was not before, but for a claim. -/
structure LifecycleTask.Keeps (t t' : LifecycleTask) : Prop where
  checks : ∀ x, t'.checks = some x → t.checks = some x
  known : ∀ x, t'.known = some x → t.known = some x
  toStop : ∀ x, t'.toStop = some x → t.toStop = some x
  inStop : ∀ x, t'.inStop = some x → t.inStop = some x

theorem LifecycleTask.Free.keeps (h : t'.Free) : t.Keeps t' where
  checks _ hx := nomatch h.checks.symm.trans hx
  known _ hx := nomatch h.known.symm.trans hx
  toStop _ hx := nomatch h.toStop.symm.trans hx
  inStop _ hx := nomatch h.inStop.symm.trans hx

inductive LifecycleRequest.Sets : LifecycleRequest → ExperimentPatch → Prop
  | start (clock : ℤ) : Sets .start { status := some .running, startedAt := some clock }
  | pause : Sets .pause { status := some .paused }
  | resume : Sets .resume { status := some .running }

inductive LifecycleMove (s : LifecycleDb) :
    LifecycleTask → LifecycleEvent → Option LifecycleWrite → LifecycleTask → Prop
  | quiet {t t' : LifecycleTask} {e : LifecycleEvent} (hkeeps : t.Keeps t')
    (hholds : t'.holds = t.holds ∨ e.isNext = false ∨
      ∃ id, t.holds = some id ∧ s.experiments.get? id = none) :
    LifecycleMove s t e none t'
  | reads {t t' : LifecycleTask} {e : LifecycleEvent} {id : String} {existing : ExperimentRow}
    (hfound : s.experiments.get? id = some existing) (hknown : t'.known = some (id, existing))
    (hchecks : t'.checks = none ∨
      ∃ kind, t'.checks = some (id, kind) ∧ kind.accepts existing.status = true)
    (htoStop : t'.toStop = t.toStop) (hinStop : t'.inStop = none) (hholds : t'.holds = t.holds) :
    LifecycleMove s t e none t'
  | sets {t t' : LifecycleTask} {e : LifecycleEvent} {id : String} {kind : LifecycleRequest}
    {patch : ExperimentPatch} (hchecks : t.checks = some (id, kind)) (hsets : kind.Sets patch)
    (hfree : id ∉ s.locked) (hdone : t'.Free) (hholds : t'.holds = t.holds) :
    LifecycleMove s t e (some (.update id patch)) t'
  | deletes {t t' : LifecycleTask} {e : LifecycleEvent} {id : String}
    (hchecks : t.checks = some (id, .delete)) (hfree : id ∉ s.locked) (hdone : t'.Free)
    (hholds : t'.holds = t.holds) : LifecycleMove s t e (some (.delete id)) t'
  | claimsStart {t t' : LifecycleTask} {e : LifecycleEvent} {id : String} (now : ℤ)
    (hfree : id ∉ s.locked) (hdone : t'.Free) (hholds : t'.holds = t.holds) :
    LifecycleMove s t e (some (.claimStart id now)) t'
  | claims {t t' : LifecycleTask} {e : LifecycleEvent} {id : String} {now : ℤ}
    (hfree : id ∉ s.locked)
    (hdue : ((s.experiments.get? id).any fun exp => LifecycleDb.stopDue exp now) = true)
    (hnone : t.holds = none) (hholds : t'.holds = some id) (htoStop : t'.toStop = some id)
    (hchecks : t'.checks = none) (hknown : t'.known = none) (hinStop : t'.inStop = none) :
    LifecycleMove s t e (some (.claimStop id now)) t'
  | opens {t t' : LifecycleTask} {e : LifecycleEvent} {id : String} {tx : StopTx}
    {existing : ExperimentRow} {winner : Option String} (hknown : t.known = some (id, existing))
    (hright : (∃ kind, t.checks = some (id, .stop kind)) ∨ t.toStop = some id)
    (hfree : id ∉ s.locked) (hrow : (s.experiments.get? id).isSome)
    (hopen : s.openStop existing winner = some tx) (hinStop : t'.inStop = some (id, tx))
    (hchecks : t'.checks = none) (hnone : t'.known = none) (htoStop : t'.toStop = none)
    (hholds : t'.holds = t.holds) : LifecycleMove s t e (some (.lock id)) t'
  | commits {t t' : LifecycleTask} {id : String} {tx : StopTx} (clock : ℤ)
    (hinStop : t.inStop = some (id, tx)) (hheld : ∀ id', t.holds = some id' → id' = id)
    (hdone : t'.Free) : LifecycleMove s t (.next clock) (some (.stop id tx clock)) t'
  | abandons {t t' : LifecycleTask} {e : LifecycleEvent} {id : String} {tx : StopTx}
    (hinStop : t.inStop = some (id, tx)) (hother : e.isNext = false) (hdone : t'.Free) :
    LifecycleMove s t e (some (.unlock id)) t'
  | restores {t t' : LifecycleTask} {e : LifecycleEvent} {id : String} (end' : ℤ)
    (hheld : t.holds = some id) (hfree : id ∉ s.locked) (hdone : t'.Free) :
    LifecycleMove s t e (some (.update id { scheduledEndAt := some (some end') })) t'

theorem LifecycleMove.waits : LifecycleMove s t e none t :=
  .quiet ⟨fun _ h => h, fun _ h => h, fun _ h => h, fun _ h => h⟩ (.inl rfl)

theorem LifecycleMove.drops (hdone : t'.Free) (hholds : t'.holds = t.holds) :
    LifecycleMove s t e none t' := .quiet hdone.keeps (.inl hholds)

section Requests
variable {kind : LifecycleRequest} {existing : ExperimentRow} {tx : StopTx}

theorem requestPlan_waiting_next (clock : ℤ) :
    requestPlan s id kind .waiting (.next clock) =
      match s.experiments.get? id with
      | none => (none, .refused 404 experimentNotFound)
      | some existing =>
        if kind.accepts existing.status then (none, .checked existing)
        else (none, .refused 400 (kind.refusal existing.status)) := rfl

theorem requestPlan_checked_next (clock : ℤ) :
    requestPlan s id kind (.checked existing) (.next clock) =
      if id ∈ s.locked then (none, .checked existing)
      else if (s.experiments.get? id).isNone then (none, .refused 404 experimentNotFound)
      else match kind with
        | .start =>
          (some (.update id { status := some .running, startedAt := some clock }), .finished)
        | .pause => (some (.update id { status := some .paused }), .finished)
        | .resume => (some (.update id { status := some .running }), .finished)
        | .stop winnerVariantId =>
          match s.openStop existing winnerVariantId with
          | none => (none, .lost)
          | some tx => (some (.lock id), .stopping tx)
        | .delete => (some (.delete id), .finished) := rfl

theorem requestPlan_checked {clock : ℤ} :
    LifecycleMove s (.request id kind (.checked existing)) (.next clock)
      (requestPlan s id kind (.checked existing) (.next clock)).1
      (.request id kind (requestPlan s id kind (.checked existing) (.next clock)).2) := by
  rw [requestPlan_checked_next]
  split_ifs with hlocked hgone
  · exact .waits
  · exact .drops ⟨rfl, rfl, rfl, rfl⟩ rfl
  · have hrow : (s.experiments.get? id).isSome = true := by
      simpa [Option.isNone_iff_eq_none, Option.isSome_iff_ne_none] using hgone
    cases kind with
    | start => exact .sets rfl (.start clock) hlocked ⟨rfl, rfl, rfl, rfl⟩ rfl
    | pause => exact .sets rfl .pause hlocked ⟨rfl, rfl, rfl, rfl⟩ rfl
    | resume => exact .sets rfl .resume hlocked ⟨rfl, rfl, rfl, rfl⟩ rfl
    | delete => exact .deletes rfl hlocked ⟨rfl, rfl, rfl, rfl⟩ rfl
    | stop winnerVariantId =>
      simp only
      split
      · exact .drops ⟨rfl, rfl, rfl, rfl⟩ rfl
      · rename_i tx hopen
        exact .opens rfl (.inl ⟨_, rfl⟩) hlocked hrow hopen rfl rfl rfl rfl rfl

theorem requestPlan_moves {stage : RequestStage} :
    LifecycleMove s (.request id kind stage) e (requestPlan s id kind stage e).1
      (.request id kind (requestPlan s id kind stage e).2) := by
  cases stage with
  | waiting =>
    cases e with
    | next clock =>
      rw [requestPlan_waiting_next]
      split
      · exact .drops ⟨rfl, rfl, rfl, rfl⟩ rfl
      · rename_i existing hfound
        split_ifs with haccepts
        · exact .reads hfound rfl (.inr ⟨kind, rfl, haccepts⟩) rfl rfl rfl
        · exact .drops ⟨rfl, rfl, rfl, rfl⟩ rfl
    | fail | crash => exact .drops ⟨rfl, rfl, rfl, rfl⟩ rfl
    | decide => exact .waits
  | checked existing =>
    cases e with
    | next clock => exact requestPlan_checked
    | fail | crash => exact .drops ⟨rfl, rfl, rfl, rfl⟩ rfl
    | decide => exact .waits
  | stopping tx =>
    cases e with
    | next clock => exact .commits clock rfl nofun ⟨rfl, rfl, rfl, rfl⟩
    | fail | crash => exact .abandons rfl rfl ⟨rfl, rfl, rfl, rfl⟩
    | decide => exact .waits
  | _ => cases e <;> exact .waits

end Requests

section Sweeps
variable {now clock : ℤ} {c : StopCandidate} {rest : List StopCandidate} {ids : List String}
  {existing : ExperimentRow} {winner : Option String}

theorem sweepPlan_starts_cons :
    sweepPlan s now (.starts (id :: ids)) (.next clock) =
      if id ∈ s.locked then (none, .starts (id :: ids))
      else (some (.claimStart id now), .starts ids) := rfl

theorem sweepPlan_stops_cons :
    sweepPlan s now (.stops (c :: rest)) (.next clock) =
      if c.1 ∈ s.locked then (none, .stops (c :: rest))
      else if (s.experiments.get? c.1).any fun exp => LifecycleDb.stopDue exp now then
        (some (.claimStop c.1 now), .claimed c rest)
      else (none, .stops rest) := rfl

theorem sweepPlan_claimed_next :
    sweepPlan s now (.claimed c rest) (.next clock) =
      match s.experiments.get? c.1 with
      | none => (none, .stops rest)
      | some existing =>
        if existing.autoWinnerOnStop then (none, .deciding c existing rest)
        else (none, .decided c existing none rest) := rfl

theorem sweepPlan_decided_next :
    sweepPlan s now (.decided c existing winner rest) (.next clock) =
      if c.1 ∈ s.locked then (none, .decided c existing winner rest)
      else if (s.experiments.get? c.1).isNone then (none, .releasing c rest)
      else match s.openStop existing winner with
        | none => (none, .releasing c rest)
        | some tx => (some (.lock c.1), .stopping c tx rest) := rfl

theorem sweepPlan_releasing_next :
    sweepPlan s now (.releasing c rest) (.next clock) =
      if c.1 ∈ s.locked then (none, .releasing c rest)
      else (some (.update c.1 { scheduledEndAt := some (some c.2) }), .stops rest) := rfl

theorem sweepPlan_starts :
    LifecycleMove s (.sweep now (.starts ids)) e (sweepPlan s now (.starts ids) e).1
      (.sweep now (sweepPlan s now (.starts ids) e).2) := by
  cases ids with
  | nil =>
    cases e with
    | decide => exact .waits
    | _ => exact .drops ⟨rfl, rfl, rfl, rfl⟩ rfl
  | cons id rest =>
    cases e with
    | next clock =>
      rw [sweepPlan_starts_cons]
      split_ifs with hlocked
      · exact .waits
      · exact .claimsStart now hlocked ⟨rfl, rfl, rfl, rfl⟩ rfl
    | decide => exact .waits
    | _ => exact .drops ⟨rfl, rfl, rfl, rfl⟩ rfl

theorem sweepPlan_stops {cs : List StopCandidate} :
    LifecycleMove s (.sweep now (.stops cs)) e (sweepPlan s now (.stops cs) e).1
      (.sweep now (sweepPlan s now (.stops cs) e).2) := by
  cases cs with
  | nil =>
    cases e with
    | decide => exact .waits
    | _ => exact .drops ⟨rfl, rfl, rfl, rfl⟩ rfl
  | cons c rest =>
    cases e with
    | next clock =>
      rw [sweepPlan_stops_cons]
      split_ifs with hlocked hdue
      · exact .waits
      · exact .claims hlocked hdue rfl rfl rfl rfl rfl rfl
      · exact .drops ⟨rfl, rfl, rfl, rfl⟩ rfl
    | decide => exact .waits
    | _ => exact .drops ⟨rfl, rfl, rfl, rfl⟩ rfl

theorem sweepPlan_claimed :
    LifecycleMove s (.sweep now (.claimed c rest)) (.next clock)
      (sweepPlan s now (.claimed c rest) (.next clock)).1
      (.sweep now (sweepPlan s now (.claimed c rest) (.next clock)).2) := by
  rw [sweepPlan_claimed_next]
  split
  · rename_i hgone
    exact .quiet (LifecycleTask.Free.keeps ⟨rfl, rfl, rfl, rfl⟩) (.inr (.inr ⟨c.1, rfl, hgone⟩))
  · rename_i existing hfound
    split_ifs
    · exact .reads hfound rfl (.inl rfl) rfl rfl rfl
    · exact .reads hfound rfl (.inl rfl) rfl rfl rfl

theorem sweepPlan_decided :
    LifecycleMove s (.sweep now (.decided c existing winner rest)) (.next clock)
      (sweepPlan s now (.decided c existing winner rest) (.next clock)).1
      (.sweep now (sweepPlan s now (.decided c existing winner rest) (.next clock)).2) := by
  rw [sweepPlan_decided_next]
  split_ifs with hlocked hgone
  · exact .waits
  · exact .drops ⟨rfl, rfl, rfl, rfl⟩ rfl
  · have hrow : (s.experiments.get? c.1).isSome = true := by
      simpa [Option.isNone_iff_eq_none, Option.isSome_iff_ne_none] using hgone
    split
    · exact .drops ⟨rfl, rfl, rfl, rfl⟩ rfl
    · rename_i tx hopen
      exact .opens rfl (.inr rfl) hlocked hrow hopen rfl rfl rfl rfl rfl

theorem sweepPlan_releasing :
    LifecycleMove s (.sweep now (.releasing c rest)) (.next clock)
      (sweepPlan s now (.releasing c rest) (.next clock)).1
      (.sweep now (sweepPlan s now (.releasing c rest) (.next clock)).2) := by
  rw [sweepPlan_releasing_next]
  split_ifs with hlocked
  · exact .waits
  · exact .restores c.2 rfl hlocked ⟨rfl, rfl, rfl, rfl⟩

theorem LifecycleMove.loses (hdone : t'.Free) (hother : e.isNext = false) :
    LifecycleMove s t e none t' := .quiet hdone.keeps (.inr (.inl hother))

theorem sweepPlan_moves {stage : SweepStage} :
    LifecycleMove s (.sweep now stage) e (sweepPlan s now stage e).1
      (.sweep now (sweepPlan s now stage e).2) := by
  cases stage with
  | waiting =>
    cases e with
    | decide => exact .waits
    | _ => exact .drops ⟨rfl, rfl, rfl, rfl⟩ rfl
  | starts ids => exact sweepPlan_starts
  | stops cs => exact sweepPlan_stops
  | claimed c rest =>
    cases e with
    | next clock => exact sweepPlan_claimed
    | fail => exact .drops ⟨rfl, rfl, rfl, rfl⟩ rfl
    | crash => exact .loses ⟨rfl, rfl, rfl, rfl⟩ rfl
    | decide => exact .waits
  | deciding c existing rest =>
    cases e with
    | next clock => exact .waits
    | fail => exact .drops ⟨rfl, rfl, rfl, rfl⟩ rfl
    | crash => exact .loses ⟨rfl, rfl, rfl, rfl⟩ rfl
    | decide leading =>
      have hkeeps : (LifecycleTask.sweep now (.deciding c existing rest)).Keeps
          (.sweep now (.decided c existing leading rest)) :=
        { checks := fun _ h => by cases h
          known := fun _ h => h
          toStop := fun _ h => h
          inStop := fun _ h => by cases h }
      exact .quiet hkeeps (.inl rfl)
  | decided c existing winner rest =>
    cases e with
    | next clock => exact sweepPlan_decided
    | fail => exact .drops ⟨rfl, rfl, rfl, rfl⟩ rfl
    | crash => exact .loses ⟨rfl, rfl, rfl, rfl⟩ rfl
    | decide => exact .waits
  | stopping c tx rest =>
    cases e with
    | next clock =>
      exact .commits clock rfl (fun _ h => (Option.some.inj h).symm) ⟨rfl, rfl, rfl, rfl⟩
    | fail | crash => exact .abandons rfl rfl ⟨rfl, rfl, rfl, rfl⟩
    | decide => exact .waits
  | stopped c rest =>
    cases e with
    | decide => exact .waits
    | fail => exact .loses ⟨rfl, rfl, rfl, rfl⟩ rfl
    | _ => exact .drops ⟨rfl, rfl, rfl, rfl⟩ rfl
  | releasing c rest =>
    cases e with
    | next clock => exact sweepPlan_releasing
    | fail | crash => exact .loses ⟨rfl, rfl, rfl, rfl⟩ rfl
    | decide => exact .waits
  | _ => cases e <;> exact .waits

end Sweeps

theorem plan_moves : LifecycleMove s t e (t.plan s e).1 (t.plan s e).2 := by
  cases t with
  | request id kind stage => exact requestPlan_moves
  | sweep now stage => exact sweepPlan_moves

end Rovenue.Experiments
