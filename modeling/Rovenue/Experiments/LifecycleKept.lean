import Rovenue.Experiments.LifecycleActs
import Rovenue.Experiments.LifecycleRows

/-! What holds of every run whose writes come in turn: the status moves along its edges, one stop
takes effect, and a scheduled end is not lost. What a request has checked, and what a sweep has
claimed, still holds at its write; the lock of a stop keeps the row for it up to the commit. -/

namespace Rovenue.Experiments
open Txn (Table)
open Threads

variable {s s₀ : LifecycleDb} {id : String} {exp exp' : ExperimentRow} {write : LifecycleWrite}
  {t t' : LifecycleTask} {e : LifecycleEvent}

structure StopOk (s₀ s : LifecycleDb) (id : String) (tx : StopTx) : Prop where
  lists : tx.Lists s id
  fresh : tx.Fresh s id
  same : ∃ exp₀, s₀.experiments.get? id = some exp₀ ∧ exp₀.SameAs tx.existing
  locked : id ∈ s.locked
  row : ∃ exp, s.experiments.get? id = some exp ∧ (exp.status = .running ∨ exp.status = .paused)

structure TaskOk (s₀ s : LifecycleDb) (t : LifecycleTask) : Prop where
  known : ∀ id existing, t.known = some (id, existing) →
    ∃ exp₀, s₀.experiments.get? id = some exp₀ ∧ exp₀.SameAs existing
  checks : ∀ id kind, t.checks = some (id, kind) → ∀ exp, s.experiments.get? id = some exp →
    kind.accepts exp.status = true
  toStop : ∀ id, t.toStop = some id → ∀ exp, s.experiments.get? id = some exp →
    exp.status = .running ∨ exp.status = .paused
  inStop : ∀ id tx, t.inStop = some (id, tx) → StopOk s₀ s id tx

theorem lists_of_openStop {existing : ExperimentRow} {winner : Option String} {tx : StopTx}
    (h : s.openStop existing winner = some tx) (id : String) :
    tx.existing = existing ∧ tx.Lists s id ∧ tx.Fresh s id := by
  unfold LifecycleDb.openStop at h
  simp only at h
  split_ifs at h
  obtain rfl := Option.some.inj h
  refine ⟨rfl, ?_⟩
  cases hwinner : winnerPaywallId existing winner with
  | none => exact ⟨⟨List.nodup_nil, nofun, fun hsome => by simp [hwinner] at hsome⟩, nofun⟩
  | some paywallId =>
    have hget : ∀ e ∈ s.listPlacements existing.projectId, s.placements.get? e.1 = some e.2 :=
      fun e he => s.placements.mem_entries.1 (List.mem_filter.1 he).1
    refine ⟨⟨s.placements.nodup.sublist (List.filter_sublist.map _), ?_, ?_⟩, ?_⟩
    · intro e he
      rw [hget e he]
      exact congrArg some (of_decide_eq_true (List.mem_filter.1 he).2)
    · intro _ pid p hrow hproject hshows
      exact ⟨p, List.mem_filter.2 ⟨s.placements.mem_entries.2 hrow, decide_eq_true hproject⟩, hshows⟩
    · intro e he _
      rw [hget e he]
      rfl

def NoneShown (s s' : LifecycleDb) : Prop :=
  ∀ pid, (s'.placements.get? pid).map Placement.projectId =
      (s.placements.get? pid).map Placement.projectId ∧
    ∀ p', s'.placements.get? pid = some p' → ∀ id, p'.shows id = true →
      ∃ p, s.placements.get? pid = some p ∧ p.projectId = p'.projectId ∧ p.shows id = true

theorem NoneShown.of_eq {s' : LifecycleDb} (h : s'.placements = s.placements) : NoneShown s s' := by
  intro pid
  rw [h]
  exact ⟨rfl, fun p' hget id hshows => ⟨p', hget, rfl, hshows⟩⟩

theorem shows_repoint {p : Placement} {id' paywallId : String} {rows : List PlacementRow}
    (hrows : rows = p.rows ∨ rows = p.repoint id' paywallId)
    (h : rows.any (fun row => decide (row.target = .experiment id)) = true) : p.shows id = true := by
  obtain rfl | rfl := hrows
  · exact h
  · obtain ⟨row', hrow', htarget⟩ := List.any_eq_true.1 h
    obtain ⟨row, hrow, rfl⟩ := List.mem_map.1 hrow'
    refine List.any_eq_true.2 ⟨row, hrow, ?_⟩
    unfold PlacementRow.repoint at htarget
    split_ifs at htarget
    · simp at htarget
    · exact htarget

theorem noneShown_stop {tx : StopTx} {completedAt : ℤ} (hlists : tx.Lists s id)
    (hfresh : tx.Fresh s id) :
    NoneShown s (s.write (.stop id tx completedAt)) := by
  intro pid
  have hcolumns : ((s.write (.stop id tx completedAt)).placements.get? pid).map Placement.columns =
      _ := columns_repointAll hlists hfresh pid
  cases hget : s.placements.get? pid with
  | none =>
    rw [hget, Option.map_none, Option.map_eq_none_iff] at hcolumns
    rw [hcolumns]
    exact ⟨rfl, nofun⟩
  | some p =>
    rw [hget] at hcolumns
    obtain ⟨p', hget', hp⟩ := Option.map_eq_some_iff.1 hcolumns
    obtain ⟨hproject, hrows⟩ := Prod.mk.inj hp
    rw [hget']
    refine ⟨congrArg some hproject, ?_⟩
    intro q hq id' hshows
    obtain rfl := Option.some.inj hq
    refine ⟨p, rfl, hproject.symm, ?_⟩
    cases hwinner : winnerPaywallId tx.existing tx.winnerVariantId with
    | none =>
      simp only [hwinner] at hrows
      have hrows' : p'.rows = p.rows ∨ p'.rows = p.repoint id "" := .inl hrows
      exact shows_repoint hrows' hshows
    | some paywallId =>
      simp only [hwinner] at hrows
      by_cases hsame : p.projectId = tx.existing.projectId
      · rw [if_pos hsame] at hrows
        exact shows_repoint (.inr hrows) hshows
      · rw [if_neg hsame] at hrows
        have hrows' : p'.rows = p.rows ∨ p'.rows = p.repoint id paywallId := .inl hrows
        exact shows_repoint hrows' hshows

theorem StopTx.Lists.mono {tx : StopTx} {s' : LifecycleDb} (h : tx.Lists s id)
    (hshown : NoneShown s s') : tx.Lists s' id where
  nodup := h.nodup
  project e he := (hshown e.1).1.trans (h.project e he)
  complete hwinner pid p' hget hproject hshows := by
    obtain ⟨p, hget, hsame, hshows⟩ := (hshown pid).2 p' hget id hshows
    exact h.complete hwinner pid p hget (hsame.trans hproject) hshows

theorem selectable_iff : Selectable s id ↔ ∃ exp, s.experiments.get? id = some exp ∧
    exp.status = .running ∧ exp.scheduledEndAt.isSome = true := by
  simp only [Selectable, LifecycleDb.findScheduledStopCandidates, List.mem_filterMap,
    List.mem_filter, LifecycleDb.stopDue]
  constructor
  · rintro ⟨now, end', ⟨id', exp⟩, ⟨hmem, hdue⟩, hend⟩
    obtain ⟨t, ht, hpair⟩ := Option.map_eq_some_iff.1 hend
    obtain rfl := (Prod.mk.inj hpair).1
    exact ⟨exp, s.experiments.mem_entries.1 hmem, of_decide_eq_true (Bool.and_eq_true_iff.1 hdue).1,
      Option.isSome_iff_exists.2 ⟨t, ht⟩⟩
  · rintro ⟨exp, hrow, hstatus, hend⟩
    obtain ⟨t, ht⟩ := Option.isSome_iff_exists.1 hend
    exact ⟨t, t, (id, exp), ⟨s.experiments.mem_entries.2 hrow, by simp [hstatus, ht]⟩, by simp [ht]⟩

theorem lifecycleInv_write (hinv : LifecycleInv s₀ s) (hin : write.InTime s)
    (hstop : ∀ id tx completedAt, write = .stop id tx completedAt → StopOk s₀ s id tx) :
    LifecycleInv s₀ (s.write write) ∧ NoneShown s (s.write write) := by
  have hhonoured : StopsHonoured s₀ (s.write write) ∧ NoneShown s (s.write write) := by
    cases write with
    | stop id tx completedAt =>
      have hok := hstop id tx completedAt rfl
      obtain ⟨exp₀, hrow₀, hsame⟩ := hok.same
      exact ⟨honoured_stop hinv hin hrow₀ hsame hok.lists hok.fresh,
        noneShown_stop hok.lists hok.fresh⟩
    | _ => exact ⟨honoured_write hinv hin rfl rfl, .of_eq rfl⟩
  refine ⟨⟨?_, ?_, hhonoured.1⟩, hhonoured.2⟩
  · exact fun id exp hrow => same_write hinv hrow
  · exact fun id exp hrow => winner_write hinv hin hrow

theorem sets_of_move {patch : ExperimentPatch}
    (hmove : LifecycleMove s t e (some (.update id patch)) t') :
    patch.scheduledEndAt ≠ some none ∧ patch.status ≠ some .completed := by
  cases hmove with
  | sets hchecks hsets hfree hdone hholds => cases hsets <;> exact ⟨nofun, nofun⟩
  | restores end' hheld hfree hdone => exact ⟨nofun, nofun⟩

theorem TaskOk.inTime (h : TaskOk s₀ s t) (hmove : LifecycleMove s t e (some write) t') :
    write.InTime s := by
  cases hmove with
  | sets hchecks hsets hfree hdone hholds =>
    intro exp hrow
    have haccepts := h.checks _ _ hchecks exp hrow
    cases hsets with
    | start clock =>
      have hdraft : exp.status = .draft := of_decide_eq_true haccepts
      rw [hdraft]
      rfl
    | pause =>
      have hrunning : exp.status = .running := of_decide_eq_true haccepts
      rw [hrunning]
      rfl
    | resume =>
      have hpaused : exp.status = .paused := of_decide_eq_true haccepts
      rw [hpaused]
      rfl
  | deletes hchecks hfree hdone hholds =>
    exact fun exp hrow => of_decide_eq_true (h.checks _ _ hchecks exp hrow)
  | claimsStart => exact trivial
  | claims => exact trivial
  | opens => exact trivial
  | commits clock hinStop hheld hdone => exact (h.inStop _ _ hinStop).row
  | abandons => exact trivial
  | restores end' hheld hfree hdone => exact fun exp _ => canBecome_self exp.status

theorem TaskOk.stopOk (h : TaskOk s₀ s t) {tx : StopTx} {completedAt : ℤ}
    (hmove : LifecycleMove s t e (some (.stop id tx completedAt)) t') : StopOk s₀ s id tx := by
  cases hmove with
  | commits clock hinStop hheld hdone => exact h.inStop _ _ hinStop

theorem TaskOk.of_free {s' : LifecycleDb} (h : t.Free) : TaskOk s₀ s' t where
  known _ _ hx := nomatch h.known.symm.trans hx
  checks _ _ hx := nomatch h.checks.symm.trans hx
  toStop _ hx := nomatch h.toStop.symm.trans hx
  inStop _ _ hx := nomatch h.inStop.symm.trans hx

theorem running_of_claimed {now : ℤ}
    (hdue : ((s.experiments.get? id).any fun exp => LifecycleDb.stopDue exp now) = true)
    (hrow : (s.write (.claimStop id now)).experiments.get? id = some exp') :
    exp'.status = .running := by
  obtain ⟨exp, hbefore, hafter⟩ := exists_onRow hrow
  have hmoved : (LifecycleWrite.claimStop id now).moved s ≠ some id := nofun
  obtain ⟨exp'', hsame, hstatus⟩ := onRow_of_not_moved hbefore hmoved
  obtain rfl := Option.some.inj (hsame.symm.trans hafter)
  rw [hbefore] at hdue
  exact hstatus.trans (of_decide_eq_true (Bool.and_eq_true_iff.1 hdue).1)

theorem TaskOk.own (h : TaskOk s₀ s t) (hdb : LifecycleInv s₀ s)
    {write : Option LifecycleWrite} (hmove : LifecycleMove s t e write t') :
    TaskOk s₀ (s.writeAll write) t' := by
  cases hmove with
  | quiet hkeeps hholds =>
    exact ⟨fun _ _ hx => h.known _ _ (hkeeps.known _ hx),
      fun _ _ hx => h.checks _ _ (hkeeps.checks _ hx), fun _ hx => h.toStop _ (hkeeps.toStop _ hx),
      fun _ _ hx => h.inStop _ _ (hkeeps.inStop _ hx)⟩
  | @reads _ _ id existing hfound hknown hchecks htoStop hinStop hholds =>
    refine ⟨?_, ?_, fun _ hx => h.toStop _ (htoStop.symm.trans hx),
      fun _ _ hx => (nomatch hinStop.symm.trans hx)⟩
    · intro id' existing' hx
      obtain ⟨rfl, rfl⟩ := Prod.mk.inj (Option.some.inj (hknown.symm.trans hx))
      exact hdb.same _ _ hfound
    · intro id' kind' hx exp hrow
      obtain hnone | ⟨kind, hsome, haccepts⟩ := hchecks
      · cases hnone.symm.trans hx
      · obtain ⟨rfl, rfl⟩ := Prod.mk.inj (Option.some.inj (hsome.symm.trans hx))
        obtain rfl := Option.some.inj (hfound.symm.trans hrow)
        exact haccepts
  | sets hchecks hsets hfree hdone hholds => exact .of_free hdone
  | deletes hchecks hfree hdone hholds => exact .of_free hdone
  | claimsStart now hfree hdone hholds => exact .of_free hdone
  | commits clock hinStop hheld hdone => exact .of_free hdone
  | abandons hinStop hother hdone => exact .of_free hdone
  | restores end' hheld hfree hdone => exact .of_free hdone
  | claims hfree hdue hnone hholds htoStop hchecks hknown hinStop =>
    refine ⟨fun _ _ hx => (nomatch hknown.symm.trans hx),
      fun _ _ hx => (nomatch hchecks.symm.trans hx), ?_,
      fun _ _ hx => (nomatch hinStop.symm.trans hx)⟩
    intro id' hx exp' hrow
    obtain rfl := Option.some.inj (htoStop.symm.trans hx)
    exact .inl (running_of_claimed hdue hrow)
  | @opens _ _ id tx existing winner hknown hright hfree hrow hopen hinStop hchecks hnone htoStop
      hholds =>
    refine ⟨fun _ _ hx => (nomatch hnone.symm.trans hx),
      fun _ _ hx => (nomatch hchecks.symm.trans hx),
      fun _ hx => (nomatch htoStop.symm.trans hx), ?_⟩
    intro id' tx' hx
    obtain ⟨rfl, rfl⟩ := Prod.mk.inj (Option.some.inj (hinStop.symm.trans hx))
    obtain ⟨rfl, hlists, hfresh⟩ := lists_of_openStop hopen id
    obtain ⟨exp, hexp⟩ := Option.isSome_iff_exists.1 hrow
    refine ⟨⟨hlists.nodup, hlists.project, hlists.complete⟩, hfresh, h.known _ _ hknown,
      List.mem_cons_self .., exp, hexp, ?_⟩
    obtain ⟨winner', hstop⟩ | hclaimed := hright
    · have haccepts := h.checks _ _ hstop exp hexp
      simpa [LifecycleRequest.accepts] using haccepts
    · exact h.toStop _ hclaimed exp hexp

theorem open_of_canBecome {a b : ExperimentStatus} (h : a.canBecome b = true)
    (ha : a = .running ∨ a = .paused) (hb : b ≠ .completed) : b = .running ∨ b = .paused := by
  obtain rfl | rfl := ha <;> cases b <;> simp_all [ExperimentStatus.canBecome]

theorem stop_of_completed (hrow : s.experiments.get? id = some exp)
    (hset : ∀ id patch, write = .update id patch → patch.status ≠ some .completed)
    (h : write.onRow s id exp = some exp') (hbefore : exp.status ≠ .completed)
    (hafter : exp'.status = .completed) : ∃ tx completedAt, write = .stop id tx completedAt := by
  by_cases hmoved : write.moved s = some id
  swap
  · obtain ⟨found, hfound, hstatus⟩ := onRow_of_not_moved hrow hmoved
    obtain rfl := Option.some.inj (hfound.symm.trans h)
    exact absurd (hstatus.symm.trans hafter) hbefore
  cases write with
  | update id' patch =>
    simp only [LifecycleWrite.moved] at hmoved
    split_ifs at hmoved with hsome
    obtain rfl := Option.some.inj hmoved
    obtain rfl := Option.some.inj h
    rw [if_pos rfl] at hafter
    obtain ⟨status, hstatus⟩ := Option.isSome_iff_exists.1 hsome
    refine absurd ?_ (hset _ patch rfl)
    rw [hstatus]
    simpa [ExperimentPatch.apply, hstatus] using hafter
  | claimStart id' now =>
    obtain rfl := Option.some.inj h
    split_ifs at hafter
    exact absurd hafter hbefore
  | delete id' =>
    obtain rfl := Option.some.inj hmoved
    cases (if_pos rfl).symm.trans h
  | stop id' tx completedAt =>
    obtain rfl := Option.some.inj hmoved
    exact ⟨tx, completedAt, rfl⟩
  | _ => cases hmoved

theorem get?_placements_write {pid : String}
    (h : ∀ stop ∈ write.stops, pid ∉ stop.2.rewrites stop.1) :
    (s.write write).placements.get? pid = s.placements.get? pid := by
  cases write with
  | stop id tx completedAt => exact get?_repointAll_of_not_mem (h _ rfl) s.placements
  | _ => rfl

theorem TaskOk.other (h : TaskOk s₀ s t) (hin : write.InTime s)
    (hset : ∀ id patch, write = .update id patch → patch.status ≠ some .completed)
    (hshown : NoneShown s (s.write write))
    (hrequests : ∀ id ∈ write.moved s, t.checks.map Prod.fst ≠ some id)
    (hclaims : ∀ stop ∈ write.stops, t.toStop ≠ some stop.1)
    (hplacements : ∀ stop ∈ write.stops, ∀ other ∈ t.inStop,
      ∀ pid ∈ stop.2.rewrites stop.1, pid ∉ other.2.rewrites other.1)
    (hlocks : ∀ id tx, t.inStop = some (id, tx) →
      write.moved s ≠ some id ∧ id ∈ (s.write write).locked) :
    TaskOk s₀ (s.write write) t where
  known := h.known
  checks id kind hx exp' hrow' := by
    obtain ⟨exp, hrow, hafter⟩ := exists_onRow hrow'
    have hmoved : write.moved s ≠ some id := fun hmoved => hrequests id hmoved (by rw [hx]; rfl)
    obtain ⟨found, hfound, hstatus⟩ := onRow_of_not_moved hrow hmoved
    obtain rfl := Option.some.inj (hfound.symm.trans hafter)
    rw [hstatus]
    exact h.checks id kind hx exp hrow
  toStop id hx exp' hrow' := by
    obtain ⟨exp, hrow, hafter⟩ := exists_onRow hrow'
    have hopen := h.toStop id hx exp hrow
    refine open_of_canBecome (onRow_status hrow hin hafter) hopen fun hdone => ?_
    have hbefore : exp.status ≠ .completed := by
      obtain hstatus | hstatus := hopen <;> rw [hstatus] <;> nofun
    obtain ⟨tx, completedAt, rfl⟩ := stop_of_completed hrow hset hafter hbefore hdone
    exact hclaims _ rfl hx
  inStop id tx hx := by
    have hok := h.inStop id tx hx
    obtain ⟨hmoved, hlocked⟩ := hlocks id tx hx
    refine ⟨hok.lists.mono hshown, ?_, hok.same, hlocked, ?_⟩
    · intro e he hshows
      have hpid : e.1 ∈ tx.rewrites id := List.mem_map.2 ⟨e, List.mem_filter.2 ⟨he, hshows⟩, rfl⟩
      rw [get?_placements_write fun stop hstop hmem =>
        hplacements stop hstop (id, tx) hx e.1 hmem hpid]
      exact hok.fresh e he hshows
    · obtain ⟨exp, hrow, hopen⟩ := hok.row
      obtain ⟨exp', hafter, hstatus⟩ := onRow_of_not_moved hrow hmoved
      refine ⟨exp', ?_, hstatus.symm ▸ hopen⟩
      rw [get?_write, hrow]
      exact hafter

variable {ι : Type}

structure Kept (s₀ : LifecycleDb) (w : LifecycleWorld ι) : Prop where
  db : LifecycleInv s₀ w.shared
  tasks : ∀ i, TaskOk s₀ w.shared (w.task i)
  -- one transaction at a time stops an experiment
  alone : ∀ i j id tx tx', (w.task i).inStop = some (id, tx) →
    (w.task j).inStop = some (id, tx') → i = j
  ends : ∀ id, hasEnd s₀ id = true → ∀ exp, w.shared.experiments.get? id = some exp →
    exp.status = .completed ∨ exp.scheduledEndAt.isSome = true ∨ ∃ j, (w.task j).holds = some id

variable {w : LifecycleWorld ι} {i j : ι}

theorem locked_of_move (h : Kept s₀ w) (hj : j ≠ i)
    (hmove : LifecycleMove w.shared (w.task i) e (some write) t') {tx : StopTx}
    (hx : (w.task j).inStop = some (id, tx)) :
    write.moved w.shared ≠ some id ∧ id ∈ (w.shared.write write).locked := by
  have hlocked := ((h.tasks j).inStop id tx hx).locked
  have hne : ∀ {id'}, id' ∉ w.shared.locked → id' ≠ id := fun hfree heq => hfree (heq ▸ hlocked)
  have hapart : ∀ {id' tx'}, (w.task i).inStop = some (id', tx') → id' ≠ id := by
    intro id' tx' hown heq
    subst heq
    exact hj (h.alone j i _ _ _ hx hown)
  cases hmove with
  | sets hchecks hsets hfree hdone hholds =>
    refine ⟨fun hmoved => ?_, hlocked⟩
    simp only [LifecycleWrite.moved] at hmoved
    split_ifs at hmoved
    exact hne hfree (Option.some.inj hmoved)
  | deletes hchecks hfree hdone hholds =>
    exact ⟨fun hmoved => hne hfree (Option.some.inj hmoved), hlocked⟩
  | claimsStart now hfree hdone hholds =>
    refine ⟨fun hmoved => ?_, hlocked⟩
    simp only [LifecycleWrite.moved] at hmoved
    split_ifs at hmoved
    exact hne hfree (Option.some.inj hmoved)
  | claims => exact ⟨by simp [LifecycleWrite.moved], hlocked⟩
  | opens => exact ⟨by simp [LifecycleWrite.moved], List.mem_cons_of_mem _ hlocked⟩
  | commits clock hinStop hheld hdone =>
    refine ⟨fun hmoved => hapart hinStop (Option.some.inj hmoved), ?_⟩
    exact List.mem_filter.2 ⟨hlocked, decide_eq_true (hapart hinStop).symm⟩
  | abandons hinStop hother hdone =>
    exact ⟨by simp [LifecycleWrite.moved],
      List.mem_filter.2 ⟨hlocked, decide_eq_true (hapart hinStop).symm⟩⟩
  | restores => exact ⟨by simp [LifecycleWrite.moved], hlocked⟩

theorem db_next (h : Kept s₀ w) :
    LifecycleInv s₀ (w.shared.writeAll ((w.task i).plan w.shared e).1) ∧
      NoneShown w.shared (w.shared.writeAll ((w.task i).plan w.shared e).1) := by
  have hmove := plan_moves (s := w.shared) (t := w.task i) (e := e)
  cases hwrite : ((w.task i).plan w.shared e).1 with
  | none => exact ⟨h.db, .of_eq rfl⟩
  | some write =>
    rw [hwrite] at hmove
    refine lifecycleInv_write h.db ((h.tasks i).inTime hmove) ?_
    intro id tx completedAt hstop
    subst hstop
    exact (h.tasks i).stopOk hmove

theorem tasks_next [DecidableEq ι] (h : Kept s₀ w) (hturn : InTurn w i e) (j : ι) :
    TaskOk s₀ (w.shared.writeAll ((w.task i).plan w.shared e).1)
      (Function.update w.task i ((w.task i).plan w.shared e).2 j) := by
  have hmove := plan_moves (s := w.shared) (t := w.task i) (e := e)
  by_cases hj : j = i
  · subst hj
    rw [Function.update_self]
    exact (h.tasks j).own h.db hmove
  · rw [Function.update_of_ne hj]
    have hshown := (db_next (i := i) (e := e) h).2
    cases hwrite : ((w.task i).plan w.shared e).1 with
    | none => exact h.tasks j
    | some write =>
      rw [hwrite] at hmove hshown
      have hcalm := hturn.writes write hwrite
      refine (h.tasks j).other ((h.tasks i).inTime hmove) ?_ hshown
        (fun id hid => hcalm.requests id hid j hj) (fun stop hs => hcalm.claims stop hs j hj)
        (fun stop hs => hcalm.placements stop hs j hj) fun id tx hx => locked_of_move h hj hmove hx
      intro id patch hupdate
      subst hupdate
      exact (sets_of_move hmove).2

theorem inStop_of_move {write : Option LifecycleWrite} {tx : StopTx}
    (hmove : LifecycleMove s t e write t') (hx : t'.inStop = some (id, tx)) :
    t.inStop = some (id, tx) ∨ id ∉ s.locked := by
  cases hmove with
  | quiet hkeeps hholds => exact .inl (hkeeps.inStop _ hx)
  | opens hknown hright hfree hrow hopen hinStop hchecks hnone htoStop hholds =>
    obtain ⟨rfl, rfl⟩ := Prod.mk.inj (Option.some.inj (hinStop.symm.trans hx))
    exact .inr hfree
  | reads hfound hknown hchecks htoStop hinStop hholds => cases hinStop.symm.trans hx
  | claims hfree hdue hnone hholds htoStop hchecks hknown hinStop => cases hinStop.symm.trans hx
  | sets hchecks hsets hfree hdone hholds => cases hdone.inStop.symm.trans hx
  | deletes hchecks hfree hdone hholds => cases hdone.inStop.symm.trans hx
  | claimsStart now hfree hdone hholds => cases hdone.inStop.symm.trans hx
  | commits clock hinStop hheld hdone => cases hdone.inStop.symm.trans hx
  | abandons hinStop hother hdone => cases hdone.inStop.symm.trans hx
  | restores end' hheld hfree hdone => cases hdone.inStop.symm.trans hx

theorem alone_next [DecidableEq ι] (h : Kept s₀ w) (j k : ι) (id : String) (tx tx' : StopTx)
    (hj : (Function.update w.task i ((w.task i).plan w.shared e).2 j).inStop = some (id, tx))
    (hk : (Function.update w.task i ((w.task i).plan w.shared e).2 k).inStop = some (id, tx')) :
    j = k := by
  have hmove := plan_moves (s := w.shared) (t := w.task i) (e := e)
  -- the step's own caller against one that was in its transaction already
  have hother : ∀ l tx tx', l ≠ i → (w.task l).inStop = some (id, tx) →
      ((w.task i).plan w.shared e).2.inStop = some (id, tx') → False := by
    intro l tx tx' hl hx hx'
    obtain hbefore | hfree := inStop_of_move hmove hx'
    · exact hl (h.alone l i _ _ _ hx hbefore)
    · exact hfree ((h.tasks l).inStop _ _ hx).locked
  by_cases hji : j = i <;> by_cases hki : k = i
  · rw [hji, hki]
  · subst hji
    rw [Function.update_self] at hj
    rw [Function.update_of_ne hki] at hk
    exact (hother k _ _ hki hk hj).elim
  · subst hki
    rw [Function.update_self] at hk
    rw [Function.update_of_ne hji] at hj
    exact (hother j _ _ hji hj hk).elim
  · rw [Function.update_of_ne hji] at hj
    rw [Function.update_of_ne hki] at hk
    exact h.alone j k _ _ _ hj hk

theorem holds_of_move {write : Option LifecycleWrite} (hmove : LifecycleMove s t e write t')
    (hheld : t.holds = some id) :
    t'.holds = some id ∨ e.isNext = false ∨ s.experiments.get? id = none ∨
      (∃ tx completedAt, write = some (.stop id tx completedAt)) ∨
        ∃ end', write = some (.update id { scheduledEndAt := some (some end') }) := by
  cases hmove with
  | quiet hkeeps hholds =>
    obtain hsame | hother | ⟨id', hheld', hgone⟩ := hholds
    · exact .inl (hsame.trans hheld)
    · exact .inr (.inl hother)
    · obtain rfl := Option.some.inj (hheld'.symm.trans hheld)
      exact .inr (.inr (.inl hgone))
  | reads hfound hknown hchecks htoStop hinStop hholds => exact .inl (hholds.trans hheld)
  | sets hchecks hsets hfree hdone hholds => exact .inl (hholds.trans hheld)
  | deletes hchecks hfree hdone hholds => exact .inl (hholds.trans hheld)
  | claimsStart now hfree hdone hholds => exact .inl (hholds.trans hheld)
  | claims hfree hdue hnone hholds htoStop hchecks hknown hinStop => cases hnone.symm.trans hheld
  | opens hknown hright hfree hrow hopen hinStop hchecks hnone htoStop hholds =>
    exact .inl (hholds.trans hheld)
  | commits clock hinStop hcommits hdone =>
    obtain rfl := hcommits id hheld
    exact .inr (.inr (.inr (.inl ⟨_, _, rfl⟩)))
  | abandons hinStop hother hdone => exact .inr (.inl hother)
  | restores end' hheld' hfree hdone =>
    obtain rfl := Option.some.inj (hheld'.symm.trans hheld)
    exact .inr (.inr (.inr (.inr ⟨end', rfl⟩)))

theorem end_after (hmove : LifecycleMove s t e (some write) t')
    (hafter : write.onRow s id exp = some exp') (hend : exp.scheduledEndAt.isSome = true) :
    exp'.scheduledEndAt.isSome = true ∨ t'.holds = some id := by
  by_cases hclaim : ∃ now, write = .claimStop id now
  · obtain ⟨now, rfl⟩ := hclaim
    cases hmove with
    | claims hfree hdue hnone hholds htoStop hchecks hknown hinStop => exact .inr hholds
  · left
    refine onRow_end hafter ?_ (fun now hwas => absurd ⟨now, hwas⟩ hclaim) hend
    intro id' patch hwas
    subst hwas
    exact (sets_of_move hmove).1

theorem end_of_released (hturn : InTurn w i e)
    (hmove : LifecycleMove w.shared (w.task i) e ((w.task i).plan w.shared e).1
      ((w.task i).plan w.shared e).2)
    (hheld : (w.task i).holds = some id) (hlost : ((w.task i).plan w.shared e).2.holds ≠ some id)
    (hrow : w.shared.experiments.get? id = some exp) (hopen : exp.status ≠ .completed)
    (hrow' : (w.shared.writeAll ((w.task i).plan w.shared e).1).experiments.get? id = some exp') :
    exp'.status = .completed ∨ exp'.scheduledEndAt.isSome = true := by
  have hnext : e.isNext = true := by
    refine hturn.keeps id hheld hlost exp.status ?_ hopen
    rw [statusAt, hrow]
    rfl
  obtain hsame | hother | hgone | ⟨tx, completedAt, hstop⟩ | ⟨end', hupdate⟩ :=
    holds_of_move hmove hheld
  · exact absurd hsame hlost
  · rw [hnext] at hother
    cases hother
  · rw [hrow] at hgone
    cases hgone
  · rw [hstop, LifecycleDb.writeAll_some] at hrow'
    obtain ⟨found, hfound, hafter⟩ := exists_onRow hrow'
    obtain rfl := Option.some.inj hafter
    rw [if_pos rfl]
    exact .inl rfl
  · rw [hupdate, LifecycleDb.writeAll_some] at hrow'
    obtain ⟨found, hfound, hafter⟩ := exists_onRow hrow'
    obtain rfl := Option.some.inj hafter
    rw [if_pos rfl]
    exact .inr rfl

theorem ends_next [DecidableEq ι] (h : Kept s₀ w) (hturn : InTurn w i e)
    (hend : hasEnd s₀ id = true)
    (hrow' : (w.shared.writeAll ((w.task i).plan w.shared e).1).experiments.get? id = some exp') :
    exp'.status = .completed ∨ exp'.scheduledEndAt.isSome = true ∨
      ∃ j, (Function.update w.task i ((w.task i).plan w.shared e).2 j).holds = some id := by
  have hmove := plan_moves (s := w.shared) (t := w.task i) (e := e)
  have hown : ((w.task i).plan w.shared e).2.holds = some id →
      ∃ j, (Function.update w.task i ((w.task i).plan w.shared e).2 j).holds = some id := by
    intro hheld
    exact ⟨i, by rwa [Function.update_self]⟩
  obtain ⟨exp, hrow, hkeeps⟩ : ∃ exp, w.shared.experiments.get? id = some exp ∧
      (exp.status = .completed → exp'.status = .completed) ∧
      (exp.scheduledEndAt.isSome = true → exp'.scheduledEndAt.isSome = true ∨
        ((w.task i).plan w.shared e).2.holds = some id) := by
    cases hwrite : ((w.task i).plan w.shared e).1 with
    | none =>
      rw [hwrite] at hrow'
      exact ⟨exp', hrow', fun hdone => hdone, .inl⟩
    | some write =>
      rw [hwrite] at hrow' hmove
      obtain ⟨exp, hrow, hafter⟩ := exists_onRow hrow'
      have hstatus := onRow_status hrow ((h.tasks i).inTime hmove) hafter
      exact ⟨exp, hrow, canBecome_of_completed hstatus, end_after hmove hafter⟩
  by_cases hdone : exp.status = .completed
  · exact .inl (hkeeps.1 hdone)
  obtain hcompleted | hsome | ⟨j, hheld⟩ := h.ends id hend exp hrow
  · exact absurd hcompleted hdone
  · exact .inr ((hkeeps.2 hsome).imp_right hown)
  · by_cases hj : j = i
    · subst hj
      by_cases hlost : ((w.task j).plan w.shared e).2.holds = some id
      · exact .inr (.inr (hown hlost))
      · exact (end_of_released hturn hmove hheld hlost hrow hdone hrow').imp_right .inl
    · exact .inr (.inr ⟨j, by rwa [Function.update_of_ne hj]⟩)

theorem kept_next [DecidableEq ι] {ev : Event ι LifecycleEvent Empty} (h : Kept s₀ w)
    (hturn : StepInTurn w ev) : Kept s₀ (lifecycleSystem.next w ev) := by
  cases ev with
  | env d => exact nomatch d
  | act i e =>
    exact ⟨(db_next h).1, tasks_next h hturn, alone_next h,
      fun id hend exp' hrow' => ends_next h hturn hend hrow'⟩

theorem endKept_of_kept (h : Kept s₀ w) : EndKept s₀ w := by
  intro id hend status hat
  obtain ⟨exp, hrow, rfl⟩ := Option.map_eq_some_iff.1 hat
  by_cases hrunning : exp.status = .running
  · right
    obtain hdone | hsome | hheld := h.ends id hend exp hrow
    · rw [hrunning] at hdone
      cases hdone
    · exact .inl (selectable_iff.2 ⟨exp, hrow, hrunning, hsome⟩)
    · exact .inr hheld
  · exact .inl hrunning

/-- No stop yet: only a completed experiment has a winner. -/
structure Unstopped (s : LifecycleDb) : Prop where
  stops : s.stops = []
  winner : ∀ id exp, s.experiments.get? id = some exp → exp.status ≠ .completed →
    exp.winnerVariantId = none

theorem afterStops_of_unstopped (h : s.stops = []) (projectId : String) (row : PlacementRow) :
    row.afterStops s projectId = row := by
  have hnone : ∀ id, s.stoppedPaywall projectId id = none := by
    intro id
    rw [LifecycleDb.stoppedPaywall, h]
    rfl
  unfold PlacementRow.afterStops
  split
  · rw [hnone]
  · rfl

theorem free_of_waiting (h : t.waiting) : t.Free := by
  cases t with
  | request id kind stage =>
    obtain rfl : stage = .waiting := h
    exact ⟨rfl, rfl, rfl, rfl⟩
  | sweep now stage =>
    obtain rfl : stage = .waiting := h
    exact ⟨rfl, rfl, rfl, rfl⟩

theorem kept_init (hdb : Unstopped s₀) {task : ι → LifecycleTask}
    (hwaiting : ∀ i, (task i).waiting) : Kept s₀ ⟨s₀, task⟩ where
  db :=
    { same := fun id exp hrow => ⟨exp, hrow, rfl, rfl, rfl⟩
      winner := hdb.winner
      honoured :=
        { once := by simp [hdb.stops]
          stored := by simp [hdb.stops]
          repointed := fun pid => by
            have hrows : ∀ projectId, PlacementRow.afterStops s₀ projectId = id := fun projectId =>
              funext (afterStops_of_unstopped hdb.stops projectId)
            simp only [hrows, List.map_id]
            rfl } }
  tasks i := .of_free (free_of_waiting (hwaiting i))
  alone i _ _ _ _ hi _ := nomatch (free_of_waiting (hwaiting i)).inStop.symm.trans hi
  ends id hend exp hrow := by
    rw [hasEnd, hrow] at hend
    exact .inr (.inl hend)

theorem statusMoves_next [DecidableEq ι] {ev : Event ι LifecycleEvent Empty} (h : Kept s₀ w)
    (id : String) :
    StatusMoves (statusAt w.shared id) (statusAt (lifecycleSystem.next w ev).shared id) := by
  cases ev with
  | env d => exact nomatch d
  | act i e =>
    have hmove := plan_moves (s := w.shared) (t := w.task i) (e := e)
    show StatusMoves _ (statusAt (w.shared.writeAll ((w.task i).plan w.shared e).1) id)
    cases hwrite : ((w.task i).plan w.shared e).1 with
    | none =>
      show StatusMoves (statusAt w.shared id) (statusAt w.shared id)
      cases statusAt w.shared id with
      | none => rfl
      | some status => exact canBecome_self status
    | some write =>
      rw [hwrite] at hmove
      exact statusMoves_write ((h.tasks i).inTime hmove)

/-- Where no write comes between another caller's look and its write, and no sweep dies with a
claim in hand, a run keeps the lifecycle: every status moves along the edges, each experiment is
stopped once and for its stored winner, and no scheduled end is lost. -/
theorem lifecycle_of_inTurn [DecidableEq ι] (hdb : Unstopped s₀) {task : ι → LifecycleTask}
    (hwaiting : ∀ i, (task i).waiting) {evs : List (Event ι LifecycleEvent Empty)}
    (hturn : ∀ x ∈ lifecycleSystem.transitions ⟨s₀, task⟩ evs, StepInTurn x.1 x.2) :
    (∀ x ∈ lifecycleSystem.transitions ⟨s₀, task⟩ evs, ∀ id,
      StatusMoves (statusAt x.1.shared id) (statusAt (lifecycleSystem.next x.1 x.2).shared id)) ∧
    ∀ v ∈ lifecycleSystem.visited ⟨s₀, task⟩ evs, StopsHonoured s₀ v.shared ∧ EndKept s₀ v := by
  have hkept := System.visited_induct (fun w ev h hs => kept_next h hs)
    (kept_init hdb hwaiting) hturn
  refine ⟨fun x hx id => statusMoves_next (hkept x.1 (System.fst_mem_visited hx)) id, ?_⟩
  exact fun v hv => ⟨(hkept v hv).db.honoured, endKept_of_kept (hkept v hv)⟩

def priceTest : ExperimentRow where
  projectId := "proj"
  type := .paywall
  variants := [⟨"a", "A", .obj [("paywallId", .str "pw-a")], 1⟩]
  status := .paused
  scheduledEndAt := some 100

def priceTestDb : LifecycleDb where
  experiments := Table.empty.insert "exp" priceTest
  placements := Table.empty.insert "pl" { projectId := "proj", rows := [⟨none, .experiment "exp"⟩] }

def priceTestCallers : Fin 2 → LifecycleTask
  | 0 => .request "exp" .resume .waiting
  | 1 => .request "exp" (.stop (some "a")) .waiting

/-- The resume reads the paused row, the stop completes it, and the resume makes it run. -/
theorem resume_after_stop_moves_completed :
    let stopped := lifecycleSystem.runAll ⟨priceTestDb, priceTestCallers⟩
      [.act 0 (.next 1), .act 1 (.next 1), .act 1 (.next 2), .act 1 (.next 3)]
    let resumed := lifecycleSystem.next stopped (.act 0 (.next 4))
    statusAt stopped.shared "exp" = some .completed ∧
      statusAt resumed.shared "exp" = some .running ∧
      (resumed.shared.placements.get? "pl").map Placement.rows =
        some [⟨none, .paywall "pw-a"⟩] := by
  decide

theorem unstopped_priceTestDb : Unstopped priceTestDb where
  stops := rfl
  winner id exp hrow _ := by
    have hget : (Table.empty.insert "exp" priceTest).get? id = some exp := hrow
    rw [Table.get?_insert] at hget
    split_ifs at hget
    · obtain rfl := Option.some.inj hget
      rfl
    · cases hget

theorem lifecycle_of_inTurn_stop_after_resume :
    let final := lifecycleSystem.runAll ⟨priceTestDb, priceTestCallers⟩
      [.act 0 (.next 1), .act 0 (.next 2), .act 1 (.next 3), .act 1 (.next 4), .act 1 (.next 5)]
    StopsHonoured priceTestDb final.shared ∧ EndKept priceTestDb final := by
  have hwaiting : ∀ i, (priceTestCallers i).waiting := by
    intro i
    fin_cases i <;> rfl
  exact (lifecycle_of_inTurn unstopped_priceTestDb hwaiting (by decide)).2 _ System.last_mem_visited

end Rovenue.Experiments
