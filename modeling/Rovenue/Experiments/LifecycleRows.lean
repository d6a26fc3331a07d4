import Rovenue.Experiments.LifecycleCallers

/-! What a write leaves of the experiments, of the placements and of the stops. A write that comes
in time moves a status along its edges, and a stop repoints its placements to the winner it
stores. -/

namespace Rovenue.Experiments
open Txn (Table)

/-- The write finds a status from which it may move the row. -/
def LifecycleWrite.InTime (s : LifecycleDb) : LifecycleWrite → Prop
  | .update id patch => ∀ exp ∈ s.experiments.get? id,
    exp.status.canBecome (patch.status.getD exp.status) = true
  | .delete id => ∀ exp ∈ s.experiments.get? id, exp.status = .draft
  | .stop id _ _ => ∃ exp ∈ s.experiments.get? id, exp.status = .running ∨ exp.status = .paused
  | _ => True

/-- The placements that a stop rewrites are as it has listed them. -/
def StopTx.Fresh (s : LifecycleDb) (id : String) (tx : StopTx) : Prop :=
  ∀ e ∈ tx.listed, e.2.shows id = true →
    (s.placements.get? e.1).map Placement.rows = some e.2.rows

namespace LifecycleWrite

def onRow (s : LifecycleDb) (id : String) (exp : ExperimentRow) :
    LifecycleWrite → Option ExperimentRow
  | .update id' patch => some (if id = id' then patch.apply exp else exp)
  | .claimStart id' now =>
    some (if id = id' ∧ s.startDue exp now then
      { exp with status := .running, startedAt := some now } else exp)
  | .claimStop id' now =>
    some (if id = id' ∧ LifecycleDb.stopDue exp now then { exp with scheduledEndAt := none } else exp)
  | .delete id' => if id = id' then none else some (exp.forget id')
  | .stop id' tx completedAt =>
    some (if id = id' then exp.complete tx.winnerVariantId completedAt else exp)
  | .lock _ | .unlock _ => some exp

end LifecycleWrite

variable {s s₀ : LifecycleDb} {id : String} {exp exp' : ExperimentRow} {write : LifecycleWrite}

theorem get?_write : (s.write write).experiments.get? id =
    (s.experiments.get? id).bind fun exp => write.onRow s id exp := by
  cases write with
  | update id' patch =>
    show (s.experiments.modify id' _).get? id = _
    rw [Table.get?_modify]
    by_cases hid : id = id' <;> cases s.experiments.get? id <;> simp [LifecycleWrite.onRow, hid]
  | claimStart id' now =>
    show (s.experiments.modify id' _).get? id = _
    rw [Table.get?_modify]
    by_cases hid : id = id' <;> cases s.experiments.get? id <;> simp [LifecycleWrite.onRow, hid]
  | claimStop id' now =>
    show (s.experiments.modify id' _).get? id = _
    rw [Table.get?_modify]
    by_cases hid : id = id' <;> cases s.experiments.get? id <;> simp [LifecycleWrite.onRow, hid]
  | delete id' =>
    show ((s.experiments.erase id').map _).get? id = _
    rw [Table.get?_map, Table.get?_erase]
    by_cases hid : id = id' <;> cases s.experiments.get? id <;> simp [LifecycleWrite.onRow, hid]
  | stop id' tx completedAt =>
    show (s.experiments.modify id' _).get? id = _
    rw [Table.get?_modify]
    by_cases hid : id = id' <;> cases s.experiments.get? id <;> simp [LifecycleWrite.onRow, hid]
  | lock id' =>
    show s.experiments.get? id = _
    cases s.experiments.get? id <;> rfl
  | unlock id' =>
    show s.experiments.get? id = _
    cases s.experiments.get? id <;> rfl

def ExperimentRow.SameAs (a b : ExperimentRow) : Prop :=
  a.projectId = b.projectId ∧ a.type = b.type ∧ a.variants = b.variants

theorem ExperimentRow.SameAs.trans {a b c : ExperimentRow} (h : a.SameAs b) (h' : b.SameAs c) :
    a.SameAs c := ⟨h.1.trans h'.1, h.2.1.trans h'.2.1, h.2.2.trans h'.2.2⟩

theorem ExperimentRow.SameAs.symm {a b : ExperimentRow} (h : a.SameAs b) : b.SameAs a :=
  ⟨h.1.symm, h.2.1.symm, h.2.2.symm⟩

theorem winnerPaywallId_congr {a b : ExperimentRow} (h : a.SameAs b) (winner : Option String) :
    winnerPaywallId a winner = winnerPaywallId b winner := by
  simp only [winnerPaywallId, h.2.1, h.2.2]

theorem onRow_same (h : write.onRow s id exp = some exp') : exp.SameAs exp' := by
  have hrefl : exp.SameAs exp := ⟨rfl, rfl, rfl⟩
  cases write with
  | delete id' =>
    simp only [LifecycleWrite.onRow] at h
    split_ifs at h
    obtain rfl := Option.some.inj h
    unfold ExperimentRow.forget
    split_ifs <;> exact ⟨rfl, rfl, rfl⟩
  | lock id' | unlock id' =>
    obtain rfl := Option.some.inj h
    exact hrefl
  | _ =>
    obtain rfl := Option.some.inj h
    split_ifs <;> exact ⟨rfl, rfl, rfl⟩

theorem onRow_winner (h : write.onRow s id exp = some exp')
    (hstop : ∀ tx completedAt, write ≠ .stop id tx completedAt) :
    exp'.winnerVariantId = exp.winnerVariantId := by
  cases write with
  | delete id' =>
    simp only [LifecycleWrite.onRow] at h
    split_ifs at h
    obtain rfl := Option.some.inj h
    unfold ExperimentRow.forget
    split_ifs <;> rfl
  | lock id' | unlock id' =>
    obtain rfl := Option.some.inj h
    rfl
  | stop id' tx completedAt =>
    obtain rfl := Option.some.inj h
    by_cases hid : id = id'
    · subst hid
      exact absurd rfl (hstop tx completedAt)
    · rw [if_neg hid]
  | _ =>
    obtain rfl := Option.some.inj h
    split_ifs <;> rfl

theorem canBecome_self (a : ExperimentStatus) : a.canBecome a = true := by cases a <;> rfl

theorem onRow_status (hrow : s.experiments.get? id = some exp) (hin : write.InTime s)
    (h : write.onRow s id exp = some exp') : exp.status.canBecome exp'.status = true := by
  have hself := canBecome_self exp.status
  cases write with
  | update id' patch =>
    obtain rfl := Option.some.inj h
    split_ifs with hid
    · subst hid
      exact hin exp hrow
    · exact hself
  | claimStart id' now =>
    obtain rfl := Option.some.inj h
    split_ifs with hdue
    · have hdraft : exp.status = .draft := by
        simpa [LifecycleDb.startDue] using (Bool.and_eq_true_iff.1
          (Bool.and_eq_true_iff.1 hdue.2).1).1
      rw [hdraft]
      rfl
    · exact hself
  | claimStop id' now =>
    obtain rfl := Option.some.inj h
    split_ifs <;> exact hself
  | delete id' =>
    simp only [LifecycleWrite.onRow] at h
    split_ifs at h
    obtain rfl := Option.some.inj h
    unfold ExperimentRow.forget
    split_ifs <;> exact hself
  | stop id' tx completedAt =>
    obtain rfl := Option.some.inj h
    split_ifs with hid
    · subst hid
      obtain ⟨found, hfound, hopen⟩ := hin
      obtain rfl := Option.some.inj (hrow.symm.trans hfound)
      show exp.status.canBecome .completed = true
      obtain hs | hs := hopen <;> rw [hs] <;> rfl
    · exact hself
  | lock id' | unlock id' =>
    obtain rfl := Option.some.inj h
    exact hself

theorem onRow_of_not_moved (hrow : s.experiments.get? id = some exp)
    (hmoved : write.moved s ≠ some id) :
    ∃ exp', write.onRow s id exp = some exp' ∧ exp'.status = exp.status := by
  cases write with
  | update id' patch =>
    refine ⟨_, rfl, ?_⟩
    split_ifs with hid
    · subst hid
      have hnone : patch.status = none := by
        by_contra hsome
        exact hmoved (if_pos (Option.isSome_iff_ne_none.2 hsome))
      show patch.status.getD exp.status = exp.status
      rw [hnone]
      rfl
    · rfl
  | claimStart id' now =>
    refine ⟨_, rfl, ?_⟩
    split_ifs with hdue
    · obtain ⟨rfl, hdue⟩ := hdue
      refine absurd (if_pos ?_) hmoved
      rw [hrow]
      exact hdue
    · rfl
  | claimStop id' now =>
    refine ⟨_, rfl, ?_⟩
    split_ifs <;> rfl
  | delete id' =>
    have hid : id ≠ id' := fun h => hmoved (congrArg some h.symm)
    refine ⟨_, if_neg hid, ?_⟩
    unfold ExperimentRow.forget
    split_ifs <;> rfl
  | stop id' tx completedAt =>
    have hid : id ≠ id' := fun h => hmoved (congrArg some h.symm)
    exact ⟨_, congrArg some (if_neg hid), rfl⟩
  | lock id' | unlock id' => exact ⟨exp, rfl, rfl⟩

theorem onRow_deletes (hrow : s.experiments.get? id = some exp) (hin : write.InTime s)
    (h : write.onRow s id exp = none) : exp.status = .draft := by
  cases write with
  | delete id' =>
    simp only [LifecycleWrite.onRow] at h
    split_ifs at h with hid
    subst hid
    exact hin exp hrow
  | _ => cases h

theorem statusMoves_write (hin : write.InTime s) :
    StatusMoves (statusAt s id) (statusAt (s.write write) id) := by
  unfold statusAt
  rw [get?_write]
  cases hrow : s.experiments.get? id with
  | none => rfl
  | some exp =>
    show StatusMoves (some exp.status) ((write.onRow s id exp).map ExperimentRow.status)
    cases hwrite : write.onRow s id exp with
    | none => exact onRow_deletes hrow hin hwrite
    | some exp' => exact onRow_status hrow hin hwrite

@[simp] theorem PlacementRow.repoint_other {id' paywallId : String} {row : PlacementRow}
    (h : row.target ≠ .experiment id') : row.repoint id' paywallId = row := if_neg h

theorem Placement.repoint_of_not_shows {p : Placement} {paywallId : String}
    (h : p.shows id = false) : p.repoint id paywallId = p.rows := by
  have hrows : ∀ row ∈ p.rows, row.target ≠ .experiment id := by
    simpa [Placement.shows] using h
  unfold Placement.repoint
  exact (List.map_congr_left fun row hrow => PlacementRow.repoint_other (hrows row hrow)).trans
    (List.map_id _)

theorem columns_foldl {listed : List (String × Placement)} {placements : Table String Placement}
    {paywallId : String} (hnodup : (listed.map Prod.fst).Nodup)
    (hfresh : ∀ e ∈ listed, e.2.shows id = true →
      (placements.get? e.1).map Placement.rows = some e.2.rows) (pid : String) :
    ((listed.foldl (fun placements e =>
        if e.2.shows id then placements.modify e.1 (Placement.setRows (e.2.repoint id paywallId))
        else placements) placements).get? pid).map Placement.columns =
      (placements.get? pid).map fun p =>
        (p.projectId, if ∃ e ∈ listed, e.1 = pid ∧ e.2.shows id = true then p.repoint id paywallId
          else p.rows) := by
  induction listed generalizing placements with
  | nil => simp; rfl
  | cons e rest ih =>
    rw [List.map_cons, List.nodup_cons] at hnodup
    obtain ⟨hnew, hnodup⟩ := hnodup
    have hkeys : ∀ e' ∈ rest, e'.1 ≠ e.1 := fun e' he' hsame =>
      hnew (List.mem_map.2 ⟨e', he', hsame⟩)
    rw [List.foldl_cons]
    by_cases hshows : e.2.shows id = true
    · rw [if_pos hshows]
      have hrest : ∀ e' ∈ rest, e'.2.shows id = true →
          ((placements.modify e.1 (Placement.setRows (e.2.repoint id paywallId))).get? e'.1).map
            Placement.rows = some e'.2.rows := by
        intro e' he' hs'
        rw [Table.get?_modify, if_neg (hkeys e' he')]
        exact hfresh e' (List.mem_cons_of_mem _ he') hs'
      rw [ih hnodup hrest, Table.get?_modify]
      by_cases hpid : pid = e.1
      · subst hpid
        have hnone : ¬∃ e' ∈ rest, e'.1 = e.1 ∧ e'.2.shows id = true := by
          rintro ⟨e', he', hsame, -⟩
          exact hkeys e' he' hsame
        have hfound := hfresh e (List.mem_cons_self ..) hshows
        cases hget : placements.get? e.1 with
        | none => simp
        | some p =>
          rw [hget] at hfound
          have hrows : p.rows = e.2.rows := Option.some.inj hfound
          simp [hnone, hshows, Placement.setRows, Placement.repoint, hrows]
      · have hiff : (∃ e' ∈ e :: rest, e'.1 = pid ∧ e'.2.shows id = true) ↔
            ∃ e' ∈ rest, e'.1 = pid ∧ e'.2.shows id = true := by
          simp [Ne.symm hpid]
        rw [if_neg hpid]
        simp only [hiff]
    · rw [if_neg hshows, ih hnodup fun e' he' => hfresh e' (List.mem_cons_of_mem _ he')]
      have hiff : (∃ e' ∈ e :: rest, e'.1 = pid ∧ e'.2.shows id = true) ↔
          ∃ e' ∈ rest, e'.1 = pid ∧ e'.2.shows id = true := by
        simp [hshows]
      simp only [hiff]

theorem get?_repointAll_of_not_mem {tx : StopTx} {pid : String} (h : pid ∉ tx.rewrites id)
    (placements : Table String Placement) :
    (tx.repointAll id placements).get? pid = placements.get? pid := by
  have hfold : ∀ (paywallId : String) (listed : List (String × Placement))
      (placements : Table String Placement),
      pid ∉ (listed.filter fun e => e.2.shows id).map Prod.fst →
      (listed.foldl (fun placements e =>
        if e.2.shows id then placements.modify e.1 (Placement.setRows (e.2.repoint id paywallId))
        else placements) placements).get? pid = placements.get? pid := by
    intro paywallId listed
    induction listed with
    | nil => exact fun _ _ => rfl
    | cons e rest ih =>
      intro placements hnot
      rw [List.foldl_cons]
      by_cases hshows : e.2.shows id = true
      · rw [List.filter_cons, if_pos hshows, List.map_cons, List.mem_cons, not_or] at hnot
        rw [if_pos hshows, ih _ hnot.2, Table.get?_modify, if_neg hnot.1]
      · rw [List.filter_cons, if_neg hshows] at hnot
        rw [if_neg hshows, ih _ hnot]
  unfold StopTx.repointAll
  cases winnerPaywallId tx.existing tx.winnerVariantId with
  | none => rfl
  | some paywallId => exact hfold paywallId tx.listed placements h

structure StopTx.Lists (tx : StopTx) (s : LifecycleDb) (id : String) : Prop where
  nodup : (tx.listed.map Prod.fst).Nodup
  project : ∀ e ∈ tx.listed, (s.placements.get? e.1).map Placement.projectId =
    some tx.existing.projectId
  complete : (winnerPaywallId tx.existing tx.winnerVariantId).isSome → ∀ pid p,
    s.placements.get? pid = some p → p.projectId = tx.existing.projectId → p.shows id = true →
      ∃ p', (pid, p') ∈ tx.listed ∧ p'.shows id = true

theorem columns_repointAll {tx : StopTx} (hlists : tx.Lists s id) (hfresh : tx.Fresh s id)
    (pid : String) :
    ((tx.repointAll id s.placements).get? pid).map Placement.columns =
      (s.placements.get? pid).map fun p => (p.projectId,
        match winnerPaywallId tx.existing tx.winnerVariantId with
        | some paywallId => if p.projectId = tx.existing.projectId then p.repoint id paywallId
          else p.rows
        | none => p.rows) := by
  unfold StopTx.repointAll
  cases hwinner : winnerPaywallId tx.existing tx.winnerVariantId with
  | none => rfl
  | some paywallId =>
    simp only
    rw [columns_foldl hlists.nodup hfresh]
    cases hget : s.placements.get? pid with
    | none => rfl
    | some p =>
      simp only [Option.map_some]
      by_cases hproject : p.projectId = tx.existing.projectId
      · rw [if_pos hproject]
        split_ifs with hlisted
        · rfl
        · have hshows : p.shows id = false := by
            by_contra hshows
            obtain ⟨p', hmem, hs'⟩ := hlists.complete (by simp [hwinner]) pid p hget hproject
              (by simpa using hshows)
            exact hlisted ⟨(pid, p'), hmem, rfl, hs'⟩
          rw [Placement.repoint_of_not_shows hshows]
      · have hlisted : ¬∃ e ∈ tx.listed, e.1 = pid ∧ e.2.shows id = true := by
          rintro ⟨e, he, hpid, -⟩
          have hsame := hlists.project e he
          rw [hpid, hget] at hsame
          exact hproject (Option.some.inj hsame)
        rw [if_neg hlisted, if_neg hproject]

structure LifecycleInv (s₀ s : LifecycleDb) : Prop where
  same : ∀ id exp, s.experiments.get? id = some exp →
    ∃ exp₀, s₀.experiments.get? id = some exp₀ ∧ exp₀.SameAs exp
  winner : ∀ id exp, s.experiments.get? id = some exp → exp.status ≠ .completed →
    exp.winnerVariantId = none
  honoured : StopsHonoured s₀ s

theorem canBecome_of_completed {a b : ExperimentStatus} (h : a.canBecome b = true)
    (ha : a = .completed) : b = .completed := by
  subst ha
  cases b <;> first | rfl | cases h

theorem onRow_end (h : write.onRow s id exp = some exp')
    (hupdate : ∀ id patch, write = .update id patch → patch.scheduledEndAt ≠ some none)
    (hclaim : ∀ now, write = .claimStop id now → LifecycleDb.stopDue exp now = false)
    (hend : exp.scheduledEndAt.isSome = true) : exp'.scheduledEndAt.isSome = true := by
  cases write with
  | update id' patch =>
    obtain rfl := Option.some.inj h
    have hset := hupdate id' patch rfl
    split_ifs
    · show (patch.scheduledEndAt.getD exp.scheduledEndAt).isSome = true
      cases hpatch : patch.scheduledEndAt with
      | none => exact hend
      | some end' =>
        cases end' with
        | none => exact absurd hpatch hset
        | some t => rfl
    · exact hend
  | claimStop id' now =>
    obtain rfl := Option.some.inj h
    split_ifs with hdue
    · obtain ⟨rfl, hdue⟩ := hdue
      rw [hclaim now rfl] at hdue
      cases hdue
    · exact hend
  | delete id' =>
    simp only [LifecycleWrite.onRow] at h
    split_ifs at h
    obtain rfl := Option.some.inj h
    unfold ExperimentRow.forget
    split_ifs <;> exact hend
  | lock id' | unlock id' =>
    obtain rfl := Option.some.inj h
    exact hend
  | _ =>
    obtain rfl := Option.some.inj h
    split_ifs <;> exact hend

theorem exists_onRow (h : (s.write write).experiments.get? id = some exp') :
    ∃ exp, s.experiments.get? id = some exp ∧ write.onRow s id exp = some exp' := by
  rw [get?_write] at h
  exact Option.bind_eq_some_iff.1 h

section Write
variable (hinv : LifecycleInv s₀ s) (hin : write.InTime s)
include hinv hin

omit hin in
theorem same_write (h : (s.write write).experiments.get? id = some exp') :
    ∃ exp₀, s₀.experiments.get? id = some exp₀ ∧ exp₀.SameAs exp' := by
  obtain ⟨exp, hrow, hwrite⟩ := exists_onRow h
  obtain ⟨exp₀, hrow₀, hsame⟩ := hinv.same id exp hrow
  exact ⟨exp₀, hrow₀, hsame.trans (onRow_same hwrite)⟩

theorem winner_write (h : (s.write write).experiments.get? id = some exp')
    (hopen : exp'.status ≠ .completed) : exp'.winnerVariantId = none := by
  obtain ⟨exp, hrow, hwrite⟩ := exists_onRow h
  have hmove := onRow_status hrow hin hwrite
  have hbefore : exp.status ≠ .completed := fun hdone => hopen (canBecome_of_completed hmove hdone)
  have hkeep : exp'.winnerVariantId = exp.winnerVariantId := by
    refine onRow_winner hwrite fun tx completedAt hstop => hopen ?_
    subst hstop
    obtain rfl := Option.some.inj hwrite
    rw [if_pos rfl]
    rfl
  exact hkeep.trans (hinv.winner id exp hrow hbefore)

theorem stopped_write {stop : StopRecord} (hstop : stop ∈ s.stops) :
    ∃ exp exp', s.experiments.get? stop.experimentId = some exp ∧
      (s.write write).experiments.get? stop.experimentId = some exp' ∧ exp.SameAs exp' ∧
      exp'.status = .completed ∧ exp'.winnerVariantId = exp.winnerVariantId ∧
      exp.winnerVariantId = stop.winnerVariantId := by
  obtain ⟨exp, hrow, hdone, hwinner⟩ := hinv.honoured.stored stop hstop
  cases hwrite : write.onRow s stop.experimentId exp with
  | none =>
    have hdraft := onRow_deletes hrow hin hwrite
    rw [hdone] at hdraft
    cases hdraft
  | some exp' =>
    refine ⟨exp, exp', hrow, ?_, onRow_same hwrite,
      canBecome_of_completed (onRow_status hrow hin hwrite) hdone, onRow_winner hwrite ?_, hwinner⟩
    · rw [get?_write, hrow]
      exact hwrite
    · intro tx completedAt hwas
      subst hwas
      obtain ⟨found, hfound, hopen⟩ := hin
      obtain rfl := Option.some.inj (hrow.symm.trans hfound)
      rw [hdone] at hopen
      obtain h | h := hopen <;> cases h

theorem stoppedPaywall_write (hstops : (s.write write).stops = s.stops) (projectId id : String) :
    (s.write write).stoppedPaywall projectId id = s.stoppedPaywall projectId id := by
  unfold LifecycleDb.stoppedPaywall
  rw [hstops]
  split_ifs with hstopped
  · obtain ⟨stop, hstop, hid⟩ := List.any_eq_true.1 hstopped
    obtain rfl := of_decide_eq_true hid
    obtain ⟨exp, exp', hrow, hrow', hsame, -, hwinner, -⟩ := stopped_write hinv hin hstop
    rw [hrow, hrow']
    simp only [Option.filter_some, ← hsame.1]
    split_ifs
    · show winnerPaywallId exp' exp'.winnerVariantId = winnerPaywallId exp exp.winnerVariantId
      rw [hwinner]
      exact (winnerPaywallId_congr hsame _).symm
    · rfl
  · rfl

end Write

theorem honoured_write (hinv : LifecycleInv s₀ s) (hin : write.InTime s)
    (hstops : (s.write write).stops = s.stops)
    (hplacements : (s.write write).placements = s.placements) :
    StopsHonoured s₀ (s.write write) where
  once := by
    rw [hstops]
    exact hinv.honoured.once
  stored stop hstop := by
    rw [hstops] at hstop
    obtain ⟨exp, exp', -, hrow', -, hdone, hkeep, hwinner⟩ := stopped_write hinv hin hstop
    exact ⟨exp', hrow', hdone, hkeep.trans hwinner⟩
  repointed pid := by
    have hrows : ∀ projectId, PlacementRow.afterStops (s.write write) projectId =
        PlacementRow.afterStops s projectId := by
      intro projectId
      funext row
      simp only [PlacementRow.afterStops, stoppedPaywall_write hinv hin hstops]
    rw [hplacements, hinv.honoured.repointed]
    simp only [hrows]

section Stop
variable {tx : StopTx} {completedAt : ℤ} (hinv : LifecycleInv s₀ s)
  (hin : (LifecycleWrite.stop id tx completedAt).InTime s)
include hinv hin

theorem not_stopped : ∀ stop ∈ s.stops, stop.experimentId ≠ id := by
  intro stop hstop hid
  subst hid
  obtain ⟨exp, hrow, hdone, -⟩ := hinv.honoured.stored stop hstop
  obtain ⟨found, hfound, hopen⟩ := hin
  obtain rfl := Option.some.inj (hrow.symm.trans hfound)
  rw [hdone] at hopen
  obtain h | h := hopen <;> cases h

theorem stopped_row {exp₀ : ExperimentRow} (hrow₀ : s₀.experiments.get? id = some exp₀)
    (hsame : exp₀.SameAs tx.existing) :
    ∃ exp', (s.write (.stop id tx completedAt)).experiments.get? id = some exp' ∧
      tx.existing.SameAs exp' ∧ exp'.status = .completed ∧
      exp'.winnerVariantId = tx.winnerVariantId := by
  obtain ⟨exp, hrow, hopen⟩ := hin
  have hwinner : exp.winnerVariantId = none := by
    refine hinv.winner id exp hrow fun hdone => ?_
    rw [hdone] at hopen
    obtain h | h := hopen <;> cases h
  have hrow' : (s.write (.stop id tx completedAt)).experiments.get? id =
      some (exp.complete tx.winnerVariantId completedAt) := by
    rw [get?_write, hrow]
    exact congrArg some (if_pos rfl)
  obtain ⟨exp₁, hrow₁, hsame₁⟩ := hinv.same id exp hrow
  obtain rfl := Option.some.inj (hrow₀.symm.trans hrow₁)
  refine ⟨_, hrow', hsame.symm.trans hsame₁, rfl, ?_⟩
  show tx.winnerVariantId.or exp.winnerVariantId = tx.winnerVariantId
  rw [hwinner, Option.or_none]

theorem stoppedPaywall_stop {exp₀ : ExperimentRow} (hrow₀ : s₀.experiments.get? id = some exp₀)
    (hsame : exp₀.SameAs tx.existing) (projectId id' : String) :
    (s.write (.stop id tx completedAt)).stoppedPaywall projectId id' =
      if id' = id then
        if projectId = tx.existing.projectId then winnerPaywallId tx.existing tx.winnerVariantId
        else none
      else s.stoppedPaywall projectId id' := by
  have hstops : (s.write (.stop id tx completedAt)).stops =
      s.stops ++ [⟨id, tx.winnerVariantId⟩] := rfl
  unfold LifecycleDb.stoppedPaywall
  rw [hstops, List.any_append]
  by_cases hid : id' = id
  · subst hid
    obtain ⟨exp', hrow', hsame', -, hwinner⟩ := stopped_row hinv hin hrow₀ hsame
    rw [hrow']
    simp only [List.any_cons, List.any_nil, decide_true, Bool.or_false, Bool.or_true, if_true,
      Option.filter_some, ← hsame'.1, decide_eq_true_eq]
    by_cases hproject : tx.existing.projectId = projectId
    · rw [if_pos hproject, if_pos hproject.symm]
      show winnerPaywallId exp' exp'.winnerVariantId = _
      rw [hwinner]
      exact (winnerPaywallId_congr hsame' _).symm
    · rw [if_neg hproject, if_neg (Ne.symm hproject)]
      rfl
  · have hother : ([⟨id, tx.winnerVariantId⟩] : List StopRecord).any
        (fun stop => decide (stop.experimentId = id')) = false := by
      simp [Ne.symm hid]
    have hrow : (s.write (.stop id tx completedAt)).experiments.get? id' =
        s.experiments.get? id' := by
      rw [get?_write]
      cases s.experiments.get? id' with
      | none => rfl
      | some exp => exact congrArg some (if_neg hid)
    rw [hother, Bool.or_false, if_neg hid, hrow]

theorem afterStops_stop {exp₀ : ExperimentRow} (hrow₀ : s₀.experiments.get? id = some exp₀)
    (hsame : exp₀.SameAs tx.existing) (projectId : String) (row : PlacementRow) :
    row.afterStops (s.write (.stop id tx completedAt)) projectId =
      match winnerPaywallId tx.existing tx.winnerVariantId with
      | some paywallId =>
        if projectId = tx.existing.projectId then
          (row.afterStops s projectId).repoint id paywallId
        else row.afterStops s projectId
      | none => row.afterStops s projectId := by
  have hnone : s.stoppedPaywall projectId id = none := by
    refine if_neg fun hstopped => ?_
    obtain ⟨stop, hstop, hid⟩ := List.any_eq_true.1 hstopped
    exact not_stopped hinv hin stop hstop (of_decide_eq_true hid)
  have hpaywall := stoppedPaywall_stop hinv hin hrow₀ hsame projectId
  obtain ⟨audienceId, target⟩ := row
  cases target with
  | experiment id' =>
    by_cases hid : id' = id
    · subst hid
      simp only [PlacementRow.afterStops, hpaywall, hnone, if_true]
      by_cases hproject : projectId = tx.existing.projectId
      · simp only [if_pos hproject]
        cases winnerPaywallId tx.existing tx.winnerVariantId with
        | none => rfl
        | some paywallId => exact (if_pos rfl).symm
      · simp only [if_neg hproject]
        cases winnerPaywallId tx.existing tx.winnerVariantId <;> rfl
    · have hkeep : ∀ paywallId, (PlacementRow.afterStops s projectId
          ⟨audienceId, .experiment id'⟩).repoint id paywallId =
          PlacementRow.afterStops s projectId ⟨audienceId, .experiment id'⟩ := by
        intro paywallId
        refine PlacementRow.repoint_other ?_
        simp only [PlacementRow.afterStops]
        cases s.stoppedPaywall projectId id' with
        | none => simpa using hid
        | some q => simp
      simp only [hkeep, ite_self]
      simp only [PlacementRow.afterStops, hpaywall, if_neg hid]
      cases winnerPaywallId tx.existing tx.winnerVariantId <;> rfl
  | _ =>
    simp only [PlacementRow.afterStops]
    cases winnerPaywallId tx.existing tx.winnerVariantId with
    | none => rfl
    | some paywallId => by_cases hproject : projectId = tx.existing.projectId <;> simp [hproject]

theorem honoured_stop {exp₀ : ExperimentRow} (hrow₀ : s₀.experiments.get? id = some exp₀)
    (hsame : exp₀.SameAs tx.existing) (hlists : tx.Lists s id)
    (hfresh : tx.Fresh s id) :
    StopsHonoured s₀ (s.write (.stop id tx completedAt)) where
  once := by
    show ((s.stops ++ [StopRecord.mk id tx.winnerVariantId]).map StopRecord.experimentId).Nodup
    rw [List.map_append, List.nodup_append]
    refine ⟨hinv.honoured.once, by simp, ?_⟩
    intro a ha b hb
    obtain ⟨stop, hstop, rfl⟩ := List.mem_map.1 ha
    obtain rfl := List.mem_singleton.1 hb
    exact not_stopped hinv hin stop hstop
  stored stop hstop := by
    obtain hstop | hstop := List.mem_append.1 hstop
    · obtain ⟨exp, exp', -, hrow', -, hdone, hkeep, hwinner⟩ := stopped_write hinv hin hstop
      exact ⟨exp', hrow', hdone, hkeep.trans hwinner⟩
    · obtain rfl := List.mem_singleton.1 hstop
      obtain ⟨exp', hrow', -, hdone, hwinner⟩ := stopped_row hinv hin hrow₀ hsame
      exact ⟨exp', hrow', hdone, hwinner⟩
  repointed pid := by
    show ((tx.repointAll id s.placements).get? pid).map Placement.columns = _
    have hbefore := hinv.honoured.repointed pid
    rw [columns_repointAll hlists hfresh]
    cases hget₀ : s₀.placements.get? pid with
    | none =>
      rw [hget₀, Option.map_none, Option.map_eq_none_iff] at hbefore
      rw [hbefore]
      rfl
    | some p₀ =>
      rw [hget₀] at hbefore
      obtain ⟨p, hget, hp⟩ := Option.map_eq_some_iff.1 hbefore
      obtain ⟨hproject, hrows⟩ := Prod.mk.inj hp
      rw [hget]
      simp only [Option.map_some, Option.some.injEq, Prod.mk.injEq]
      refine ⟨hproject, ?_⟩
      have hafter := afterStops_stop hinv hin hrow₀ hsame p₀.projectId
      cases hwinner : winnerPaywallId tx.existing tx.winnerVariantId with
      | none =>
        simp only [hwinner] at hafter
        rw [hrows]
        exact List.map_congr_left fun row _ => (hafter row).symm
      | some paywallId =>
        simp only [hwinner] at hafter
        simp only [hproject]
        by_cases hsameProject : p₀.projectId = tx.existing.projectId
        · rw [if_pos hsameProject, Placement.repoint, hrows, List.map_map]
          exact List.map_congr_left fun row _ => by rw [hafter row, if_pos hsameProject]; rfl
        · rw [if_neg hsameProject, hrows]
          exact List.map_congr_left fun row _ => by rw [hafter row, if_neg hsameProject]

end Stop

end Rovenue.Experiments
