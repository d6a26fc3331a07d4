import Rovenue.Gdpr.NoArtifactLeft

/-! Workers that end within the lease of their claims. A stale claim is then never a live
worker's, so that a request has one run at a time, and only that run writes its row, its artifact
and what it has in hand. -/

namespace Rovenue.Gdpr
open Txn (Table)
open Threads

def freshIn (s : DsarState) (id : String) (now : ℤ) : Bool :=
  (s.requests.get? id).all fun row => now - claimStaleRunningMs ≤ row.updatedAt

variable {ι : Type}

def InLease (w : DsarWorld ι) : Event ι DsarEvent NewRequest → Prop
  | .act i (.next now) => (w.task i).waiting = true → ∀ j, (w.task j).id = (w.task i).id →
      (w.task j).inProgress = true → freshIn w.shared (w.task i).id now = true
  | _ => True

def KeepsHold (w : DsarWorld ι) : Event ι DsarEvent NewRequest → Prop
  | .act i e => (w.task i).letsGo e = false
  | .env _ => True

structure Leased (w : DsarWorld ι) (ev : Event ι DsarEvent NewRequest) : Prop where
  inLease : InLease w ev
  keepsHold : KeepsHold w ev

structure Fenced (subject : Subject) (w : DsarWorld ι) : Prop where
  running : ∀ i, (w.task i).inProgress = true →
    dsarStatusAt w.shared (w.task i).id = some .running
  single : ∀ i j, (w.task i).inProgress = true → (w.task j).inProgress = true →
    (w.task i).id = (w.task j).id → i = j
  named : ∀ a ∈ w.shared.findCompletedExportArtifacts,
    a.2 = buildDsarExportStorageKey subject.projectId a.1
  inHand : ∀ i key, (w.task i).holds subject = some key →
    key = buildDsarExportStorageKey subject.projectId (w.task i).id ∧ key ∈ w.shared.storage
  listed : ∀ i, ∀ key ∈ (w.task i).toPurge, ∃ id,
    key = buildDsarExportStorageKey subject.projectId id ∧
      dsarStatusAt w.shared id = some .completed
  purged : ∀ key ∈ w.shared.purged, key ∉ w.shared.storage ∧ ∃ id,
    key = buildDsarExportStorageKey subject.projectId id ∧
      dsarStatusAt w.shared id = some .completed
  accounted : Accounted subject w

variable {s : DsarState} {write : DsarWrite} {planned : Option DsarWrite}
variable {subject : Subject} {t t' : DsarRun} {e : DsarEvent} {w : DsarWorld ι} {id id' : String}

theorem buildDsarExportStorageKey_inj {projectId : String}
    (h : buildDsarExportStorageKey projectId id = buildDsarExportStorageKey projectId id') :
    id = id' := by
  have hlist := congrArg String.toList h
  simp only [buildDsarExportStorageKey, String.toList_append] at hlist
  exact String.toList_inj.1 (List.append_cancel_left (List.append_cancel_right hlist))

theorem key_ne (hrunning : dsarStatusAt s id = some .running)
    (hcompleted : dsarStatusAt s id' = some .completed) :
    buildDsarExportStorageKey subject.projectId id' ≠
      buildDsarExportStorageKey subject.projectId id := by
  intro hkey
  rw [buildDsarExportStorageKey_inj hkey, hrunning] at hcompleted
  cases hcompleted

theorem completed_of_artifact {a : String × String} (h : a ∈ s.findCompletedExportArtifacts) :
    dsarStatusAt s a.1 = some .completed := by
  obtain ⟨row, hget, -, hstatus, -⟩ := mem_artifacts.1 h
  rw [dsarStatusAt, hget]
  exact congrArg some hstatus

def DsarWrite.sets : DsarWrite → Option String
  | .claim id _ | .complete id _ _ _ | .fail id _ _ => some id
  | _ => none

theorem statusAt_write_of_ne (h : write.sets ≠ some id) :
    dsarStatusAt (s.write write) id = dsarStatusAt s id := by
  cases write with
  | claim id' now | complete id' key expiresAt now | fail id' error now =>
    have hne : id ≠ id' := fun hid => h (congrArg some hid.symm)
    rw [dsarStatusAt, get?_write_of_not_mem (by simpa [DsarWrite.rows] using hne), dsarStatusAt]
  | invalidate ids now =>
    rw [dsarStatusAt, get?_invalidate]
    split_ifs
    · rw [Option.map_map]
      rfl
    · rfl
  | _ => rfl

theorem not_fresh_of_claimable {now : ℤ} (hrunning : dsarStatusAt s id = some .running)
    (hclaimable : claimableIn s id now = true) : freshIn s id now = false := by
  obtain ⟨row, hget, hstatus⟩ := Option.map_eq_some_iff.1 hrunning
  simp [claimableIn, hget, DsarRequest.claimable, hstatus] at hclaimable
  simp only [freshIn, hget, Option.all_some, decide_eq_false_iff_not]
  omega

theorem toPurge_of_not_inProgress (h : t.inProgress = false) : t.toPurge = [] := by
  cases t with
  | exportRun id stage => rfl
  | erasureRun id stage =>
    cases stage with
    | purging => cases h
    | _ => rfl

def Works (s : DsarState) (t : DsarRun) (e : DsarEvent) : Prop :=
  t.inProgress = true ∨
    t.waiting = true ∧ ∃ now, e = .next now ∧ claimableIn s t.id now = true

theorem DsarMove.works (h : DsarMove subject s t e planned t') (ht' : t'.inProgress = true) :
    Works s t e := by
  cases h with
  | quiet _ _ hprogress => exact .inl (hprogress ht')
  | drops hprogress => exact .inl hprogress
  | claims _ _ hwaiting hclaimable => exact .inr ⟨hwaiting, _, rfl, hclaimable⟩
  | fails _ _ hprogress => exact .inl hprogress
  | _ => exact .inl rfl

theorem DsarMove.sets (h : DsarMove subject s t e (some write) t') (hid : write.sets = some id) :
    id = t.id ∧ Works s t e := by
  cases h with
  | claims _ _ hwaiting hclaimable =>
    exact ⟨(Option.some.inj hid).symm, .inr ⟨hwaiting, _, rfl, hclaimable⟩⟩
  | fails _ _ hprogress => exact ⟨(Option.some.inj hid).symm, .inl hprogress⟩
  | publishes | completes => exact ⟨(Option.some.inj hid).symm, .inl rfl⟩
  | _ => cases hid

theorem holds_inProgress {key : String} (h : t.holds subject = some key) :
    t.inProgress = true := by
  by_contra hnot
  rw [holds_of_not_inProgress (Bool.eq_false_iff.2 hnot)] at h
  cases h

section Step
variable {i j : ι}

theorem Fenced.alone (h : Fenced subject w) (hlease : InLease w (.act i e)) (hji : j ≠ i)
    (hj : (w.task j).inProgress = true) (hworks : Works w.shared (w.task i) e) :
    (w.task j).id ≠ (w.task i).id := by
  intro hid
  obtain hi | ⟨hwaiting, now, rfl, hclaimable⟩ := hworks
  · exact hji (h.single j i hj hi hid)
  · have hfresh := hlease hwaiting j hid hj
    rw [not_fresh_of_claimable (hid ▸ h.running j hj) hclaimable] at hfresh
    cases hfresh

theorem Fenced.undisturbed (h : Fenced subject w) (hrun : w.task i = t)
    (hmove : DsarMove subject w.shared t e (some write) t') : write.Undisturbed w.shared := by
  have hrunning : t.inProgress = true → dsarStatusAt w.shared t.id = some .running := by
    subst hrun
    exact h.running i
  cases hmove with
  | publishes id now hdeleted =>
    intro key hkey
    obtain rfl := Option.mem_some.1 hkey
    have hheld : (w.task i).holds subject =
        some (buildDsarExportStorageKey subject.projectId id) := by
      rw [hrun]
      rfl
    exact (h.inHand i _ hheld).2
  | deletes id key message now =>
    intro a ha hkey
    have hheld : (w.task i).holds subject = some key := by
      rw [hrun]
      rfl
    have hown := (h.inHand i key hheld).1
    rw [hrun] at hown
    exact key_ne (hrunning rfl) (completed_of_artifact ha)
      ((h.named a ha).symm.trans (hkey.trans hown))
  | fails _ _ hprogress =>
    intro hcompleted
    rw [hrunning hprogress] at hcompleted
    cases hcompleted
  | completes => exact nofun
  | _ => trivial

theorem DsarMove.lets_go {key : String} (h : DsarMove subject s t e planned t')
    (hkeeps : t.letsGo e = false) (hheld : t.holds subject = some key)
    (hlost : t'.holds subject ≠ some key) :
    planned = some (.delete key) ∨ s.deletedAt = none ∧ t.type = .export ∧
      ∃ expiresAt now, planned = some (.complete t.id (some key) expiresAt now) := by
  cases h with
  | quiet _ _ _ hholds => exact absurd (hholds.trans hheld) hlost
  | drops _ _ _ _ hgo => exact nomatch hgo.symm.trans hkeeps
  | claims _ _ hwaiting =>
    have hidle : t.inProgress = false := by
      cases t with
      | exportRun id stage => cases stage <;> first | rfl | cases hwaiting
      | erasureRun id stage => cases stage <;> first | rfl | cases hwaiting
    rw [holds_of_not_inProgress hidle] at hheld
    cases hheld
  | publishes id now hnone =>
    obtain rfl := Option.some.inj hheld
    exact .inr ⟨hnone, rfl, _, _, rfl⟩
  | deletes id key' message now =>
    obtain rfl := Option.some.inj hheld
    exact .inl rfl
  | fails _ _ _ hholds => exact nomatch hholds.symm.trans hheld
  | _ => cases hheld

theorem clean_of_leased {ev : Event ι DsarEvent NewRequest} (h : Fenced subject w)
    (hleased : Leased w ev) : Clean subject w ev := by
  cases ev with
  | env new => exact ⟨nofun, trivial, trivial⟩
  | act i e =>
    refine ⟨fun write hwrite => ?_, fun _ => h.accounted, fun key hheld hdeleted hlost => ?_⟩
    · have hmove : DsarMove subject w.shared (w.task i) e _ _ := dsarRun_move
      rw [show ((w.task i).plan subject w.shared e).1 = some write from hwrite] at hmove
      exact h.undisturbed rfl hmove
    · obtain hdelete | ⟨hnone, -⟩ := dsarRun_move.lets_go hleased.keepsHold hheld hlost
      · exact hdelete
      · rw [hnone] at hdeleted
        cases hdeleted

theorem Fenced.stored (h : Fenced subject w) (hrun : w.task i = t)
    (hmove : DsarMove subject w.shared t e planned t')
    (hrunning : dsarStatusAt w.shared id = some .running) (hid : t.inProgress = true → id ≠ t.id)
    (hkey : buildDsarExportStorageKey subject.projectId id ∈ w.shared.storage) :
    buildDsarExportStorageKey subject.projectId id ∈
      (planned.elim w.shared w.shared.write).storage := by
  cases hmove with
  | puts id' now => exact List.mem_cons.2 (.inr hkey)
  | deletes id' key message now =>
    have hheld : (w.task i).holds subject = some key := by
      rw [hrun]
      rfl
    have hown := (h.inHand i key hheld).1
    rw [hrun] at hown
    refine List.mem_filter.2 ⟨hkey, decide_eq_true fun hsame => ?_⟩
    exact hid rfl (buildDsarExportStorageKey_inj (hsame.trans hown))
  | purges id' key rest ids now =>
    have hlisted : key ∈ (w.task i).toPurge := by
      rw [hrun]
      exact List.mem_cons_self ..
    obtain ⟨id'', rfl, hcompleted⟩ := h.listed i key hlisted
    exact List.mem_filter.2 ⟨hkey, decide_eq_true (key_ne hrunning hcompleted).symm⟩
  | _ => exact hkey

theorem DsarMove.running (h : DsarMove subject s t e planned t')
    (hrunning : t.inProgress = true → dsarStatusAt s t.id = some .running)
    (ht' : t'.inProgress = true) :
    dsarStatusAt (planned.elim s s.write) t'.id = some .running := by
  cases h with
  | quiet hid _ hprogress =>
    rw [hid]
    exact hrunning (hprogress ht')
  | drops hprogress hid =>
    subst hid
    exact hrunning hprogress
  | claims hid _ _ hclaimable =>
    rw [hid]
    cases hget : s.requests.get? t.id with
    | none => simp [claimableIn, hget] at hclaimable
    | some row =>
      show ((s.requests.modify t.id _).get? t.id).map _ = _
      rw [Table.get?_modify, if_pos rfl, hget]
      rfl
  | fails _ _ _ _ hends =>
    rw [hends] at ht'
    cases ht'
  | publishes | completes => cases ht'
  | invalidates id ids now =>
    change dsarStatusAt (s.write (.invalidate ids now)) id = some .running
    rw [statusAt_write_of_ne (by simp [DsarWrite.sets])]
    exact hrunning rfl
  | _ => exact hrunning rfl

theorem DsarMove.inHand {key : String} (h : DsarMove subject s t e planned t')
    (hheld : ∀ key, t.holds subject = some key →
      key = buildDsarExportStorageKey subject.projectId t.id ∧ key ∈ s.storage)
    (hheld' : t'.holds subject = some key) :
    key = buildDsarExportStorageKey subject.projectId t'.id ∧
      key ∈ (planned.elim s s.write).storage := by
  cases h with
  | quiet hid _ _ hholds =>
    rw [hid]
    exact hheld key (hholds.symm.trans hheld')
  | drops _ _ _ _ _ hstage =>
    obtain rfl | ⟨message, rfl⟩ := hstage
    · cases hheld'
    · cases hheld'
  | claims _ _ _ _ hholds => exact nomatch hholds.symm.trans hheld'
  | puts id now =>
    obtain rfl := Option.some.inj hheld'
    exact ⟨rfl, List.mem_cons_self ..⟩
  | fails _ _ _ _ hends =>
    rw [holds_of_not_inProgress hends] at hheld'
    cases hheld'
  | _ => cases hheld'

theorem DsarMove.listed {key : String} (h : DsarMove subject s t e planned t')
    (hkey : key ∈ t'.toPurge) :
    key ∈ t.toPurge ∨ ∃ a ∈ s.findCompletedExportArtifacts, a.2 = key := by
  cases h with
  | quiet _ _ _ _ hpurge | claims _ _ _ _ _ hpurge =>
    rw [hpurge] at hkey
    cases hkey
  | fails _ _ _ _ hends =>
    rw [toPurge_of_not_inProgress hends] at hkey
    cases hkey
  | lists id now => exact .inr (List.mem_map.1 hkey)
  | purges id key' rest ids now => exact .inl (List.mem_cons.2 (.inr hkey))
  | _ => cases hkey

theorem Fenced.purged_move (h : Fenced subject w) (hrun : w.task i = t)
    (hmove : DsarMove subject w.shared t e planned t') {key : String}
    (hkey : key ∈ (planned.elim w.shared w.shared.write).purged) :
    key ∉ (planned.elim w.shared w.shared.write).storage ∧ ∃ id,
      key = buildDsarExportStorageKey subject.projectId id ∧
        dsarStatusAt w.shared id = some .completed := by
  cases hmove with
  | puts id now =>
    obtain ⟨hgone, id', rfl, hcompleted⟩ := h.purged key hkey
    have hrunning : dsarStatusAt w.shared id = some .running := by
      have hself := h.running i
      rw [hrun] at hself
      exact hself rfl
    refine ⟨fun hmem => ?_, id', rfl, hcompleted⟩
    obtain hsame | hmem := List.mem_cons.1 hmem
    · exact key_ne hrunning hcompleted hsame
    · exact hgone hmem
  | deletes id key' message now =>
    obtain ⟨hgone, hnamed⟩ := h.purged key hkey
    exact ⟨fun hmem => hgone (List.mem_filter.1 hmem).1, hnamed⟩
  | purges id key' rest ids now =>
    obtain rfl | hold := List.mem_cons.1 hkey
    · have hlisted : key ∈ (w.task i).toPurge := by
        rw [hrun]
        exact List.mem_cons_self ..
      exact ⟨fun hmem => of_decide_eq_true (List.mem_filter.1 hmem).2 rfl, h.listed i key hlisted⟩
    · obtain ⟨hgone, hnamed⟩ := h.purged key hold
      exact ⟨fun hmem => hgone (List.mem_filter.1 hmem).1, hnamed⟩
  | _ => exact h.purged key hkey

theorem Fenced.named_move (h : Fenced subject w)
    (hmove : DsarMove subject w.shared t e planned t') {a : String × String}
    (ha : a ∈ (planned.elim w.shared w.shared.write).findCompletedExportArtifacts) :
    a.2 = buildDsarExportStorageKey subject.projectId a.1 := by
  cases planned with
  | none => exact h.named a ha
  | some write =>
    obtain hold | ⟨expiresAt, now, rfl⟩ := artifact_write ha
    · exact h.named a hold
    · obtain ⟨-, ⟨-, -, hkey⟩ | ⟨hnone, -⟩⟩ := hmove.acts.complete _ _ _ _ rfl
      · exact Option.some.inj hkey
      · cases hnone

theorem DsarMove.artifact_kept (h : DsarMove subject w.shared t e planned t')
    (hrunning : t.inProgress = true → dsarStatusAt w.shared t.id = some .running)
    (hok : RunOk subject w t) (hdeleted : w.shared.deletedAt.isSome ≠ true)
    {a : String × String} (ha : a ∈ w.shared.findCompletedExportArtifacts) :
    a ∈ (planned.elim w.shared w.shared.write).findCompletedExportArtifacts := by
  have hwrite : ∀ write : DsarWrite, write.rows = [t.id] →
      dsarStatusAt w.shared t.id ≠ some .completed →
        a ∈ (w.shared.write write).findCompletedExportArtifacts := by
    intro write hrows hopen
    refine Gdpr.artifact_kept ha fun hrow => hopen ?_
    rw [hrows] at hrow
    rw [← List.mem_singleton.1 hrow]
    exact completed_of_artifact ha
  cases h with
  | claims _ _ _ hclaimable =>
    refine hwrite (.claim _ _) rfl fun hcompleted => ?_
    obtain ⟨row, hget, hstatus⟩ := Option.map_eq_some_iff.1 hcompleted
    simp [claimableIn, hget, DsarRequest.claimable, hstatus] at hclaimable
  | publishes id now =>
    refine hwrite (.complete _ _ _ _) rfl fun hcompleted => ?_
    cases hcompleted.symm.trans (hrunning rfl)
  | fails _ _ hprogress =>
    refine hwrite (.fail _ _ _) rfl fun hcompleted => ?_
    cases hcompleted.symm.trans (hrunning hprogress)
  | invalidates | completes => exact absurd hok.1 hdeleted
  | _ => exact ha

theorem artifact_complete {key : String} {expiresAt : Option ℤ} {now : ℤ} {row : DsarRequest}
    (hget : s.requests.get? id = some row) (htype : row.type = .export) :
    (id, key) ∈ (s.write (.complete id (some key) expiresAt now)).findCompletedExportArtifacts := by
  refine mem_artifacts.2 ⟨row.complete (some key) expiresAt now, ?_, htype, rfl, rfl⟩
  show (s.requests.modify id _).get? id = _
  rw [Table.get?_modify, if_pos rfl, hget]
  rfl

section Next
variable [DecidableEq ι]

theorem Fenced.accounted_act (h : Fenced subject w) (hinv : DsarInv subject w)
    (hleased : Leased w (.act i e)) :
    Accounted subject ((dsarSystem subject).next w (.act i e)) := by
  by_cases hdeleted : w.shared.deletedAt.isSome = true
  · exact (forward_act hinv (clean_of_leased h hleased)).accounted hdeleted h.accounted
  have hshared : ((dsarSystem subject).next w (.act i e)).shared = _ := shared_act
  have hmove : DsarMove subject w.shared (w.task i) e _ _ := dsarRun_move
  intro key hkey
  obtain hold | hnew := storage_act hkey
  swap
  · exact .inr hnew
  obtain ⟨a, ha, rfl⟩ | ⟨j, hj⟩ := h.accounted key hold
  · refine .inl ⟨a, ?_, rfl⟩
    rw [hshared]
    exact hmove.artifact_kept (h.running i) (hinv.runs i) hdeleted ha
  by_cases hji : j = i
  swap
  · exact .inr ⟨j, (congrArg _ (task_act_of_ne hji)).trans hj⟩
  subst hji
  by_cases hstill : ((w.task j).plan subject w.shared e).2.holds subject = some key
  · exact .inr ⟨j, (congrArg _ task_act_self).trans hstill⟩
  obtain hdelete | ⟨-, htype, expiresAt, now, hcomplete⟩ :=
    hmove.lets_go hleased.keepsHold hj hstill
  · rw [hshared, hdelete] at hkey
    exact absurd rfl (of_decide_eq_true (List.mem_filter.1 hkey).2)
  · left
    obtain ⟨row, hget, -⟩ := Option.map_eq_some_iff.1 (h.running j (holds_inProgress hj))
    refine ⟨((w.task j).id, key), ?_, rfl⟩
    rw [hshared, hcomplete]
    refine artifact_complete hget ?_
    rw [hinv.types _ row hget, ← hinv.runTypes j, htype]

theorem Fenced.act (h : Fenced subject w) (hinv : DsarInv subject w)
    (hleased : Leased w (.act i e)) :
    Fenced subject ((dsarSystem subject).next w (.act i e)) := by
  have hmove : DsarMove subject w.shared (w.task i) e _ _ := dsarRun_move
  have hself : ((dsarSystem subject).next w (.act i e)).task i = _ := task_act_self
  have hshared : ((dsarSystem subject).next w (.act i e)).shared = _ := shared_act
  have hfinished : StaysFinished w.shared ((dsarSystem subject).next w (.act i e)).shared :=
    staysFinished_next (clean_of_leased h hleased)
  have halone : ∀ j, j ≠ i → (w.task j).inProgress = true → Works w.shared (w.task i) e →
      (w.task j).id ≠ (w.task i).id := fun j hji hj => h.alone hleased.inLease hji hj
  refine ⟨fun j hj => ?_, fun j k hj hk hid => ?_, fun a ha => ?_, fun j key hheld => ?_,
    fun j key hkey => ?_, fun key hkey => ?_, h.accounted_act hinv hleased⟩
  · by_cases hji : j = i
    · subst hji
      rw [hself] at hj ⊢
      rw [hshared]
      exact hmove.running (h.running j) hj
    · rw [task_act_of_ne hji] at hj ⊢
      rw [hshared, ← h.running j hj]
      cases hwrite : ((w.task i).plan subject w.shared e).1 with
      | none => rfl
      | some write =>
        rw [hwrite] at hmove
        refine statusAt_write_of_ne fun hsets => ?_
        obtain ⟨hid, hworks⟩ := hmove.sets hsets
        exact halone j hji hj hworks hid
  · by_cases hji : j = i <;> by_cases hki : k = i
    · exact hji.trans hki.symm
    · subst hji
      rw [hself] at hj hid
      rw [task_act_of_ne hki] at hk hid
      exact absurd (hid.symm.trans hmove.acts.id) (halone k hki hk (hmove.works hj))
    · subst hki
      rw [hself] at hk hid
      rw [task_act_of_ne hji] at hj hid
      exact absurd (hid.trans hmove.acts.id) (halone j hji hj (hmove.works hk))
    · rw [task_act_of_ne hji] at hj hid
      rw [task_act_of_ne hki] at hk hid
      exact h.single j k hj hk hid
  · rw [hshared] at ha
    exact h.named_move hmove ha
  · by_cases hji : j = i
    · subst hji
      rw [hself] at hheld ⊢
      rw [hshared]
      exact hmove.inHand (h.inHand j) hheld
    · rw [task_act_of_ne hji] at hheld ⊢
      have hj := holds_inProgress hheld
      obtain ⟨rfl, hkey⟩ := h.inHand j key hheld
      refine ⟨rfl, ?_⟩
      rw [hshared]
      exact h.stored rfl hmove (h.running j hj) (fun hi => halone j hji hj (.inl hi)) hkey
  · have hlisted : key ∈ (w.task j).toPurge ∨
        ∃ a ∈ w.shared.findCompletedExportArtifacts, a.2 = key := by
      by_cases hji : j = i
      · subst hji
        rw [hself] at hkey
        exact hmove.listed hkey
      · rw [task_act_of_ne hji] at hkey
        exact .inl hkey
    obtain hold | ⟨a, ha, rfl⟩ := hlisted
    · obtain ⟨id, hnamed, hcompleted⟩ := h.listed j key hold
      exact ⟨id, hnamed, hfinished id hcompleted⟩
    · exact ⟨a.1, h.named a ha, hfinished a.1 (completed_of_artifact ha)⟩
  · rw [hshared] at hkey ⊢
    obtain ⟨hgone, id, hnamed, hcompleted⟩ := h.purged_move rfl hmove hkey
    refine ⟨hgone, id, hnamed, ?_⟩
    rw [← hshared]
    exact hfinished id hcompleted

theorem Fenced.env {new : NewRequest} (h : Fenced subject w) :
    Fenced subject ((dsarSystem subject).next w (.env new)) := by
  have hstatus : ∀ {id status}, dsarStatusAt w.shared id = some status →
      dsarStatusAt (w.shared.create subject new) id = some status := by
    intro id status hat
    obtain ⟨row, hget, hstatus⟩ := Option.map_eq_some_iff.1 hat
    rw [dsarStatusAt, get?_create_of_some hget]
    exact congrArg some hstatus
  refine ⟨fun i hi => hstatus (h.running i hi), h.single,
    fun a ha => h.named a (artifacts_create.1 ha), h.inHand, fun i key hkey => ?_,
    fun key hkey => ?_, fun key hkey => ?_⟩
  · obtain ⟨id, hnamed, hcompleted⟩ := h.listed i key hkey
    exact ⟨id, hnamed, hstatus hcompleted⟩
  · obtain ⟨hgone, id, hnamed, hcompleted⟩ := h.purged key hkey
    exact ⟨hgone, id, hnamed, hstatus hcompleted⟩
  · obtain ⟨a, ha, hsame⟩ | hheld := h.accounted key hkey
    · exact .inl ⟨a, artifacts_create.2 ha, hsame⟩
    · exact .inr hheld

theorem Fenced.next {ev : Event ι DsarEvent NewRequest} (h : Fenced subject w)
    (hinv : DsarInv subject w) (hleased : Leased w ev) :
    Fenced subject ((dsarSystem subject).next w ev) := by
  cases ev with
  | act i e => exact h.act hinv hleased
  | env new => exact h.env

end Next

end Step

theorem not_inProgress_of_waiting (h : t.waiting = true) : t.inProgress = false := by
  cases t with
  | exportRun id stage => cases stage <;> first | rfl | cases h
  | erasureRun id stage => cases stage <;> first | rfl | cases h

theorem fenced_start {run : ι → DsarRun} (hwaiting : ∀ i, (run i).waiting = true) :
    Fenced subject (dsarStart run) := by
  have hidle : ∀ i, (run i).inProgress = false := fun i => not_inProgress_of_waiting (hwaiting i)
  refine ⟨fun i hi => ?_, fun i j hi => ?_, nofun, fun i key hheld => ?_, fun i key hkey => ?_,
    nofun, nofun⟩
  · exact nomatch hi.symm.trans (hidle i)
  · exact nomatch hi.symm.trans (hidle i)
  · exact nomatch (holds_of_not_inProgress (hidle i)).symm.trans hheld
  · rw [show (dsarStart run).task i = run i from rfl, toPurge_of_not_inProgress (hidle i)] at hkey
    cases hkey

theorem Fenced.there_iff (h : Fenced subject w) (hinv : DsarInv subject w) :
    (∀ a ∈ w.shared.findCompletedExportArtifacts, a.2 ∈ w.shared.storage) ↔
      ∀ a ∈ w.shared.findCompletedExportArtifacts, a.2 ∉ w.shared.purged := by
  constructor
  · intro hthere a ha hpurged
    exact (h.purged a.2 hpurged).1 (hthere a ha)
  · intro hnot a ha
    exact (hinv.there a ha).resolve_right (hnot a ha)

variable [DecidableEq ι]

/-- Over a run of workers within their leases, whose artifacts are not left in hand by a fault. -/
theorem finished_of_leased {run : ι → DsarRun} {evs : List (Event ι DsarEvent NewRequest)}
    (hwaiting : ∀ i, (run i).waiting = true)
    (htype : ∀ i, (run i).type = subject.requestType (run i).id)
    (hleased : ∀ x ∈ (dsarSystem subject).transitions (dsarStart run) evs, Leased x.1 x.2) :
    (∀ w ∈ (dsarSystem subject).visited (dsarStart run) evs, NoArtifactLeft w ∧
      ((∀ a ∈ w.shared.findCompletedExportArtifacts, a.2 ∈ w.shared.storage) ↔
        ∀ a ∈ w.shared.findCompletedExportArtifacts, a.2 ∉ w.shared.purged)) ∧
    ∀ x ∈ (dsarSystem subject).transitions (dsarStart run) evs,
      StaysFinished x.1.shared ((dsarSystem subject).next x.1 x.2).shared := by
  have hboth : ∀ w ∈ (dsarSystem subject).visited (dsarStart run) evs,
      DsarInv subject w ∧ Fenced subject w := by
    refine (dsarSystem subject).visited_induct (fun w ev hinv hlease => ?_)
      ⟨dsarInv_start hwaiting htype, fenced_start hwaiting⟩ hleased
    exact ⟨dsarInv_next hinv.1 (clean_of_leased hinv.2 hlease), hinv.2.next hinv.1 hlease⟩
  refine ⟨fun w hw => ?_, fun x hx => ?_⟩
  · obtain ⟨hinv, hfenced⟩ := hboth w hw
    exact ⟨hinv.noArtifactLeft, hfenced.there_iff hinv⟩
  · obtain ⟨-, hfenced⟩ := hboth x.1 (System.fst_mem_visited hx)
    exact staysFinished_next (clean_of_leased hfenced (hleased x hx))

instance [Fintype ι] : (ev : Event ι DsarEvent NewRequest) → Decidable (InLease w ev)
  | .act i (.next now) => inferInstanceAs (Decidable ((w.task i).waiting = true → ∀ j,
      (w.task j).id = (w.task i).id → (w.task j).inProgress = true →
        freshIn w.shared (w.task i).id now = true))
  | .act _ (.throw _) | .act _ .crash | .env _ => .isTrue trivial

instance : (ev : Event ι DsarEvent NewRequest) → Decidable (KeepsHold w ev)
  | .act i e => inferInstanceAs (Decidable ((w.task i).letsGo e = false))
  | .env _ => .isTrue trivial

instance [Fintype ι] (ev : Event ι DsarEvent NewRequest) : Decidable (Leased w ev) :=
  decidable_of_iff (InLease w ev ∧ KeepsHold w ev) ⟨fun h => ⟨h.1, h.2⟩, fun h => ⟨h.1, h.2⟩⟩

def subjectErasedBy (erasureId : String) : Subject where
  projectId := "p"
  subscriberId := "s"
  requestType id := if id = erasureId then .erasure else .export

def twoExportsAndErasure : Fin 3 → DsarRun
  | 0 => .exportRun "e" .waiting
  | 1 => .exportRun "f" .waiting
  | 2 => .erasureRun "d" .waiting

theorem finished_of_leased_overtaken :
    let evs : List (Event (Fin 3) DsarEvent NewRequest) :=
      [.env ⟨"e", 0⟩, .env ⟨"f", 0⟩, .env ⟨"d", 0⟩,
        .act 0 (.next 1), .act 0 (.next 1), .act 0 (.next 1), .act 0 (.next 1),
        .act 1 (.next 2), .act 1 (.next 2), .act 1 (.next 2),
        .act 2 (.next 3), .act 2 (.next 3), .act 2 (.next 3), .act 2 (.next 3),
        .act 1 (.next 4), .act 1 (.next 4), .act 1 (.next 4),
        .act 2 (.next 5), .act 2 (.next 5), .act 2 (.next 5)]
    (∀ w ∈ (dsarSystem (subjectErasedBy "d")).visited (dsarStart twoExportsAndErasure) evs,
      NoArtifactLeft w ∧
        ((∀ a ∈ w.shared.findCompletedExportArtifacts, a.2 ∈ w.shared.storage) ↔
          ∀ a ∈ w.shared.findCompletedExportArtifacts, a.2 ∉ w.shared.purged)) ∧
    ∀ x ∈ (dsarSystem (subjectErasedBy "d")).transitions (dsarStart twoExportsAndErasure) evs,
      StaysFinished x.1.shared ((dsarSystem (subjectErasedBy "d")).next x.1 x.2).shared :=
  finished_of_leased (by decide) (by decide) (by decide)

def twoAttemptsAndErasure : Fin 3 → DsarRun
  | 0 => .exportRun "e" .waiting
  | 1 => .exportRun "e" .waiting
  | 2 => .erasureRun "d" .waiting

/-- The second attempt takes the first one's stale claim over and completes the request. Then a
call of the first one throws, and its handler fails the request. -/
theorem completed_then_failed :
    let evs : List (Event (Fin 3) DsarEvent NewRequest) :=
      [.env ⟨"e", 0⟩, .act 0 (.next 0), .act 1 (.next 240001), .act 1 (.next 240001),
        .act 1 (.next 240001), .act 1 (.next 240001), .act 0 (.throw "timeout"),
        .act 0 (.next 240002)]
    ¬((∀ w ∈ (dsarSystem (subjectErasedBy "d")).visited (dsarStart twoAttemptsAndErasure) evs,
        NoArtifactLeft w ∧
          ∀ a ∈ w.shared.findCompletedExportArtifacts, a.2 ∈ w.shared.storage) ∧
      ∀ x ∈ (dsarSystem (subjectErasedBy "d")).transitions (dsarStart twoAttemptsAndErasure) evs,
        StaysFinished x.1.shared ((dsarSystem (subjectErasedBy "d")).next x.1 x.2).shared) := by
  intro evs h
  have hlast := h.2 ((dsarSystem (subjectErasedBy "d")).runAll (dsarStart twoAttemptsAndErasure)
    (evs.take 7), .act 0 (.next 240002)) (by simp [evs, System.transitions, System.runAll])
  exact absurd (hlast "e" (by decide)) (by decide)

example :
    let evs : List (Event (Fin 3) DsarEvent NewRequest) :=
  -- every call goes through, and between the delete and the invalidation the completed export names
  -- an artifact that is no longer there
      [.env ⟨"e", 0⟩, .env ⟨"d", 0⟩,
        .act 0 (.next 1), .act 0 (.next 1), .act 0 (.next 1), .act 0 (.next 1),
        .act 2 (.next 3), .act 2 (.next 3), .act 2 (.next 3), .act 2 (.next 3)]
    ¬ ∀ w ∈ (dsarSystem (subjectErasedBy "d")).visited (dsarStart twoExportsAndErasure) evs,
      ∀ a ∈ w.shared.findCompletedExportArtifacts, a.2 ∈ w.shared.storage := by
  decide

end Rovenue.Gdpr
