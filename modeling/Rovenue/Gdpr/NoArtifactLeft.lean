import Rovenue.Gdpr.DsarActs

/-! Steps that leave each other's requests and artifacts alone keep the promises: an erasure that
completes leaves no artifact, a completed export keeps its own until an erasure deletes it, and
what is completed stays so. -/

namespace Rovenue.Gdpr
open Txn (Table)
open Threads

variable {s : DsarState} {write : DsarWrite} {a : String × String}
variable {subject : Subject} {t : DsarRun} {e : DsarEvent}

variable {ι : Type}

def Held (subject : Subject) (w : DsarWorld ι) (key : String) : Prop :=
  ∃ i, (w.task i).holds subject = some key

/-- Past the anonymization nothing is published any more, and what is in hand stays so until it
is deleted. -/
structure Forward (subject : Subject) (w w' : DsarWorld ι) : Prop where
  deleted : w.shared.deletedAt.isSome = true → w'.shared.deletedAt.isSome = true
  artifacts : w.shared.deletedAt.isSome = true →
    ∀ a ∈ w'.shared.findCompletedExportArtifacts, a ∈ w.shared.findCompletedExportArtifacts
  held : w.shared.deletedAt.isSome = true → ∀ key, Held subject w key →
    key ∈ w'.shared.storage → Held subject w' key
  storage : ∀ key ∈ w'.shared.storage, key ∈ w.shared.storage ∨ Held subject w' key
  dropped : w.shared.deletedAt.isSome = true → ∀ a ∈ w.shared.findCompletedExportArtifacts,
    a ∉ w'.shared.findCompletedExportArtifacts → a.2 ∈ w'.shared.storage → Held subject w' a.2

variable {w w' : DsarWorld ι}

theorem Forward.accounted (h : Forward subject w w') (hdeleted : w.shared.deletedAt.isSome = true)
    (hall : Accounted subject w) : Accounted subject w' := by
  intro key hkey
  obtain hkey' | hheld := h.storage key hkey
  · obtain ⟨a, ha, rfl⟩ | hheld := hall key hkey'
    · by_cases ha' : a ∈ w'.shared.findCompletedExportArtifacts
      · exact .inl ⟨a, ha', rfl⟩
      · exact .inr (h.dropped hdeleted a ha ha' hkey)
    · exact .inr (h.held hdeleted key hheld hkey)
  · exact .inr hheld

theorem Forward.gone (h : Forward subject w w') (hdeleted : w.shared.deletedAt.isSome = true)
    {key : String} (hgone : key ∉ w.shared.storage ∨ Held subject w key) :
    key ∉ w'.shared.storage ∨ Held subject w' key := by
  by_cases hkey : key ∈ w'.shared.storage
  · right
    obtain hkey' | hheld := h.storage key hkey
    · exact h.held hdeleted key (hgone.resolve_left fun hnot => hnot hkey') hkey
    · exact hheld
  · exact .inl hkey

def RunOk (subject : Subject) (w : DsarWorld ι) : DsarRun → Prop
  | .erasureRun _ .anonymized => w.shared.deletedAt.isSome = true
  | .erasureRun _ (.purging rest ids) => w.shared.deletedAt.isSome = true ∧ Accounted subject w ∧
    ∀ a ∈ w.shared.findCompletedExportArtifacts, a.1 ∈ ids ∧
      (a.2 ∉ rest → a.2 ∉ w.shared.storage ∨ Held subject w a.2)
  | .erasureRun _ .purged | .erasureRun _ .swept => w.shared.deletedAt.isSome = true ∧
    Accounted subject w ∧ w.shared.findCompletedExportArtifacts = []
  | _ => True

theorem Forward.nil (h : Forward subject w w') (hdeleted : w.shared.deletedAt.isSome = true)
    (hnil : w.shared.findCompletedExportArtifacts = []) :
    w'.shared.findCompletedExportArtifacts = [] := by
  rw [List.eq_nil_iff_forall_not_mem] at hnil ⊢
  exact fun a ha => hnil a (h.artifacts hdeleted a ha)

theorem Forward.runOk (h : Forward subject w w') (ht : RunOk subject w t) :
    RunOk subject w' t := by
  cases t with
  | exportRun id stage => trivial
  | erasureRun id stage =>
    cases stage with
    | anonymized => exact h.deleted ht
    | purging rest ids =>
      obtain ⟨hdeleted, hall, hrows⟩ := ht
      refine ⟨h.deleted hdeleted, h.accounted hdeleted hall, fun a ha => ?_⟩
      obtain ⟨hid, hgone⟩ := hrows a (h.artifacts hdeleted a ha)
      exact ⟨hid, fun hrest => h.gone hdeleted (hgone hrest)⟩
    | purged | swept =>
      obtain ⟨hdeleted, hall, hnil⟩ := ht
      exact ⟨h.deleted hdeleted, h.accounted hdeleted hall, h.nil hdeleted hnil⟩
    | _ => trivial

structure DsarInv (subject : Subject) (w : DsarWorld ι) : Prop where
  types : ∀ id row, w.shared.requests.get? id = some row → row.type = subject.requestType id
  runTypes : ∀ i, (w.task i).type = subject.requestType (w.task i).id
  there : ArtifactsThere w.shared
  erased : w.shared.erased → w.shared.deletedAt.isSome = true ∧ Accounted subject w ∧
    w.shared.findCompletedExportArtifacts = []
  runs : ∀ i, RunOk subject w (w.task i)

theorem type_write {id : String} {row' : DsarRequest}
    (h : (s.write write).requests.get? id = some row') :
    ∃ row, s.requests.get? id = some row ∧ row'.type = row.type := by
  obtain ⟨row, hget, hwrite⟩ := row_write h
  refine ⟨row, hget, ?_⟩
  cases hwrite <;> rfl

section Step
variable [DecidableEq ι] {i : ι}

theorem shared_act : ((dsarSystem subject).next w (.act i e)).shared =
    ((w.task i).plan subject w.shared e).1.elim w.shared w.shared.write := rfl

theorem task_act_self : ((dsarSystem subject).next w (.act i e)).task i =
    ((w.task i).plan subject w.shared e).2 := Function.update_self ..

theorem task_act_of_ne {j : ι} (hj : j ≠ i) :
    ((dsarSystem subject).next w (.act i e)).task j = w.task j := Function.update_of_ne hj ..

theorem held_act (hclean : Clean subject w (.act i e)) {key : String}
    (hdeleted : w.shared.deletedAt.isSome = true) (hheld : Held subject w key)
    (hkey : key ∈ ((dsarSystem subject).next w (.act i e)).shared.storage) :
    Held subject ((dsarSystem subject).next w (.act i e)) key := by
  obtain ⟨j, hj⟩ := hheld
  refine ⟨j, ?_⟩
  by_cases hji : j = i
  · subst hji
    rw [task_act_self]
    by_contra hlost
    have hdelete := hclean.cleansUp key hj hdeleted hlost
    rw [shared_act, hdelete] at hkey
    exact absurd rfl (of_decide_eq_true (List.mem_filter.1 hkey).2)
  · rw [task_act_of_ne hji]
    exact hj

theorem storage_act {key : String}
    (hkey : key ∈ ((dsarSystem subject).next w (.act i e)).shared.storage) :
    key ∈ w.shared.storage ∨ Held subject ((dsarSystem subject).next w (.act i e)) key := by
  have hacts : DsarActs subject w.shared (w.task i) ((w.task i).plan subject w.shared e) :=
    dsarRun_acts
  rw [shared_act] at hkey
  cases hwrite : ((w.task i).plan subject w.shared e).1 with
  | none =>
    rw [hwrite] at hkey
    exact .inl hkey
  | some write =>
    rw [hwrite] at hkey
    cases write with
    | put key' =>
      obtain rfl | hkey := List.mem_cons.1 hkey
      · refine .inr ⟨i, ?_⟩
        rw [task_act_self]
        exact hacts.put key hwrite
      · exact .inl hkey
    | delete key' => exact .inl (List.mem_filter.1 hkey).1
    | purge key' => exact .inl (List.mem_filter.1 hkey).1
    | _ => exact .inl hkey

theorem artifacts_act (hdeleted : w.shared.deletedAt.isSome = true)
    (ha : a ∈ ((dsarSystem subject).next w (.act i e)).shared.findCompletedExportArtifacts) :
    a ∈ w.shared.findCompletedExportArtifacts := by
  have hacts : DsarActs subject w.shared (w.task i) ((w.task i).plan subject w.shared e) :=
    dsarRun_acts
  rw [shared_act] at ha
  cases hwrite : ((w.task i).plan subject w.shared e).1 with
  | none =>
    rw [hwrite] at ha
    exact ha
  | some write =>
    rw [hwrite] at ha
    obtain ha | ⟨expiresAt, now, rfl⟩ := artifact_write ha
    · exact ha
    · obtain ⟨-, ⟨hnone, -⟩ | ⟨hnone, -⟩⟩ := hacts.complete _ _ _ _ hwrite
      · rw [hnone] at hdeleted
        cases hdeleted
      · cases hnone

theorem not_artifact_of_claimable {now : ℤ} (h : claimableIn s a.1 now = true) :
    a ∉ s.findCompletedExportArtifacts := by
  intro ha
  obtain ⟨row, hget, -, hstatus, -⟩ := mem_artifacts.1 ha
  simp [claimableIn, hget, DsarRequest.claimable, hstatus] at h

theorem dropped_act (hinv : DsarInv subject w) (hclean : Clean subject w (.act i e))
    (hdeleted : w.shared.deletedAt.isSome = true) (ha : a ∈ w.shared.findCompletedExportArtifacts)
    (ha' : a ∉ ((dsarSystem subject).next w (.act i e)).shared.findCompletedExportArtifacts)
    (hkey : a.2 ∈ ((dsarSystem subject).next w (.act i e)).shared.storage) :
    Held subject ((dsarSystem subject).next w (.act i e)) a.2 := by
  have hacts : DsarActs subject w.shared (w.task i) ((w.task i).plan subject w.shared e) :=
    dsarRun_acts
  have hshared : ((dsarSystem subject).next w (.act i e)).shared =
      ((w.task i).plan subject w.shared e).1.elim w.shared w.shared.write := shared_act
  cases hwrite : ((w.task i).plan subject w.shared e).1 with
  | none =>
    rw [hshared, hwrite] at ha'
    exact absurd ha ha'
  | some write =>
    rw [hshared, hwrite] at ha'
    have hrow : a.1 ∈ write.rows := by
      by_contra hnot
      exact ha' (artifact_kept ha hnot)
    obtain ⟨row, hget, htype, hstatus, hnamed⟩ := mem_artifacts.1 ha
    cases write with
    | claim id now =>
      obtain rfl := List.mem_singleton.1 hrow
      exact absurd ha (not_artifact_of_claimable (hacts.claim _ _ hwrite))
    | fail id error now =>
      obtain rfl := List.mem_singleton.1 hrow
      have hopen := hclean.undisturbed _ hwrite
      rw [DsarWrite.Undisturbed, dsarStatusAt, hget] at hopen
      exact absurd (congrArg some hstatus) hopen
    | complete id key expiresAt now =>
      obtain rfl := List.mem_singleton.1 hrow
      obtain ⟨hid, ⟨hnone, -⟩ | ⟨-, hrun⟩⟩ := hacts.complete _ _ _ _ hwrite
      · rw [hnone] at hdeleted
        cases hdeleted
      · -- a request of one type is not completed by a run of the other
        have htypes := hinv.runTypes i
        rw [hrun] at htypes
        have hother := hinv.types _ row hget
        rw [htype] at hother
        exact nomatch hother.trans htypes.symm
    | invalidate ids now =>
      obtain ⟨id, hrun, -⟩ := hacts.invalidate ids now hwrite
      have hok := hinv.runs i
      rw [hrun] at hok
      have hgone := (hok.2.2 a ha).2 List.not_mem_nil
      have hsame : ((dsarSystem subject).next w (.act i e)).shared.storage = w.shared.storage := by
        rw [hshared, hwrite]
        rfl
      rw [hsame] at hkey
      exact held_act hclean hdeleted (hgone.resolve_left fun hnot => hnot hkey) (hsame ▸ hkey)
    | _ => cases hrow

theorem forward_act (hinv : DsarInv subject w) (hclean : Clean subject w (.act i e)) :
    Forward subject w ((dsarSystem subject).next w (.act i e)) where
  deleted hdeleted := by
    rw [shared_act]
    cases ((w.task i).plan subject w.shared e).1 with
    | none => exact hdeleted
    | some write =>
      cases write with
      | anonymize now => rfl
      | _ => exact hdeleted
  artifacts hdeleted _ ha := artifacts_act hdeleted ha
  held hdeleted _ hheld hkey := held_act hclean hdeleted hheld hkey
  storage _ hkey := storage_act hkey
  dropped hdeleted _ ha ha' hkey := dropped_act hinv hclean hdeleted ha ha' hkey

theorem runOk_self (hinv : DsarInv subject w) (hclean : Clean subject w (.act i e)) :
    RunOk subject ((dsarSystem subject).next w (.act i e))
      ((w.task i).plan subject w.shared e).2 := by
  have hforward := forward_act hinv hclean
  have hshared : ((dsarSystem subject).next w (.act i e)).shared =
      ((w.task i).plan subject w.shared e).1.elim w.shared w.shared.write := shared_act
  have hok := hinv.runs i
  cases hrun : w.task i with
  | exportRun id stage => trivial
  | erasureRun id stage =>
    rw [hrun] at hshared hok
    cases stage with
    | claimed =>
      cases e with
      | next now =>
        show ((dsarSystem subject).next w (.act i (.next now))).shared.deletedAt.isSome = true
        rw [hshared]
        rfl
      | _ => trivial
    | anonymized =>
      cases e with
      | next now =>
        have hdeleted : w.shared.deletedAt.isSome = true := hok
        have hlisting : (w.task i).lists (.next now) = true := by
          rw [hrun]
          rfl
        have hall : Accounted subject w := hclean.listsAll hlisting
        simp only [DsarRun.plan, erasurePlan]
        split_ifs with hnil
        · exact ⟨hforward.deleted hdeleted, hforward.accounted hdeleted hall,
            hforward.nil hdeleted hnil⟩
        · refine ⟨hforward.deleted hdeleted, hforward.accounted hdeleted hall, fun a ha => ?_⟩
          have hlisted := hforward.artifacts hdeleted a ha
          exact ⟨List.mem_map_of_mem hlisted, fun hrest =>
            absurd (List.mem_map_of_mem hlisted) hrest⟩
      | _ => trivial
    | purging rest ids =>
      cases e with
      | next now =>
        obtain ⟨hdeleted, hall, hrows⟩ := hok
        cases rest with
        | cons key rest =>
          refine ⟨hforward.deleted hdeleted, hforward.accounted hdeleted hall, fun a ha => ?_⟩
          obtain ⟨hid, hgone⟩ := hrows a (hforward.artifacts hdeleted a ha)
          refine ⟨hid, fun hrest => ?_⟩
          by_cases hkey : a.2 = key
          · left
            rw [hshared]
            exact fun hmem => of_decide_eq_true (List.mem_filter.1 hmem).2 hkey
          · have hnot : a.2 ∉ key :: rest := by
              rw [List.mem_cons]
              exact not_or.2 ⟨hkey, hrest⟩
            exact hforward.gone hdeleted (hgone hnot)
        | nil =>
          refine ⟨hforward.deleted hdeleted, hforward.accounted hdeleted hall, ?_⟩
          rw [List.eq_nil_iff_forall_not_mem]
          intro a ha
          have hid := (hrows a (hforward.artifacts hdeleted a ha)).1
          -- the row that it named an artifact in no longer does
          rw [hshared] at ha
          obtain ⟨row, hget, -, -, hnamed⟩ := mem_artifacts.1 ha
          change (w.shared.write (.invalidate ids now)).requests.get? a.1 = some row at hget
          rw [get?_invalidate, if_pos hid] at hget
          obtain ⟨row, -, rfl⟩ := Option.map_eq_some_iff.1 hget
          cases hnamed
      | _ => cases rest <;> trivial
    | purged =>
      cases e with
      | next now =>
        obtain ⟨hdeleted, hall, hnil⟩ := hok
        exact ⟨hforward.deleted hdeleted, hforward.accounted hdeleted hall,
          hforward.nil hdeleted hnil⟩
      | _ => trivial
    | swept => cases e <;> trivial
    | waiting =>
      cases e with
      | next now =>
        simp only [DsarRun.plan, erasurePlan]
        split_ifs <;> trivial
      | _ => trivial
    | _ => cases e <;> trivial

end Step

theorem artifactsThere_write (hthere : ArtifactsThere s) (hundisturbed : write.Undisturbed s) :
    ArtifactsThere (s.write write) := by
  intro a ha
  obtain ha | ⟨expiresAt, now, rfl⟩ := artifact_write ha
  · have hstored := hthere a ha
    cases write with
    | put key => exact hstored.imp (fun h => List.mem_cons.2 (.inr h)) id
    | delete key =>
      have hne : a.2 ≠ key := hundisturbed a ha
      exact hstored.imp (fun h => List.mem_filter.2 ⟨h, decide_eq_true hne⟩) id
    | purge key =>
      by_cases hkey : a.2 = key
      · exact .inr (List.mem_cons.2 (.inl hkey))
      · obtain hmem | hmem := hstored
        · exact .inl (List.mem_filter.2 ⟨hmem, decide_eq_true hkey⟩)
        · exact .inr (List.mem_cons.2 (.inr hmem))
    | _ => exact hstored
  · exact .inl (hundisturbed a.2 rfl)

theorem statusAt_modify {t : Table String DsarRequest} {id id' : String}
    {f : DsarRequest → DsarRequest} (h : (t.get? id).map DsarRequest.status = some .completed)
    (hf : id' = id → ∀ row, t.get? id = some row → (f row).status = .completed) :
    ((t.modify id' f).get? id).map DsarRequest.status = some .completed := by
  obtain ⟨row, hget, hstatus⟩ := Option.map_eq_some_iff.1 h
  rw [Table.get?_modify, hget]
  split_ifs with hid
  · exact congrArg some (hf hid.symm row hget)
  · exact congrArg some hstatus

theorem staysFinished_write
    (hclaim : ∀ id now, write = .claim id now → claimableIn s id now = true)
    (hundisturbed : write.Undisturbed s) : StaysFinished s (s.write write) := by
  intro id h
  cases write with
  | claim id' now =>
    refine statusAt_modify h fun hid row hget => ?_
    have hclaimable := hclaim id' now rfl
    subst hid
    -- a completed row is not one to claim
    have hstatus : row.status = .completed := by simpa [dsarStatusAt, hget] using h
    simp [claimableIn, hget, DsarRequest.claimable, hstatus] at hclaimable
  | complete id' key expiresAt now => exact statusAt_modify h fun _ _ _ => rfl
  | fail id' error now =>
    refine statusAt_modify h fun hid row hget => ?_
    subst hid
    exact absurd h hundisturbed
  | invalidate ids now =>
    show ((s.write _).requests.get? id).map _ = _
    rw [get?_invalidate]
    split_ifs
    · rw [Option.map_map]
      exact h
    · exact h
  | _ => exact h

theorem erased_write (h : (s.write write).erased) : s.erased ∨
    ∃ id key expiresAt now row, write = .complete id key expiresAt now ∧
      s.requests.get? id = some row ∧ row.type = .erasure := by
  obtain ⟨id, row', hget', htype, hstatus⟩ := h
  obtain ⟨row, hget, hwrite⟩ := row_write hget'
  cases hwrite with
  | kept => exact .inl ⟨id, row', hget, htype, hstatus⟩
  | claim now => cases hstatus
  | complete key expiresAt now => exact .inr ⟨id, key, expiresAt, now, row, rfl, hget, htype⟩
  | fail error now => cases hstatus
  | invalidate ids now => exact .inl ⟨id, row, hget, htype, hstatus⟩

variable {new : NewRequest}

theorem row_create {id : String} {row : DsarRequest}
    (h : (s.create subject new).requests.get? id = some row) :
    s.requests.get? id = some row ∨
      row = { type := subject.requestType id, updatedAt := new.now } := by
  change (s.requests.insert new.id _).get? id = some row at h
  rw [Table.get?_insert] at h
  split_ifs at h with hid
  · subst hid
    cases hget : s.requests.get? new.id with
    | none =>
      rw [hget] at h
      exact .inr (Option.some.inj h).symm
    | some row₀ =>
      rw [hget] at h
      exact .inl h
  · exact .inl h

theorem get?_create_of_some {id : String} {row : DsarRequest}
    (h : s.requests.get? id = some row) : (s.create subject new).requests.get? id = some row := by
  show (s.requests.insert new.id _).get? id = some row
  rw [Table.get?_insert]
  split_ifs with hid
  · subst hid
    rw [h]
    rfl
  · exact h

theorem artifacts_create : a ∈ (s.create subject new).findCompletedExportArtifacts ↔
    a ∈ s.findCompletedExportArtifacts := by
  rw [mem_artifacts, mem_artifacts]
  constructor
  · intro ⟨row, hget, htype, hstatus, hnamed⟩
    obtain hold | rfl := row_create hget
    · exact ⟨row, hold, htype, hstatus, hnamed⟩
    · cases hstatus
  · intro ⟨row, hget, hrow⟩
    exact ⟨row, get?_create_of_some hget, hrow⟩

theorem staysFinished_create : StaysFinished s (s.create subject new) := by
  intro id h
  obtain ⟨row, hget, hstatus⟩ := Option.map_eq_some_iff.1 h
  rw [dsarStatusAt, get?_create_of_some hget]
  exact congrArg some hstatus

theorem erased_create (h : (s.create subject new).erased) : s.erased := by
  obtain ⟨id, row, hget, htype, hstatus⟩ := h
  obtain hold | rfl := row_create hget
  · exact ⟨id, row, hold, htype, hstatus⟩
  · cases hstatus

theorem runOk_of_waiting (h : t.waiting = true) : RunOk subject w t := by
  cases t with
  | exportRun id stage => trivial
  | erasureRun id stage =>
    cases stage with
    | waiting => trivial
    | _ => cases h

theorem dsarInv_start {run : ι → DsarRun} (hwaiting : ∀ i, (run i).waiting = true)
    (htype : ∀ i, (run i).type = subject.requestType (run i).id) :
    DsarInv subject (dsarStart run) where
  types _ _ h := nomatch h
  runTypes := htype
  there _ ha := nomatch ha
  erased := fun ⟨_, _, h, _⟩ => nomatch h
  runs i := runOk_of_waiting (hwaiting i)

theorem holds_of_not_inProgress (h : t.inProgress = false) : t.holds subject = none := by
  cases t with
  | erasureRun id stage => rfl
  | exportRun id stage =>
    cases stage with
    | written | failing => cases h
    | _ => rfl

theorem DsarInv.noArtifactLeft (hinv : DsarInv subject w) : NoArtifactLeft w := by
  intro herased hidle
  obtain ⟨-, hall, hnil⟩ := hinv.erased herased
  rw [List.eq_nil_iff_forall_not_mem]
  intro key hkey
  obtain ⟨a, ha, -⟩ | ⟨i, hheld⟩ := hall key hkey
  · rw [hnil] at ha
    cases ha
  · rw [holds_of_not_inProgress (hidle i)] at hheld
    cases hheld

variable [DecidableEq ι]

theorem forward_env : Forward subject w ((dsarSystem subject).next w (.env new)) where
  deleted := id
  artifacts _ _ ha := artifacts_create.1 ha
  held _ _ hheld _ := hheld
  storage _ hkey := .inl hkey
  dropped _ _ ha ha' := absurd (artifacts_create.2 ha) ha'

theorem dsarInv_env (hinv : DsarInv subject w) :
    DsarInv subject ((dsarSystem subject).next w (.env new)) where
  types id row h := by
    obtain hold | rfl := row_create h
    · exact hinv.types id row hold
    · rfl
  runTypes := hinv.runTypes
  there _ ha := hinv.there _ (artifacts_create.1 ha)
  erased h := by
    obtain ⟨hdeleted, hall, hnil⟩ := hinv.erased (erased_create h)
    exact ⟨hdeleted, forward_env.accounted hdeleted hall, forward_env.nil hdeleted hnil⟩
  runs i := forward_env.runOk (hinv.runs i)

theorem dsarInv_act {i : ι} (hinv : DsarInv subject w) (hclean : Clean subject w (.act i e)) :
    DsarInv subject ((dsarSystem subject).next w (.act i e)) := by
  have hforward := forward_act hinv hclean
  have hacts : DsarActs subject w.shared (w.task i) ((w.task i).plan subject w.shared e) :=
    dsarRun_acts
  have hshared : ((dsarSystem subject).next w (.act i e)).shared =
      ((w.task i).plan subject w.shared e).1.elim w.shared w.shared.write := shared_act
  refine ⟨fun id row hget => ?_, fun j => ?_, ?_, fun herased => ?_, fun j => ?_⟩
  · rw [hshared] at hget
    cases hwrite : ((w.task i).plan subject w.shared e).1 with
    | none =>
      rw [hwrite] at hget
      exact hinv.types id row hget
    | some write =>
      rw [hwrite] at hget
      obtain ⟨row₀, hget₀, htype⟩ := type_write hget
      exact htype.trans (hinv.types id row₀ hget₀)
  · by_cases hj : j = i
    · subst hj
      rw [task_act_self, hacts.type, hacts.id]
      exact hinv.runTypes j
    · rw [task_act_of_ne hj]
      exact hinv.runTypes j
  · rw [hshared]
    cases hwrite : ((w.task i).plan subject w.shared e).1 with
    | none => exact hinv.there
    | some write => exact artifactsThere_write hinv.there (hclean.undisturbed write hwrite)
  · have hbefore : w.shared.deletedAt.isSome = true ∧ Accounted subject w ∧
        w.shared.findCompletedExportArtifacts = [] := by
      rw [hshared] at herased
      cases hwrite : ((w.task i).plan subject w.shared e).1 with
      | none =>
        rw [hwrite] at herased
        exact hinv.erased herased
      | some write =>
        rw [hwrite] at herased
        obtain herased | ⟨id, key, expiresAt, now, row, rfl, hget, htype⟩ := erased_write herased
        · exact hinv.erased herased
        · obtain ⟨rfl, ⟨-, hexport, -⟩ | ⟨-, hrun⟩⟩ := hacts.complete id key expiresAt now hwrite
          · have hsame := (hinv.types _ row hget).symm.trans htype
            rw [← hinv.runTypes i, hexport] at hsame
            cases hsame
          · -- by now the artifacts are purged
            have hok := hinv.runs i
            rw [hrun] at hok
            exact hok
    obtain ⟨hdeleted, hall, hnil⟩ := hbefore
    exact ⟨hforward.deleted hdeleted, hforward.accounted hdeleted hall,
      hforward.nil hdeleted hnil⟩
  · by_cases hj : j = i
    · subst hj
      rw [task_act_self]
      exact runOk_self hinv hclean
    · rw [task_act_of_ne hj]
      exact hforward.runOk (hinv.runs j)

theorem dsarInv_next {ev : Event ι DsarEvent NewRequest} (hinv : DsarInv subject w)
    (hclean : Clean subject w ev) : DsarInv subject ((dsarSystem subject).next w ev) := by
  cases ev with
  | act i e => exact dsarInv_act hinv hclean
  | env new => exact dsarInv_env hinv

theorem staysFinished_next {ev : Event ι DsarEvent NewRequest} (hclean : Clean subject w ev) :
    StaysFinished w.shared ((dsarSystem subject).next w ev).shared := by
  cases ev with
  | env new => exact staysFinished_create
  | act i e =>
    have hacts : DsarActs subject w.shared (w.task i) ((w.task i).plan subject w.shared e) :=
      dsarRun_acts
    rw [shared_act]
    cases hwrite : ((w.task i).plan subject w.shared e).1 with
    | none => exact fun _ h => h
    | some write =>
      refine staysFinished_write (fun id now hclaim => ?_) (hclean.undisturbed write hwrite)
      exact hacts.claim id now (hwrite.trans (congrArg some hclaim))

end Rovenue.Gdpr
