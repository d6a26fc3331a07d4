import Rovenue.Gdpr.DsarRequests

/-! What the writes do to the rows and to the artifacts that they name, and which run may make
which write. -/

namespace Rovenue.Gdpr
open Txn (Table)
open Threads

variable {s : DsarState} {write : DsarWrite} {a : String × String}

theorem mem_artifacts : a ∈ s.findCompletedExportArtifacts ↔ ∃ row,
    s.requests.get? a.1 = some row ∧ row.type = .export ∧ row.status = .completed ∧
      row.artifactKey = some a.2 := by
  simp only [DsarState.findCompletedExportArtifacts, List.mem_filterMap]
  constructor
  · rintro ⟨⟨id, row⟩, hmem, hkey⟩
    split_ifs at hkey with hrow
    obtain ⟨key, hnamed, rfl⟩ := Option.map_eq_some_iff.1 hkey
    exact ⟨row, s.requests.mem_entries.1 hmem, hrow.1, hrow.2, hnamed⟩
  · rintro ⟨row, hget, htype, hstatus, hnamed⟩
    refine ⟨(a.1, row), s.requests.mem_entries.2 hget, ?_⟩
    rw [if_pos ⟨htype, hstatus⟩, hnamed]
    rfl

def DsarWrite.rows : DsarWrite → List String
  | .claim id _ | .complete id _ _ _ | .fail id _ _ => [id]
  | .invalidate ids _ => ids
  | .put _ | .delete _ | .purge _ | .anonymize _ => []

theorem get?_invalidate {ids : List String} {now : ℤ} {id : String} :
    (s.write (.invalidate ids now)).requests.get? id =
      if id ∈ ids then (s.requests.get? id).map (DsarRequest.invalidate now)
      else s.requests.get? id := by
  have hidem : ∀ row, DsarRequest.invalidate now (DsarRequest.invalidate now row) =
      DsarRequest.invalidate now row := fun _ => rfl
  exact s.requests.get?_foldl_modify hidem ids

theorem get?_write_of_not_mem {id : String} (h : id ∉ write.rows) :
    (s.write write).requests.get? id = s.requests.get? id := by
  cases write with
  | claim id' now | complete id' key expiresAt now | fail id' error now =>
    show (s.requests.modify id' _).get? id = _
    rw [Table.get?_modify, if_neg fun hid => h (List.mem_singleton.2 hid)]
  | invalidate ids now => exact get?_invalidate.trans (if_neg h)
  | _ => rfl

theorem artifact_kept (h : a ∈ s.findCompletedExportArtifacts) (hrow : a.1 ∉ write.rows) :
    a ∈ (s.write write).findCompletedExportArtifacts := by
  rw [mem_artifacts] at h ⊢
  rw [get?_write_of_not_mem hrow]
  exact h

inductive RowWrite (id : String) (row : DsarRequest) : DsarWrite → DsarRequest → Prop
  | kept {write : DsarWrite} : RowWrite id row write row
  | claim (now : ℤ) : RowWrite id row (.claim id now) (row.claim now)
  | complete (key : Option String) (expiresAt : Option ℤ) (now : ℤ) :
    RowWrite id row (.complete id key expiresAt now) (row.complete key expiresAt now)
  | fail (error : String) (now : ℤ) : RowWrite id row (.fail id error now) (row.fail error now)
  | invalidate (ids : List String) (now : ℤ) :
    RowWrite id row (.invalidate ids now) (row.invalidate now)

theorem row_write {id : String} {row' : DsarRequest}
    (h : (s.write write).requests.get? id = some row') :
    ∃ row, s.requests.get? id = some row ∧ RowWrite id row write row' := by
  by_cases hrow : id ∈ write.rows
  swap
  · rw [get?_write_of_not_mem hrow] at h
    exact ⟨row', h, .kept⟩
  have hmodify : ∀ f : DsarRequest → DsarRequest, (s.requests.modify id f).get? id = some row' →
      ∃ row, s.requests.get? id = some row ∧ f row = row' := by
    intro f hget
    rw [Table.get?_modify, if_pos rfl] at hget
    exact Option.map_eq_some_iff.1 hget
  cases write with
  | claim id' now =>
    obtain rfl := List.mem_singleton.1 hrow
    obtain ⟨row, hget, rfl⟩ := hmodify (DsarRequest.claim now) h
    exact ⟨row, hget, .claim now⟩
  | complete id' key expiresAt now =>
    obtain rfl := List.mem_singleton.1 hrow
    obtain ⟨row, hget, rfl⟩ := hmodify (DsarRequest.complete key expiresAt now) h
    exact ⟨row, hget, .complete key expiresAt now⟩
  | fail id' error now =>
    obtain rfl := List.mem_singleton.1 hrow
    obtain ⟨row, hget, rfl⟩ := hmodify (DsarRequest.fail error now) h
    exact ⟨row, hget, .fail error now⟩
  | invalidate ids now =>
    have hids : id ∈ ids := hrow
    rw [get?_invalidate, if_pos hids] at h
    obtain ⟨row, hget, rfl⟩ := Option.map_eq_some_iff.1 h
    exact ⟨row, hget, .invalidate ids now⟩
  | _ => cases hrow

theorem artifact_write (h : a ∈ (s.write write).findCompletedExportArtifacts) :
    a ∈ s.findCompletedExportArtifacts ∨
      ∃ expiresAt now, write = .complete a.1 (some a.2) expiresAt now := by
  obtain ⟨row', hget', htype, hstatus, hnamed⟩ := mem_artifacts.1 h
  obtain ⟨row, hget, hwrite⟩ := row_write hget'
  cases hwrite with
  | kept => exact .inl (mem_artifacts.2 ⟨row', hget, htype, hstatus, hnamed⟩)
  | claim now => cases hstatus
  | complete key expiresAt now =>
    obtain rfl : key = some a.2 := hnamed
    exact .inr ⟨expiresAt, now, rfl⟩
  | fail error now => cases hstatus
  | invalidate ids now => cases hnamed

inductive DsarMove (subject : Subject) (s : DsarState) :
    DsarRun → DsarEvent → Option DsarWrite → DsarRun → Prop
  | quiet {t t' : DsarRun} {e : DsarEvent} (hid : t'.id = t.id) (htype : t'.type = t.type)
    (hprogress : t'.inProgress = true → t.inProgress = true)
    (hholds : t'.holds subject = t.holds subject) (hpurge : t'.toPurge = []) :
    DsarMove subject s t e none t'
  | drops {id key : String} {t : DsarRun} {stage' : ExportStage} {e : DsarEvent}
    (hprogress : t.inProgress = true) (hid : t.id = id) (htype : t.type = .export)
    (hholds : t.holds subject = some key) (hgo : t.letsGo e = true)
    (hstage : stage' = .lost ∨ ∃ message, stage' = .failing none message) :
    DsarMove subject s t e none (.exportRun id stage')
  | claims {t t' : DsarRun} {now : ℤ} (hid : t'.id = t.id) (htype : t'.type = t.type)
    (hwaiting : t.waiting = true) (hclaimable : claimableIn s t.id now = true)
    (hholds : t'.holds subject = none) (hpurge : t'.toPurge = []) :
    DsarMove subject s t (.next now) (some (.claim t.id now)) t'
  | puts (id : String) (now : ℤ) :
    DsarMove subject s (.exportRun id .read) (.next now)
      (some (.put (buildDsarExportStorageKey subject.projectId id))) (.exportRun id .written)
  | publishes (id : String) (now : ℤ) (hdeleted : s.deletedAt = none) :
    DsarMove subject s (.exportRun id .written) (.next now)
      (some (.complete id (some (buildDsarExportStorageKey subject.projectId id))
        (some (now + artifactTtlMs)) now)) (.exportRun id .finished)
  | deletes (id key message : String) (now : ℤ) :
    DsarMove subject s (.exportRun id (.failing (some key) message)) (.next now)
      (some (.delete key)) (.exportRun id (.failing none message))
  | fails {t t' : DsarRun} {error : String} {now : ℤ} (hid : t'.id = t.id)
    (htype : t'.type = t.type) (hprogress : t.inProgress = true) (hholds : t.holds subject = none)
    (hends : t'.inProgress = false) :
    DsarMove subject s t (.next now) (some (.fail t.id error now)) t'
  | anonymizes (id : String) (now : ℤ) :
    DsarMove subject s (.erasureRun id .claimed) (.next now) (some (.anonymize now))
      (.erasureRun id .anonymized)
  | lists (id : String) (now : ℤ) :
    DsarMove subject s (.erasureRun id .anonymized) (.next now) none
      (.erasureRun id (.purging (s.findCompletedExportArtifacts.map Prod.snd)
        (s.findCompletedExportArtifacts.map Prod.fst)))
  | purges (id key : String) (rest ids : List String) (now : ℤ) :
    DsarMove subject s (.erasureRun id (.purging (key :: rest) ids)) (.next now)
      (some (.purge key)) (.erasureRun id (.purging rest ids))
  | invalidates (id : String) (ids : List String) (now : ℤ) :
    DsarMove subject s (.erasureRun id (.purging [] ids)) (.next now)
      (some (.invalidate ids now)) (.erasureRun id .purged)
  | completes (id : String) (now : ℤ) :
    DsarMove subject s (.erasureRun id .swept) (.next now) (some (.complete id none none now))
      (.erasureRun id .finished)

variable {subject : Subject} {t t' : DsarRun} {e : DsarEvent} {planned : Option DsarWrite}

theorem exportPlan_move {id : String} {stage : ExportStage} :
    DsarMove subject s (.exportRun id stage) e (exportPlan subject s id stage e).1
      (.exportRun id (exportPlan subject s id stage e).2) := by
  cases stage with
  | waiting =>
    cases e with
    | next now =>
      simp only [exportPlan]
      split_ifs with hclaim
      · exact .claims rfl rfl rfl hclaim rfl rfl
      · exact .quiet rfl rfl nofun rfl rfl
    | _ => exact .quiet rfl rfl nofun rfl rfl
  | claimed =>
    cases e with
    | next now =>
      simp only [exportPlan]
      split_ifs <;> exact .quiet rfl rfl (fun _ => rfl) rfl rfl
    | _ => exact .quiet rfl rfl (fun _ => rfl) rfl rfl
  | read =>
    cases e with
    | next now => exact .puts id now
    | _ => exact .quiet rfl rfl (fun _ => rfl) rfl rfl
  | written =>
    cases e with
    | next now =>
      simp only [exportPlan]
      split_ifs with hdeleted
      · exact .quiet rfl rfl (fun _ => rfl) rfl rfl
      · exact .publishes id now (by simpa using hdeleted)
    | throw message => exact .quiet rfl rfl (fun _ => rfl) rfl rfl
    | crash => exact .drops rfl rfl rfl rfl rfl (.inl rfl)
  | failing key message =>
    cases key with
    | some key =>
      cases e with
      | next now => exact .deletes id key message now
      | throw error => exact .drops rfl rfl rfl rfl rfl (.inr ⟨_, rfl⟩)
      | crash => exact .drops rfl rfl rfl rfl rfl (.inl rfl)
    | none =>
      cases e with
      | next now => exact .fails rfl rfl rfl rfl rfl
      | _ => exact .quiet rfl rfl (fun _ => rfl) rfl rfl
  | _ => cases e <;> exact .quiet rfl rfl nofun rfl rfl

theorem erasurePlan_move {id : String} {stage : ErasureStage} :
    DsarMove subject s (.erasureRun id stage) e (erasurePlan s id stage e).1
      (.erasureRun id (erasurePlan s id stage e).2) := by
  cases stage with
  | waiting =>
    cases e with
    | next now =>
      simp only [erasurePlan]
      split_ifs with hclaim
      · exact .claims rfl rfl rfl hclaim rfl rfl
      · exact .quiet rfl rfl nofun rfl rfl
    | _ => exact .quiet rfl rfl nofun rfl rfl
  | claimed =>
    cases e with
    | next now => exact .anonymizes id now
    | _ => exact .quiet rfl rfl (fun _ => rfl) rfl rfl
  | anonymized =>
    cases e with
    | next now =>
      simp only [erasurePlan]
      split_ifs
      · exact .quiet rfl rfl (fun _ => rfl) rfl rfl
      · exact .lists id now
    | _ => exact .quiet rfl rfl (fun _ => rfl) rfl rfl
  | purging rest ids =>
    cases e with
    | next now =>
      cases rest with
      | cons key rest => exact .purges id key rest ids now
      | nil => exact .invalidates id ids now
    | _ => cases rest <;> exact .quiet rfl rfl (fun _ => rfl) rfl rfl
  | swept =>
    cases e with
    | next now => exact .completes id now
    | _ => exact .quiet rfl rfl (fun _ => rfl) rfl rfl
  | failing message =>
    cases e with
    | next now => exact .fails rfl rfl rfl rfl rfl
    | _ => exact .quiet rfl rfl (fun _ => rfl) rfl rfl
  | purged => cases e <;> exact .quiet rfl rfl (fun _ => rfl) rfl rfl
  | _ => cases e <;> exact .quiet rfl rfl nofun rfl rfl

theorem dsarRun_move :
    DsarMove subject s t e (t.plan subject s e).1 (t.plan subject s e).2 := by
  cases t with
  | exportRun id stage => exact exportPlan_move
  | erasureRun id stage => exact erasurePlan_move

structure DsarActs (subject : Subject) (s : DsarState) (t : DsarRun)
    (step : Option DsarWrite × DsarRun) : Prop where
  id : step.2.id = t.id
  type : step.2.type = t.type
  claim : ∀ id now, step.1 = some (.claim id now) → claimableIn s id now = true
  put : ∀ key, step.1 = some (.put key) → step.2.holds subject = some key
  complete : ∀ id key expiresAt now, step.1 = some (.complete id key expiresAt now) →
    id = t.id ∧ (s.deletedAt = none ∧ t.type = .export ∧
        key = some (buildDsarExportStorageKey subject.projectId id) ∨
      key = none ∧ t = .erasureRun id .swept)
  invalidate : ∀ ids now, step.1 = some (.invalidate ids now) →
    ∃ id, t = .erasureRun id (.purging [] ids) ∧ step.2 = .erasureRun id .purged

theorem DsarMove.acts (h : DsarMove subject s t e planned t') :
    DsarActs subject s t (planned, t') := by
  cases h with
  | quiet hid htype => exact ⟨hid, htype, nofun, nofun, nofun, nofun⟩
  | drops _ hid htype => exact ⟨hid.symm, htype.symm, nofun, nofun, nofun, nofun⟩
  | claims hid htype _ hclaimable =>
    refine ⟨hid, htype, ?_, nofun, nofun, nofun⟩
    intro id now h
    obtain ⟨rfl, rfl⟩ := DsarWrite.claim.inj (Option.some.inj h)
    exact hclaimable
  | puts id now =>
    refine ⟨rfl, rfl, nofun, ?_, nofun, nofun⟩
    intro key h
    obtain rfl := DsarWrite.put.inj (Option.some.inj h)
    rfl
  | publishes id now hdeleted =>
    refine ⟨rfl, rfl, nofun, nofun, ?_, nofun⟩
    intro id' key expiresAt now' h
    obtain ⟨rfl, rfl, -⟩ := DsarWrite.complete.inj (Option.some.inj h)
    exact ⟨rfl, .inl ⟨hdeleted, rfl, rfl⟩⟩
  | fails hid htype => exact ⟨hid, htype, nofun, nofun, nofun, nofun⟩
  | invalidates id ids now =>
    refine ⟨rfl, rfl, nofun, nofun, nofun, ?_⟩
    intro ids' now' h
    obtain ⟨rfl, -⟩ := DsarWrite.invalidate.inj (Option.some.inj h)
    exact ⟨id, rfl, rfl⟩
  | completes id now =>
    refine ⟨rfl, rfl, nofun, nofun, ?_, nofun⟩
    intro id' key expiresAt now' h
    obtain ⟨rfl, rfl, -⟩ := DsarWrite.complete.inj (Option.some.inj h)
    exact ⟨rfl, .inr ⟨rfl, rfl⟩⟩
  | _ => exact ⟨rfl, rfl, nofun, nofun, nofun, nofun⟩

theorem dsarRun_acts : DsarActs subject s t (t.plan subject s e) := dsarRun_move.acts

end Rovenue.Gdpr
