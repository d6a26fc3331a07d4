import Rovenue.Webhooks.WebhookEvents

/-! A PROCESSED mark and what comes after it. The claim never takes a PROCESSED
row, but a worker that outlived its lease still writes FAILED by id. -/

namespace Rovenue.Webhooks
open Txn Prog

inductive WebhookWorker where
  | apple (projectId notificationType notificationUUID signedPayload : String)
      (notification : JsonValue) (run : HandlerRun)
  | google (projectId kind : String) (pushBody : GooglePubSubPushBody) (notification : JsonValue)
      (isTest hasVerifyConfig : Bool) (run : HandlerRun)
  | stripe (projectId eventId eventType : String) (event : JsonValue) (run : HandlerRun)
  | billing (projectId eventId eventType : String) (event : JsonValue) (run : BillingRun)
  | reaper

def WebhookWorker.run : WebhookWorker → EventService Unit
  | .apple projectId type uuid signed notification run =>
    handleAppleNotification projectId type uuid signed notification run
  | .google projectId kind body notification isTest hasVerifyConfig run =>
    handleGoogleNotification projectId kind body notification isTest hasVerifyConfig run
  | .stripe projectId id type event run => processStripeEvent projectId id type event run
  | .billing projectId id type event run => dispatchStripeBillingEvent projectId id type event run
  | .reaper => runWebhookReaper.bind fun _ => pure ()

def statusAt (s : EventDb) (key : WebhookEventKey) : Option WebhookEventStatus :=
  (s.webhookEvents.get? key).map WebhookEvent.status

variable {ι : Type}

def Completed (s₀ : EventDb) (log : List (ι × List EventWrite)) (key : WebhookEventKey) : Prop :=
  ∃ done rest, log = done ++ rest ∧ statusAt (replay s₀ done) key = some .processed

/-- No claim on a completed row comes back `claimed`, whenever it is made. -/
def CompletionFinal (s₀ : EventDb) (h : History ι EventDb EventWrite) : Prop :=
  ∀ input : ClaimWebhookEventInput, Completed s₀ h.log input.key → ∀ clock ids row c',
    ¬(claimWebhookEvent input).Returns (.start h.db clock ids) (.claimed row) c'

/-- No FAILED update lands on a row that is PROCESSED. -/
def NoLateFailure (ws : List EventWrite) (s : EventDb) : Prop :=
  ∀ key patch, .update key patch ∈ ws → patch.status = some .failed →
    statusAt s key ≠ some .processed

theorem claimWebhookEvent_returns {input : ClaimWebhookEventInput}
    {c c' : Session EventDb EventWrite String} {row : WebhookEvent} :
    (claimWebhookEvent input).Returns c (.claimed row) c' ↔
      claimedRow input (c.ids 0) (c.clock 0) c.view = some row ∧
        c.tick.drawn.write [.claim input (c.ids 0) (c.clock 0)] = c' := by
  simp only [claimWebhookEvent, bind_eq, pure_eq, returns_bind, returns_now, returns_fresh,
    returns_autocommit, returns_exec]
  constructor
  · rintro ⟨time, _, ⟨rfl, rfl⟩, id, _, ⟨rfl, rfl⟩, claimed, c₁, ⟨hrow, hc⟩, h⟩
    cases claimed with
    | some found =>
      obtain ⟨hfound, rfl⟩ := returns_done.1 h
      obtain rfl : found = row := by simpa using hfound
      exact ⟨hrow, hc⟩
    | none =>
      -- the follow-up read only tells `duplicate` from `inProgress`
      obtain ⟨existing, c₂, -, h⟩ := returns_bind.1 h
      split_ifs at h <;> simp at h
  · rintro ⟨hrow, hc⟩
    exact ⟨_, _, ⟨rfl, rfl⟩, _, _, ⟨rfl, rfl⟩, some row, c', ⟨hrow, hc⟩, returns_done.2 ⟨rfl, rfl⟩⟩

theorem claimedRow_ne_processed {input : ClaimWebhookEventInput} {id : String} {time : ℤ}
    {s : EventDb} {row : WebhookEvent} (h : claimedRow input id time s = some row) :
    statusAt s input.key ≠ some .processed := by
  rw [claimedRow] at h
  rw [statusAt]
  cases hget : s.webhookEvents.get? input.key with
  | none => simp
  | some e =>
    rw [hget] at h
    by_cases hclaim : e.claimable time
    · have hne : e.status ≠ .processed := by
        rw [WebhookEvent.claimable, Bool.and_eq_true] at hclaim
        simpa using hclaim.1
      simpa using hne
    · simp [hclaim] at h

theorem failed_claimed (input : ClaimWebhookEventInput) (id : String) (time : ℤ) {s : EventDb}
    (h : statusAt s input.key = some .failed) : ∃ row, claimedRow input id time s = some row := by
  obtain ⟨e, hget, hstatus⟩ := Option.map_eq_some_iff.1 h
  have hclaim : e.claimable time = true := by simp [WebhookEvent.claimable, hstatus]
  exact ⟨e.claim time, by simp [claimedRow, hget, hclaim]⟩

def EventWrite.isUpdate : EventWrite → Bool
  | .update .. => true
  | _ => false

theorem WebhookEvent.claim_processed {e : WebhookEvent} (h : e.status = .processed) (time : ℤ) :
    e.claim time = e := by simp [claim, claimable, h]

theorem WebhookEvent.reclaim_processed {e : WebhookEvent} (h : e.status = .processed) (time : ℤ) :
    e.reclaim time = e := by simp [reclaim, orphaned, h]

theorem statusAt_modify (s : EventDb) (key key' : WebhookEventKey)
    (f : WebhookEvent → WebhookEvent) :
    statusAt { s with webhookEvents := s.webhookEvents.modify key f } key' =
      if key' = key then (s.webhookEvents.get? key).map fun e => (f e).status
      else statusAt s key' := by
  rw [statusAt, Table.get?_modify]
  by_cases hkey : key' = key
  · subst hkey
    rw [if_pos rfl, if_pos rfl, Option.map_map]
    rfl
  · rw [if_neg hkey, if_neg hkey]
    rfl

theorem statusAt_update (s : EventDb) (key key' : WebhookEventKey)
    (patch : UpdateWebhookEventInput) :
    statusAt (s.write (.update key patch)) key' =
      if key' = key then (statusAt s key).map patch.status.getD else statusAt s key' := by
  have hmap : (statusAt s key).map patch.status.getD =
      (s.webhookEvents.get? key).map fun e => (patch.apply e).status := by
    rw [statusAt, Option.map_map]
    rfl
  rw [hmap]
  exact statusAt_modify s key key' patch.apply

theorem statusAt_write_processed {w : EventWrite} (hw : w.isUpdate = false) {s : EventDb}
    {key : WebhookEventKey} (h : statusAt s key = some .processed) :
    statusAt (s.write w) key = some .processed := by
  obtain ⟨e, hget, hstatus⟩ := Option.map_eq_some_iff.1 h
  cases w with
  | update key' patch => simp [EventWrite.isUpdate] at hw
  | reclaim key' time =>
    rw [EventDb.write, statusAt_modify]
    split_ifs with hkey
    · subst hkey
      simp [hget, e.reclaim_processed hstatus, hstatus]
    · exact h
  | enqueueReplay jobId job =>
    rw [EventDb.write]
    split_ifs <;> exact h
  | claim input id time =>
    cases hrow : s.webhookEvents.get? input.key with
    | none =>
      have hne : key ≠ input.key := by
        rintro rfl
        simp [hget] at hrow
      simp only [EventDb.write, hrow, statusAt, Table.get?_insert, if_neg hne]
      exact h
    | some found =>
      simp only [EventDb.write, hrow]
      rw [statusAt_modify]
      split_ifs with hkey
      · subst hkey
        simp [hget, e.claim_processed hstatus, hstatus]
      · exact h

def EventLaw (ws : List EventWrite) : Prop :=
  (∀ w ∈ ws, w.isUpdate = false) ∨ ∃ key patch, ws = [.update key patch] ∧
    (patch.status = some .processed ∨ patch.status = some .failed)

theorem EventLaw.keeps_processed {ws : List EventWrite} (hlaw : EventLaw ws) {s : EventDb}
    (hcond : NoLateFailure ws s) {key : WebhookEventKey}
    (h : statusAt s key = some .processed) : statusAt (applyAll s ws) key = some .processed := by
  rcases hlaw with hlaw | ⟨key', patch, rfl, hpatch⟩
  · exact applyAll_induct (R := fun a b : EventDb => statusAt a key = some .processed →
      statusAt b key = some .processed) (fun _ h => h) (fun hab hbc h => hbc (hab h))
      (fun w hw _ h => statusAt_write_processed (hlaw w hw) h) s h
  · rw [applyAll_cons, applyAll_nil, apply_eq, statusAt_update]
    split_ifs with hkey
    · subst hkey
      rcases hpatch with hpatch | hpatch
      · simp [h, hpatch]
      · exact (hcond _ patch (by simp) hpatch h).elim
    · exact h

structure EventInv (s₀ : EventDb) (h : History ι EventDb EventWrite) : Prop where
  replayed : h.db = replay s₀ h.log
  final : ∀ key, Completed s₀ h.log key → statusAt h.db key = some .processed

theorem completed_snoc {s₀ : EventDb} {log : List (ι × List EventWrite)} {i : ι}
    {ws : List EventWrite} {key : WebhookEventKey} (h : Completed s₀ (log ++ [(i, ws)]) key) :
    Completed s₀ log key ∨ statusAt (applyAll (replay s₀ log) ws) key = some .processed := by
  obtain ⟨done, rest, hlog, hstatus⟩ := h
  rcases List.eq_nil_or_concat rest with rfl | ⟨rest, c, rfl⟩
  · right
    rw [List.append_nil] at hlog
    rw [← replay_snoc s₀ log i ws, hlog]
    exact hstatus
  · left
    rw [List.concat_eq_append, ← List.append_assoc] at hlog
    exact ⟨done, rest, (List.append_inj' hlog rfl).1, hstatus⟩

theorem EventInv.commit {s₀ : EventDb} {h : History ι EventDb EventWrite} (hinv : EventInv s₀ h)
    {i : ι} {ws : List EventWrite} (hlaw : EventLaw ws) (hcond : NoLateFailure ws h.db) :
    EventInv s₀ (h.commit i ws) where
  replayed := by
    rw [History.commit_db, History.commit_log, replay_snoc, hinv.replayed]
  final key hkey := by
    rw [History.commit_log] at hkey
    rw [History.commit_db]
    rcases completed_snoc hkey with hdone | hnow
    · exact hlaw.keeps_processed hcond (hinv.final key hdone)
    · rwa [hinv.replayed]

def completionDiscipline (s₀ : EventDb) : Discipline ι EventDb WebhookEventKey EventWrite where
  inv := EventInv s₀
  rely _ _ _ _ := True
  law _ _ ws _ := EventLaw ws
  cond _ ws h := NoLateFailure ws h.db
  rely_refl _ _ _ := trivial
  rely_trans _ _ := trivial
  keeps_inv hlaw hinv hcond := hinv.commit hlaw hcond
  keeps_rely _ _ _ _ _ _ _ _ := trivial

section Workers
variable {s₀ : EventDb} {i : ι} {h : History ι EventDb EventWrite}

theorem updateWebhookEvent_eq (row : WebhookEvent) {patch : UpdateWebhookEventInput}
    (hpatch : patch.status ≠ none) : updateWebhookEvent row patch =
      exec (fun _ => [row.key]) (fun _ => [.update row.key patch]) fun _ => () := by
  refine if_neg ?_
  rintro rfl
  exact hpatch rfl

theorem safe_update (row : WebhookEvent) {patch : UpdateWebhookEventInput}
    (hpatch : patch.status = some .processed ∨ patch.status = some .failed) :
    Safe (completionDiscipline s₀) i (autocommit (updateWebhookEvent row patch)) ∅ [] h Idle := by
  rw [updateWebhookEvent_eq row (by rcases hpatch with hp | hp <;> simp [hp])]
  exact Safe.autocommit_exec fun _ _ _ => .inr ⟨row.key, patch, rfl, hpatch⟩

theorem safe_markFailed (row : WebhookEvent) (message : String) :
    Safe (completionDiscipline s₀) i (autocommit (markFailed row message)) ∅ [] h Idle :=
  safe_update row (.inr rfl)

theorem safe_markProcessed (row : WebhookEvent) (outcome : WebhookOutcome) :
    Safe (completionDiscipline s₀) i (autocommit (markProcessed row outcome)) ∅ [] h Idle :=
  fun _ => safe_update row (.inl rfl)

theorem safe_claimWebhookEvent (input : ClaimWebhookEventInput) :
    Safe (completionDiscipline s₀) i (claimWebhookEvent input) ∅ [] h Idle := by
  intro time id
  have hclaim : Safe (completionDiscipline s₀) i (autocommit (exec (fun _ => [input.key])
      (fun _ => [.claim input id time]) (claimedRow input id time)) :
        EventService (Option WebhookEvent)) ∅ [] h Idle :=
    Safe.autocommit_exec fun _ _ _ => .inl (by simp [EventWrite.isUpdate])
  refine hclaim.bind ?_
  rintro claimed held pend h₁ ⟨rfl, rfl⟩
  cases claimed with
  | some row => exact ⟨rfl, rfl⟩
  | none =>
    refine Safe.bind (Safe.query (Q := Idle) fun _ _ _ => ⟨rfl, rfl⟩) ?_
    rintro existing held pend h₂ ⟨rfl, rfl⟩
    show Safe _ _ (if existing.map WebhookEvent.status = some .processed then _ else _) _ _ _ _
    split_ifs <;> exact ⟨rfl, rfl⟩

theorem safe_underClaim (input : ClaimWebhookEventInput) {body : WebhookEvent → EventService Unit}
    (hbody : ∀ row h, Safe (completionDiscipline s₀) i (body row) ∅ [] h Idle) :
    Safe (completionDiscipline s₀) i (underClaim input body) ∅ [] h Idle := by
  refine (safe_claimWebhookEvent input).bind ?_
  rintro claim held pend h₁ ⟨rfl, rfl⟩
  cases claim with
  | claimed row => exact hbody row h₁
  | duplicate => exact ⟨rfl, rfl⟩
  | inProgress => trivial

theorem safe_processClaimed (run : HandlerRun) (row : WebhookEvent)
    (h : History ι EventDb EventWrite) :
    Safe (completionDiscipline s₀) i (processClaimed run row) ∅ [] h Idle := by
  have hfail : ∀ message h₁, Safe (completionDiscipline s₀) i
      ((autocommit (markFailed row message)).bind fun _ => throw message : EventService Unit)
      ∅ [] h₁ Idle :=
    fun message h₁ => (safe_markFailed row message).bind fun _ _ _ _ _ => trivial
  rw [processClaimed]
  cases run.work with
  | error message => exact hfail message h
  | ok outcome =>
    refine (safe_markProcessed row outcome).bind ?_
    rintro _ held pend h₁ ⟨rfl, rfl⟩
    cases run.lostReply with
    | none => exact ⟨rfl, rfl⟩
    | some message => exact hfail message h₁

theorem safe_dispatchStripeBillingEvent (projectId eventId eventType : String) (event : JsonValue)
    (run : BillingRun) : Safe (completionDiscipline s₀) i
      (dispatchStripeBillingEvent projectId eventId eventType event run) ∅ [] h Idle := by
  refine safe_underClaim _ fun row h₁ => ?_
  cases run with
  | throws message => trivial
  | finished => exact fun _ => safe_markProcessed row {}
  | followUp result =>
    cases result with
    | ok u => exact safe_markProcessed row {}
    | error message =>
      exact (safe_markFailed row _).bind fun _ _ _ _ _ => trivial

theorem safe_runWebhookReaper :
    Safe (completionDiscipline s₀) i (runWebhookReaper : EventService WebhookReaperResult)
      ∅ [] h Idle := by
  intro time
  have hreclaim : Safe (completionDiscipline s₀) i (reclaimStaleWebhookEvents time) ∅ [] h Idle :=
    Safe.autocommit_exec fun _ _ _ => .inl fun w hw => by
      obtain ⟨e, -, rfl⟩ := List.mem_map.1 hw
      rfl
  refine hreclaim.bind ?_
  rintro rows held pend h₁ ⟨rfl, rfl⟩
  have hloop : Safe (completionDiscipline s₀) i
      (forEach (rows.filterMap replayOf) enqueueReplay : EventService Unit) ∅ [] h₁
      (Idle : Unit → _) := by
    refine Safe.forEach (I := fun held pend _ => held = ∅ ∧ pend = []) _ ?_ ⟨rfl, rfl⟩
    rintro replay - held pend h₂ ⟨rfl, rfl⟩
    exact Safe.autocommit_exec fun _ _ _ => .inl (by simp [EventWrite.isUpdate])
  exact hloop.bind fun _ _ _ _ hidle => hidle

theorem safe_webhookWorker (worker : WebhookWorker) :
    Safe (completionDiscipline s₀) i worker.run ∅ [] h Idle := by
  cases worker with
  | apple projectId type uuid signed notification run =>
    exact safe_underClaim _ (safe_processClaimed run)
  | google projectId kind body notification isTest hasVerifyConfig run =>
    simp only [WebhookWorker.run, handleGoogleNotification]
    split_ifs
    · exact ⟨rfl, rfl⟩
    · exact safe_underClaim _ (safe_processClaimed run)
    · exact safe_underClaim _ fun row h₁ => safe_markProcessed row {}
  | stripe projectId id type event run => exact safe_underClaim _ (safe_processClaimed run)
  | billing projectId id type event run => exact safe_dispatchStripeBillingEvent _ _ _ _ run
  | reaper =>
    refine safe_runWebhookReaper.bind ?_
    rintro result held pend h₁ ⟨rfl, rfl⟩
    exact ⟨rfl, rfl⟩

end Workers

theorem EventInv.completionFinal {s₀ : EventDb} {h : History ι EventDb EventWrite}
    (hinv : EventInv s₀ h) : CompletionFinal s₀ h := by
  intro input hdone clock ids row c' hclaim
  exact claimedRow_ne_processed (claimWebhookEvent_returns.1 hclaim).1 (hinv.final _ hdone)

theorem not_final_of_failed {s₀ : EventDb} {h : History ι EventDb EventWrite}
    {key : WebhookEventKey} (hdone : Completed s₀ h.log key)
    (hfailed : statusAt h.db key = some .failed) : ¬CompletionFinal s₀ h := by
  intro hfinal
  let input : ClaimWebhookEventInput := ⟨key, "", "", .other⟩
  obtain ⟨row, hrow⟩ := failed_claimed input "" 0 hfailed
  exact hfinal input hdone (fun _ => 0) (fun _ => "") row _
    (claimWebhookEvent_returns.2 ⟨hrow, rfl⟩)

theorem noLateFailure_of_final {s₀ : EventDb} {h : History ι EventDb EventWrite} {i : ι}
    {ws : List EventWrite} (hlaw : EventLaw ws) (hinv : EventInv s₀ h)
    (hfinal : CompletionFinal s₀ (h.commit i ws)) : NoLateFailure ws h.db := by
  intro key patch hmem hpatch hstatus
  rcases hlaw with hlaw | ⟨key', patch', rfl, -⟩
  · exact absurd (hlaw _ hmem) (by simp [EventWrite.isUpdate])
  obtain ⟨rfl, rfl⟩ : key = key' ∧ patch = patch' := by simpa using hmem
  have hfailed : statusAt (h.commit i [.update key patch]).db key = some .failed := by
    rw [History.commit_db, applyAll_cons, applyAll_nil, apply_eq, statusAt_update, if_pos rfl,
      hstatus, hpatch]
    rfl
  have hdone : Completed s₀ (h.commit i [.update key patch]).log key :=
    ⟨h.log, [(i, _)], rfl, by rw [← hinv.replayed]; exact hstatus⟩
  exact not_final_of_failed hdone hfailed hfinal

/-- Completion is final along a run exactly when no FAILED update of the run
lands on a PROCESSED row. -/
theorem completion_final_iff [DecidableEq ι] (s₀ : EventDb) (t : ℤ) (workers : ι → WebhookWorker)
    (evs : List (Event ι String)) :
    (∀ h ∈ (World.init s₀ t fun i => (workers i).run).visited evs, CompletionFinal s₀ h) ↔
      ∀ c ∈ (World.init s₀ t fun i => (workers i).run).commits evs,
        NoLateFailure c.writes c.before.db := by
  have hinit : EventInv s₀ (⟨s₀, []⟩ : History ι EventDb EventWrite) := by
    refine ⟨rfl, fun key hkey => ?_⟩
    obtain ⟨done, rest, hlog, hstatus⟩ := hkey
    obtain ⟨rfl, -⟩ := List.append_eq_nil_iff.1 hlog.symm
    exact hstatus
  have hsafe : (World.init s₀ t fun i => (workers i).run).Safe (completionDiscipline s₀) :=
    World.Safe.init hinit fun i => (safe_webhookWorker (workers i)).mono fun _ _ _ _ _ => trivial
  exact hsafe.visited_iff (fun _ => EventInv.completionFinal) noLateFailure_of_final

inductive LeaseHolder where
  | first | second
  deriving DecidableEq

def leaseHolders : LeaseHolder → WebhookWorker
  | .first => .apple "p1" "DID_RENEW" "n1" "jws" .other { work := .ok {} }
  | .second => .apple "p1" "DID_RENEW" "n1" "jws" .other { work := .error "verify failed" }

def overlappingLeases : List (Event LeaseHolder String) :=
  -- the first claim expires, the second is taken, and then the first handler finishes before the
  -- second fails
  [.run .first, .draw .first "w1", .run .first, .run .first, .tick 300001,
    .run .second, .draw .second "w2", .run .second, .run .second,
    .run .first, .run .first, .run .first, .run .second, .run .second]

theorem late_failure_reopens :
    ¬∀ (s₀ : EventDb) (t : ℤ) (workers : LeaseHolder → WebhookWorker)
      (evs : List (Event LeaseHolder String)),
      ∀ h ∈ (World.init s₀ t fun i => (workers i).run).visited evs, CompletionFinal s₀ h := by
  intro claim
  have hfinal := claim {} 0 leaseHolders overlappingLeases _ (World.last_mem_visited _ _)
  have hdone : Completed {} (World.runAll (World.init {} 0 fun i => (leaseHolders i).run)
      overlappingLeases).hist.log ⟨.apple, "n1"⟩ :=
    ⟨List.take 3 _, List.drop 3 _, (List.take_append_drop 3 _).symm, by decide⟩
  exact not_final_of_failed hdone (by decide) hfinal

end Rovenue.Webhooks
