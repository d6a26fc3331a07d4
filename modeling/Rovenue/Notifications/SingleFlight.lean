import Rovenue.Notifications.SendEmail

/-! A run whose throws are harmless and whose `failed` handlers keep off sends at most once, and
leaves no row behind. One job at a time holds the claim, as long as nobody else writes the row. -/

namespace Rovenue.Notifications
open Threads

/-- The claim is held by one job at most, and what is claimed is given up by a job that is still
there. -/
structure Flown {ι : Type} (w : World ι DeliveryRow EmailJob) : Prop where
  single : ∀ i j, (w.task i).stage.inFlight → (w.task j).stage.inFlight → i = j
  sending : ∀ i, (w.task i).stage.inFlight → w.shared.status = .sending
  held : w.shared.status = .sending →
    ∃ i, (w.task i).stage.inFlight ∨ (w.task i).stage = .exhausted
  once : w.shared.accepted ≤ 1
  fresh : w.shared.isOut = false → (∀ i m, (w.task i).stage ≠ .marking m) → w.shared.accepted = 0
  queued : w.shared.status = .queued → ∀ i, (w.task i).stage ≠ .finished
  known : w.shared.providerMessageId.isSome → w.shared.isOut

variable {ι : Type} {w : World ι DeliveryRow EmailJob} {i : ι}
variable {row : DeliveryRow} {job : EmailJob} {await : Await} {stage : SendStage}

theorem isOut_of_sending (h : row.status = .sending) : row.isOut = false := by
  simp [DeliveryRow.isOut, h]

theorem claimable_iff : row.claimable ↔ row.status = .queued ∨ row.status = .failed := by
  unfold DeliveryRow.claimable unclaimableSendStatuses
  cases row.status <;> decide

theorem claim_of_not (h : row.claimable = false) : row.claim = row := by
  unfold DeliveryRow.claim
  rw [h]
  rfl

theorem stage_thrown (job : EmailJob) :
    job.thrown.stage = .exhausted ∨ job.thrown.stage = .waiting := by
  show (if job.lastAttempt then SendStage.exhausted else .waiting) = _ ∨ _
  split_ifs
  · exact .inl rfl
  · right
    show (if job.lastAttempt then SendStage.exhausted else .waiting) = _
    rw [if_neg ‹_›]

theorem stage_thrown_last (h : job.lastAttempt) : job.thrown.stage = .exhausted := if_pos h

theorem not_inFlight_thrown : job.thrown.stage.inFlight = false := by
  obtain h | h := stage_thrown job <;> rw [h] <;> rfl

theorem not_finished_thrown : job.thrown.stage ≠ .finished := by
  obtain h | h := stage_thrown job <;> rw [h] <;> exact nofun

theorem Flown.move {v : World ι DeliveryRow EmailJob} (h : Flown w)
    (hother : ∀ j ≠ i, v.task j = w.task j)
    (hself : (v.task i).stage.inFlight → v.shared.status = .sending ∧ ¬HeldByOther w i)
    (hothers : HeldByOther w i → v.shared.status = .sending ∧
      v.shared.accepted = w.shared.accepted ∧ ∀ m, (w.task i).stage ≠ .marking m)
    (hheld : v.shared.status = .sending → (v.task i).stage.inFlight ∨
      (v.task i).stage = .exhausted ∨
      ∃ j ≠ i, (w.task j).stage.inFlight ∨ (w.task j).stage = .exhausted)
    (honce : v.shared.accepted ≤ 1)
    (hfresh : v.shared.isOut = false → (∀ m, (v.task i).stage ≠ .marking m) →
      ¬HeldByOther w i → v.shared.accepted = 0)
    (hqueued : v.shared.status = .queued → (v.task i).stage ≠ .finished ∧
      ∀ j ≠ i, (w.task j).stage ≠ .finished)
    (hknown : v.shared.providerMessageId.isSome → v.shared.isOut) : Flown v where
  single j k hj hk := by
    by_cases hji : j = i
    · by_cases hki : k = i
      · exact hji.trans hki.symm
      · subst hji
        rw [hother k hki] at hk
        exact absurd ⟨k, hki, hk⟩ (hself hj).2
    · rw [hother j hji] at hj
      by_cases hki : k = i
      · subst hki
        exact absurd ⟨j, hji, hj⟩ (hself hk).2
      · rw [hother k hki] at hk
        exact h.single j k hj hk
  sending j hj := by
    by_cases hji : j = i
    · subst hji
      exact (hself hj).1
    · rw [hother j hji] at hj
      exact (hothers ⟨j, hji, hj⟩).1
  held hsending := by
    obtain hin | hex | ⟨j, hji, hj⟩ := hheld hsending
    · exact ⟨i, .inl hin⟩
    · exact ⟨i, .inr hex⟩
    · exact ⟨j, by rwa [hother j hji]⟩
  once := honce
  fresh hout hmarking := by
    by_cases hheldBy : HeldByOther w i
    · obtain ⟨-, hcount, hnot⟩ := hothers hheldBy
      obtain ⟨j, -, hj⟩ := hheldBy
      rw [hcount]
      refine h.fresh (isOut_of_sending (h.sending j hj)) fun k m => ?_
      by_cases hki : k = i
      · subst hki
        exact hnot m
      · rw [← hother k hki]
        exact hmarking k m
    · exact hfresh hout (hmarking i) hheldBy
  queued hstatus j := by
    obtain ⟨hjob, hrest⟩ := hqueued hstatus
    by_cases hji : j = i
    · subst hji
      exact hjob
    · rw [hother j hji]
      exact hrest j hji
  known := hknown

theorem Flown.alone (h : Flown w) (hi : (w.task i).stage.inFlight) : ¬HeldByOther w i := by
  rintro ⟨j, hji, hj⟩
  exact hji (h.single j i hj hi)

theorem Flown.unsent (h : Flown w) (hi : (w.task i).stage.inFlight)
    (hmarking : ∀ m, (w.task i).stage ≠ .marking m) : w.shared.accepted = 0 := by
  refine h.fresh (isOut_of_sending (h.sending i hi)) fun j m hj => ?_
  have hji : j = i := h.single j i (by rw [hj]; rfl) hi
  exact hmarking m (hji ▸ hj)

theorem Flown.pass {v : World ι DeliveryRow EmailJob} (h : Flown w)
    (hother : ∀ j ≠ i, v.task j = w.task j) (hrow : v.shared = w.shared)
    (hfrom : (w.task i).stage.inFlight = false) (hto : (v.task i).stage.inFlight = false)
    (hheld : w.shared.status = .sending → (w.task i).stage = .exhausted →
      (v.task i).stage = .exhausted ∨ HeldByOther w i)
    (hqueued : w.shared.status = .queued → (v.task i).stage ≠ .finished) : Flown v := by
  have hnot : ∀ m, (w.task i).stage ≠ .marking m := fun m hm => by
    rw [hm] at hfrom
    cases hfrom
  have hone := h.once
  refine h.move hother (fun hin => ?_) (fun ⟨j, _, hj⟩ => ?_) (fun hsending => ?_) ?_
    (fun hout hmarking hheldBy => ?_) (fun hstatus => ?_) ?_
  · rw [hto] at hin
    cases hin
  · rw [hrow]
    exact ⟨h.sending j hj, rfl, hnot⟩
  · rw [hrow] at hsending
    obtain ⟨j, hj⟩ := h.held hsending
    by_cases hji : j = i
    · subst hji
      obtain hj | hj := hj
      · rw [hfrom] at hj
        cases hj
      · obtain hex | ⟨k, hkj, hk⟩ := hheld hsending hj
        · exact .inr (.inl hex)
        · exact .inr (.inr ⟨k, hkj, .inl hk⟩)
    · exact .inr (.inr ⟨j, hji, hj⟩)
  · rwa [hrow]
  · rw [hrow] at hout ⊢
    refine h.fresh hout fun j m hj => ?_
    by_cases hji : j = i
    · subst hji
      exact hnot m hj
    · exact hheldBy ⟨j, hji, by rw [hj]; rfl⟩
  · rw [hrow] at hstatus
    exact ⟨hqueued hstatus, fun j _ => h.queued hstatus j⟩
  · rw [hrow]
    exact h.known

theorem Flown.holder {v : World ι DeliveryRow EmailJob} (h : Flown w)
    (hother : ∀ j ≠ i, v.task j = w.task j) (hi : (w.task i).stage.inFlight)
    (hself : (v.task i).stage.inFlight → v.shared.status = .sending)
    (hheld : v.shared.status = .sending → (v.task i).stage.inFlight ∨
      (v.task i).stage = .exhausted)
    (honce : v.shared.accepted ≤ 1)
    (hfresh : v.shared.isOut = false → (∀ m, (v.task i).stage ≠ .marking m) →
      v.shared.accepted = 0)
    (hstatus : v.shared.status ≠ .queued)
    (hknown : v.shared.providerMessageId.isSome → v.shared.isOut) : Flown v :=
  h.move hother (fun hin => ⟨hself hin, h.alone hi⟩) (fun hheldBy => absurd hheldBy (h.alone hi))
    (fun hsending => (hheld hsending).imp_right .inl) honce
    (fun hout hmarking _ => hfresh hout hmarking) (fun hq => absurd hq hstatus) hknown

section Steps
variable {v : World ι DeliveryRow EmailJob}

theorem Flown.claimed (h : Flown w) (hother : ∀ j ≠ i, v.task j = w.task j)
    (hclaim : w.shared.claimable) (hrow : v.shared = w.shared.claim)
    (hto : (v.task i).stage = .checking ∨ (v.task i).stage = .exhausted) : Flown v := by
  have hstatus : w.shared.status ≠ .sending := by
    intro heq
    obtain hq | hf := claimable_iff.1 hclaim
    · rw [hq] at heq
      cases heq
    · rw [hf] at heq
      cases heq
  have hfree : ∀ j, (w.task j).stage.inFlight = false := by
    intro j
    by_contra hj
    exact hstatus (h.sending j (Bool.not_eq_false _ ▸ hj))
  have hout : w.shared.isOut = false := by
    unfold DeliveryRow.isOut
    obtain hq | hf := claimable_iff.1 hclaim
    · rw [hq]
      rfl
    · rw [hf]
      rfl
  have hcount : w.shared.accepted = 0 := by
    refine h.fresh hout fun j m hj => ?_
    have hin := hfree j
    rw [hj] at hin
    cases hin
  have hclaimed : v.shared.status = .sending ∧ v.shared.accepted = 0 ∧
      v.shared.providerMessageId = w.shared.providerMessageId := by
    rw [hrow]
    unfold DeliveryRow.claim
    rw [if_pos hclaim]
    exact ⟨rfl, hcount, rfl⟩
  obtain ⟨hsending, hzero, hid⟩ := hclaimed
  have halone : ¬HeldByOther w i := by
    rintro ⟨j, -, hj⟩
    rw [hfree j] at hj
    cases hj
  refine h.move hother (fun _ => ⟨hsending, halone⟩) (fun hheldBy => absurd hheldBy halone)
    (fun _ => ?_) (hzero ▸ Nat.zero_le 1) (fun _ _ _ => hzero) (fun hq => ?_) (fun hknown => ?_)
  · obtain hto | hto := hto
    · left
      rw [hto]
      rfl
    · exact .inr (.inl hto)
  · rw [hsending] at hq
    cases hq
  · rw [hid] at hknown
    rw [h.known hknown] at hout
    cases hout

theorem Flown.goesOn (h : Flown w) (hother : ∀ j ≠ i, v.task j = w.task j)
    (hi : (w.task i).stage.inFlight) (hfrom : ∀ m, (w.task i).stage ≠ .marking m)
    (hrow : v.shared = w.shared)
    (hto : (v.task i).stage.inFlight ∨ (v.task i).stage = .exhausted) : Flown v := by
  -- the holder goes on with the row as it is, or leaves it to the `failed` handler
  have hsending := h.sending i hi
  have hzero := h.unsent hi hfrom
  refine h.holder hother hi (fun _ => hrow ▸ hsending) (fun _ => hto) ?_ (fun _ _ => ?_) ?_ ?_
  · rw [hrow]
    exact h.once
  · rw [hrow]
    exact hzero
  · rw [hrow, hsending]
    exact nofun
  · rw [hrow]
    exact h.known

theorem Flown.givesUp {status : NotificationDeliveryStatus} (h : Flown w)
    (hother : ∀ j ≠ i, v.task j = w.task j) (hi : (w.task i).stage.inFlight)
    (hfrom : ∀ m, (w.task i).stage ≠ .marking m) (hrow : v.shared = w.shared.mark status)
    (hstatus : status = .suppressed ∨ status = .failed)
    (hto : (v.task i).stage.inFlight = false) : Flown v := by
  have hout := isOut_of_sending (h.sending i hi)
  have hne : v.shared.status ≠ .queued ∧ v.shared.status ≠ .sending := by
    rw [hrow]
    obtain rfl | rfl := hstatus
    · exact ⟨nofun, nofun⟩
    · exact ⟨nofun, nofun⟩
  refine h.holder hother hi (fun hin => ?_) (fun hsending => absurd hsending hne.2) ?_
    (fun _ _ => ?_) hne.1 (fun hknown => ?_)
  · rw [hto] at hin
    cases hin
  · rw [hrow]
    exact h.once
  · rw [hrow]
    exact h.unsent hi hfrom
  · have hbefore : w.shared.providerMessageId.isSome := by
      rw [hrow] at hknown
      simpa [DeliveryRow.mark] using hknown
    rw [h.known hbefore] at hout
    cases hout

end Steps

theorem flown_start {status : NotificationDeliveryStatus} (attempts : ι → Option ℕ)
    (hstatus : status = .queued ∨ status = .suppressed) :
    Flown (deliveryJobs status attempts) where
  single i j hi := by cases hi
  sending i hi := by cases hi
  held hsending := by
    change status = .sending at hsending
    obtain rfl | rfl := hstatus <;> cases hsending
  once := Nat.zero_le 1
  fresh _ _ := rfl
  queued _ _ := nofun
  known := nofun

variable [DecidableEq ι]

section Stages
variable {reply : SendReply}

theorem next_other : ∀ j ≠ i, (sendEmailWorker.next w (.act i reply)).task j = w.task j :=
  fun _ hj => Function.update_of_ne hj ..

theorem next_row : (sendEmailWorker.next w (.act i reply)).shared =
    (sendEmail w.shared (w.task i) reply).1 := rfl

theorem next_job : (sendEmailWorker.next w (.act i reply)).task i =
    (sendEmail w.shared (w.task i) reply).2 := Function.update_self ..

theorem flown_waiting (h : Flown w) (hkeeps : SendKeeps w (.act i reply))
    (hstage : (w.task i).stage = .waiting) : Flown (sendEmailWorker.next w (.act i reply)) := by
  have hfrom : (w.task i).stage.inFlight = false := by
    rw [hstage]
    rfl
  have hstep : sendEmail w.shared (w.task i) reply =
      (if reply.await.took then w.shared.claim else w.shared,
        (w.task i).after reply.await (if w.shared.claimable then .checking else .finished)) := by
    unfold sendEmail
    rw [hstage]
  by_cases hclaim : w.shared.claimable
  · rw [if_pos hclaim] at hstep
    cases hawait : reply.await with
    | returns =>
      rw [hawait] at hstep
      refine h.claimed next_other hclaim ?_ (.inl ?_)
      · rw [next_row, hstep]
        rfl
      · rw [next_job, hstep]
        rfl
    | throws took =>
      rw [hawait] at hstep
      cases took with
      | true =>
        have hharmless := hkeeps.1 true hawait
        unfold Harmless at hharmless
        rw [hstage] at hharmless
        refine h.claimed next_other hclaim ?_ (.inr ?_)
        · rw [next_row, hstep]
          rfl
        · rw [next_job, hstep]
          exact stage_thrown_last (hharmless rfl hclaim)
      | false =>
        refine h.pass next_other ?_ hfrom ?_ (fun _ hex => ?_) (fun _ => ?_)
        · rw [next_row, hstep]
          rfl
        · rw [next_job, hstep]
          exact not_inFlight_thrown
        · rw [hstage] at hex
          cases hex
        · rw [next_job, hstep]
          exact not_finished_thrown
  · have hsame : w.shared.claim = w.shared := claim_of_not (Bool.eq_false_iff.2 hclaim)
    rw [if_neg hclaim, hsame, ite_self] at hstep
    refine h.pass next_other ?_ hfrom ?_ (fun _ hex => ?_) (fun hq => ?_)
    · rw [next_row, hstep]
    · rw [next_job, hstep]
      cases reply.await with
      | returns => rfl
      | throws took => exact not_inFlight_thrown
    · rw [hstage] at hex
      cases hex
    · exact absurd (claimable_iff.2 (.inl hq)) hclaim

theorem flown_checking (h : Flown w) (hkeeps : SendKeeps w (.act i reply))
    (hstage : (w.task i).stage = .checking) : Flown (sendEmailWorker.next w (.act i reply)) := by
  have hi : (w.task i).stage.inFlight := by
    rw [hstage]
    rfl
  have hfrom : ∀ m, (w.task i).stage ≠ .marking m := by
    rw [hstage]
    exact nofun
  have hstep : sendEmail w.shared (w.task i) reply = (w.shared,
      (w.task i).after reply.await (if reply.suppressed then .suppressing else .mailing)) := by
    unfold sendEmail
    rw [hstage]
  refine h.goesOn next_other hi hfrom ?_ ?_
  · rw [next_row, hstep]
  · rw [next_job, hstep]
    cases hawait : reply.await with
    | returns =>
      left
      show (if reply.suppressed then SendStage.suppressing else .mailing).inFlight
      split_ifs <;> rfl
    | throws took =>
      have hharmless := hkeeps.1 took hawait
      unfold Harmless at hharmless
      rw [hstage] at hharmless
      exact .inr (stage_thrown_last hharmless)

theorem flown_suppressing (h : Flown w) (hkeeps : SendKeeps w (.act i reply))
    (hstage : (w.task i).stage = .suppressing) :
    Flown (sendEmailWorker.next w (.act i reply)) := by
  have hi : (w.task i).stage.inFlight := by
    rw [hstage]
    rfl
  have hfrom : ∀ m, (w.task i).stage ≠ .marking m := by
    rw [hstage]
    exact nofun
  have hstep : sendEmail w.shared (w.task i) reply =
      (if reply.await.took then w.shared.mark .suppressed else w.shared,
        (w.task i).after reply.await .finished) := by
    unfold sendEmail
    rw [hstage]
  cases hawait : reply.await with
  | returns =>
    rw [hawait] at hstep
    refine h.givesUp next_other hi hfrom ?_ (.inl rfl) ?_
    · rw [next_row, hstep]
      rfl
    · rw [next_job, hstep]
      rfl
  | throws took =>
    rw [hawait] at hstep
    cases took with
    | true =>
      refine h.givesUp next_other hi hfrom ?_ (.inl rfl) ?_
      · rw [next_row, hstep]
        rfl
      · rw [next_job, hstep]
        exact not_inFlight_thrown
    | false =>
      have hharmless := hkeeps.1 false hawait
      unfold Harmless at hharmless
      rw [hstage] at hharmless
      refine h.goesOn next_other hi hfrom ?_ (.inr ?_)
      · rw [next_row, hstep]
        rfl
      · rw [next_job, hstep]
        exact stage_thrown_last (hharmless rfl)

theorem flown_releasing (h : Flown w) (hkeeps : SendKeeps w (.act i reply))
    (hstage : (w.task i).stage = .releasing) : Flown (sendEmailWorker.next w (.act i reply)) := by
  have hi : (w.task i).stage.inFlight := by
    rw [hstage]
    rfl
  have hfrom : ∀ m, (w.task i).stage ≠ .marking m := by
    rw [hstage]
    exact nofun
  have hstep : sendEmail w.shared (w.task i) reply =
      (if reply.await.took then w.shared.mark .failed else w.shared, (w.task i).thrown) := by
    unfold sendEmail
    rw [hstage]
  by_cases htook : reply.await.took
  · rw [if_pos htook] at hstep
    refine h.givesUp next_other hi hfrom ?_ (.inr rfl) ?_
    · rw [next_row, hstep]
    · rw [next_job, hstep]
      exact not_inFlight_thrown
  · rw [if_neg htook] at hstep
    have hawait : reply.await = .throws false := by
      cases hawait : reply.await with
      | returns =>
        rw [hawait] at htook
        exact absurd rfl htook
      | throws took =>
        rw [hawait] at htook
        cases took with
        | true => exact absurd rfl htook
        | false => rfl
    have hharmless := hkeeps.1 false hawait
    unfold Harmless at hharmless
    rw [hstage] at hharmless
    refine h.goesOn next_other hi hfrom ?_ (.inr ?_)
    · rw [next_row, hstep]
    · rw [next_job, hstep]
      exact stage_thrown_last (hharmless rfl)

theorem flown_mailing (h : Flown w) (hkeeps : SendKeeps w (.act i reply))
    (hstage : (w.task i).stage = .mailing) : Flown (sendEmailWorker.next w (.act i reply)) := by
  have hi : (w.task i).stage.inFlight := by
    rw [hstage]
    rfl
  have hfrom : ∀ m, (w.task i).stage ≠ .marking m := by
    rw [hstage]
    exact nofun
  cases hawait : reply.await with
  | returns =>
    have hstep : sendEmail w.shared (w.task i) reply =
        (w.shared.accept, (w.task i).enter (.marking reply.messageId)) := by
      unfold sendEmail
      rw [hstage, hawait]
      rfl
    have hsending := h.sending i hi
    have hone : w.shared.accept.accepted = 1 := by
      show w.shared.accepted + 1 = 1
      rw [h.unsent hi hfrom]
    refine h.holder next_other hi (fun _ => ?_) (fun _ => .inl ?_) ?_ (fun _ hmarking => ?_) ?_ ?_
    · rw [next_row, hstep]
      exact hsending
    · rw [next_job, hstep]
      rfl
    · rw [next_row, hstep]
      exact hone.le
    · rw [next_job, hstep] at hmarking
      exact absurd rfl (hmarking reply.messageId)
    · rw [next_row, hstep]
      show w.shared.status ≠ .queued
      rw [hsending]
      exact nofun
    · rw [next_row, hstep]
      exact h.known
  | throws took =>
    have hharmless := hkeeps.1 took hawait
    unfold Harmless at hharmless
    rw [hstage] at hharmless
    have htook : took = false := hharmless
    subst htook
    have hstep : sendEmail w.shared (w.task i) reply =
        (w.shared, (w.task i).enter .releasing) := by
      unfold sendEmail
      rw [hstage, hawait]
      rfl
    refine h.goesOn next_other hi hfrom ?_ (.inl ?_)
    · rw [next_row, hstep]
    · rw [next_job, hstep]
      rfl

theorem flown_marking {m : String} (h : Flown w) (hkeeps : SendKeeps w (.act i reply))
    (hstage : (w.task i).stage = .marking m) : Flown (sendEmailWorker.next w (.act i reply)) := by
  have hi : (w.task i).stage.inFlight := by
    rw [hstage]
    rfl
  have htook : reply.await.took = true := by
    cases hawait : reply.await with
    | returns => rfl
    | throws took =>
      have hharmless := hkeeps.1 took hawait
      unfold Harmless at hharmless
      rw [hstage] at hharmless
      exact hharmless
  have hstep : sendEmail w.shared (w.task i) reply =
      (w.shared.mark .sent (some m), (w.task i).after reply.await .finished) := by
    unfold sendEmail
    rw [hstage]
    simp only [if_pos htook]
  have hto : ((sendEmailWorker.next w (.act i reply)).task i).stage.inFlight = false := by
    rw [next_job, hstep]
    cases reply.await with
    | returns => rfl
    | throws took => exact not_inFlight_thrown
  have hout : (w.shared.mark .sent (some m)).isOut = true := rfl
  refine h.holder next_other hi (fun hin => ?_) (fun hsending => ?_) ?_ (fun hnot _ => ?_) ?_
    (fun _ => ?_)
  · rw [hto] at hin
    cases hin
  · rw [next_row, hstep] at hsending
    cases hsending
  · rw [next_row, hstep]
    exact h.once
  · rw [next_row, hstep, hout] at hnot
    cases hnot
  · rw [next_row, hstep]
    exact nofun
  · rw [next_row, hstep]
    exact hout

theorem flown_exhausted (h : Flown w) (hkeeps : SendKeeps w (.act i reply))
    (hstage : (w.task i).stage = .exhausted) : Flown (sendEmailWorker.next w (.act i reply)) := by
  have hfrom : (w.task i).stage.inFlight = false := by
    rw [hstage]
    rfl
  have hstep : sendEmail w.shared (w.task i) reply =
      (if reply.await.took then w.shared.mark .failed else w.shared,
        (w.task i).enter .finished) := by
    unfold sendEmail
    rw [hstage]
  by_cases htook : reply.await.took
  · rw [if_pos htook] at hstep
    obtain ⟨hout, halone⟩ := hkeeps.2 hstage htook
    refine h.move next_other (fun hin => ?_) (fun hheldBy => absurd hheldBy halone)
      (fun hsending => ?_) ?_ (fun _ _ _ => ?_) (fun hq => ?_) (fun hknown => ?_)
    · rw [next_job, hstep] at hin
      cases hin
    · rw [next_row, hstep] at hsending
      cases hsending
    · rw [next_row, hstep]
      exact h.once
    · rw [next_row, hstep]
      refine h.fresh hout fun j m hj => ?_
      by_cases hji : j = i
      · rw [hji, hstage] at hj
        cases hj
      · exact halone ⟨j, hji, by rw [hj]; rfl⟩
    · rw [next_row, hstep] at hq
      cases hq
    · have hbefore : w.shared.providerMessageId.isSome := by
        rw [next_row, hstep] at hknown
        simpa [DeliveryRow.mark] using hknown
      rw [h.known hbefore] at hout
      cases hout
  · rw [if_neg htook] at hstep
    have hleft : w.shared.settled ∨ HeldByOther w i := by
      cases hawait : reply.await with
      | returns =>
        rw [hawait] at htook
        exact absurd rfl htook
      | throws took =>
        have hharmless := hkeeps.1 took hawait
        unfold Harmless at hharmless
        rw [hstage] at hharmless
        rw [hawait] at htook
        exact hharmless (Bool.eq_false_iff.2 htook)
    refine h.pass next_other ?_ hfrom ?_ (fun hsending _ => ?_) (fun hq => ?_)
    · rw [next_row, hstep]
    · rw [next_job, hstep]
      rfl
    · obtain hsettled | hheldBy := hleft
      · simp [DeliveryRow.settled, hsending] at hsettled
      · exact .inr hheldBy
    · obtain hsettled | ⟨j, -, hj⟩ := hleft
      · simp [DeliveryRow.settled, hq] at hsettled
      · rw [h.sending j hj] at hq
        cases hq

theorem flown_finished (h : Flown w) (hstage : (w.task i).stage = .finished) :
    Flown (sendEmailWorker.next w (.act i reply)) := by
  have hfrom : (w.task i).stage.inFlight = false := by
    rw [hstage]
    rfl
  have hstep : sendEmail w.shared (w.task i) reply = (w.shared, w.task i) := by
    unfold sendEmail
    rw [hstage]
  refine h.pass next_other ?_ hfrom ?_ (fun _ hex => ?_) (fun hq => ?_)
  · rw [next_row, hstep]
  · rw [next_job, hstep]
    exact hfrom
  · rw [hstage] at hex
    cases hex
  · exact absurd hstage (h.queued hq i)

end Stages

theorem feedback_unknown {report : Feedback} (h : row.providerMessageId = none) :
    row.feedback report = row := by
  unfold DeliveryRow.feedback
  rw [h]
  rfl

theorem isOut_feedback {report : Feedback} (h : row.isOut) : (row.feedback report).isOut := by
  unfold DeliveryRow.feedback
  split_ifs
  · cases report <;> rfl
  · exact h

theorem flown_feedback {report : Feedback} (h : Flown w) :
    Flown (sendEmailWorker.next w (.env report)) := by
  cases hid : w.shared.providerMessageId with
  | none =>
    have hsame : sendEmailWorker.next w (.env report) = w := by
      show World.mk (w.shared.feedback report) w.task = w
      rw [feedback_unknown hid]
    rw [hsame]
    exact h
  | some m =>
    have hout : w.shared.isOut := h.known (by rw [hid]; rfl)
    have hout' : (w.shared.feedback report).isOut := isOut_feedback hout
    have hcount : (w.shared.feedback report).accepted = w.shared.accepted := by
      unfold DeliveryRow.feedback
      split_ifs <;> rfl
    have hidle : ∀ j, (w.task j).stage.inFlight = false := by
      intro j
      by_contra hj
      rw [isOut_of_sending (h.sending j (Bool.not_eq_false _ ▸ hj))] at hout
      cases hout
    have hstatus : (w.shared.feedback report).status ≠ .sending ∧
        (w.shared.feedback report).status ≠ .queued := by
      constructor <;> intro heq <;> simp [DeliveryRow.isOut, heq] at hout'
    constructor
    · exact h.single
    · intro j hj
      exact absurd hj (Bool.eq_false_iff.1 (hidle j))
    · exact fun hsending => absurd hsending hstatus.1
    · exact hcount.le.trans h.once
    · intro hnot
      change (w.shared.feedback report).isOut = false at hnot
      rw [hout'] at hnot
      cases hnot
    · exact fun hq => absurd hq hstatus.2
    · exact fun _ => hout'

theorem flown_next (e : Event ι SendReply Feedback) (h : Flown w) (hkeeps : SendKeeps w e) :
    Flown (sendEmailWorker.next w e) := by
  cases e with
  | env report => exact flown_feedback h
  | act i reply =>
    cases hstage : (w.task i).stage with
    | waiting => exact flown_waiting h hkeeps hstage
    | checking => exact flown_checking h hkeeps hstage
    | suppressing => exact flown_suppressing h hkeeps hstage
    | mailing => exact flown_mailing h hkeeps hstage
    | releasing => exact flown_releasing h hkeeps hstage
    | marking m => exact flown_marking h hkeeps hstage
    | exhausted => exact flown_exhausted h hkeeps hstage
    | finished => exact flown_finished h hstage

theorem isOut_next (e : Event ι SendReply Feedback) (h : Flown w) (hkeeps : SendKeeps w e)
    (hout : w.shared.isOut) : (sendEmailWorker.next w e).shared.isOut := by
  cases e with
  | env report => exact isOut_feedback hout
  | act i reply =>
    have hidle : (w.task i).stage.inFlight = false := by
      by_contra hi
      rw [isOut_of_sending (h.sending i (Bool.not_eq_false _ ▸ hi))] at hout
      cases hout
    have hclaim : w.shared.claim = w.shared := by
      refine claim_of_not (Bool.eq_false_iff.2 fun hclaim => ?_)
      obtain hq | hf := claimable_iff.1 hclaim
      · simp [DeliveryRow.isOut, hq] at hout
      · simp [DeliveryRow.isOut, hf] at hout
    have hrow : (sendEmail w.shared (w.task i) reply).1 = w.shared := by
      unfold sendEmail
      cases hstage : (w.task i).stage with
      | waiting =>
        show (if reply.await.took then w.shared.claim else w.shared) = w.shared
        rw [hclaim, ite_self]
      | exhausted =>
        have htook : reply.await.took = false := by
          by_contra htook
          rw [(hkeeps.2 hstage (Bool.not_eq_false _ ▸ htook)).1] at hout
          cases hout
        simp [htook]
      | finished => rfl
      | _ => exact absurd hidle (by simp [hstage, SendStage.inFlight])
    rw [next_row, hrow]
    exact hout

/-- Along a run whose throws are harmless and whose `failed` handlers keep off, the mail is sent
once at most, no job leaves the row behind, and what is out stays out. -/
theorem singleFlight_of_keeps {status : NotificationDeliveryStatus} {attempts : ι → Option ℕ}
    {evs : List (Event ι SendReply Feedback)} (hstatus : status = .queued ∨ status = .suppressed)
    (hkeeps : ∀ x ∈ sendEmailWorker.transitions (deliveryJobs status attempts) evs,
      SendKeeps x.1 x.2) :
    SingleFlight (deliveryJobs status attempts) evs := by
  have hflown : ∀ v ∈ sendEmailWorker.visited (deliveryJobs status attempts) evs, Flown v :=
    System.visited_induct (fun w e h hkeep => flown_next e h hkeep) (flown_start attempts hstatus)
      hkeeps
  refine ⟨fun v hv => (hflown v hv).once, fun v hv hall => ?_, fun x hx hout => ?_⟩
  · obtain ⟨⟨i, hi⟩, hfinished⟩ := hall
    have hsending : v.shared.status ≠ .sending := by
      intro heq
      obtain ⟨j, hj | hj⟩ := (hflown v hv).held heq
      · rw [hfinished j] at hj
        cases hj
      · rw [hfinished j] at hj
        cases hj
    have hqueued : v.shared.status ≠ .queued := fun heq => (hflown v hv).queued heq i hi
    simp [DeliveryRow.settled, hsending, hqueued]
  · exact isOut_next x.2 (hflown x.1 (System.fst_mem_visited hx)) (hkeeps x hx) hout

def thrownCheck : List (Event Unit SendReply Feedback) :=
  [.act () {}, .act () { await := .throws false }, .act () {}]

def lateHandler : List (Event Bool SendReply Feedback) :=
  [.act true {}, .act true {}, .act true { await := .throws false }, .act true {},
    .act false {}, .act false {}, .act false { messageId := "m" }, .act false {}, .act true {}]

/-- The retry finds its own claim and ends the job, with the row still `sending`; the handler
writes `failed` over `sent`. -/
theorem thrown_check_leaves_sending :
    ¬(∀ evs : List (Event Unit SendReply Feedback),
      SingleFlight (deliveryJobs .queued fun _ => some 4) evs) ∧
    ¬∀ evs : List (Event Bool SendReply Feedback),
      SingleFlight (deliveryJobs .queued fun _ => some 1) evs := by
  refine ⟨fun claim => ?_, fun claim => ?_⟩
  · have hall : AllFinished (sendEmailWorker.runAll (deliveryJobs .queued fun _ => some 4)
        thrownCheck) := ⟨⟨(), rfl⟩, fun _ => rfl⟩
    have hsettled := (claim thrownCheck).unstuck _ System.last_mem_visited hall
    exact absurd hsettled (by decide)
  · have hmem : (sendEmailWorker.runAll (deliveryJobs .queued fun _ => some 1)
        (lateHandler.take 8), Event.act true {}) ∈
        sendEmailWorker.transitions (deliveryJobs .queued fun _ => some 1) lateHandler := by
      have hwhole : lateHandler = lateHandler.take 8 ++ lateHandler.drop 8 :=
        (List.take_append_drop 8 lateHandler).symm
      rw [hwhole, System.transitions_append]
      exact List.mem_append_right _ List.mem_cons_self
    have hstays := (claim lateHandler).stays _ hmem (by decide)
    exact absurd hstays (by decide)

omit [DecidableEq ι] in
theorem sendKeeps_of_returns (hreturns : reply.await = .returns)
    (hrunning : (w.task i).stage ≠ .exhausted) : SendKeeps w (.act i reply) := by
  refine ⟨fun took hthrows => ?_, fun hexhausted => absurd hexhausted hrunning⟩
  rw [hreturns] at hthrows
  cases hthrows

theorem singleFlight_of_keeps_sent :
    SingleFlight (deliveryJobs .queued fun _ : Unit => some 4)
      [.act () {}, .act () {}, .act () { messageId := "m" }, .act () {}, .env .delivered] := by
  refine singleFlight_of_keeps (.inl rfl) fun x hx => ?_
  simp only [System.transitions, List.mem_cons, List.not_mem_nil, or_false] at hx
  rcases hx with rfl | rfl | rfl | rfl | rfl
  · exact sendKeeps_of_returns rfl (by decide)
  · exact sendKeeps_of_returns rfl (by decide)
  · exact sendKeeps_of_returns rfl (by decide)
  · exact sendKeeps_of_returns rfl (by decide)
  · trivial

end Rovenue.Notifications
