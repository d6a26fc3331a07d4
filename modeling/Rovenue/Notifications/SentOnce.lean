import Rovenue.Notifications.ProcessNotification

/-! A queued row keeps its job as long as no fault comes between its commit and the add; the
row itself hides its recipient from every later call. -/

namespace Rovenue.Notifications
open Threads

def jobsOwed : Obligations Store Call ℕ where
  owed s := {id | ∃ d, s.deliveries[id]? = some d ∧ d.status = .queued}
  done s := {id | ∃ job ∈ s.jobs, job.deliveryId = id}
  held c := {id | ∃ job ∈ c.stage.pending, job.deliveryId = id}

def JobFor (s : Store) (job : SendJob) : Prop :=
  ∃ d, s.deliveries[job.deliveryId]? = some d ∧ d.status = .queued ∧ d.channel = job.channel

structure Recorded (s : Store) : Prop where
  places : ∀ d ∈ s.deliveries, d.notificationId < s.notifications.length
  keys : (s.notifications.map fun n => (n.userId, n.eventId)).Nodup
  rows : (s.deliveries.map fun d => (d.notificationId, d.channel)).Nodup
  jobs : ∀ job ∈ s.jobs, JobFor s job

structure PendingFor (s : Store) (pending : List SendJob) : Prop where
  jobs : ∀ job ∈ pending, JobFor s job
  nodup : (pending.map SendJob.deliveryId).Nodup

def RecordedWorld {ι : Type} (w : World ι Store Call) : Prop :=
  Recorded w.shared ∧ ∀ i, PendingFor w.shared (w.task i).stage.pending

section Recipient
variable {payload : NotifyPayload} {userId : String} {p : Prepared} {first : ℕ} {s : Store}

theorem sendJob_eq_some {id : ℕ} {cs : ChannelStatus} {job : SendJob}
    (h : p.sendJob payload userId id cs = some job) :
    job.deliveryId = id ∧ job.channel = cs.channel ∧ cs.status = .queued := by
  unfold Prepared.sendJob at h
  split_ifs at h with hstatus
  have hqueued : cs.status = .queued := not_not.1 hstatus
  split at h
  · next hchannel _ =>
    obtain rfl := Option.some.inj h
    exact ⟨rfl, hchannel.symm, hqueued⟩
  · next hchannel =>
    obtain rfl := Option.some.inj h
    exact ⟨rfl, hchannel.symm, hqueued⟩
  · cases h

theorem channelStatus_channel (channel : NotificationChannel) :
    (p.channelStatus channel).channel = channel := by
  cases channel with
  | inapp => rfl
  | push => rfl
  | email =>
    unfold Prepared.channelStatus
    split_ifs <;> rfl

theorem sendJob_queued {id : ℕ} {cs : ChannelStatus} (hcs : cs ∈ p.channelStatuses)
    (hqueued : cs.status = .queued) : ∃ job, p.sendJob payload userId id cs = some job := by
  obtain ⟨channel, -, rfl⟩ := List.mem_map.1 hcs
  unfold Prepared.sendJob
  rw [if_neg (not_not.2 hqueued)]
  cases channel with
  | inapp => cases hqueued
  | push => exact ⟨_, rfl⟩
  | email =>
    cases hemail : p.userEmail with
    | none =>
      rw [Prepared.channelStatus, if_pos hemail] at hqueued
      cases hqueued
    | some userEmail =>
      rw [channelStatus_channel]
      exact ⟨_, rfl⟩

theorem channelStatuses_channels :
    p.channelStatuses.map ChannelStatus.channel = p.enabledChannels := by
  rw [Prepared.channelStatuses, List.map_map]
  have hid : ChannelStatus.channel ∘ p.channelStatus = id := by
    funext channel
    exact channelStatus_channel channel
  rw [hid, List.map_id]

theorem mem_sendJobs {job : SendJob} (h : job ∈ p.sendJobs payload userId first) :
    ∃ k cs, p.channelStatuses[k]? = some cs ∧ cs.status = .queued ∧
      job.deliveryId = first + k ∧ job.channel = cs.channel := by
  obtain ⟨⟨cs, id⟩, hmem, hjob⟩ := List.mem_filterMap.1 h
  obtain ⟨hid, hchannel, hqueued⟩ := sendJob_eq_some hjob
  obtain ⟨hle, hget⟩ := List.mk_mem_zipIdx_iff_le_and_getElem?_sub.1 hmem
  exact ⟨id - first, cs, hget, hqueued, by omega, hchannel⟩

theorem exists_sendJob {k : ℕ} {cs : ChannelStatus} (hget : p.channelStatuses[k]? = some cs)
    (hqueued : cs.status = .queued) :
    ∃ job ∈ p.sendJobs payload userId first, job.deliveryId = first + k := by
  have hjob : ∃ job, p.sendJob payload userId (first + k) cs = some job :=
    sendJob_queued (List.mem_of_getElem? hget) hqueued
  obtain ⟨job, hjob⟩ := hjob
  refine ⟨job, List.mem_filterMap.2 ⟨(cs, first + k), ?_, hjob⟩, (sendJob_eq_some hjob).1⟩
  exact List.mk_mem_zipIdx_iff_le_and_getElem?_sub.2 ⟨by omega, by simpa using hget⟩

theorem sendJobs_nodup : ((p.sendJobs payload userId first).map SendJob.deliveryId).Nodup := by
  have hplaces : (p.channelStatuses.zipIdx first).Pairwise fun a b => a.2 ≠ b.2 := by
    have hrange : ((p.channelStatuses.zipIdx first).map Prod.snd).Nodup := by
      rw [List.zipIdx_map_snd]
      exact List.nodup_range'
    exact List.pairwise_map.1 hrange
  unfold Prepared.sendJobs List.Nodup
  rw [List.pairwise_map, List.pairwise_filterMap]
  apply hplaces.imp
  intro a b hne job hjob job' hjob'
  rw [(sendJob_eq_some hjob).1, (sendJob_eq_some hjob').1]
  exact hne

end Recipient

section Tables
variable {s s' : Store} {payload : NotifyPayload} {userId : String} {p : Prepared}

theorem JobFor.lt {job : SendJob} (h : JobFor s job) : job.deliveryId < s.deliveries.length := by
  obtain ⟨d, hget, -⟩ := h
  exact (List.getElem?_eq_some_iff.1 hget).1

theorem JobFor.insert {job : SendJob} (h : JobFor s job) (n : Notification)
    (statuses : List ChannelStatus) : JobFor (s.insert n statuses) job := by
  obtain ⟨d, hget, hd⟩ := id h
  refine ⟨d, ?_, hd⟩
  show (s.deliveries ++ _)[job.deliveryId]? = some d
  rw [List.getElem?_append_left h.lt, hget]

theorem JobFor.committed {job : SendJob} (h : JobFor s job) (payload : NotifyPayload)
    (userId : String) (p : Prepared) : JobFor (committed s payload userId p) job := by
  unfold Notifications.committed
  split_ifs
  · exact h
  · exact h.insert _ _

theorem getElem?_insert {n : Notification} {statuses : List ChannelStatus} {k : ℕ} :
    (s.insert n statuses).deliveries[s.deliveries.length + k]? =
      (statuses[k]?).map fun cs => ⟨cs, s.notifications.length⟩ := by
  show (s.deliveries ++ statuses.map _)[s.deliveries.length + k]? = _
  rw [List.getElem?_append_right (by omega), List.getElem?_map]
  have hk : s.deliveries.length + k - s.deliveries.length = k := by omega
  rw [hk]

theorem jobsFor_jobFor {job : SendJob} (h : job ∈ jobsFor s payload userId p) :
    JobFor (committed s payload userId p) job ∧ s.deliveries.length ≤ job.deliveryId := by
  unfold jobsFor at h
  unfold committed
  split_ifs at h ⊢ with hdup
  · cases h
  · obtain ⟨k, cs, hget, hqueued, hid, hchannel⟩ := mem_sendJobs h
    refine ⟨⟨⟨cs, s.notifications.length⟩, ?_, hqueued, hchannel.symm⟩, by omega⟩
    rw [hid, getElem?_insert, hget]
    rfl

theorem owed_committed : jobsOwed.owed (committed s payload userId p) =
    jobsOwed.owed s ∪ {id | ∃ job ∈ jobsFor s payload userId p, job.deliveryId = id} := by
  ext id
  constructor
  · intro howed
    obtain ⟨d, hget, hqueued⟩ := howed
    unfold committed at hget
    split_ifs at hget with hdup
    · exact .inl ⟨d, hget, hqueued⟩
    · obtain hlt | hle := lt_or_ge id s.deliveries.length
      · have hold : s.deliveries[id]? = some d := by
          rw [← hget]
          exact (List.getElem?_append_left hlt).symm
        exact .inl ⟨d, hold, hqueued⟩
      · obtain ⟨k, rfl⟩ := Nat.exists_eq_add_of_le hle
        rw [getElem?_insert] at hget
        obtain ⟨cs, hcs, rfl⟩ := Option.map_eq_some_iff.1 hget
        obtain ⟨job, hjob, hid⟩ := exists_sendJob hcs hqueued
        refine .inr ⟨job, ?_, hid⟩
        rw [jobsFor, if_neg hdup]
        exact hjob
  · intro hboth
    obtain ⟨d, hget, hqueued⟩ | ⟨job, hjob, rfl⟩ := hboth
    · unfold committed
      split_ifs
      · exact ⟨d, hget, hqueued⟩
      · refine ⟨d, ?_, hqueued⟩
        show (s.deliveries ++ _)[id]? = some d
        rw [List.getElem?_append_left (List.getElem?_eq_some_iff.1 hget).1, hget]
    · obtain ⟨⟨d, hget, hqueued, -⟩, -⟩ := jobsFor_jobFor hjob
      exact ⟨d, hget, hqueued⟩

theorem Recorded.committed (h : Recorded s) (payload : NotifyPayload) (userId : String)
    (p : Prepared) : Recorded (committed s payload userId p) := by
  have hjobs : ∀ job ∈ s.jobs, JobFor (Notifications.committed s payload userId p) job :=
    fun job hjob => (h.jobs job hjob).committed payload userId p
  unfold Notifications.committed at hjobs ⊢
  split_ifs at hjobs ⊢ with hdup
  · exact h
  · constructor
    · intro d hd
      show d.notificationId < (s.notifications ++ _).length
      rw [List.length_append]
      obtain hd | hd := List.mem_append.1 hd
      · have hplace := h.places d hd
        omega
      · obtain ⟨cs, -, rfl⟩ := List.mem_map.1 hd
        show s.notifications.length < _
        simp
    · show ((s.notifications ++ _).map _).Nodup
      rw [List.map_append, List.nodup_append]
      refine ⟨h.keys, by simp, fun a ha b hb => ?_⟩
      obtain ⟨n, hn, rfl⟩ := List.mem_map.1 ha
      obtain rfl := List.mem_singleton.1 hb
      intro hsame
      obtain ⟨huser, hevent⟩ := Prod.mk.inj hsame
      apply hdup
      exact List.any_eq_true.2 ⟨n, hn, by
        simpa [Prepared.notification] using And.intro huser hevent⟩
    · show ((s.deliveries ++ _).map _).Nodup
      rw [List.map_append, List.map_map, List.nodup_append]
      refine ⟨h.rows, ?_, fun a ha b hb => ?_⟩
      · have hchannels : (p.channelStatuses.map ChannelStatus.channel).Nodup := by
          rw [channelStatuses_channels]
          exact p.nodup
        have hpair : Function.Injective fun channel : NotificationChannel =>
            (s.notifications.length, channel) := fun _ _ hab => (Prod.mk.inj hab).2
        have hmapped := hchannels.map hpair
        rwa [List.map_map] at hmapped
      · obtain ⟨d, hd, rfl⟩ := List.mem_map.1 ha
        obtain ⟨cs, -, rfl⟩ := List.mem_map.1 hb
        intro hsame
        have hplace := h.places d hd
        have hid : d.notificationId = s.notifications.length := (Prod.mk.inj hsame).1
        omega
    · exact hjobs

theorem Recorded.add (h : Recorded s) {job : SendJob} (hjob : JobFor s job) :
    Recorded (s.add job) where
  places := h.places
  keys := h.keys
  rows := h.rows
  jobs job' hmem := by
    obtain hmem | hmem := List.mem_append.1 hmem
    · exact h.jobs job' hmem
    · rw [List.mem_singleton.1 hmem]
      exact hjob

end Tables

inductive Effect (s : Store) (c : Call) : Store → List SendJob → Prop where
  | rest : Effect s c s c.stage.pending
  | commit (userId : String) (p : Prepared) : Effect s c (committed s c.payload userId p)
      (c.stage.pending ++ jobsFor s c.payload userId p)
  | add {job : SendJob} {rest : List SendJob} (h : c.stage.pending = job :: rest) :
      Effect s c (s.add job) rest

@[simp] theorem pending_enqueue (pending : List SendJob) : (enqueue pending).pending = pending := by
  cases pending <;> rfl

@[simp] theorem pending_nextRecipient (event : CatalogEvent) (recipients : List String)
    (pending : List SendJob) : (nextRecipient event recipients pending).pending = pending := by
  cases recipients with
  | nil => exact pending_enqueue pending
  | cons => rfl

theorem pending_resolve (payload : NotifyPayload) (reply : Reply) :
    (resolve payload reply).pending = [] := by
  unfold resolve
  split
  · rfl
  · split_ifs
    · rfl
    · split
      · rfl
      · exact pending_nextRecipient ..

theorem pending_prepare (payload : NotifyPayload) (event : CatalogEvent) (userId : String)
    (rest : List String) (postCommit : List SendJob) (reply : Reply) :
    (prepare payload event userId rest postCommit reply).pending =
      if reply.fault.isSome then [] else postCommit := by
  unfold prepare
  split_ifs
  · rfl
  · exact pending_nextRecipient ..
  · rfl

theorem advance_effect (s : Store) (c : Call) (reply : Reply) :
    ∃ full, Effect s c (advance s c reply).1 full ∧
      ((advance s c reply).2.pending).Sublist full ∧
      (Loses s c reply ↔ (advance s c reply).2.pending ≠ full) := by
  obtain ⟨payload, stage⟩ := c
  cases stage with
  | called =>
    refine ⟨[], .rest, ?_⟩
    show (resolve payload reply).pending.Sublist [] ∧
      (Loses s ⟨payload, .called⟩ reply ↔ (resolve payload reply).pending ≠ [])
    rw [pending_resolve]
    simp [Loses]
  | preparing event userId rest postCommit =>
    refine ⟨postCommit, .rest, ?_⟩
    show (prepare payload event userId rest postCommit reply).pending.Sublist postCommit ∧
      (_ ↔ (prepare payload event userId rest postCommit reply).pending ≠ postCommit)
    rw [pending_prepare]
    unfold Loses
    cases hfault : reply.fault with
    | none => simp
    | some fault => simp [eq_comm]
  | committing event userId rest postCommit p =>
    have hstep : advance s ⟨payload, .committing event userId rest postCommit p⟩ reply =
        commit s payload event userId rest postCommit p reply := rfl
    rw [hstep]
    unfold commit Loses
    cases hfault : reply.fault with
    | none =>
      exact ⟨postCommit ++ jobsFor s payload userId p, .commit userId p, by simp, by simp⟩
    | some fault =>
      dsimp only
      split_ifs with htook
      · refine ⟨postCommit ++ jobsFor s payload userId p, .commit userId p, List.nil_sublist _, ?_⟩
        show (postCommit ≠ [] ∨ fault.took = true ∧ jobsFor s payload userId p ≠ []) ↔
          ¬[] = postCommit ++ jobsFor s payload userId p
        rw [List.nil_eq, List.append_eq_nil_iff]
        tauto
      · refine ⟨postCommit, .rest, List.nil_sublist _, ?_⟩
        show (postCommit ≠ [] ∨ fault.took = true ∧ _) ↔ [] ≠ postCommit
        rw [ne_comm]
        tauto
  | sending job rest =>
    have hself : rest ≠ job :: rest := fun h => by simpa using congrArg List.length h
    have hstep : advance s ⟨payload, .sending job rest⟩ reply = send s job rest reply := rfl
    rw [hstep]
    unfold send Loses
    cases hfault : reply.fault with
    | none => exact ⟨rest, .add rfl, by simp, by simp⟩
    | some fault =>
      cases fault with
      | throws took =>
        cases took with
        | false => exact ⟨job :: rest, .rest, by simp, by simp [hself]⟩
        | true => exact ⟨rest, .add rfl, by simp, by simp⟩
      | crashes took =>
        cases took with
        | false => exact ⟨job :: rest, .rest, List.nil_sublist _, by simp [Stage.pending]⟩
        | true => exact ⟨rest, .add rfl, List.nil_sublist _, by simp [Stage.pending, eq_comm]⟩
  | returned => exact ⟨_, .rest, by simp [advance, Loses, Stage.pending]⟩
  | failed => exact ⟨_, .rest, by simp [advance, Loses, Stage.pending]⟩

section Steps
variable {s s' : Store} {c : Call} {full : List SendJob}

theorem PendingFor.fresh {pending : List SendJob} (h : PendingFor s pending) {id : ℕ}
    (hid : s.deliveries.length ≤ id) : id ∉ pending.map SendJob.deliveryId := by
  intro hmem
  obtain ⟨job, hjob, rfl⟩ := List.mem_map.1 hmem
  have hlt := (h.jobs job hjob).lt
  omega

theorem PendingFor.sublist {pending pending' : List SendJob} (h : PendingFor s pending)
    (hsub : pending'.Sublist pending) : PendingFor s pending' where
  jobs job hjob := h.jobs job (hsub.subset hjob)
  nodup := h.nodup.sublist (hsub.map _)

theorem JobFor.effect {job : SendJob} (h : JobFor s job) (heffect : Effect s c s' full) :
    JobFor s' job := by
  cases heffect with
  | rest => exact h
  | commit userId p => exact h.committed c.payload userId p
  | add _ => exact h

theorem Recorded.effect (h : Recorded s) (hpending : PendingFor s c.stage.pending)
    (heffect : Effect s c s' full) : Recorded s' := by
  cases heffect with
  | rest => exact h
  | commit userId p => exact h.committed c.payload userId p
  | add hjobs => exact h.add (hpending.jobs _ (by rw [hjobs]; exact List.mem_cons_self ..))

theorem PendingFor.effect (h : PendingFor s c.stage.pending) (heffect : Effect s c s' full) :
    PendingFor s' full := by
  cases heffect with
  | rest => exact h
  | commit userId p =>
    constructor
    · intro job hjob
      obtain hjob | hjob := List.mem_append.1 hjob
      · exact (h.jobs job hjob).committed c.payload userId p
      · exact (jobsFor_jobFor hjob).1
    · rw [List.map_append, List.nodup_append]
      refine ⟨h.nodup, ?_, fun a ha b hb => ?_⟩
      · unfold jobsFor
        split_ifs
        · exact List.nodup_nil
        · exact sendJobs_nodup
      · obtain ⟨job, hjob, rfl⟩ := List.mem_map.1 hb
        rintro rfl
        exact h.fresh (jobsFor_jobFor hjob).2 ha
  | add hjobs =>
    rw [hjobs] at h
    exact ⟨(h.sublist (List.sublist_cons_self ..)).jobs, (List.nodup_cons.1 h.nodup).2⟩

theorem recordedWorld_next {ι : Type} [DecidableEq ι] {w : World ι Store Call}
    (e : Event ι Reply Empty) (h : RecordedWorld w) :
    RecordedWorld (processNotification.next w e) := by
  cases e with
  | env d => exact nomatch d
  | act i reply =>
    obtain ⟨full, heffect, hsub, -⟩ := advance_effect w.shared (w.task i) reply
    refine ⟨h.1.effect (h.2 i) heffect, fun j => ?_⟩
    by_cases hji : j = i
    · subst hji
      have hself : (processNotification.next w (.act j reply)).task j =
          { w.task j with stage := (advance w.shared (w.task j) reply).2 } :=
        Function.update_self ..
      rw [hself]
      exact ((h.2 j).effect heffect).sublist hsub
    · have hother : (processNotification.next w (.act i reply)).task j = w.task j :=
        Function.update_of_ne hji ..
      rw [hother]
      exact ⟨fun job hjob => ((h.2 j).jobs job hjob).effect heffect, (h.2 j).nodup⟩

def idsOf (pending : List SendJob) : Set ℕ := {id | ∃ job ∈ pending, job.deliveryId = id}

theorem Effect.owes (heffect : Effect s c s' full) (h : Recorded s)
    (hpending : PendingFor s c.stage.pending)
    (hundone : idsOf c.stage.pending ⊆ jobsOwed.owed s \ jobsOwed.done s) :
    jobsOwed.owed s ⊆ jobsOwed.owed s' ∧ jobsOwed.done s ⊆ jobsOwed.done s' ∧
      jobsOwed.done s' ⊆ jobsOwed.done s ∪ jobsOwed.inHand s c s' ∧
      idsOf full ⊆ jobsOwed.inHand s c s' \ jobsOwed.done s' ∧
      jobsOwed.inHand s c s' ⊆ idsOf full ∪ jobsOwed.done s' := by
  cases heffect with
  | rest =>
    refine ⟨subset_rfl, subset_rfl, Set.subset_union_left, ?_, ?_⟩
    · exact fun id hid => ⟨.inl hid, (hundone hid).2⟩
    · intro id hid
      obtain hheld | hnew := hid
      · exact .inl hheld
      · exact absurd hnew.1 hnew.2
  | commit userId p =>
    have hdone : jobsOwed.done (committed s c.payload userId p) = jobsOwed.done s := by
      unfold committed
      split_ifs <;> rfl
    have hold : ∀ id ∈ jobsOwed.owed s, id < s.deliveries.length := by
      intro id howed
      obtain ⟨d, hget, -⟩ := howed
      exact (List.getElem?_eq_some_iff.1 hget).1
    rw [hdone]
    refine ⟨?_, subset_rfl, Set.subset_union_left, ?_, ?_⟩
    · rw [owed_committed]
      exact Set.subset_union_left
    · intro id hid
      obtain ⟨job, hjob, rfl⟩ := hid
      obtain hjob | hjob := List.mem_append.1 hjob
      · have hheld : job.deliveryId ∈ idsOf c.stage.pending := ⟨job, hjob, rfl⟩
        exact ⟨.inl hheld, (hundone hheld).2⟩
      · have hfresh := (jobsFor_jobFor hjob).2
        refine ⟨.inr ⟨?_, fun howed => ?_⟩, fun hbefore => ?_⟩
        · rw [owed_committed]
          exact .inr ⟨job, hjob, rfl⟩
        · have hlt := hold _ howed
          omega
        · obtain ⟨sent, hsent, hid⟩ := hbefore
          have hlt := (h.jobs sent hsent).lt
          omega
    · intro id hid
      obtain ⟨job, hjob, hid⟩ | ⟨howed, hnew⟩ := hid
      · exact .inl ⟨job, List.mem_append_left _ hjob, hid⟩
      · rw [owed_committed] at howed
        obtain howed | ⟨job, hjob, hid⟩ := howed
        · exact absurd howed hnew
        · exact .inl ⟨job, List.mem_append_right _ hjob, hid⟩
  | @add job _ hjobs =>
    have hdone : jobsOwed.done (s.add job) = insert job.deliveryId (jobsOwed.done s) := by
      ext id
      show (∃ sent ∈ s.jobs ++ [job], sent.deliveryId = id) ↔
        id = job.deliveryId ∨ ∃ sent ∈ s.jobs, sent.deliveryId = id
      simp only [List.mem_append, List.mem_singleton, or_and_right, exists_or, exists_eq_left]
      rw [or_comm, eq_comm]
    have hhand : jobsOwed.inHand s c (s.add job) = insert job.deliveryId (idsOf full) := by
      ext id
      show (∃ held ∈ c.stage.pending, held.deliveryId = id) ∨
          (id ∈ jobsOwed.owed s ∧ id ∉ jobsOwed.owed s) ↔
        id = job.deliveryId ∨ ∃ held ∈ full, held.deliveryId = id
      rw [hjobs, List.exists_mem_cons_iff, and_not_self_iff, or_false, eq_comm]
    rw [hhand, hdone]
    have hnodup := hpending.nodup
    rw [hjobs, List.map_cons, List.nodup_cons] at hnodup
    refine ⟨subset_rfl, Set.subset_insert _ _, ?_, ?_, ?_⟩
    · intro id hid
      obtain hid | hid := hid
      · exact .inr (.inl hid)
      · exact .inl hid
    · intro id hid
      refine ⟨.inr hid, fun hdone' => ?_⟩
      obtain ⟨held, hheld, rfl⟩ := hid
      obtain hsame | hbefore := hdone'
      · exact hnodup.1 (hsame ▸ List.mem_map_of_mem hheld)
      · have hin : held.deliveryId ∈ idsOf c.stage.pending :=
          ⟨held, by rw [hjobs]; exact List.mem_cons_of_mem _ hheld, rfl⟩
        exact (hundone hin).2 hbefore
    · intro id hid
      obtain hid | hid := hid
      · exact .inr (.inl hid)
      · exact .inl hid

theorem idsOf_subset_iff {pending : List SendJob} (hsub : pending.Sublist full)
    (hnodup : (full.map SendJob.deliveryId).Nodup) :
    idsOf full ⊆ idsOf pending ↔ pending = full := by
  constructor
  · intro hids
    have hmaps : full.map SendJob.deliveryId ⊆ pending.map SendJob.deliveryId := by
      intro id hid
      obtain ⟨job, hjob, hid⟩ := List.mem_map.1 hid
      obtain ⟨job', hjob', hid'⟩ := hids ⟨job, hjob, hid⟩
      exact List.mem_map.2 ⟨job', hjob', hid'⟩
    have hlength := (hnodup.subperm hmaps).length_le
    rw [List.length_map, List.length_map] at hlength
    exact hsub.eq_of_length_le hlength
  · rintro rfl
    exact subset_rfl

end Steps

theorem recordedWorld_messages {ι : Type} (payloads : ι → NotifyPayload) :
    RecordedWorld (messages payloads) := by
  refine ⟨⟨?_, ?_, ?_, ?_⟩, fun i => ⟨?_, ?_⟩⟩ <;> simp [messages, Stage.pending]

theorem wellHeld_messages {ι : Type} (payloads : ι → NotifyPayload) :
    jobsOwed.WellHeld (messages payloads) := by
  refine ⟨?_, fun i => ?_, fun i j _ => ?_⟩ <;> simp [messages, jobsOwed, Stage.pending]

section Runs
variable {ι : Type} [DecidableEq ι] {w : World ι Store Call}

omit [DecidableEq ι] in
theorem honours_step (i : ι) (reply : Reply) (h : RecordedWorld w) (hheld : jobsOwed.WellHeld w) :
    jobsOwed.Honours w.shared (w.task i) (processNotification.step w.shared (w.task i) reply).1
      (processNotification.step w.shared (w.task i) reply).2 := by
  obtain ⟨full, heffect, hsub, -⟩ := advance_effect w.shared (w.task i) reply
  obtain ⟨howed, hdone, hnow, hfull, -⟩ := heffect.owes h.1 (h.2 i) (hheld.held i)
  refine ⟨howed, hdone, hnow, fun id hid => hfull ?_⟩
  obtain ⟨job, hjob, hid⟩ := hid
  exact ⟨job, hsub.subset hjob, hid⟩

omit [DecidableEq ι] in
theorem drops_iff_loses (i : ι) (reply : Reply) (h : RecordedWorld w)
    (hheld : jobsOwed.WellHeld w) :
    jobsOwed.Drops w.shared (w.task i) (processNotification.step w.shared (w.task i) reply).1
      (processNotification.step w.shared (w.task i) reply).2 ↔
        Loses w.shared (w.task i) reply := by
  obtain ⟨full, heffect, hsub, hloses⟩ := advance_effect w.shared (w.task i) reply
  obtain ⟨-, -, -, hfull, hhand⟩ := heffect.owes h.1 (h.2 i) (hheld.held i)
  have hnodup := ((h.2 i).effect heffect).nodup
  rw [hloses, Ne, ← idsOf_subset_iff hsub hnodup]
  apply not_congr
  constructor
  · intro hkept id hid
    obtain hin | hdone := hkept (hfull hid).1
    · exact hin
    · exact absurd hdone (hfull hid).2
  · intro hids id hid
    obtain hin | hdone := hhand hid
    · exact .inl (hids hin)
    · exact .inr hdone

theorem pending_of_ended {stage : Stage} (h : stage.underWay = false) : stage.pending = [] := by
  cases stage with
  | called => rfl
  | returned => rfl
  | failed => rfl
  | preparing | committing | sending => cases h

omit [DecidableEq ι] in
theorem accounted_iff_sent (h : RecordedWorld w)
    (hended : ∀ i, (w.task i).stage.underWay = false) :
    jobsOwed.Accounted w ↔ QueuedAreSent w.shared := by
  constructor
  · intro hacc id d hget hqueued
    obtain ⟨job, hjob, hid⟩ | ⟨i, job, hjob, -⟩ := hacc id ⟨d, hget, hqueued⟩
    · obtain ⟨d', hget', -, hchannel⟩ := h.1.jobs job hjob
      rw [hid, hget] at hget'
      obtain rfl := Option.some.inj hget'
      exact ⟨job, hjob, hid, hchannel.symm⟩
    · rw [pending_of_ended (hended i)] at hjob
      cases hjob
  · intro hsent id howed
    obtain ⟨d, hget, hqueued⟩ := howed
    obtain ⟨job, hjob, hid, -⟩ := hsent id d hget hqueued
    exact .inl ⟨job, hjob, hid⟩

theorem Recorded.oneRowEach {s : Store} (h : Recorded s) : OneRowEach s := by
  intro userId eventId channel
  have hplace : ∀ d ∈ s.rowsFor userId eventId channel, d.channel = channel ∧
      (s.notifications.map fun n => (n.userId, n.eventId))[d.notificationId]? =
        some (userId, eventId) := by
    intro d hd
    have hcond := (List.mem_filter.1 hd).2
    simp only [Bool.and_eq_true, decide_eq_true_eq, Option.any_eq_true] at hcond
    obtain ⟨hchannel, n, hget, huser, hevent⟩ := hcond
    exact ⟨hchannel, by rw [List.getElem?_map, hget, ← huser, ← hevent]; rfl⟩
  have hrows : (s.rowsFor userId eventId channel).Pairwise fun a b =>
      (a.notificationId, a.channel) ≠ (b.notificationId, b.channel) :=
    (List.pairwise_map.1 h.rows).filter _
  by_contra hmany
  obtain ⟨a, b, rest, hlist⟩ : ∃ a b rest, s.rowsFor userId eventId channel = a :: b :: rest := by
    match s.rowsFor userId eventId channel, hmany with
    | a :: b :: rest, _ => exact ⟨a, b, rest, rfl⟩
    | [a], hmany => exact absurd le_rfl hmany
    | [], hmany => exact absurd (Nat.zero_le 1) hmany
  rw [hlist] at hplace hrows
  obtain ⟨ha, hkeya⟩ := hplace a (by simp)
  obtain ⟨hb, hkeyb⟩ := hplace b (by simp)
  have hsame : a.notificationId = b.notificationId :=
    (List.getElem?_inj (List.getElem?_eq_some_iff.1 hkeya).1 h.keys).1 (hkeya.trans hkeyb.symm)
  exact (List.pairwise_cons.1 hrows).1 b (by simp) (by rw [hsame, ha, hb])

/-- Every queued row has its job at the end, and no recipient two rows of a channel on the way,
exactly when no fault came while a committed row waited for its job. -/
theorem sentOnce_iff_keeps (payloads : ι → NotifyPayload) (evs : List (Event ι Reply Empty))
    (hended : ∀ i, ((processNotification.runAll (messages payloads) evs).task i).stage.underWay =
      false) :
    (QueuedAreSent (processNotification.runAll (messages payloads) evs).shared ∧
      ∀ v ∈ processNotification.visited (messages payloads) evs, OneRowEach v.shared) ↔
    ∀ x ∈ processNotification.transitions (messages payloads) evs, Keeps x.1 x.2 := by
  have hrecorded : ∀ v ∈ processNotification.visited (messages payloads) evs, RecordedWorld v :=
    System.visited_invariant (fun _ e h => recordedWorld_next e h) (recordedWorld_messages payloads)
  have hnothing : jobsOwed.Accounted (messages payloads) := by
    intro id howed
    obtain ⟨d, hget, -⟩ := howed
    cases hget
  have hrun : jobsOwed.Accounted (processNotification.runAll (messages payloads) evs) ↔
      jobsOwed.Accounted (messages payloads) ∧
        ∀ x ∈ processNotification.transitions (messages payloads) evs, Keeps x.1 x.2 :=
    Obligations.accounted_runAll_iff (fun _ e h => recordedWorld_next e h)
      (fun _ i reply h hheld => honours_step i reply h hheld)
      (fun _ i reply h hheld => (drops_iff_loses i reply h hheld).not)
      (recordedWorld_messages payloads) (wellHeld_messages payloads)
  rw [← accounted_iff_sent (hrecorded _ System.last_mem_visited) hended, hrun,
    and_iff_right hnothing]
  exact and_iff_left fun v hv => (hrecorded v hv).1.oneRowEach

end Runs

def refundNotice : NotifyPayload where
  eventKey := "billing.refund.detected"
  eventId := "refund:1"
  projectId := some "p1"
  recipients := some ["ann", "bob"]

def reached (address : String) : Reply where
  userEmail := some address
  rendered := { subject := "A refund", pushTitle := "A refund" }

def renderFails : List (Event Bool Reply Empty) :=
  [.act false {}, .act false (reached "ann@x.io"), .act false {},
    .act false { fault := some (.throws false) }]

def replay : List (Event Bool Reply Empty) :=
  [.act true {}, .act true (reached "ann@x.io"), .act true {}, .act true (reached "bob@x.io"),
    .act true {}, .act true {}]

/-- The replayed call returns, and the first member's email is queued with no job for it. -/
theorem replay_skips_queued_row :
    ((processNotification.runAll (messages fun _ => refundNotice) (renderFails ++ replay)).task
      true).stage = .returned ∧
    ¬QueuedAreSent
      (processNotification.runAll (messages fun _ => refundNotice) (renderFails ++ replay)).shared := by
  refine ⟨rfl, fun hsent => ?_⟩
  obtain ⟨job, hjob, hid, -⟩ := hsent 0 ⟨⟨.email, .queued, none⟩, 0⟩ rfl rfl
  have hjobs : (processNotification.runAll (messages fun _ => refundNotice)
      (renderFails ++ replay)).shared.jobs =
        [.email 2 "bob@x.io" [] "A refund" "" ""] := rfl
  rw [hjobs, List.mem_singleton] at hjob
  rw [hjob] at hid
  cases hid

theorem sentOnce_iff_keeps_replay :
    QueuedAreSent
      (processNotification.runAll (messages fun _ => refundNotice) (.act false {
        fault := some (.throws false) } :: replay ++ [.act true {}])).shared := by
  refine ((sentOnce_iff_keeps (fun _ => refundNotice) _ fun i => ?_).2 fun x hx => ?_).1
  · cases i <;> rfl
  · simp only [replay, List.cons_append, List.nil_append, System.transitions, List.mem_cons,
      List.not_mem_nil, or_false] at hx
    obtain rfl | rfl | rfl | rfl | rfl | rfl | rfl | rfl := hx <;> exact id

end Rovenue.Notifications
