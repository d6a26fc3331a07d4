import Rovenue.Webhooks.WebhookDelivery

/-! Whether a claimed row belongs to one replica. The lease is stamped once for a
batch that is then attempted one row after another. -/

namespace Rovenue.Webhooks
open Txn (Table)
open Threads

variable {ι : Type}

abbrev DeliveryWorld (ι : Type) := World ι DeliveryState Replica

def deliveryStatus (rows : OutgoingRows) (id : String) : Option OutgoingWebhookStatus :=
  (rows.get? id).map OutgoingWebhook.status

def Replica.inFlight : Replica → Option String
  | .delivering wh _ _ => some wh.id
  | _ => none

def Replica.unfinished : Replica → List String
  | .delivering wh _ rest => wh.id :: rest.map PendingWebhookRow.id
  | _ => []

def SingleFlight (w : DeliveryWorld ι) : Prop :=
  ∀ i j, i ≠ j → ∀ id, (w.task i).inFlight = some id → (w.task j).inFlight ≠ some id

/-- A tick that starts takes back no row of an unfinished batch. -/
def NoLiveReclaim (w : DeliveryWorld ι) (e : Event ι DeliveryEvent ℕ) : Prop :=
  ∀ i, e = .act i .tick → w.task i = .idle → ∀ j, ∀ id ∈ (w.task j).unfinished, ∀ row,
    w.shared.rows.get? id = some row → row.stale w.shared.now = false

def Replica.Allows (later : ℤ) : Replica → Prop
  | .idle => True
  | .reclaimed _ => False
  | .delivering _ startedAt _ => later ≤ startedAt + deliveryTimeoutMs

instance (later : ℤ) (t : Replica) : Decidable (t.Allows later) := by
  cases t <;> simp only [Replica.Allows] <;> infer_instance

def Timely (w : DeliveryWorld ι) : Event ι DeliveryEvent ℕ → Prop
  | .env n => n = 0 ∨ ∀ i, (w.task i).Allows (w.shared.now + n)
  | .act _ _ => True

instance [Fintype ι] (w : DeliveryWorld ι) (e : Event ι DeliveryEvent ℕ) :
    Decidable (Timely w e) := by
  cases e <;> simp only [Timely] <;> infer_instance

theorem status_reclaim_keeps {rows : OutgoingRows} {now : ℤ} {id : String}
    (h : ∀ row, rows.get? id = some row → row.stale now = false) :
    (reclaimStaleDeliveries now rows).get? id = rows.get? id := by
  rw [reclaimStaleDeliveries, Table.get?_map]
  cases hrow : rows.get? id with
  | none => rfl
  | some row => simp [h row hrow]

theorem status_reclaim_sent {rows : OutgoingRows} {now : ℤ} {id : String}
    (h : deliveryStatus rows id = some .sent) :
    (reclaimStaleDeliveries now rows).get? id = rows.get? id := by
  refine status_reclaim_keeps fun row hrow => ?_
  rw [deliveryStatus, hrow] at h
  have hsent : row.status = .sent := by simpa using h
  simp [OutgoingWebhook.stale, hsent]

def claimRow (now : ℤ) (r : OutgoingWebhook) : OutgoingWebhook :=
  { r with status := .delivering, claimedAt := some now }

theorem get?_claim (a : ClaimAnswer) (now : ℤ) (rows : OutgoingRows) (id : String) :
    (claimPendingWebhooks now a rows).get? id =
      if id ∈ a.returned.map Prod.fst then (rows.get? id).map (claimRow now) else rows.get? id :=
  Table.get?_foldl_modify (f := claimRow now) rows (fun _ => rfl) _

theorem ClaimAnswer.Answers.returned {a : ClaimAnswer} {now : ℤ} {rows : OutgoingRows}
    (h : a.Answers now rows) : (a.returned.map Prod.fst).Nodup ∧
      ∀ id ∈ a.returned.map Prod.fst, ∃ row, rows.get? id = some row ∧ row.due now = true := by
  obtain ⟨horder, -, hreturned⟩ := h
  have hsub : (a.order.take deliveryBatchSize).Sublist a.order := List.take_sublist _ _
  constructor
  · have hdue : ((dueRows now rows).map Prod.fst).Nodup :=
      (List.filter_sublist.map Prod.fst).nodup rows.nodup
    have hnodup : (a.order.map Prod.fst).Nodup := (horder.map Prod.fst).nodup_iff.2 hdue
    exact (hreturned.map Prod.fst).nodup_iff.2 ((hsub.map Prod.fst).nodup hnodup)
  · intro id hid
    obtain ⟨e, he, rfl⟩ := List.mem_map.1 hid
    have hmem : e ∈ dueRows now rows := horder.subset (hsub.subset (hreturned.subset he))
    obtain ⟨hentry, hdue⟩ := List.mem_filter.1 hmem
    exact ⟨e.2, rows.mem_entries.1 hentry, hdue⟩

theorem due_status {r : OutgoingWebhook} {now : ℤ} (h : r.due now = true) :
    r.status = .pending ∨ r.status = .failed := by
  simp only [OutgoingWebhook.due, Bool.or_eq_true, Bool.and_eq_true, decide_eq_true_eq] at h
  exact h.imp id And.left

theorem get?_claim_of_status {a : ClaimAnswer} {now : ℤ} {rows : OutgoingRows}
    (h : a.Answers now rows) {id : String} {status : OutgoingWebhookStatus}
    (hstatus : deliveryStatus rows id = some status) (hne : status ≠ .pending ∧ status ≠ .failed) :
    id ∉ a.returned.map Prod.fst := by
  intro hmem
  obtain ⟨row, hrow, hdue⟩ := h.returned.2 id hmem
  rw [deliveryStatus, hrow] at hstatus
  have hrs : row.status = status := by simpa using hstatus
  rcases due_status hdue with hp | hf
  · exact hne.1 (hrs.symm.trans hp)
  · exact hne.2 (hrs.symm.trans hf)

theorem get?_update (rows : OutgoingRows) (id id' : String) (patch : UpdateOutgoingWebhookInput)
    (hne : id' ≠ id) : (updateOutgoingWebhook id patch rows).get? id' = rows.get? id' := by
  rw [updateOutgoingWebhook, Table.get?_modify, if_neg hne]

def leaseHeld : Annotation DeliveryState Replica where
  inv _ := True
  assert s t := t.unfinished.Nodup ∧
    ∀ id ∈ t.unfinished, deliveryStatus s.rows id = some .delivering
  apart t u := List.Disjoint t.unfinished u.unfinished

theorem leaseHeld_assert (s : DeliveryState) (t : Replica) : leaseHeld.assert s t =
    (t.unfinished.Nodup ∧ ∀ id ∈ t.unfinished, deliveryStatus s.rows id = some .delivering) := rfl

theorem leaseHeld_apart (t u : Replica) :
    leaseHeld.apart t u = List.Disjoint t.unfinished u.unfinished := rfl

theorem attemptNext_unfinished (now : ℤ) (rest : List PendingWebhookRow) :
    (Replica.attemptNext now rest).unfinished = rest.map PendingWebhookRow.id := by
  cases rest <;> rfl

theorem ClaimAnswer.pending_ids (a : ClaimAnswer) :
    a.pending.map PendingWebhookRow.id = a.returned.map Prod.fst := by
  rw [ClaimAnswer.pending, List.map_map]
  rfl

theorem deliverWebhooks_cases (s : DeliveryState) (t : Replica) (e : DeliveryEvent) :
    (t = .idle ∧ e = .tick ∧ deliverWebhooks s t e =
      ({ s with rows := reclaimStaleDeliveries s.now s.rows }, .reclaimed s.now)) ∨
    (∃ now a, t = .reclaimed now ∧ e = .claim a ∧ a.Answers now s.rows ∧ deliverWebhooks s t e =
      ({ s with rows := claimPendingWebhooks now a s.rows }, .attemptNext s.now a.pending)) ∨
    (∃ wh startedAt rest result, t = .delivering wh startedAt rest ∧ e = .finish result ∧
      deliverWebhooks s t e = (⟨s.now, updateOutgoingWebhook wh.id
        (attemptDelivery wh startedAt result) s.rows⟩, .attemptNext s.now rest)) ∨
    deliverWebhooks s t e = (s, t) := by
  cases t with
  | idle =>
    cases e with
    | tick => exact .inl ⟨rfl, rfl, rfl⟩
    | claim a => exact .inr (.inr (.inr rfl))
    | finish result => exact .inr (.inr (.inr rfl))
  | reclaimed now =>
    cases e with
    | tick => exact .inr (.inr (.inr rfl))
    | finish result => exact .inr (.inr (.inr rfl))
    | claim a =>
      by_cases ha : a.Answers now s.rows
      · exact .inr (.inl ⟨now, a, rfl, rfl, ha, if_pos ha⟩)
      · exact .inr (.inr (.inr (if_neg ha)))
  | delivering wh startedAt rest =>
    cases e with
    | tick => exact .inr (.inr (.inr rfl))
    | claim a => exact .inr (.inr (.inr rfl))
    | finish result => exact .inr (.inr (.inl ⟨wh, startedAt, rest, result, rfl, rfl, rfl⟩))

section Steps
variable [DecidableEq ι] {w : DeliveryWorld ι} {e : Event ι DeliveryEvent ℕ}

theorem next_act (i : ι) (e : DeliveryEvent) : deliverySystem.next w (.act i e) =
    ⟨(deliverWebhooks w.shared (w.task i) e).1,
      Function.update w.task i (deliverWebhooks w.shared (w.task i) e).2⟩ := rfl

theorem leaseHeld_step (h : leaseHeld.Holds w) (hcond : NoLiveReclaim w e) :
    leaseHeld.Holds (deliverySystem.next w e) := by
  cases e with
  | env n => exact ⟨h.inv, h.assert, h.apart⟩
  | act i e =>
    rw [next_act]
    rcases deliverWebhooks_cases w.shared (w.task i) e with
      ⟨hidle, rfl, hstep⟩ | ⟨now, a, htask, rfl, ha, hstep⟩ |
      ⟨wh, startedAt, rest, result, htask, rfl, hstep⟩ | hstep
    · -- the reclaim finds no row of an unfinished batch
      rw [hstep]
      refine h.update trivial ⟨List.nodup_nil, by simp [Replica.unfinished]⟩ (fun j _ => ?_)
        fun j _ => ⟨List.disjoint_nil_left _, List.disjoint_nil_right _⟩
      refine ⟨(h.assert j).1, fun id hid => ?_⟩
      rw [deliveryStatus, status_reclaim_keeps (hcond i rfl hidle j id hid)]
      exact (h.assert j).2 id hid
    · -- the claim takes due rows only, and those are in no batch
      rw [hstep]
      have hfree : ∀ j, ∀ id ∈ (w.task j).unfinished, id ∉ a.returned.map Prod.fst := fun j id hid =>
        get?_claim_of_status ha ((h.assert j).2 id hid) (by decide)
      have hbatch : (Replica.attemptNext w.shared.now a.pending).unfinished =
          a.returned.map Prod.fst := by rw [attemptNext_unfinished, a.pending_ids]
      refine h.update trivial ?_ (fun j _ => ?_) fun j _ => ?_
      · refine ⟨by rw [hbatch]; exact ha.returned.1, fun id hid => ?_⟩
        rw [hbatch] at hid
        obtain ⟨row, hrow, -⟩ := ha.returned.2 id hid
        simp [deliveryStatus, get?_claim, if_pos hid, hrow, claimRow]
      · refine ⟨(h.assert j).1, fun id hid => ?_⟩
        rw [deliveryStatus, get?_claim, if_neg (hfree j id hid)]
        exact (h.assert j).2 id hid
      · rw [leaseHeld_apart, leaseHeld_apart, hbatch]
        exact ⟨fun id hid hid' => hfree j id hid' hid, fun id hid hid' => hfree j id hid hid'⟩
    · -- the result is written to the replica's own row
      rw [hstep]
      have hself := h.assert i
      have hunfinished : (w.task i).unfinished = wh.id :: rest.map PendingWebhookRow.id := by
        rw [htask]
        rfl
      rw [leaseHeld_assert, hunfinished, List.nodup_cons] at hself
      refine h.update trivial ?_ (fun j hj => ?_) fun j hj => ?_
      · rw [leaseHeld_assert, attemptNext_unfinished]
        refine ⟨hself.1.2, fun id hid => ?_⟩
        have hne : id ≠ wh.id := by
          rintro rfl
          exact hself.1.1 hid
        rw [deliveryStatus, get?_update _ _ _ _ hne]
        exact hself.2 id (List.mem_cons_of_mem _ hid)
      · refine ⟨(h.assert j).1, fun id hid => ?_⟩
        have hne : id ≠ wh.id := by
          rintro rfl
          exact h.apart j i hj hid (by simp [hunfinished])
        rw [deliveryStatus, get?_update _ _ _ _ hne]
        exact (h.assert j).2 id hid
      · have hdisjoint := h.apart i j hj.symm
        rw [leaseHeld_apart, hunfinished, List.disjoint_cons_left] at hdisjoint
        rw [leaseHeld_apart, leaseHeld_apart, attemptNext_unfinished]
        exact ⟨hdisjoint.2, hdisjoint.2.symm⟩
    · rw [hstep]
      refine h.update trivial (h.assert i) (fun j _ => h.assert j) fun j hj => ?_
      exact ⟨h.apart i j hj.symm, h.apart j i hj⟩

theorem inFlight_mem {t : Replica} {id : String} (h : t.inFlight = some id) : id ∈ t.unfinished := by
  cases t with
  | delivering wh startedAt rest =>
    obtain rfl : wh.id = id := by simpa [Replica.inFlight] using h
    simp [Replica.unfinished]
  | _ => simp [Replica.inFlight] at h

omit [DecidableEq ι] in
theorem singleFlight_of_leaseHeld (h : leaseHeld.Holds w) : SingleFlight w :=
  fun i j hij _ hi hj => h.apart i j hij (inFlight_mem hi) (inFlight_mem hj)

theorem sent_step (h : leaseHeld.Holds w) {id : String}
    (hsent : deliveryStatus w.shared.rows id = some .sent) :
    deliveryStatus (deliverySystem.next w e).shared.rows id = some .sent := by
  cases e with
  | env n => exact hsent
  | act i e =>
    rw [next_act]
    rcases deliverWebhooks_cases w.shared (w.task i) e with
      ⟨-, rfl, hstep⟩ | ⟨now, a, -, rfl, ha, hstep⟩ |
      ⟨wh, startedAt, rest, result, htask, rfl, hstep⟩ | hstep
    · rw [hstep, deliveryStatus, status_reclaim_sent hsent]
      exact hsent
    · rw [hstep, deliveryStatus, get?_claim, if_neg (get?_claim_of_status ha hsent (by decide))]
      exact hsent
    · have hne : id ≠ wh.id := by
        rintro rfl
        have hown := (h.assert i).2 wh.id (by simp [htask, Replica.unfinished])
        rw [hown] at hsent
        exact absurd hsent (by decide)
      rw [hstep, deliveryStatus, get?_update _ _ _ _ hne]
      exact hsent
    · rw [hstep]
      exact hsent

end Steps

section Runs
variable [DecidableEq ι]

def deliveryStart (rows : OutgoingRows) (now : ℤ) : DeliveryWorld ι := ⟨⟨now, rows⟩, fun _ => .idle⟩

omit [DecidableEq ι] in
theorem leaseHeld_start (rows : OutgoingRows) (now : ℤ) :
    leaseHeld.Holds (deliveryStart rows now : DeliveryWorld ι) where
  inv := trivial
  assert i := ⟨List.nodup_nil, by simp [deliveryStart, Replica.unfinished]⟩
  apart i j _ := by simp [leaseHeld, deliveryStart, Replica.unfinished]

/-- A row SENT at some point of the run is SENT from there on. -/
def SentStays (w : DeliveryWorld ι) (evs : List (Event ι DeliveryEvent ℕ)) : Prop :=
  ∀ es fs, evs = es ++ fs → ∀ id,
    deliveryStatus (deliverySystem.runAll w es).shared.rows id = some .sent →
      deliveryStatus (deliverySystem.runAll w evs).shared.rows id = some .sent

theorem sent_run {w : DeliveryWorld ι} {evs : List (Event ι DeliveryEvent ℕ)}
    (h : leaseHeld.Holds w) (hcond : ∀ x ∈ deliverySystem.transitions w evs, NoLiveReclaim x.1 x.2)
    {id : String} (hsent : deliveryStatus w.shared.rows id = some .sent) :
    deliveryStatus (deliverySystem.runAll w evs).shared.rows id = some .sent := by
  let Inv : DeliveryWorld ι → Prop := fun v =>
    leaseHeld.Holds v ∧ deliveryStatus v.shared.rows id = some .sent
  have hstep : ∀ v e, Inv v → NoLiveReclaim v e → Inv (deliverySystem.next v e) :=
    fun v e hv hc => ⟨leaseHeld_step hv.1 hc, sent_step hv.1 hv.2⟩
  have hrun : Inv (deliverySystem.runAll w evs) := System.runAll_induct hstep ⟨h, hsent⟩ hcond
  exact hrun.2

/-- Along a run whose reclaims take back no row of an unfinished batch, no row is
in flight twice and no SENT row leaves SENT. -/
theorem single_delivery (rows : OutgoingRows) (now : ℤ) (evs : List (Event ι DeliveryEvent ℕ))
    (hcond : ∀ x ∈ deliverySystem.transitions (deliveryStart rows now) evs,
      NoLiveReclaim x.1 x.2) :
    (∀ v ∈ deliverySystem.visited (deliveryStart rows now) evs, SingleFlight v) ∧
      SentStays (deliveryStart rows now) evs := by
  constructor
  · intro v hv
    exact singleFlight_of_leaseHeld (System.visited_induct (fun _ _ => leaseHeld_step)
      (leaseHeld_start rows now) hcond v hv)
  · rintro es fs rfl id hsent
    rw [System.transitions_append] at hcond
    rw [System.runAll_append]
    refine sent_run ?_ (fun x hx => hcond x (List.mem_append_right _ hx)) hsent
    exact System.runAll_induct (fun _ _ => leaseHeld_step) (leaseHeld_start rows now)
      fun x hx => hcond x (List.mem_append_left _ hx)

def FitsLease : Event ι DeliveryEvent ℕ → Prop
  | .act _ (.claim a) => deliveryTimeoutMs * a.returned.length ≤ claimLeaseMs
  | _ => True

def Replica.OnSchedule (s : DeliveryState) : Replica → Prop
  -- the attempt in progress is within its timeout, and what is left of the batch ends within the
  -- lease of its rows
  | .idle => True
  | .reclaimed now => now = s.now
  | .delivering wh startedAt rest => s.now ≤ startedAt + deliveryTimeoutMs ∧
    ∀ id ∈ wh.id :: rest.map PendingWebhookRow.id, ∃ row claimedAt, s.rows.get? id = some row ∧
      row.claimedAt = some claimedAt ∧
        startedAt + deliveryTimeoutMs * (rest.length + 1) ≤ claimedAt + claimLeaseMs

variable {w : DeliveryWorld ι} {e : Event ι DeliveryEvent ℕ}

omit [DecidableEq ι] in
theorem noLiveReclaim_of_onSchedule (h : ∀ i, (w.task i).OnSchedule w.shared) :
    NoLiveReclaim w e := by
  intro i _ _ j id hid row hrow
  cases htask : w.task j with
  | delivering wh startedAt rest =>
    have hj := h j
    rw [htask] at hj hid
    obtain ⟨hnow, hrows⟩ := hj
    obtain ⟨row', claimedAt, hrow', hclaimed, hlease⟩ := hrows id hid
    obtain rfl : row' = row := Option.some.inj (hrow'.symm.trans hrow)
    have hfresh : ¬claimedAt < w.shared.now - claimLeaseMs := by
      have hlong : deliveryTimeoutMs ≤ deliveryTimeoutMs * (rest.length + 1) := by
        simp only [deliveryTimeoutMs]
        omega
      omega
    simp [OutgoingWebhook.stale, hclaimed, hfresh]
  | idle => simp [htask, Replica.unfinished] at hid
  | reclaimed now => simp [htask, Replica.unfinished] at hid

theorem Replica.OnSchedule.keep {s : DeliveryState} {t : Replica} (h : t.OnSchedule s)
    {rows : OutgoingRows} (hrows : ∀ id ∈ t.unfinished, rows.get? id = s.rows.get? id) :
    t.OnSchedule { s with rows := rows } := by
  cases t with
  | idle => trivial
  | reclaimed now => exact h
  | delivering wh startedAt rest =>
    refine ⟨h.1, fun id hid => ?_⟩
    obtain ⟨row, claimedAt, hrow, hclaimed, hlease⟩ := h.2 id hid
    exact ⟨row, claimedAt, (hrows id hid).trans hrow, hclaimed, hlease⟩

theorem onSchedule_attemptNext {s : DeliveryState} {pending : List PendingWebhookRow}
    (h : ∀ id ∈ pending.map PendingWebhookRow.id, ∃ row claimedAt, s.rows.get? id = some row ∧
      row.claimedAt = some claimedAt ∧
        s.now + deliveryTimeoutMs * pending.length ≤ claimedAt + claimLeaseMs) :
    (Replica.attemptNext s.now pending).OnSchedule s := by
  cases pending with
  | nil => trivial
  | cons wh rest =>
    refine ⟨by simp only [deliveryTimeoutMs]; omega, fun id hid => ?_⟩
    simpa using h id hid

theorem onSchedule_step (hheld : leaseHeld.Holds w) (h : ∀ i, (w.task i).OnSchedule w.shared)
    (htimely : Timely w e) (hfits : FitsLease e) :
    ∀ i, ((deliverySystem.next w e).task i).OnSchedule (deliverySystem.next w e).shared := by
  cases e with
  | env n =>
    intro i
    show (w.task i).OnSchedule { w.shared with now := w.shared.now + n }
    have hi := h i
    cases htask : w.task i with
    | idle => trivial
    | reclaimed now =>
      rw [htask] at hi
      rcases htimely with rfl | hallows
      · simpa [Replica.OnSchedule] using hi
      · have hno := hallows i
        rw [htask] at hno
        exact hno.elim
    | delivering wh startedAt rest =>
      rw [htask] at hi
      refine ⟨?_, hi.2⟩
      rcases htimely with rfl | hallows
      · simpa using hi.1
      · have hin := hallows i
        rw [htask] at hin
        exact hin
  | act i e =>
    rw [next_act]
    -- the stepping replica by its own step, the others because their rows stand
    suffices hstep : (deliverWebhooks w.shared (w.task i) e).2.OnSchedule
        (deliverWebhooks w.shared (w.task i) e).1 ∧
        ∀ j ≠ i, (w.task j).OnSchedule (deliverWebhooks w.shared (w.task i) e).1 by
      intro j
      by_cases hj : j = i
      · subst hj
        simpa using hstep.1
      · simpa [Function.update_of_ne hj] using hstep.2 j hj
    rcases deliverWebhooks_cases w.shared (w.task i) e with
      ⟨hidle, rfl, hstep⟩ | ⟨now, a, htask, rfl, ha, hstep⟩ |
      ⟨wh, startedAt, rest, result, htask, rfl, hstep⟩ | hstep
    · rw [hstep]
      refine ⟨rfl, fun j _ => (h j).keep fun id hid => status_reclaim_keeps ?_⟩
      exact noLiveReclaim_of_onSchedule (e := .act i .tick) h i rfl hidle j id hid
    · rw [hstep]
      have hnow := h i
      rw [htask] at hnow
      obtain rfl : now = w.shared.now := hnow
      refine ⟨onSchedule_attemptNext fun id hid => ?_, fun j _ => (h j).keep fun id hid => ?_⟩
      · rw [a.pending_ids] at hid
        obtain ⟨row, hrow, -⟩ := ha.returned.2 id hid
        refine ⟨claimRow w.shared.now row, w.shared.now, ?_, rfl, ?_⟩
        · simp [get?_claim, if_pos hid, hrow]
        · have hlength : a.pending.length = a.returned.length := List.length_map _
          rw [hlength]
          have hfit : deliveryTimeoutMs * a.returned.length ≤ claimLeaseMs := hfits
          show w.shared.now + _ ≤ w.shared.now + _
          omega
      · rw [get?_claim, if_neg (get?_claim_of_status ha ((hheld.assert j).2 id hid) (by decide))]
    · rw [hstep]
      have hunfinished : (w.task i).unfinished = wh.id :: rest.map PendingWebhookRow.id := by
        rw [htask]
        rfl
      have hself := h i
      rw [htask] at hself
      refine ⟨onSchedule_attemptNext fun id hid => ?_, fun j hj => (h j).keep fun id hid => ?_⟩
      · obtain ⟨row, claimedAt, hrow, hclaimed, hlease⟩ := hself.2 id (List.mem_cons_of_mem _ hid)
        have hne : id ≠ wh.id := by
          rintro rfl
          have hnodup := (hheld.assert i).1
          rw [hunfinished, List.nodup_cons] at hnodup
          exact hnodup.1 hid
        refine ⟨row, claimedAt, ?_, hclaimed, ?_⟩
        · rw [get?_update _ _ _ _ hne]
          exact hrow
        · have hstart := hself.1
          have hsum : deliveryTimeoutMs * ((rest.length : ℤ) + 1) =
              deliveryTimeoutMs * rest.length + deliveryTimeoutMs := by ring
          show w.shared.now + deliveryTimeoutMs * rest.length ≤ claimedAt + claimLeaseMs
          omega
      · refine get?_update _ _ _ _ ?_
        rintro rfl
        exact hheld.apart j i hj hid (by simp [hunfinished])
    · rw [hstep]
      exact ⟨h i, fun j _ => h j⟩

theorem noLiveReclaim_of_fitsLease (rows : OutgoingRows) (now : ℤ)
    (evs : List (Event ι DeliveryEvent ℕ))
    (htimely : ∀ x ∈ deliverySystem.transitions (deliveryStart rows now) evs, Timely x.1 x.2)
    (hfits : ∀ e ∈ evs, FitsLease e) :
    ∀ x ∈ deliverySystem.transitions (deliveryStart rows now) evs, NoLiveReclaim x.1 x.2 := by
  have key : ∀ (evs : List (Event ι DeliveryEvent ℕ)) (w : DeliveryWorld ι), leaseHeld.Holds w →
      (∀ i, (w.task i).OnSchedule w.shared) →
      (∀ x ∈ deliverySystem.transitions w evs, Timely x.1 x.2) → (∀ e ∈ evs, FitsLease e) →
      ∀ x ∈ deliverySystem.transitions w evs, NoLiveReclaim x.1 x.2 := by
    intro evs
    induction evs with
    | nil => simp [System.transitions]
    | cons e es ih =>
      intro w hheld hsched htimely hfits x hx
      rcases List.mem_cons.1 hx with rfl | hx
      · exact noLiveReclaim_of_onSchedule hsched
      · refine ih _ (leaseHeld_step hheld (noLiveReclaim_of_onSchedule hsched))
          (onSchedule_step hheld hsched (htimely (w, e) (by simp [System.transitions]))
            (hfits e (by simp))) (fun y hy => htimely y (List.mem_cons_of_mem _ hy))
          (fun f hf => hfits f (by simp [hf])) x hx
  exact key evs _ (leaseHeld_start rows now) (fun _ => trivial) htimely hfits

end Runs

inductive Pod where
  | first | second
  deriving DecidableEq

theorem Pod.mem_all (p : Pod) : p ∈ ({.first, .second} : Finset Pod) := by cases p <;> simp

instance : Fintype Pod := ⟨{.first, .second}, Pod.mem_all⟩

def dueRow (id : String) : OutgoingWebhook where
  id := id
  projectId := "p1"
  eventType := "SUBSCRIPTION_RENEWED"
  subscriberId := "s1"
  purchaseId := none
  payload := ⟨"SUBSCRIPTION_RENEWED", "s1", none, some "w1", 0⟩
  url := "https://example.test/hook"
  createdAt := 0

def slowId (n : ℕ) : String := String.ofList (List.replicate n 'r')

def oneRow : OutgoingRows := .insert .empty "r" (dueRow "r")

def oneDelivery : List (Event Pod DeliveryEvent ℕ) :=
  [.act .first .tick, .act .first (.claim ⟨[("r", dueRow "r")], [("r", dueRow "r")]⟩), .env 10000,
    .act .second .tick, .act .second (.claim ⟨[], []⟩), .act .first (.finish (.response 200 none)),
    .env 300001, .act .second .tick]

theorem single_delivery_one_row :
    (∀ v ∈ deliverySystem.visited (deliveryStart oneRow 0) oneDelivery, SingleFlight v) ∧
      SentStays (deliveryStart oneRow 0) oneDelivery := by
  refine single_delivery oneRow 0 oneDelivery (noLiveReclaim_of_fitsLease _ _ _ ?_ ?_)
  · decide
  · simp [oneDelivery, FitsLease, deliveryTimeoutMs, claimLeaseMs]

def slowRows : OutgoingRows :=
  (List.range 31).foldl (fun rows n => rows.insert (slowId n) (dueRow (slowId n))) .empty

def claimAllDue (now : ℤ) (rows : OutgoingRows) : ClaimAnswer := ⟨dueRows now rows, dueRows now rows⟩

def untilReclaim : List (Event Pod DeliveryEvent ℕ) :=
  -- the first pod claims all of them and spends the whole timeout on each of the first thirty; a
  -- moment later the second pod starts
  [.act .first .tick, .act .first (.claim (claimAllDue 0 slowRows))] ++
    (List.replicate 30 [.env 10000, .act .first (.finish (.response 200 none))]).flatten ++
    [.env 1, .act .second .tick]

def untilSecondSend : List (Event Pod DeliveryEvent ℕ) :=
  untilReclaim ++ [.act .second (.claim (claimAllDue 300001
    (deliverySystem.runAll (deliveryStart slowRows 0) untilReclaim).shared.rows))]

def lateFailure : List (Event Pod DeliveryEvent ℕ) :=
  untilSecondSend ++ [.act .first (.finish (.response 200 none)),
    .act .second (.finish (.error "timeout"))]

theorem timely_lateFailure : ∀ x ∈ deliverySystem.transitions (deliveryStart slowRows 0) lateFailure,
    Timely x.1 x.2 := by decide +kernel

theorem lease_outlived :
    (¬∀ (rows : OutgoingRows) (now : ℤ) (evs : List (Event Pod DeliveryEvent ℕ)),
      (∀ x ∈ deliverySystem.transitions (deliveryStart rows now) evs, Timely x.1 x.2) →
        ∀ v ∈ deliverySystem.visited (deliveryStart rows now) evs, SingleFlight v) ∧
    ¬∀ (rows : OutgoingRows) (now : ℤ) (evs : List (Event Pod DeliveryEvent ℕ)),
      (∀ x ∈ deliverySystem.transitions (deliveryStart rows now) evs, Timely x.1 x.2) →
        SentStays (deliveryStart rows now) evs := by
  have hsplit : lateFailure = untilSecondSend ++ [.act .first (.finish (.response 200 none))] ++
      [.act .second (.finish (.error "timeout"))] := by simp [lateFailure]
  constructor
  · intro claim
    have htimely : ∀ x ∈ deliverySystem.transitions (deliveryStart slowRows 0) untilSecondSend,
        Timely x.1 x.2 := by
      intro x hx
      refine timely_lateFailure x ?_
      rw [lateFailure, System.transitions_append]
      exact List.mem_append_left _ hx
    have hflight := claim slowRows 0 untilSecondSend htimely _ System.last_mem_visited
    exact hflight .first .second (by decide) (slowId 30) (by decide +kernel) (by decide +kernel)
  · intro claim
    have hstays := claim slowRows 0 lateFailure timely_lateFailure _ _ hsplit (slowId 30)
      (by decide +kernel)
    revert hstays
    decide +kernel

end Rovenue.Webhooks
