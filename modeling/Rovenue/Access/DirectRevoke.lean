import Rovenue.Workers.ScheduledActions
import Rovenue.Purchases.TransitionGuard
import Rovenue.Access.Ranking

/-! A revoke of one purchase works on the access rows that name it, and a sync keeps one row an
entitlement: what another purchase grants beside the revoked one is lost until the next sync. -/

namespace Rovenue
open Txn

def servedAt (subscriberId : String) (t : ℤ) (s : Db) (accessId : String) : Option DesiredAccess :=
  ((activeAccessAt subscriberId t s).get? accessId).map fun entry =>
    ⟨entry.purchaseId, entry.expiresDate, entry.store⟩

def derivedAt (purchases : List PurchaseWithAccessIds) (t : ℤ) (accessId : String) :
    Option DesiredAccess :=
  -- what the purchases entitle to at `t`; an entitlement that ends at `t` is not served any more
  ((computeDesiredAccess purchases t).get? accessId).filter fun target =>
    target.expiresDate.all (t < ·)

def restOf (subscriberId purchaseId : String) (s : Db) : List PurchaseWithAccessIds :=
  (findPurchasesWithAccessIds subscriberId s).filter fun q => q.id ≠ purchaseId

/-- From `now` on the read path serves what the other purchases entitle to. -/
def ServesRest (subscriberId purchaseId : String) (now : ℤ) (s s' : Db) : Prop :=
  ∀ t, now ≤ t → ∀ accessId,
    servedAt subscriberId t s' accessId = derivedAt (restOf subscriberId purchaseId s) t accessId

/-- What a sync derived from the other purchases is served as derived. -/
def OthersServed (subscriberId purchaseId : String) (desired : Table String DesiredAccess)
    (now : ℤ) (s : Db) : Prop :=
  ∀ accessId target, desired.get? accessId = some target → target.purchaseId ≠ purchaseId →
    ∀ t, now ≤ t → servedAt subscriberId t s accessId =
      (some target).filter fun target => target.expiresDate.all (t < ·)

/-- No other purchase entitles past `now` to what the sync derived from this one. -/
def SoleGrant (subscriberId purchaseId : String) (desired : Table String DesiredAccess)
    (now : ℤ) (s : Db) : Prop :=
  ∀ accessId target, desired.get? accessId = some target → target.purchaseId = purchaseId →
    ∀ q ∈ restOf subscriberId purchaseId s, q.status ∈ accessGrantingStatuses →
      accessId ∈ q.accessIds → lifespan q.expiry ≤ (now : WithTop ℤ)

/-- No active row of the purchase lasts past `now`. -/
def Lapsed (subscriberId purchaseId : String) (now : ℤ) (s : Db) : Prop :=
  ∀ id r, s.subscriberAccess.get? id = some r → r.subscriberId = subscriberId →
    r.isActive = true → r.purchaseId = purchaseId → lifespan r.expiresDate ≤ (now : WithTop ℤ)

section Derived
variable {purchases : List PurchaseWithAccessIds} {q : PurchaseWithAccessIds} {accessId : String}
  {t syncedAt : ℤ}

theorem grantsAt_iff : q.grantsAt t = true ↔
    q.status ∈ accessGrantingStatuses ∧ (t : WithTop ℤ) ≤ lifespan q.expiry := by
  rw [PurchaseWithAccessIds.grantsAt, Bool.and_eq_true, decide_eq_true_eq]
  cases q.expiry <;> simp

theorem mem_entitling : q ∈ entitling purchases accessId t ↔
    q ∈ purchases ∧ q.status ∈ accessGrantingStatuses ∧ accessId ∈ q.accessIds ∧
      (t : WithTop ℤ) ≤ lifespan q.expiry := by
  rw [entitling, List.mem_filter, decide_eq_true_eq, grantsAt_iff]
  constructor
  · rintro ⟨hmem, ⟨hstatus, hlife⟩, hacc⟩
    exact ⟨hmem, hstatus, hacc, hlife⟩
  · rintro ⟨hmem, hstatus, hacc, hlife⟩
    exact ⟨hmem, ⟨hstatus, hlife⟩, hacc⟩

theorem source_lifespan {target : DesiredAccess}
    (h : (computeDesiredAccess purchases t).get? accessId = some target) :
    ∀ q ∈ entitling purchases accessId t, lifespan q.expiry ≤ lifespan target.expiresDate := by
  obtain ⟨p, -, htop, rfl⟩ := derived_source h
  have hleads := topRanked_leads (entitling purchases accessId t)
  rw [htop] at hleads
  obtain ⟨before, after, heq, hbefore, hafter⟩ := hleads
  intro q hq
  rw [heq] at hq
  rcases List.mem_append.1 hq with hq | hq
  · exact (hbefore q hq).le
  · rcases List.mem_cons.1 hq with rfl | hq
    · exact le_rfl
    · exact hafter q hq

theorem derivedAt_eq_none_iff : derivedAt purchases t accessId = none ↔
    ∀ q ∈ purchases, q.status ∈ accessGrantingStatuses → accessId ∈ q.accessIds →
      lifespan q.expiry ≤ (t : WithTop ℤ) := by
  rw [derivedAt]
  cases hd : (computeDesiredAccess purchases t).get? accessId with
  | none =>
    refine iff_of_true rfl fun q hq hstatus hacc => ?_
    by_contra hlife
    have hmem : q ∈ entitling purchases accessId t :=
      mem_entitling.2 ⟨hq, hstatus, hacc, (not_le.1 hlife).le⟩
    exact computeDesiredAccess_eq_none_iff.1 hd q hmem
  | some target =>
    obtain ⟨p, hp, -, rfl⟩ := derived_source hd
    rw [Option.filter_some, ite_eq_right_iff]
    simp only [reduceCtorEq, imp_false, expiresDate_all_iff, not_lt]
    constructor
    · intro hlapsed q hq hstatus hacc
      rcases le_total (t : WithTop ℤ) (lifespan q.expiry) with hlife | hlife
      · exact (source_lifespan hd q (mem_entitling.2 ⟨hq, hstatus, hacc, hlife⟩)).trans hlapsed
      · exact hlife
    · intro hall
      obtain ⟨hmem, hstatus, hacc, -⟩ := mem_entitling.1 hp
      exact hall p hmem hstatus hacc

theorem derivedAt_of_none {purchaseId : String} (ht : syncedAt ≤ t)
    (h : (computeDesiredAccess purchases syncedAt).get? accessId = none) :
    derivedAt (purchases.filter fun q => q.id ≠ purchaseId) t accessId = none := by
  have hbefore : derivedAt purchases syncedAt accessId = none := by rw [derivedAt, h]; rfl
  rw [derivedAt_eq_none_iff] at hbefore ⊢
  intro q hq hstatus hacc
  have hlife := hbefore q (List.mem_filter.1 hq).1 hstatus hacc
  exact hlife.trans (WithTop.coe_le_coe.2 ht)

theorem derivedAt_of_other {purchaseId : String} {target : DesiredAccess} (ht : syncedAt ≤ t)
    (h : (computeDesiredAccess purchases syncedAt).get? accessId = some target)
    (hother : target.purchaseId ≠ purchaseId) :
    derivedAt (purchases.filter fun q => q.id ≠ purchaseId) t accessId =
      (some target).filter fun target => target.expiresDate.all (t < ·) := by
  have hlonger := source_lifespan h
  have hwithin : ∀ q ∈ purchases, q.status ∈ accessGrantingStatuses → accessId ∈ q.accessIds →
      (t : WithTop ℤ) ≤ lifespan q.expiry → lifespan q.expiry ≤ lifespan target.expiresDate := by
    intro q hq hstatus hacc hlife
    refine hlonger q (mem_entitling.2 ⟨hq, hstatus, hacc, ?_⟩)
    exact (WithTop.coe_le_coe.2 ht).trans hlife
  obtain ⟨p, hp, htop, rfl⟩ := derived_source h
  by_cases hlive : (t : WithTop ℤ) < lifespan p.source.expiresDate
  · have hleads := topRanked_leads (entitling purchases accessId syncedAt)
    rw [htop] at hleads
    obtain ⟨before, after, heq, hbefore, hafter⟩ := hleads
    -- those of them that still entitle at `t`, in the same order
    let keep : PurchaseWithAccessIds → Bool := fun q => q.id ≠ purchaseId && q.grantsAt t
    have hlist : entitling (purchases.filter fun q => q.id ≠ purchaseId) accessId t =
        before.filter keep ++ p :: after.filter keep := by
      have hkeep : keep p = true := by
        obtain ⟨-, hstatus, -, -⟩ := mem_entitling.1 hp
        have hgrants : p.grantsAt t = true := grantsAt_iff.2 ⟨hstatus, hlive.le⟩
        have hid : p.id ≠ purchaseId := hother
        simp [keep, hgrants, hid]
      have hsplit : before.filter keep ++ p :: after.filter keep =
          (entitling purchases accessId syncedAt).filter keep := by
        rw [heq, List.filter_append, List.filter_cons_of_pos hkeep]
      rw [hsplit, entitling, entitling, List.filter_filter, List.filter_filter]
      refine List.filter_congr fun q _ => ?_
      have hearlier : q.grantsAt t = true → q.grantsAt syncedAt = true := by
        intro hgrants
        obtain ⟨hstatus, hlife⟩ := grantsAt_iff.1 hgrants
        exact grantsAt_iff.2 ⟨hstatus, (WithTop.coe_le_coe.2 ht).trans hlife⟩
      cases hg : q.grantsAt t with
      | false => simp [keep, hg]
      | true => simp [keep, hg, hearlier hg, Bool.and_comm]
    have hkept : Leads (before.filter keep) (after.filter keep) p :=
      ⟨fun q hq => hbefore q (List.mem_filter.1 hq).1, fun q hq => hafter q (List.mem_filter.1 hq).1⟩
    rw [derivedAt, computeDesiredAccess_get?, hlist, topRanked_of_leads hkept]
    rfl
  · have hnone : derivedAt (purchases.filter fun q => q.id ≠ purchaseId) t accessId = none := by
      rw [derivedAt_eq_none_iff]
      intro q hq hstatus hacc
      rcases le_total (t : WithTop ℤ) (lifespan q.expiry) with hlife | hlife
      · exact (hwithin q (List.mem_filter.1 hq).1 hstatus hacc hlife).trans (not_lt.1 hlive)
      · exact hlife
    rw [hnone, Option.filter_some, if_neg]
    rw [expiresDate_all_iff]
    exact hlive

end Derived

section Served
variable {subscriberId accessId purchaseId : String} {t now : ℤ} {s s' : Db}

theorem foldl_addActiveAccess_congr (records : List AccessRecord)
    {result result' : Table String ActiveAccessEntry}
    (h : result.get? accessId = result'.get? accessId) :
    (records.foldl addActiveAccess result).get? accessId =
      ((records.filter fun r => r.2.accessId = accessId).foldl addActiveAccess result').get?
        accessId := by
  induction records generalizing result result' with
  | nil => exact h
  | cons r records ih =>
    rw [List.foldl_cons, List.filter_cons]
    by_cases hr : r.2.accessId = accessId
    · rw [if_pos (decide_eq_true hr), List.foldl_cons]
      refine ih ?_
      rw [addActiveAccess, addActiveAccess, hr, h]
      split_ifs
      · rw [Table.get?_set, Table.get?_set, if_pos rfl, if_pos rfl]
      · exact h
    · rw [if_neg (by simpa using hr)]
      refine ih ?_
      rw [← h, addActiveAccess]
      split_ifs
      · rw [Table.get?_set, if_neg (Ne.symm hr)]
      · rfl

def readRows (subscriberId : String) (t : ℤ) (s : Db) (accessId : String) : List AccessRecord :=
  (findActiveAccess subscriberId t s).filter fun r => r.2.accessId = accessId

theorem servedAt_eq : servedAt subscriberId t s accessId =
    (((readRows subscriberId t s accessId).foldl addActiveAccess .empty).get? accessId).map
      fun entry => ⟨entry.purchaseId, entry.expiresDate, entry.store⟩ := by
  rw [servedAt, activeAccessAt, readRows]
  exact congrArg _ (foldl_addActiveAccess_congr _ rfl)

theorem servedAt_congr
    (h : readRows subscriberId t s' accessId = readRows subscriberId t s accessId) :
    servedAt subscriberId t s' accessId = servedAt subscriberId t s accessId := by
  rw [servedAt_eq, servedAt_eq, h]

theorem servedAt_of_nil (h : readRows subscriberId t s accessId = []) :
    servedAt subscriberId t s accessId = none := by
  rw [servedAt_eq, h]
  rfl

theorem foldl_addActiveAccess_source (records : List AccessRecord) {entry : ActiveAccessEntry}
    (h : (records.foldl addActiveAccess .empty).get? accessId = some entry) :
    ∃ r ∈ records, r.2.accessId = accessId ∧ r.2.purchaseId = entry.purchaseId := by
  induction records using List.reverseRecOn generalizing entry with
  | nil => cases h
  | append_singleton records r ih =>
    rw [List.foldl_append, List.foldl_cons, List.foldl_nil, addActiveAccess] at h
    have hearlier : ∀ entry, (records.foldl addActiveAccess .empty).get? accessId = some entry →
        ∃ x ∈ records ++ [r], x.2.accessId = accessId ∧ x.2.purchaseId = entry.purchaseId := by
      intro entry hentry
      obtain ⟨x, hx, hxs⟩ := ih hentry
      exact ⟨x, List.mem_append_left _ hx, hxs⟩
    split_ifs at h
    · rw [Table.get?_set] at h
      split_ifs at h with hr
      · refine ⟨r, by simp, hr.symm, ?_⟩
        rw [← Option.some.inj h]
      · exact hearlier entry h
    · exact hearlier entry h

theorem mem_readRows {id : String} {r : SubscriberAccess} :
    (id, r) ∈ readRows subscriberId t s accessId ↔ s.subscriberAccess.get? id = some r ∧
      r.subscriberId = subscriberId ∧ r.isActive = true ∧
      (t : WithTop ℤ) < lifespan r.expiresDate ∧ r.accessId = accessId := by
  rw [readRows, List.mem_filter, mem_findActiveAccess, decide_eq_true_eq, and_assoc, and_assoc,
    and_assoc]

theorem servedAt_source {entry : DesiredAccess}
    (h : servedAt subscriberId t s accessId = some entry) :
    ∃ record ∈ readRows subscriberId t s accessId, record.2.purchaseId = entry.purchaseId := by
  rw [servedAt_eq, Option.map_eq_some_iff] at h
  obtain ⟨found, hfound, rfl⟩ := h
  obtain ⟨record, hrecord, -, hsource⟩ := foldl_addActiveAccess_source _ hfound
  exact ⟨record, hrecord, hsource⟩

theorem servedAt_ne_none (h : readRows subscriberId t s accessId ≠ []) :
    servedAt subscriberId t s accessId ≠ none := by
  obtain ⟨record, hrecord⟩ := List.exists_mem_of_ne_nil _ h
  intro hnone
  obtain ⟨hmem, hacc⟩ := List.mem_filter.1 hrecord
  rw [servedAt, Option.map_eq_none_iff] at hnone
  have hread : ((activeAccessAt subscriberId t s).get? accessId).map
      ActiveAccessEntry.expiresDate = none := by rw [hnone]; rfl
  exact activeAccess_eq_none_iff.1 hread record hmem (of_decide_eq_true hacc)

def struck (purchaseId : String) (e : AccessRecord) : AccessRecord :=
  (e.1, if e.2.purchaseId = purchaseId then deactivated e.2 else e.2)

theorem entries_deactivate (rows : List String) (s : Db) :
    (applyAll s (rows.map fun id => Write.updateAccess id { isActive := some false }
      )).subscriberAccess.entries =
      s.subscriberAccess.entries.map fun e => (e.1, if e.1 ∈ rows then deactivated e.2 else e.2) := by
  induction rows generalizing s with
  | nil => simp
  | cons row rows ih =>
    rw [List.map_cons, applyAll_cons, ih]
    simp only [apply_eq, Db.write, Table.modify, List.map_map]
    refine List.map_congr_left fun e _ => ?_
    by_cases hrow : e.1 = row <;> by_cases hrows : e.1 ∈ rows <;>
      simp [hrow, hrows, apply_deactivate, deactivated]

theorem entries_revokeWrites (s : Db) (purchaseId : String) :
    (applyAll s (revokeWrites purchaseId s)).subscriberAccess.entries =
      s.subscriberAccess.entries.map (struck purchaseId) := by
  rw [revokeWrites, entries_deactivate]
  refine List.map_congr_left fun e he => ?_
  have hmem : e.1 ∈ accessIdsForPurchases [purchaseId] s ↔ e.2.purchaseId = purchaseId := by
    simp only [accessIdsForPurchases, List.mem_map, List.mem_filter, List.mem_singleton,
      decide_eq_true_eq]
    constructor
    · rintro ⟨other, ⟨hother, hp⟩, hid⟩
      have hsame : other = e :=
        List.inj_on_of_nodup_map s.subscriberAccess.nodup hother he hid
      rw [← hsame]
      exact hp
    · intro hp
      exact ⟨e, ⟨he, hp⟩, rfl⟩
  rw [struck]
  simp only [hmem]

theorem readRows_struck
    (h : s'.subscriberAccess.entries = s.subscriberAccess.entries.map (struck purchaseId)) :
    readRows subscriberId t s' accessId =
      (readRows subscriberId t s accessId).filter fun r => r.2.purchaseId ≠ purchaseId := by
  simp only [readRows, findActiveAccess, findAllAccessBySubscriber, h, List.filter_filter,
    List.filter_map, Function.comp_def]
  have hfilter : ∀ e : AccessRecord,
      (decide ((struck purchaseId e).2.accessId = accessId) &&
        ((struck purchaseId e).2.liveAt t &&
          decide ((struck purchaseId e).2.subscriberId = subscriberId))) =
      (decide (e.2.purchaseId ≠ purchaseId) && (decide (e.2.accessId = accessId) &&
        (e.2.liveAt t && decide (e.2.subscriberId = subscriberId)))) := by
    intro e
    by_cases hp : e.2.purchaseId = purchaseId <;>
      simp [struck, hp, deactivated, SubscriberAccess.liveAt]
  have hsame : ∀ e : AccessRecord, e.2.purchaseId ≠ purchaseId → struck purchaseId e = e := by
    intro e hp
    rw [struck, if_neg hp]
  rw [List.filter_congr fun e _ => hfilter e]
  refine (List.map_congr_left fun e he => ?_).trans (List.map_id _)
  have hkept := (List.mem_filter.1 he).2
  simp only [Bool.and_eq_true, decide_eq_true_eq] at hkept
  exact hsame e hkept.1

end Served

section Synced
variable {subscriberId purchaseId : String} {desired : Table String DesiredAccess}
  {syncedAt now : ℤ} {s s' : Db}

/-- The rows as a sync at `syncedAt` leaves them: one source an entitlement, and an active row
for each. -/
structure Synced (subscriberId : String) (syncedAt : ℤ) (s : Db) : Prop where
  source : ∀ id r, s.subscriberAccess.get? id = some r → r.subscriberId = subscriberId →
    r.isActive = true → ∃ target,
      (desiredAt subscriberId s syncedAt).get? r.accessId = some target ∧
        r.purchaseId = target.purchaseId
  row : ∀ accessId target, (desiredAt subscriberId s syncedAt).get? accessId = some target →
    ∃ id r, s.subscriberAccess.get? id = some r ∧ r.subscriberId = subscriberId ∧
      r.accessId = accessId ∧ r.purchaseId = target.purchaseId ∧ r.isActive = true ∧
      r.expiresDate = target.expiresDate

theorem synced_syncAccess {clock : ℕ → ℤ} {ids : ℕ → String} {c : Session Db Write String}
    (hids : Function.Injective ids) (hfresh : ∀ n, s.subscriberAccess.get? (ids n) = none)
    (h : (syncAccess subscriberId).Returns (.start s clock ids) () c) :
    Synced subscriberId (clock 1) c.view := by
  have hview := syncAccess_returns h
  have hkeeps := syncAccess_keeps h
  rw [Session.start_view] at hkeeps
  have hdesired : desiredAt subscriberId c.view (clock 1) = desiredAt subscriberId s (clock 1) := by
    rw [desiredAt, desiredAt, findPurchasesWithAccessIds, findPurchasesWithAccessIds, hkeeps.1,
      hkeeps.2]
  constructor
  · intro id r hget hsub hact
    rw [hview] at hget
    obtain ⟨target, hd, hsource, -⟩ := synced_active hids hfresh hget hsub hact
    rw [hdesired]
    exact ⟨target, hd, hsource⟩
  · intro accessId target hd
    rw [hdesired] at hd
    rw [hview]
    exact synced_target hids hfresh hd

theorem Synced.readRows_eq_nil (h : Synced subscriberId syncedAt s) {accessId : String}
    (hd : (desiredAt subscriberId s syncedAt).get? accessId = none) (t : ℤ) :
    readRows subscriberId t s accessId = [] := by
  rw [List.eq_nil_iff_forall_not_mem]
  rintro ⟨id, r⟩ hmem
  obtain ⟨hget, hsub, hact, -, rfl⟩ := mem_readRows.1 hmem
  obtain ⟨target, htarget, -⟩ := h.source id r hget hsub hact
  cases hd.symm.trans htarget

theorem Synced.readRows_source (h : Synced subscriberId syncedAt s) {accessId : String}
    {target : DesiredAccess} (hd : (desiredAt subscriberId s syncedAt).get? accessId = some target)
    {t : ℤ} {record : AccessRecord} (hmem : record ∈ readRows subscriberId t s accessId) :
    record.2.purchaseId = target.purchaseId := by
  obtain ⟨hget, hsub, hact, -, hacc⟩ := mem_readRows.1 hmem
  obtain ⟨target', htarget, hsource⟩ := h.source _ _ hget hsub hact
  rw [hacc] at htarget
  rw [hsource, Option.some.inj (htarget.symm.trans hd)]

theorem derivedAt_restOf {accessId : String} {t : ℤ} :
    derivedAt (restOf subscriberId purchaseId s) t accessId = none ↔
      ∀ q ∈ restOf subscriberId purchaseId s, q.status ∈ accessGrantingStatuses →
        accessId ∈ q.accessIds → lifespan q.expiry ≤ (t : WithTop ℤ) := derivedAt_eq_none_iff

theorem servesRest_struck_iff (h : Synced subscriberId syncedAt s) (hnow : syncedAt ≤ now)
    (hstruck : s'.subscriberAccess.entries = s.subscriberAccess.entries.map (struck purchaseId)) :
    ServesRest subscriberId purchaseId now s s' ↔
      OthersServed subscriberId purchaseId (desiredAt subscriberId s syncedAt) now s ∧
        SoleGrant subscriberId purchaseId (desiredAt subscriberId s syncedAt) now s := by
  have hother : ∀ accessId target, (desiredAt subscriberId s syncedAt).get? accessId = some target →
      target.purchaseId ≠ purchaseId → ∀ t,
        servedAt subscriberId t s' accessId = servedAt subscriberId t s accessId := by
    intro accessId target hd hne t
    refine servedAt_congr ?_
    rw [readRows_struck hstruck, List.filter_eq_self]
    intro record hmem
    rw [h.readRows_source hd hmem]
    exact decide_eq_true hne
  have hown : ∀ accessId target, (desiredAt subscriberId s syncedAt).get? accessId = some target →
      target.purchaseId = purchaseId → ∀ t, servedAt subscriberId t s' accessId = none := by
    intro accessId target hd heq t
    refine servedAt_of_nil ?_
    rw [readRows_struck hstruck, List.filter_eq_nil_iff]
    intro record hmem
    rw [h.readRows_source hd hmem, heq]
    simp
  constructor
  · intro hrest
    refine ⟨fun accessId target hd hne t ht => ?_, fun accessId target hd heq => ?_⟩
    · rw [← hother accessId target hd hne t, hrest t ht accessId]
      exact derivedAt_of_other (hnow.trans ht) hd hne
    · refine derivedAt_restOf.1 ?_
      rw [← hrest now le_rfl accessId]
      exact hown accessId target hd heq now
  · rintro ⟨hothers, hsole⟩ t ht accessId
    cases hd : (desiredAt subscriberId s syncedAt).get? accessId with
    | none =>
      have hgone : readRows subscriberId t s' accessId = [] := by
        rw [readRows_struck hstruck, h.readRows_eq_nil hd t]
        rfl
      rw [servedAt_of_nil hgone]
      exact (derivedAt_of_none (hnow.trans ht) hd).symm
    | some target =>
      by_cases hsource : target.purchaseId = purchaseId
      · rw [hown accessId target hd hsource t]
        refine (derivedAt_restOf.2 fun q hq hstatus hacc => ?_).symm
        exact (hsole accessId target hd hsource q hq hstatus hacc).trans (WithTop.coe_le_coe.2 ht)
      · rw [hother accessId target hd hsource t, hothers accessId target hd hsource t ht]
        exact (derivedAt_of_other (hnow.trans ht) hd hsource).symm

theorem servesRest_untouched_iff (h : Synced subscriberId syncedAt s) (hnow : syncedAt ≤ now)
    (hsame : s'.subscriberAccess = s.subscriberAccess) :
    ServesRest subscriberId purchaseId now s s' ↔
      OthersServed subscriberId purchaseId (desiredAt subscriberId s syncedAt) now s ∧
        Lapsed subscriberId purchaseId now s := by
  have hserved : ∀ t accessId,
      servedAt subscriberId t s' accessId = servedAt subscriberId t s accessId := by
    intro t accessId
    refine servedAt_congr ?_
    rw [readRows, readRows, findActiveAccess, findActiveAccess, findAllAccessBySubscriber,
      findAllAccessBySubscriber, hsame]
  constructor
  · intro hrest
    refine ⟨fun accessId target hd hne t ht => ?_, fun id r hget hsub hact heq => ?_⟩
    · rw [← hserved t accessId, hrest t ht accessId]
      exact derivedAt_of_other (hnow.trans ht) hd hne
    · by_contra hlate
      obtain ⟨target, hd, hsource⟩ := h.source id r hget hsub hact
      have hmem : (id, r) ∈ readRows subscriberId now s r.accessId :=
        mem_readRows.2 ⟨hget, hsub, hact, not_le.1 hlate, rfl⟩
      obtain ⟨entry, hentry⟩ := Option.ne_none_iff_exists'.1
        (servedAt_ne_none (List.ne_nil_of_mem hmem))
      obtain ⟨record, hrecord, hrecordSource⟩ := servedAt_source hentry
      rw [h.readRows_source hd hrecord, ← hsource, heq] at hrecordSource
      -- the entry names the purchase, which the others' derivation does not know
      have hderived := hrest now le_rfl r.accessId
      rw [hserved, hentry] at hderived
      obtain ⟨hfound, -⟩ := Option.filter_eq_some_iff.1 hderived.symm
      obtain ⟨q, hq, -, hqs⟩ := derived_source hfound
      have hne := (List.mem_filter.1 (mem_entitling.1 hq).1).2
      rw [← hqs] at hrecordSource
      exact of_decide_eq_true hne hrecordSource.symm
  · rintro ⟨hothers, hlapsed⟩ t ht accessId
    rw [hserved]
    cases hd : (desiredAt subscriberId s syncedAt).get? accessId with
    | none =>
      rw [servedAt_of_nil (h.readRows_eq_nil hd t)]
      exact (derivedAt_of_none (hnow.trans ht) hd).symm
    | some target =>
      by_cases hsource : target.purchaseId = purchaseId
      · have hnil : readRows subscriberId t s accessId = [] := by
          rw [List.eq_nil_iff_forall_not_mem]
          rintro ⟨id, r⟩ hmem
          obtain ⟨hget, hsub, hact, hlive, -⟩ := mem_readRows.1 hmem
          have heq := (h.readRows_source hd hmem).trans hsource
          have hlate := (hlapsed id r hget hsub hact heq).trans (WithTop.coe_le_coe.2 ht)
          exact absurd hlive (not_lt.2 hlate)
        rw [servedAt_of_nil hnil]
        obtain ⟨id, r, hget, hsub, -, hpurchase, hact, hexpiry⟩ := h.row accessId target hd
        have hended := hlapsed id r hget hsub hact (hpurchase.trans hsource)
        rw [hexpiry] at hended
        refine (derivedAt_restOf.2 fun q hq hstatus hacc => ?_).symm
        rcases le_total (syncedAt : WithTop ℤ) (lifespan q.expiry) with hlife | hlife
        · have hmem := mem_entitling.2 ⟨(List.mem_filter.1 hq).1, hstatus, hacc, hlife⟩
          exact ((source_lifespan hd q hmem).trans hended).trans (WithTop.coe_le_coe.2 ht)
        · exact hlife.trans (WithTop.coe_le_coe.2 (hnow.trans ht))
      · rw [hothers accessId target hd hsource t ht]
        exact (derivedAt_of_other (hnow.trans ht) hd hsource).symm

end Synced

/-- A terminal status stays as it is. -/
def KeepsTerminal (key : PurchaseKey) (s s' : Db) : Prop :=
  ∀ row, s.purchases.get? key = some row → row.status.isTerminal = true →
    (s'.purchases.get? key).map Purchase.status = some row.status

section Revokes
variable {subscriberId : String} {s : Db}

theorem findPurchaseById_get? {id : String} {key : PurchaseKey} {row : Purchase}
    (h : findPurchaseById id s = some (key, row)) : s.purchases.get? key = some row :=
  s.purchases.mem_entries.1 (List.mem_of_find?_eq_some h)

def revokedDb (key : PurchaseKey) (purchaseId : String) (now : ℤ) (s : Db) : Db :=
  let updated := applyAll s [.updatePurchase key .unguarded (revokeImmediatelyPatch now)]
  applyAll updated (revokeWrites purchaseId updated)

theorem runScheduledAction_revoke {cancel : CancelAtPeriodEnd} {claimedAt finishedAt : ℤ}
    {clock : ℕ → ℤ} {ids : ℕ → String} {actions : Table String ScheduledAction} {actionId : String}
    {action : ScheduledAction} {key : PurchaseKey} {row : Purchase}
    (hclaim : claimDueBatch claimedAt ⟨s, actions⟩ = some (actionId, action))
    (hrevoke : action.revokeImmediately = true)
    (hfound : findPurchaseById action.purchaseId s = some (key, row))
    (hstore : key.store = .manual) :
    (runScheduledAction cancel claimedAt finishedAt clock ids ⟨s, actions⟩).1.db =
      revokedDb key row.id (clock 0) s := by
  have hreturns : (executeAction cancel action).eval (.start s clock ids) = .ok _ :=
    executeAction_revoke hfound hstore hrevoke
  rw [runScheduledAction, hclaim]
  simp only [hreturns]
  rfl

theorem keepsTerminal_revokedDb_iff {key : PurchaseKey} {row : Purchase} {purchaseId : String}
    {now : ℤ} (hrow : s.purchases.get? key = some row) :
    KeepsTerminal key s (revokedDb key purchaseId now s) ↔ row.status.isTerminal = false := by
  have hafter : ((revokedDb key purchaseId now s).purchases.get? key).map Purchase.status =
      some .expired := by
    rw [revokedDb, applyAll_purchases _ _ (revokeWrites_not_onPurchases purchaseId _)]
    simp only [applyAll_cons, applyAll_nil, apply_eq, Db.write, Table.get?_modify, if_pos, hrow]
    rfl
  constructor
  · intro hkeeps
    by_contra hterminal
    rw [Bool.not_eq_false] at hterminal
    have hsame := hkeeps row hrow hterminal
    rw [hafter, Option.some.injEq] at hsame
    rw [← hsame] at hterminal
    cases hterminal
  · intro hopen other hother hterminal
    rw [Option.some.inj (hother.symm.trans hrow), hopen] at hterminal
    cases hterminal

/-- The refund's revoke goes through: the guard admits it, and no statement fails. -/
def Strikes (purchase : RefundedPurchase) (statements : ℕ) (now : ℤ) (s : Db) : Prop :=
  3 ≤ statements ∧
    (operatorRefund purchase.key now).admits (s.purchases.get? purchase.key) = true

instance (purchase : RefundedPurchase) (statements : ℕ) (now : ℤ) (s : Db) :
    Decidable (Strikes purchase statements now s) := inferInstanceAs (Decidable (_ ∧ _))

theorem returns_revokeAccessAfterRefund {purchase : RefundedPurchase} {statements : ℕ}
    {c c' : Session Db Write String} {u : Unit}
    (h : (revokeAccessAfterRefund purchase statements).Returns c u c') :
    (Strikes purchase statements (c.clock 0) c.view → c'.view.subscriberAccess.entries =
        c.view.subscriberAccess.entries.map (struck purchase.id)) ∧
      (¬Strikes purchase statements (c.clock 0) c.view →
        c'.view.subscriberAccess = c.view.subscriberAccess) := by
  obtain ⟨now, c₂, hnow, hrest⟩ := Prog.returns_bind.1 h
  obtain ⟨rfl, rfl⟩ := Prog.returns_now.1 hnow
  by_cases hzero : statements = 0
  · rw [if_pos hzero] at hrest
    obtain ⟨-, rfl⟩ := Prog.returns_done.1 hrest
    have hthree : ¬3 ≤ statements := by omega
    exact ⟨fun hstrikes => absurd hstrikes.1 hthree, fun _ => rfl⟩
  rw [if_neg hzero] at hrest
  obtain ⟨guard, c₃, hguard, hwrites⟩ := Prog.returns_bind.1 hrest
  obtain ⟨hdecided, rfl⟩ := returns_guardStatusWrite.1 (Prog.returns_autocommit.1 hguard)
  have happly : guard.apply =
      (operatorRefund purchase.key (c.clock 0)).admits (c.view.purchases.get? purchase.key) := by
    rw [← hdecided]
    rfl
  rw [happly] at hwrites
  by_cases hupdate : (operatorRefund purchase.key (c.clock 0)).admits
      (c.view.purchases.get? purchase.key) = true ∧ 2 ≤ statements
  swap
  · rw [if_neg hupdate] at hwrites
    obtain ⟨-, rfl⟩ := Prog.returns_done.1 hwrites
    have hneither : ¬Strikes purchase statements (c.clock 0) c.view := by
      intro hstrikes
      have hthree := hstrikes.1
      exact hupdate ⟨hstrikes.2, by omega⟩
    exact ⟨fun hstrikes => absurd hstrikes hneither, fun _ => rfl⟩
  rw [if_pos hupdate] at hwrites
  obtain ⟨v, c₄, hupdated, hlast⟩ := Prog.returns_bind.1 hwrites
  obtain ⟨-, rfl⟩ := Prog.returns_exec.1 (Prog.returns_autocommit.1 hupdated)
  by_cases hthree : 3 ≤ statements
  · rw [if_pos hthree] at hlast
    obtain ⟨-, rfl⟩ := Prog.returns_exec.1 (Prog.returns_autocommit.1 hlast)
    have hstrikes : Strikes purchase statements (c.clock 0) c.view := ⟨hthree, hupdate.1⟩
    exact ⟨fun _ => entries_revokeWrites _ purchase.id, fun hnot => absurd hstrikes hnot⟩
  · rw [if_neg hthree] at hlast
    obtain ⟨-, rfl⟩ := Prog.returns_done.1 hlast
    exact ⟨fun hstrikes => absurd hstrikes.1 hthree, fun _ => rfl⟩

theorem returns_refundTransaction {stores : RefundStores} {purchase : RefundedPurchase}
    {statements : ℕ} {c c' : Session Db Write String} {store reference : String}
    (h : (refundTransaction stores purchase statements).Returns c (.ok store reference) c') :
    (revokeAccessAfterRefund purchase statements).Returns c () c' := by
  rw [refundTransaction] at h
  split at h
  · obtain ⟨u, c₁, hrevoke, hdone⟩ := Prog.returns_bind.1 h
    obtain ⟨-, rfl⟩ := Prog.returns_done.1 hdone
    exact hrevoke
  · obtain ⟨hresult, -⟩ := Prog.returns_done.1 h
    cases hresult

/-- After a sync: a scheduled revoke serves what the rest entitles to, and spares a terminal
status, just when the status is open and the purchase was the sole grant of what it sourced. A
refund does just when that holds and its revoke went through, or nothing of it was left. -/
theorem servesRest_direct_iff {synced : Db} {syncClock : ℕ → ℤ} {syncIds : ℕ → String}
    {c : Session Db Write String} (hids : Function.Injective syncIds)
    (hfresh : ∀ n, synced.subscriberAccess.get? (syncIds n) = none)
    (hsync : (syncAccess subscriberId).Returns (.start synced syncClock syncIds) () c) :
    (∀ cancel claimedAt finishedAt clock ids actions actionId action key row,
        syncClock 1 ≤ clock 0 →
        claimDueBatch claimedAt ⟨c.view, actions⟩ = some (actionId, action) →
        action.revokeImmediately = true →
        findPurchaseById action.purchaseId c.view = some (key, row) → key.store = .manual →
        let s' := (runScheduledAction cancel claimedAt finishedAt clock ids ⟨c.view, actions⟩).1.db
        let desired := desiredAt subscriberId c.view (syncClock 1)
        (ServesRest subscriberId row.id (clock 0) c.view s' ∧ KeepsTerminal key c.view s' ↔
          row.status.isTerminal = false ∧
            OthersServed subscriberId row.id desired (clock 0) c.view ∧
            SoleGrant subscriberId row.id desired (clock 0) c.view)) ∧
      ∀ stores purchase statements clock ids store reference c',
        syncClock 1 ≤ clock 0 →
        (refundTransaction stores purchase statements).Returns (.start c.view clock ids)
          (.ok store reference) c' →
        let desired := desiredAt subscriberId c.view (syncClock 1)
        (ServesRest subscriberId purchase.id (clock 0) c.view c'.view ↔
          OthersServed subscriberId purchase.id desired (clock 0) c.view ∧
            if Strikes purchase statements (clock 0) c.view then
              SoleGrant subscriberId purchase.id desired (clock 0) c.view
            else Lapsed subscriberId purchase.id (clock 0) c.view) := by
  have hsynced := synced_syncAccess hids hfresh hsync
  constructor
  · intro cancel claimedAt finishedAt clock ids actions actionId action key row hnow hclaim hrevoke
      hfound hstore s' desired
    have hs' : s' = revokedDb key row.id (clock 0) c.view :=
      runScheduledAction_revoke hclaim hrevoke hfound hstore
    have hentries : s'.subscriberAccess.entries =
        c.view.subscriberAccess.entries.map (struck row.id) := by
      rw [hs']
      exact entries_revokeWrites _ row.id
    rw [servesRest_struck_iff hsynced hnow hentries, hs',
      keepsTerminal_revokedDb_iff (findPurchaseById_get? hfound)]
    exact and_comm
  · intro stores purchase statements clock ids store reference c' hnow hreturns desired
    obtain ⟨hwritten, hleft⟩ :=
      returns_revokeAccessAfterRefund (returns_refundTransaction hreturns)
    split_ifs with hstrikes
    · exact servesRest_struck_iff hsynced hnow (hwritten hstrikes)
    · exact servesRest_untouched_iff hsynced hnow (hleft hstrikes)

end Revokes

def sharedDb : Db where
  products := ⟨[("prod", { projectId := "p1", identifier := "pro", accessIds := ["pro"] })],
    List.nodup_singleton "prod"⟩
  purchases := ⟨[
    ({ store := .manual, storeTransactionId := "m1" },
      { id := "pu1", projectId := "p1", subscriberId := "s1", productId := "prod"
        originalTransactionId := "m1", status := .active, expiresDate := some 500 }),
    ({ store := .stripe, storeTransactionId := "ch_1" },
      { id := "pu2", projectId := "p1", subscriberId := "s1", productId := "prod"
        originalTransactionId := "ch_1", status := .active, expiresDate := some 300 })], by decide⟩

def manualRevoke : ScheduledAction where
  purchaseId := "pu1"
  dueAt := 40
  revokeImmediately := true

def revokeActions : Table String ScheduledAction := ⟨[("act1", manualRevoke)], by decide⟩

def revokedAt50 (s : Db) : Db :=
  (runScheduledAction (fun _ _ => .ok ()) 50 50 (fun _ => 50) freshIds ⟨s, revokeActions⟩).1.db

theorem revoke_loses_shared_access :
    ∃ c, (syncAccess "s1").Returns (.start sharedDb (fun _ => 10) freshIds) () c ∧
      (claimDueBatch 50 ⟨c.view, revokeActions⟩).map Prod.fst = some "act1" ∧
      servedAt "s1" 50 (revokedAt50 c.view) "pro" = none ∧
      derivedAt (restOf "s1" "pu1" c.view) 50 "pro" = some ⟨"pu2", some 300, .stripe⟩ ∧
      ¬ServesRest "s1" "pu1" 50 c.view (revokedAt50 c.view) := by
  refine ⟨_, rfl, by decide, by decide, by decide, fun h => ?_⟩
  exact absurd (h 50 le_rfl "pro") (by decide)

def stripeRefunds : RefundStores where
  stripe := some fun _ _ _ => .ok "re_1"
  googleOrderId := none
  googleRefund _ := .error "no credentials"

def refundedCharge : RefundedPurchase where
  id := "pu2"
  productId := "prod"
  key := { store := .stripe, storeTransactionId := "ch_1" }
  status := .active

theorem servesRest_direct_iff_shared :
    ∃ c, (syncAccess "s1").Returns (.start sharedDb (fun _ => 10) freshIds) () c ∧
      (ServesRest "s1" "pu1" 50 c.view (revokedAt50 c.view) ∧
          KeepsTerminal { store := .manual, storeTransactionId := "m1" } c.view
            (revokedAt50 c.view) ↔
        PurchaseStatus.active.isTerminal = false ∧
          OthersServed "s1" "pu1" (desiredAt "s1" c.view 10) 50 c.view ∧
          SoleGrant "s1" "pu1" (desiredAt "s1" c.view 10) 50 c.view) ∧
      ∃ c', (refundTransaction stripeRefunds refundedCharge 3).Returns
          (.start c.view (fun _ => 50) freshIds) (.ok "stripe" "re_1") c' ∧
        (ServesRest "s1" "pu2" 50 c.view c'.view ↔
          OthersServed "s1" "pu2" (desiredAt "s1" c.view 10) 50 c.view ∧
            SoleGrant "s1" "pu2" (desiredAt "s1" c.view 10) 50 c.view) := by
  obtain ⟨c, hsync, hclaim, hfound, c', hrefund, hstrikes⟩ : ∃ c,
      (syncAccess "s1").Returns (.start sharedDb (fun _ => 10) freshIds) () c ∧
      claimDueBatch 50 ⟨c.view, revokeActions⟩ = some ("act1", manualRevoke) ∧
      findPurchaseById "pu1" c.view = some ({ store := .manual, storeTransactionId := "m1" },
        { id := "pu1", projectId := "p1", subscriberId := "s1", productId := "prod"
          originalTransactionId := "m1", status := .active, expiresDate := some 500 }) ∧
      ∃ c', (refundTransaction stripeRefunds refundedCharge 3).Returns
          (.start c.view (fun _ => 50) freshIds) (.ok "stripe" "re_1") c' ∧
        Strikes refundedCharge 3 50 c.view :=
    ⟨_, rfl, by decide, by decide, _, rfl, by decide⟩
  have hboth := servesRest_direct_iff freshIds_injective (fun _ => rfl) hsync
  refine ⟨c, hsync, ?_, c', hrefund, ?_⟩
  · exact hboth.1 (fun _ _ => .ok ()) 50 50 (fun _ => 50) freshIds revokeActions "act1" manualRevoke
      _ _ (by decide) hclaim rfl hfound rfl
  · have hiff := hboth.2 stripeRefunds refundedCharge 3 (fun _ => 50) freshIds "stripe" "re_1" c'
      (by decide) hrefund
    simp only [if_pos hstrikes] at hiff
    exact hiff

end Rovenue
