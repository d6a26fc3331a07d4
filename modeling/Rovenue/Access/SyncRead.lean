import Rovenue.Access.Sync

/-! Whether the read path serves exactly what `syncAccess` derived. It does,
unless a second row of an entitlement's own source outlives it: the repair loop
brings only the first such row up to date. -/

namespace Rovenue
open Txn

def lifespan (expiresDate : Option ℤ) : WithTop ℤ := expiresDate

@[simp] theorem lifespan_none : lifespan none = ⊤ := rfl
@[simp] theorem lifespan_some (e : ℤ) : lifespan (some e) = (e : WithTop ℤ) := rfl

theorem lifespan_injective : Function.Injective lifespan := fun _ _ h => h

theorem isLaterExpiry_iff {a b : Option ℤ} :
    isLaterExpiry a b = true ↔ lifespan b < lifespan a := by
  cases a <;> cases b <;> simp [isLaterExpiry]

theorem expiresDate_all_iff {o : Option ℤ} {t : ℤ} :
    o.all (fun e => decide (t < e)) = true ↔ (t : WithTop ℤ) < lifespan o := by
  cases o <;> simp

theorem liveAt_iff {r : SubscriberAccess} {t : ℤ} :
    r.liveAt t = true ↔ r.isActive = true ∧ (t : WithTop ℤ) < lifespan r.expiresDate := by
  rw [SubscriberAccess.liveAt, Bool.and_eq_true, expiresDate_all_iff]

theorem addActiveAccess_spec (records : List AccessRecord) (accessId : String) :
    match (records.foldl addActiveAccess .empty).get? accessId with
    | none => ∀ r ∈ records, r.2.accessId ≠ accessId
    | some entry => (∃ r ∈ records, r.2.accessId = accessId ∧ r.2.expiresDate = entry.expiresDate) ∧
      ∀ r ∈ records, r.2.accessId = accessId → lifespan r.2.expiresDate ≤ lifespan entry.expiresDate := by
  induction records using List.reverseRecOn with
  | nil => simp
  | append_singleton records r ih =>
    rw [List.foldl_append, List.foldl_cons, List.foldl_nil, addActiveAccess]
    generalize records.foldl addActiveAccess .empty = result at ih
    by_cases hr : r.2.accessId = accessId
    · subst hr
      cases hg : result.get? r.2.accessId with
      | none =>
        rw [hg] at ih
        simp only [Option.all_none, if_true, Table.get?_set]
        refine ⟨⟨r, by simp, rfl, rfl⟩, fun x hx hacc => ?_⟩
        obtain hx | hx := List.mem_append.1 hx
        · exact absurd hacc (ih x hx)
        · rw [List.mem_singleton.1 hx]
      | some entry =>
        rw [hg] at ih
        obtain ⟨⟨x, hx, hacc, hexp⟩, hmax⟩ := ih
        simp only [Option.all_some]
        by_cases hl : isLaterExpiry r.2.expiresDate entry.expiresDate = true
        · simp only [hl, if_true, Table.get?_set]
          refine ⟨⟨r, by simp, rfl, rfl⟩, fun y hy hyacc => ?_⟩
          obtain hy | hy := List.mem_append.1 hy
          · exact (hmax y hy hyacc).trans (isLaterExpiry_iff.1 hl).le
          · rw [List.mem_singleton.1 hy]
        · simp only [hl, if_false, Bool.false_eq_true, hg]
          refine ⟨⟨x, by simp [hx], hacc, hexp⟩, fun y hy hyacc => ?_⟩
          obtain hy | hy := List.mem_append.1 hy
          · exact hmax y hy hyacc
          · rw [List.mem_singleton.1 hy]
            exact not_lt.1 fun h => hl (isLaterExpiry_iff.2 h)
    · have hsame : (if (result.get? r.2.accessId).all fun existing =>
          isLaterExpiry r.2.expiresDate existing.expiresDate then
            result.set r.2.accessId ⟨r.2.isActive, r.2.expiresDate, r.2.store, r.2.purchaseId⟩
          else result).get? accessId = result.get? accessId := by
        split_ifs
        · rw [Table.get?_set, if_neg (Ne.symm hr)]
        · rfl
      rw [hsame]
      cases hg : result.get? accessId with
      | none =>
        rw [hg] at ih
        intro x hx
        obtain hx | hx := List.mem_append.1 hx
        · exact ih x hx
        · rw [List.mem_singleton.1 hx]
          exact hr
      | some entry =>
        rw [hg] at ih
        obtain ⟨⟨x, hx, hacc, hexp⟩, hmax⟩ := ih
        refine ⟨⟨x, by simp [hx], hacc, hexp⟩, fun y hy hyacc => ?_⟩
        obtain hy | hy := List.mem_append.1 hy
        · exact hmax y hy hyacc
        · rw [List.mem_singleton.1 hy] at hyacc
          exact absurd hyacc hr

theorem activeAccess_expiry_iff {s : Db} {subscriberId accessId : String} {t : ℤ}
    {expiry : Option ℤ} :
    ((activeAccessAt subscriberId t s).get? accessId).map ActiveAccessEntry.expiresDate =
        some expiry ↔
      (∃ r ∈ findActiveAccess subscriberId t s, r.2.accessId = accessId ∧
          r.2.expiresDate = expiry) ∧
        ∀ r ∈ findActiveAccess subscriberId t s, r.2.accessId = accessId →
          lifespan r.2.expiresDate ≤ lifespan expiry := by
  -- the expiry a read at `t` reports is the latest among the rows live at `t`
  have h := addActiveAccess_spec (findActiveAccess subscriberId t s) accessId
  rw [activeAccessAt]
  cases hg : ((findActiveAccess subscriberId t s).foldl addActiveAccess .empty).get? accessId with
  | none =>
    rw [hg] at h
    simp only [Option.map_none, reduceCtorEq, false_iff, not_and]
    rintro ⟨r, hr, hacc, -⟩
    exact absurd hacc (h r hr)
  | some entry =>
    rw [hg] at h
    simp only [Option.map_some, Option.some.injEq]
    refine ⟨fun he => he ▸ h, fun ⟨⟨r, hr, hacc, hexp⟩, hmax⟩ => lifespan_injective ?_⟩
    obtain ⟨⟨x, hx, hxacc, hxexp⟩, hxmax⟩ := h
    exact le_antisymm (hxexp ▸ hmax x hx hxacc) (hexp ▸ hxmax r hr hacc)

theorem activeAccess_eq_none_iff {s : Db} {subscriberId accessId : String} {t : ℤ} :
    ((activeAccessAt subscriberId t s).get? accessId).map ActiveAccessEntry.expiresDate = none ↔
      ∀ r ∈ findActiveAccess subscriberId t s, r.2.accessId ≠ accessId := by
  have h := addActiveAccess_spec (findActiveAccess subscriberId t s) accessId
  rw [activeAccessAt]
  cases hg : ((findActiveAccess subscriberId t s).foldl addActiveAccess .empty).get? accessId with
  | none => rw [hg] at h; simpa using h
  | some entry =>
    rw [hg] at h
    obtain ⟨⟨r, hr, hacc, -⟩, -⟩ := h
    simp only [Option.map_some, reduceCtorEq, false_iff, not_forall, not_not]
    exact ⟨r, hr, hacc⟩

theorem mem_findActiveAccess {s : Db} {subscriberId id : String} {t : ℤ} {r : SubscriberAccess} :
    (id, r) ∈ findActiveAccess subscriberId t s ↔ s.subscriberAccess.get? id = some r ∧
      r.subscriberId = subscriberId ∧ r.isActive = true ∧
      (t : WithTop ℤ) < lifespan r.expiresDate := by
  simp only [findActiveAccess, findAllAccessBySubscriber, List.mem_filter, Table.mem_entries,
    decide_eq_true_eq, liveAt_iff, and_assoc]

section Synced
variable {subscriberId : String} {desired : Table String DesiredAccess} {s : Db}
  {ids : ℕ → String} {id : String} {r : SubscriberAccess}

structure Duplicate (subscriberId : String) (desired : Table String DesiredAccess) (s : Db)
    (target : DesiredAccess) (record : AccessRecord) : Prop where
  mem : record ∈ findAllAccessBySubscriber subscriberId s
  active : record.2.isActive = true
  desired : desired.get? record.2.accessId = some target
  source : record.2.purchaseId = target.purchaseId
  notFirst : sourceRecord (findAllAccessBySubscriber subscriberId s) record.2.accessId
    target.purchaseId ≠ some record

theorem synced_active (hids : Function.Injective ids)
    (hfresh : ∀ n, s.subscriberAccess.get? (ids n) = none)
    (hr : (applyAll s (syncWrites subscriberId desired s ids)).subscriberAccess.get? id = some r)
    (hsub : r.subscriberId = subscriberId) (hact : r.isActive = true) :
    ∃ target, desired.get? r.accessId = some target ∧ r.purchaseId = target.purchaseId ∧
      (r.expiresDate = target.expiresDate ∨ Duplicate subscriberId desired s target (id, r)) := by
  cases hs : s.subscriberAccess.get? id with
  | none =>
    rw [synced_new hs hids, ← Table.mem_entries] at hr
    obtain ⟨e, he, -, hrow⟩ := created_row hr
    obtain rfl : r = grantedRow subscriberId e := hrow
    exact ⟨e.2, desired.mem_entries.1 he, rfl, .inl rfl⟩
  | some r₀ =>
    have hne : ∀ n, ids n ≠ id := fun n hn => by simpa [hn, hs] using hfresh n
    by_cases hsub₀ : r₀.subscriberId = subscriberId
    · have hmem : (id, r₀) ∈ findAllAccessBySubscriber subscriberId s :=
        List.mem_filter.2 ⟨s.subscriberAccess.mem_entries.2 hs, by simpa using hsub₀⟩
      rw [synced_of_mem hmem hne, Option.some.injEq] at hr
      unfold syncedRow at hr
      cases hd : desired.get? r₀.accessId with
      | none => simp [hd] at hr; subst hr; simp [deactivated] at hact
      | some target =>
        simp only [hd] at hr
        split_ifs at hr with hp hsrc
        · subst hr
          exact ⟨target, hd, hp.symm, .inl rfl⟩
        · subst hr
          exact ⟨target, hd, hp.symm, .inr ⟨hmem, hact, hd, hp.symm, hsrc⟩⟩
        · subst hr
          simp [deactivated] at hact
    · rw [synced_of_other hs hsub₀ hne, Option.some.injEq] at hr
      exact absurd (hr ▸ hsub) hsub₀

theorem synced_target {accessId : String} {target : DesiredAccess}
    (hids : Function.Injective ids) (hfresh : ∀ n, s.subscriberAccess.get? (ids n) = none)
    (hd : desired.get? accessId = some target) :
    ∃ id r, (applyAll s (syncWrites subscriberId desired s ids)).subscriberAccess.get? id = some r ∧
      r.subscriberId = subscriberId ∧ r.accessId = accessId ∧ r.purchaseId = target.purchaseId ∧
      r.isActive = true ∧ r.expiresDate = target.expiresDate := by
  have he := desired.mem_entries.2 hd
  cases hsrc : sourceRecord (findAllAccessBySubscriber subscriberId s) accessId
      target.purchaseId with
  | none =>
    obtain ⟨id, hc⟩ := created_of_mem subscriberId ids he hsrc
    refine ⟨id, grantedRow subscriberId (accessId, target), ?_, rfl, rfl, rfl, rfl, rfl⟩
    have hnone : s.subscriberAccess.get? id = none := by
      obtain ⟨n, hn⟩ := created_ids hc
      rw [show id = ids n from hn]
      exact hfresh n
    rw [synced_new hnone hids, ← Table.mem_entries]
    exact hc
  | some record =>
    obtain ⟨hmem, hacc, hp⟩ := sourceRecord_mem hsrc
    obtain ⟨hget, hsub⟩ := List.mem_filter.1 hmem
    have hget := s.subscriberAccess.mem_entries.1 hget
    have hne : ∀ n, ids n ≠ record.1 := fun n hn => by simpa [hn, hget] using hfresh n
    refine ⟨record.1, _, synced_of_mem hmem hne, ?_⟩
    have hrow : syncedRow desired (findAllAccessBySubscriber subscriberId s) record =
        { record.2 with isActive := true, expiresDate := target.expiresDate } := by
      simp [syncedRow, hacc, hd, hp, hsrc]
    rw [hrow]
    exact ⟨of_decide_eq_true hsub, hacc, hp, rfl, rfl⟩

theorem synced_duplicate {target : DesiredAccess} {record : AccessRecord}
    (hfresh : ∀ n, s.subscriberAccess.get? (ids n) = none)
    (hdup : Duplicate subscriberId desired s target record) :
    (applyAll s (syncWrites subscriberId desired s ids)).subscriberAccess.get? record.1 =
      some record.2 := by
  have hget := s.subscriberAccess.mem_entries.1 (List.mem_filter.1 hdup.mem).1
  have hne : ∀ n, ids n ≠ record.1 := fun n hn => by simpa [hn, hget] using hfresh n
  rw [synced_of_mem hdup.mem hne]
  simp [syncedRow, hdup.desired, hdup.source, hdup.notFirst]

/-- At every later instant the read serves the derived entitlements and no others. -/
def ReadMatches (subscriberId : String) (desired : Table String DesiredAccess) (now : ℤ)
    (s : Db) : Prop :=
  ∀ t, now < t → ∀ accessId,
    ((activeAccessAt subscriberId t s).get? accessId).map ActiveAccessEntry.expiresDate =
      ((desired.get? accessId).filter fun target => target.expiresDate.all (t < ·)).map
        DesiredAccess.expiresDate

/-- No duplicate is served, after `now`, longer than its entitlement. -/
def DuplicatesLapse (subscriberId : String) (desired : Table String DesiredAccess) (now : ℤ)
    (s : Db) : Prop :=
  ∀ target record, Duplicate subscriberId desired s target record →
    lifespan record.2.expiresDate ≤ max (lifespan target.expiresDate) (lifespan (some (now + 1)))

theorem desired_filter_eq_some {target : DesiredAccess} {t : ℤ} {o : Option DesiredAccess}
    (ho : o = some target) (h : (t : WithTop ℤ) < lifespan target.expiresDate) :
    (o.filter fun target => target.expiresDate.all (t < ·)).map DesiredAccess.expiresDate =
      some target.expiresDate := by
  rw [ho, Option.filter_some, if_pos (expiresDate_all_iff.2 h), Option.map_some]

theorem desired_filter_eq_none {t : ℤ} {o : Option DesiredAccess}
    (h : ∀ target, o = some target → ¬(t : WithTop ℤ) < lifespan target.expiresDate) :
    (o.filter fun target => target.expiresDate.all (t < ·)).map DesiredAccess.expiresDate =
      none := by
  cases o with
  | none => rfl
  | some target =>
    rw [Option.filter_some, if_neg fun hl => h target rfl (expiresDate_all_iff.1 hl),
      Option.map_none]

theorem readMatches_of_duplicatesLapse {now : ℤ} (hids : Function.Injective ids)
    (hfresh : ∀ n, s.subscriberAccess.get? (ids n) = none)
    (hlapse : DuplicatesLapse subscriberId desired now s) :
    ReadMatches subscriberId desired now
      (applyAll s (syncWrites subscriberId desired s ids)) := by
  intro t ht accessId
  have hnow : lifespan (some (now + 1)) ≤ (t : WithTop ℤ) :=
    WithTop.coe_le_coe.2 (Int.add_one_le_iff.2 ht)
  -- a row live at `t` belongs to an entitlement that is live at `t` and lasts as long
  have hlive : ∀ record ∈ findActiveAccess subscriberId t
      (applyAll s (syncWrites subscriberId desired s ids)), record.2.accessId = accessId →
      ∃ target, desired.get? accessId = some target ∧
        lifespan record.2.expiresDate ≤ lifespan target.expiresDate ∧
        (t : WithTop ℤ) < lifespan target.expiresDate := by
    rintro ⟨id, r⟩ hmem rfl
    obtain ⟨hget, hsub, hact, hexp⟩ := mem_findActiveAccess.1 hmem
    obtain ⟨target, hd, -, heq | hdup⟩ := synced_active hids hfresh hget hsub hact
    · exact ⟨target, hd, heq ▸ le_rfl, heq ▸ hexp⟩
    · obtain hle | hle := le_max_iff.1 (hlapse target _ hdup)
      · exact ⟨target, hd, hle, hexp.trans_le hle⟩
      · exact absurd (hexp.trans_le (hle.trans hnow)) (lt_irrefl _)
  by_cases hd : ∃ target, desired.get? accessId = some target ∧
      (t : WithTop ℤ) < lifespan target.expiresDate
  · obtain ⟨target, hd, hl⟩ := hd
    rw [desired_filter_eq_some hd hl, activeAccess_expiry_iff]
    obtain ⟨id, r, hget, hsub, hacc, -, hact, hexp⟩ := synced_target hids hfresh hd
    refine ⟨⟨(id, r), mem_findActiveAccess.2 ⟨hget, hsub, hact, hexp ▸ hl⟩, hacc, hexp⟩, ?_⟩
    intro record hmem hacc'
    obtain ⟨target', hd', hle, -⟩ := hlive record hmem hacc'
    rw [hd, Option.some.injEq] at hd'
    exact hd' ▸ hle
  · rw [desired_filter_eq_none fun target ho hl => hd ⟨target, ho, hl⟩, activeAccess_eq_none_iff]
    intro record hmem hacc
    obtain ⟨target, hd', -, hl⟩ := hlive record hmem hacc
    exact hd ⟨target, hd', hl⟩

theorem duplicatesLapse_of_readMatches {now : ℤ}
    (hfresh : ∀ n, s.subscriberAccess.get? (ids n) = none)
    (hread : ReadMatches subscriberId desired now
      (applyAll s (syncWrites subscriberId desired s ids))) :
    DuplicatesLapse subscriberId desired now s := by
  intro target record hdup
  by_contra hout
  rw [not_le, max_lt_iff] at hout
  obtain ⟨htarget, hnow⟩ := hout
  cases he : target.expiresDate with
  | none => simp [he] at htarget
  | some e =>
    -- at `t` the entitlement has lapsed and the duplicate has not
    let t := max e (now + 1)
    have ht : (t : WithTop ℤ) < lifespan record.2.expiresDate := by
      rw [WithTop.coe_max, max_lt_iff]
      exact ⟨by simpa [he] using htarget, hnow⟩
    have hread := hread t (by omega) record.2.accessId
    rw [desired_filter_eq_none, activeAccess_eq_none_iff] at hread
    · refine hread record (mem_findActiveAccess.2 ⟨synced_duplicate hfresh hdup, ?_, hdup.active,
        ht⟩) rfl
      exact of_decide_eq_true (List.mem_filter.1 hdup.mem).2
    · intro target' ho hl
      rw [hdup.desired, Option.some.injEq] at ho
      rw [← ho, he, lifespan_some, WithTop.coe_lt_coe] at hl
      exact absurd hl (not_lt.2 (le_max_left _ _))

/-- After `syncAccess` the read agrees with the derivation at every later
instant exactly when no duplicate row outlives its entitlement. -/
theorem readMatches_iff_duplicatesLapse (subscriberId : String) (s : Db) (clock : ℕ → ℤ)
    (hids : Function.Injective ids) (hfresh : ∀ n, s.subscriberAccess.get? (ids n) = none) :
    ∃ c', (syncAccess subscriberId).Returns (.start s clock ids) () c' ∧
      (ReadMatches subscriberId (desiredAt subscriberId s (clock 1)) (clock 1) c'.view ↔
        DuplicatesLapse subscriberId (desiredAt subscriberId s (clock 1)) (clock 1) s) := by
  obtain ⟨c', h⟩ := syncAccess_total subscriberId (.start s clock ids)
  have hview := syncAccess_returns h
  refine ⟨c', h, ?_⟩
  rw [hview]
  exact ⟨duplicatesLapse_of_readMatches hfresh, readMatches_of_duplicatesLapse hids hfresh⟩

end Synced

def duplicateDb : Db where
  products := ⟨[("prod", { projectId := "p1", identifier := "pro", accessIds := ["pro"] })],
    by decide⟩
  purchases := ⟨[({ store := .appStore, storeTransactionId := "t1" },
    { id := "pu1", projectId := "p1", subscriberId := "s1", productId := "prod"
      originalTransactionId := "t1", status := .active, expiresDate := some 100 })], by decide⟩
  subscriberAccess := ⟨[
    ("a1", { subscriberId := "s1", purchaseId := "pu1", accessId := "pro"
             expiresDate := some 100, store := .appStore }),
    ("a2", { subscriberId := "s1", purchaseId := "pu1", accessId := "pro"
             expiresDate := some 500, store := .appStore })], by decide⟩

theorem duplicate_outlives_entitlement :
    ∃ c', (syncAccess "s1").Returns (.start duplicateDb (fun _ => 10) freshIds) () c' ∧
      (desiredAt "s1" duplicateDb 10).get? "pro" = some ⟨"pu1", some 100, .appStore⟩ ∧
      ((activeAccessAt "s1" 50 c'.view).get? "pro").map (·.expiresDate) = some (some 500) ∧
      ((activeAccessAt "s1" 200 c'.view).get? "pro").map (·.expiresDate) = some (some 500) ∧
      ¬ReadMatches "s1" (desiredAt "s1" duplicateDb 10) 10 c'.view := by
  refine ⟨_, rfl, by decide, by decide, by decide, fun h => ?_⟩
  exact absurd (h 200 (by decide) "pro") (by decide)

theorem freshIds_unused (n : ℕ) : duplicateDb.subscriberAccess.get? (freshIds n) = none := by
  rw [Table.get?_eq_none]
  intro h
  have hlist : List.replicate (n + 1) 'x' = "a1".toList ∨ List.replicate (n + 1) 'x' = "a2".toList := by
    have hid : freshIds n = "a1" ∨ freshIds n = "a2" := by simpa [duplicateDb] using h
    exact hid.imp (fun e => by rw [← e]; simp [freshIds]) fun e => by rw [← e]; simp [freshIds]
  obtain hl | hl := hlist <;> simp [List.replicate_succ] at hl

theorem readMatches_iff_duplicatesLapse_duplicate :
    ∃ c', (syncAccess "s1").Returns (.start duplicateDb (fun _ => 10) freshIds) () c' ∧
      (ReadMatches "s1" (desiredAt "s1" duplicateDb 10) 10 c'.view ↔
        DuplicatesLapse "s1" (desiredAt "s1" duplicateDb 10) 10 duplicateDb) :=
  readMatches_iff_duplicatesLapse "s1" duplicateDb (fun _ => 10) freshIds_injective freshIds_unused

end Rovenue
