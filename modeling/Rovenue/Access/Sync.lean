import Rovenue.Access.AccessEngine

/-! What `syncAccess` leaves in `subscriber_access`, row by row. -/

namespace Rovenue
open Txn

def Write.accessAt (id : String) : Write → Option SubscriberAccess → Option SubscriberAccess
  | .insertAccess id' row, o => if id = id' then some (o.getD row) else o
  | .updateAccess id' set, o => if id = id' then o.map set.apply else o
  | _, o => o

theorem write_accessAt (s : Db) (w : Write) (id : String) :
    (s.write w).subscriberAccess.get? id = w.accessAt id (s.subscriberAccess.get? id) := by
  cases w with
  | insertAccess id' row =>
    simp only [Db.write, Table.get?_insert, Write.accessAt]
    split_ifs with h
    · rw [h]
    · rfl
  | updateAccess id' set => simp only [Db.write, Table.get?_modify, Write.accessAt]
  | _ => rfl

def accessFold (id : String) (ws : List Write) (o : Option SubscriberAccess) :
    Option SubscriberAccess := ws.foldl (fun o w => w.accessAt id o) o

@[simp] theorem accessFold_nil (id : String) (o : Option SubscriberAccess) :
    accessFold id [] o = o := rfl

@[simp] theorem accessFold_cons (id : String) (w : Write) (ws : List Write)
    (o : Option SubscriberAccess) :
    accessFold id (w :: ws) o = accessFold id ws (w.accessAt id o) := rfl

@[simp] theorem accessFold_append (id : String) (ws vs : List Write)
    (o : Option SubscriberAccess) :
    accessFold id (ws ++ vs) o = accessFold id vs (accessFold id ws o) := List.foldl_append

theorem applyAll_accessFold (s : Db) (ws : List Write) (id : String) :
    (applyAll s ws).subscriberAccess.get? id = accessFold id ws (s.subscriberAccess.get? id) := by
  induction ws generalizing s with
  | nil => rfl
  | cons w ws ih => rw [applyAll_cons, ih, apply_eq, write_accessAt, accessFold_cons]

def deactivated (r : SubscriberAccess) : SubscriberAccess := { r with isActive := false }

theorem deactivated_eq_self {r : SubscriberAccess} (h : r.isActive = false) : deactivated r = r := by
  rw [deactivated, ← h]

theorem apply_deactivate : AccessPatch.apply { isActive := some false } = deactivated := rfl

def revokeWrites (purchaseId : String) (s : Db) : List Write :=
  (accessIdsForPurchases [purchaseId] s).map fun id => .updateAccess id { isActive := some false }

theorem deactivate_fold (id : String) (rows : List String) (o : Option SubscriberAccess) :
    accessFold id (rows.map fun id => .updateAccess id { isActive := some false }) o =
      if id ∈ rows then o.map deactivated else o := by
  induction rows generalizing o with
  | nil => rfl
  | cons row rows ih =>
    rw [List.map_cons, accessFold_cons, ih]
    by_cases hr : id = row <;> by_cases hm : id ∈ rows <;>
      simp [Write.accessAt, hr, hm, apply_deactivate]
    · cases o <;> simp [deactivated, hr ▸ hm]
    · simp [hr ▸ hm]

theorem revoked_access (s : Db) (purchaseId id : String) :
    (applyAll s (revokeWrites purchaseId s)).subscriberAccess.get? id =
        (s.subscriberAccess.get? id).map fun r =>
          if r.purchaseId = purchaseId then deactivated r else r := by
  have hmem : id ∈ accessIdsForPurchases [purchaseId] s ↔
      ∃ r, s.subscriberAccess.get? id = some r ∧ r.purchaseId = purchaseId := by
    simp only [accessIdsForPurchases, List.mem_map, List.mem_filter, List.mem_singleton,
      decide_eq_true_eq]
    constructor
    · rintro ⟨⟨_, r⟩, ⟨he, hp⟩, rfl⟩
      exact ⟨r, s.subscriberAccess.mem_entries.1 he, hp⟩
    · rintro ⟨r, hr, hp⟩
      exact ⟨(id, r), ⟨s.subscriberAccess.mem_entries.2 hr, hp⟩, rfl⟩
  rw [applyAll_accessFold, revokeWrites, deactivate_fold]
  cases hget : s.subscriberAccess.get? id with
  | none => simp
  | some r => by_cases hp : r.purchaseId = purchaseId <;> simp [hmem, hget, hp]

theorem revokeWrites_not_onPurchases (purchaseId : String) (s : Db) :
    ∀ w ∈ revokeWrites purchaseId s, ¬w.OnPurchases := by
  intro w hw
  obtain ⟨id, -, rfl⟩ := List.mem_map.1 hw
  simp [Write.OnPurchases]

def stale (desired : Table String DesiredAccess) (record : AccessRecord) : Bool :=
  !isSource desired record.2 && record.2.isActive

def staleWrites (desired : Table String DesiredAccess) (record : AccessRecord) : List Write :=
  if stale desired record then [.updateAccess record.1 { isActive := some false }] else []

theorem returns_deactivateStale (desired : Table String DesiredAccess) (record : AccessRecord)
    (c : Session Db Write String) (u : Unit) (c' : Session Db Write String) :
    (deactivateStale desired record).Returns c u c' ↔
      c.write (staleWrites desired record) = c' := by
  unfold deactivateStale staleWrites stale
  split_ifs <;> simp [setAccessActive, updateAccess]

def grantedRow (subscriberId : String) (entry : String × DesiredAccess) : SubscriberAccess where
  subscriberId := subscriberId
  purchaseId := entry.2.purchaseId
  accessId := entry.1
  isActive := true
  expiresDate := entry.2.expiresDate
  store := entry.2.store

def refreshWrites (existing : AccessRecord) (target : DesiredAccess) : List Write :=
  if !existing.2.isActive || existing.2.expiresDate ≠ target.expiresDate then
    [.updateAccess existing.1 { isActive := some true, expiresDate := some target.expiresDate }]
  else []

def repairWrites (subscriberId : String) (current : List AccessRecord) :
    List (String × DesiredAccess) → (ℕ → String) → List Write
  | [], _ => []
  | e :: es, ids =>
    match sourceRecord current e.1 e.2.purchaseId with
    | some existing => refreshWrites existing e.2 ++ repairWrites subscriberId current es ids
    | none =>
      .insertAccess (ids 0) (grantedRow subscriberId e) ::
        repairWrites subscriberId current es fun n => ids (n + 1)

theorem repairAccess_session {subscriberId : String} {current : List AccessRecord}
    {es : List (String × DesiredAccess)} {c c' : Session Db Write String} {u : Unit}
    (h : (Prog.forEach es (repairAccess subscriberId current)).Returns c u c') :
    c'.view = applyAll c.view (repairWrites subscriberId current es c.ids) ∧
      c'.written = c.written ++ repairWrites subscriberId current es c.ids := by
  induction es generalizing c with
  | nil =>
    obtain ⟨-, rfl⟩ := Prog.returns_done.1 h
    simp [repairWrites]
  | cons e es ih =>
    obtain ⟨v, c₁, he, hes⟩ := Prog.returns_bind.1 h
    obtain ⟨hview, hwritten⟩ := ih hes
    rw [hview, hwritten]
    unfold repairAccess at he
    cases hs : sourceRecord current e.1 e.2.purchaseId with
    | some existing =>
      simp only [hs] at he
      have hc : c₁ = c.write (refreshWrites existing e.2) := by
        unfold refreshWrites
        split_ifs at he ⊢
        · simpa [setAccessActiveAndExpiry, updateAccess, eq_comm] using he
        · simpa [eq_comm] using he
      simp [repairWrites, hs, hc, applyAll_append]
    | none =>
      simp only [hs, createAccess, Prog.bind_eq, Prog.returns_bind, Prog.returns_fresh,
        Prog.returns_exec] at he
      obtain ⟨id, c₂, ⟨rfl, rfl⟩, -, rfl⟩ := he
      simp [repairWrites, hs, grantedRow, Session.drawn]

def syncWrites (subscriberId : String) (desired : Table String DesiredAccess) (s : Db)
    (ids : ℕ → String) : List Write :=
  let current := findAllAccessBySubscriber subscriberId s
  current.flatMap (staleWrites desired) ++ repairWrites subscriberId current desired.entries ids

def desiredAt (subscriberId : String) (s : Db) (now : ℤ) : Table String DesiredAccess :=
  -- the entitlements `syncAccess` writes: the clock is read once for `BEGIN`, once for `now`
  computeDesiredAccess (findPurchasesWithAccessIds subscriberId s) now

theorem syncAccess_session {subscriberId : String} {c c' : Session Db Write String} {u : Unit}
    (h : (syncAccess subscriberId).Returns c u c') :
    c'.view = applyAll c.view
        (syncWrites subscriberId (desiredAt subscriberId c.view (c.clock 1)) c.view c.ids) ∧
      c'.written = c.written ++
        syncWrites subscriberId (desiredAt subscriberId c.view (c.clock 1)) c.view c.ids := by
  simp only [syncAccess, Prog.returns_transaction, Prog.bind_eq, Prog.returns_bind,
    Prog.returns_acquire, Prog.returns_query, Prog.returns_now,
    Prog.returns_forEach (returns_deactivateStale _)] at h
  obtain ⟨-, -, rfl, -, -, ⟨rfl, rfl⟩, -, -, ⟨rfl, rfl⟩, -, -, ⟨rfl, rfl⟩, -, -, rfl, h⟩ := h
  obtain ⟨hview, hwritten⟩ := repairAccess_session h
  rw [hview, hwritten]
  simp [syncWrites, desiredAt, applyAll_append, Session.tick]

theorem syncAccess_returns {subscriberId : String} {c c' : Session Db Write String} {u : Unit}
    (h : (syncAccess subscriberId).Returns c u c') :
    c'.view = applyAll c.view
      (syncWrites subscriberId (desiredAt subscriberId c.view (c.clock 1)) c.view c.ids) :=
  (syncAccess_session h).1

theorem syncAccess_total (subscriberId : String) (c : Session Db Write String) :
    ∃ c', (syncAccess subscriberId).Returns c () c' := by
  let now := c.clock 1
  let desired := desiredAt subscriberId c.view now
  let current := findAllAccessBySubscriber subscriberId c.view
  obtain ⟨c₂, h₂⟩ := Prog.exists_returns_forEach (f := repairAccess subscriberId current)
    (fun e c => by
      unfold repairAccess
      cases sourceRecord current e.1 e.2.purchaseId with
      | none => simp [createAccess]
      | some existing =>
        dsimp only
        split_ifs <;> simp [setAccessActiveAndExpiry, updateAccess])
    desired.entries (c.tick.tick.write (current.flatMap (staleWrites desired)))
  refine ⟨c₂, ?_⟩
  simp only [syncAccess, Prog.returns_transaction, Prog.bind_eq, Prog.returns_bind,
    Prog.returns_acquire, Prog.returns_query, Prog.returns_now,
    Prog.returns_forEach (returns_deactivateStale _)]
  exact ⟨(), _, rfl, _, _, ⟨rfl, rfl⟩, _, _, ⟨rfl, rfl⟩, _, _, ⟨rfl, rfl⟩, (), _, rfl, h₂⟩

section Rows
variable {subscriberId : String} {desired : Table String DesiredAccess} {s : Db}
  {ids : ℕ → String} {id : String} {r : SubscriberAccess}
  {current : List AccessRecord} {es : List (String × DesiredAccess)}

theorem staleWrites_fold (l : List AccessRecord) (o : Option SubscriberAccess) :
    accessFold id (l.flatMap (staleWrites desired)) o =
      if l.any fun record => record.1 = id && stale desired record then o.map deactivated
      else o := by
  induction l generalizing o with
  | nil => rfl
  | cons record l ih =>
    rw [List.flatMap_cons, accessFold_append, ih, List.any_cons]
    by_cases hs : stale desired record = true <;> by_cases hid : record.1 = id
    · have hw : accessFold id (staleWrites desired record) o = o.map deactivated := by
        rw [staleWrites, if_pos hs, accessFold_cons, Write.accessAt, if_pos hid.symm,
          apply_deactivate]
        rfl
      rw [hw]
      cases o <;> simp [hs, hid, deactivated]
    · have hw : accessFold id (staleWrites desired record) o = o := by
        rw [staleWrites, if_pos hs, accessFold_cons, Write.accessAt, if_neg (Ne.symm hid)]
        rfl
      rw [hw]
      simp only [hid, decide_false, Bool.false_and, Bool.false_or]
    all_goals
      rw [show accessFold id (staleWrites desired record) o = o by rw [staleWrites, if_neg hs]; rfl]
      simp only [hs, Bool.and_false, Bool.false_or]

theorem refreshWrites_fold_of_ne {existing : AccessRecord} (h : existing.1 ≠ id)
    (target : DesiredAccess) (o : Option SubscriberAccess) :
    accessFold id (refreshWrites existing target) o = o := by
  unfold refreshWrites
  split_ifs <;> simp [Write.accessAt, Ne.symm h]

theorem refreshWrites_fold_self (r : SubscriberAccess) (target : DesiredAccess) :
    accessFold id (refreshWrites (id, r) target) (some r) =
      some { r with isActive := true, expiresDate := target.expiresDate } := by
  unfold refreshWrites
  split_ifs with hc
  · simp [Write.accessAt, AccessPatch.apply]
  · simp only [Bool.or_eq_true, Bool.not_eq_true', ne_eq, decide_eq_true_eq, not_or,
      Bool.not_eq_false, not_not] at hc
    obtain ⟨hactive, hexp⟩ := hc
    simp [← hactive, ← hexp]

theorem sourceRecord_mem {accessId purchaseId : String} {record : AccessRecord}
    (h : sourceRecord current accessId purchaseId = some record) :
    record ∈ current ∧ record.2.accessId = accessId ∧ record.2.purchaseId = purchaseId := by
  have hp := List.find?_some h
  simp only [decide_eq_true_eq] at hp
  exact ⟨List.mem_of_find?_eq_some h, hp⟩

theorem repairWrites_fold_of_ne (hfresh : ∀ n, ids n ≠ id)
    (hes : ∀ e ∈ es, ∀ record, sourceRecord current e.1 e.2.purchaseId = some record →
      record.1 ≠ id) (o : Option SubscriberAccess) :
    accessFold id (repairWrites subscriberId current es ids) o = o := by
  induction es generalizing ids o with
  | nil => rfl
  | cons e es ih =>
    have hrest : ∀ ids : ℕ → String, (∀ n, ids n ≠ id) → ∀ o,
        accessFold id (repairWrites subscriberId current es ids) o = o :=
      fun ids hf => ih hf fun e' he' => hes e' (by simp [he'])
    unfold repairWrites
    cases hs : sourceRecord current e.1 e.2.purchaseId with
    | some existing =>
      have hne := hes e (by simp) existing hs
      simp only [accessFold_append, hrest _ hfresh, refreshWrites_fold_of_ne hne]
    | none =>
      simp only [accessFold_cons, hrest _ fun n => hfresh (n + 1)]
      simp [Write.accessAt, Ne.symm (hfresh 0)]

theorem repairWrites_fold_of_mem (hfresh : ∀ n, ids n ≠ id) (hes : (es.map Prod.fst).Nodup)
    (huniq : ∀ record ∈ current, record.1 = id → record = (id, r)) {e : String × DesiredAccess}
    (he : e ∈ es) (hsrc : sourceRecord current e.1 e.2.purchaseId = some (id, r)) :
    accessFold id (repairWrites subscriberId current es ids) (some r) =
      some { r with isActive := true, expiresDate := e.2.expiresDate } := by
  have hacc := (sourceRecord_mem hsrc).2.1
  induction es generalizing ids with
  | nil => simp at he
  | cons e₁ es ih =>
    rw [List.map_cons, List.nodup_cons] at hes
    unfold repairWrites
    by_cases h₁ : e₁ = e
    · subst h₁
      have hrest : ∀ e' ∈ es, ∀ record,
          sourceRecord current e'.1 e'.2.purchaseId = some record → record.1 ≠ id := by
        intro e' he' record hrec hid
        obtain ⟨hmem, hacc', -⟩ := sourceRecord_mem hrec
        rw [huniq record hmem hid] at hacc'
        exact hes.1 (List.mem_map.2 ⟨e', he', hacc'.symm.trans hacc⟩)
      simp only [hsrc, accessFold_append, repairWrites_fold_of_ne hfresh hrest,
        refreshWrites_fold_self]
    · have he' : e ∈ es := by simpa [Ne.symm h₁] using he
      cases hs : sourceRecord current e₁.1 e₁.2.purchaseId with
      | some existing =>
        have hne : existing.1 ≠ id := by
          intro hid
          obtain ⟨hmem, hacc', -⟩ := sourceRecord_mem hs
          rw [huniq existing hmem hid] at hacc'
          exact hes.1 (List.mem_map.2 ⟨e, he', hacc.symm.trans hacc'⟩)
        simp only [accessFold_append, refreshWrites_fold_of_ne hne]
        exact ih hfresh hes.2 he'
      | none =>
        simp only [accessFold_cons]
        rw [show (Write.insertAccess (ids 0) (grantedRow subscriberId e₁)).accessAt id (some r) =
          some r by simp [Write.accessAt]]
        exact ih (fun n => hfresh (n + 1)) hes.2 he'

def syncedRow (desired : Table String DesiredAccess) (current : List AccessRecord)
    (record : AccessRecord) : SubscriberAccess :=
  match desired.get? record.2.accessId with
  | none => deactivated record.2
  | some target =>
    if target.purchaseId = record.2.purchaseId then
      if sourceRecord current record.2.accessId target.purchaseId = some record then
        { record.2 with isActive := true, expiresDate := target.expiresDate }
      else record.2
    else deactivated record.2

theorem current_unique (subscriberId : String) (hr : s.subscriberAccess.get? id = some r) :
    ∀ record ∈ findAllAccessBySubscriber subscriberId s, record.1 = id → record = (id, r) := by
  rintro ⟨id', r'⟩ hmem rfl
  have := s.subscriberAccess.mem_entries.1 (List.mem_filter.1 hmem).1
  rw [hr] at this
  rw [Option.some.inj this]

theorem any_eq_false (h : ∀ record ∈ current, record.1 ≠ id) :
    (current.any fun record => record.1 = id && stale desired record) = false := by
  simp only [List.any_eq_false, Bool.and_eq_true, decide_eq_true_eq, not_and]
  exact fun record hm hid => absurd hid (h record hm)

theorem synced_of_mem (hr : (id, r) ∈ findAllAccessBySubscriber subscriberId s)
    (hfresh : ∀ n, ids n ≠ id) :
    (applyAll s (syncWrites subscriberId desired s ids)).subscriberAccess.get? id =
      some (syncedRow desired (findAllAccessBySubscriber subscriberId s) (id, r)) := by
  have hget := s.subscriberAccess.mem_entries.1 (List.mem_filter.1 hr).1
  have huniq := current_unique subscriberId hget
  rw [applyAll_accessFold, syncWrites, accessFold_append, staleWrites_fold, hget]
  have hany : ((findAllAccessBySubscriber subscriberId s).any fun record =>
      record.1 = id && stale desired record) = stale desired (id, r) := by
    rw [Bool.eq_iff_iff, List.any_eq_true]
    simp only [Bool.and_eq_true, decide_eq_true_eq]
    exact ⟨fun ⟨record, hm, hid, hs⟩ => huniq record hm hid ▸ hs, fun hs => ⟨_, hr, rfl, hs⟩⟩
  rw [hany]
  -- a row that no entry names as its source is only ever deactivated
  have hother : (∀ target, desired.get? r.accessId = some target →
      sourceRecord (findAllAccessBySubscriber subscriberId s) r.accessId target.purchaseId ≠
        some (id, r)) → ∀ o, accessFold id (repairWrites subscriberId
          (findAllAccessBySubscriber subscriberId s) desired.entries ids) o = o := by
    intro hne o
    refine repairWrites_fold_of_ne hfresh (fun e he record hrec hid => ?_) o
    obtain ⟨hmem, hacc, -⟩ := sourceRecord_mem hrec
    obtain rfl := huniq record hmem hid
    have hd := desired.mem_entries.1 (show (e.1, e.2) ∈ desired.entries from he)
    exact hne e.2 (hacc ▸ hd) (hacc ▸ hrec)
  cases hd : desired.get? r.accessId with
  | none =>
    rw [hother (by simp [hd])]
    simp only [stale, isSource, hd, syncedRow]
    cases hact : r.isActive with
    | true => rfl
    | false => simp [deactivated_eq_self hact]
  | some target =>
    by_cases hp : target.purchaseId = r.purchaseId
    · have hns : stale desired (id, r) = false := by simp [stale, isSource, hd, hp]
      simp only [hns, Bool.false_eq_true, if_false, syncedRow, hd, hp, if_true]
      split_ifs with hsrc
      · rw [← hp] at hsrc
        exact repairWrites_fold_of_mem hfresh desired.nodup huniq
          (desired.mem_entries.2 hd) hsrc
      · refine hother (fun target' h' hc => hsrc ?_) _
        rw [hd] at h'
        rw [← hp, Option.some.inj h']
        exact hc
    · rw [hother]
      · simp only [stale, isSource, hd, syncedRow, Option.any_some, hp]
        cases hact : r.isActive with
        | true => simp
        | false => simp [deactivated_eq_self hact]
      · intro target' h' hc
        rw [hd, Option.some.injEq] at h'
        subst h'
        exact hp (sourceRecord_mem hc).2.2.symm

theorem synced_of_other (hr : s.subscriberAccess.get? id = some r)
    (hsub : r.subscriberId ≠ subscriberId) (hfresh : ∀ n, ids n ≠ id) :
    (applyAll s (syncWrites subscriberId desired s ids)).subscriberAccess.get? id = some r := by
  have hnot : ∀ record ∈ findAllAccessBySubscriber subscriberId s, record.1 ≠ id := by
    intro record hm hid
    have h := current_unique subscriberId hr record hm hid
    subst h
    exact hsub (of_decide_eq_true (List.mem_filter.1 hm).2)
  rw [applyAll_accessFold, syncWrites, accessFold_append, staleWrites_fold, hr]
  rw [any_eq_false hnot]
  exact repairWrites_fold_of_ne hfresh
    (fun _ _ record hrec => hnot record (sourceRecord_mem hrec).1) _

def created (subscriberId : String) (current : List AccessRecord) :
    List (String × DesiredAccess) → (ℕ → String) → List AccessRecord
  | [], _ => []
  | e :: es, ids =>
    if (sourceRecord current e.1 e.2.purchaseId).isSome then created subscriberId current es ids
    else (ids 0, grantedRow subscriberId e) :: created subscriberId current es fun n => ids (n + 1)

@[simp] theorem created_nil : created subscriberId current [] ids = [] := rfl

theorem created_cons :
    created subscriberId current (e :: es) ids =
      if (sourceRecord current e.1 e.2.purchaseId).isSome then
        created subscriberId current es ids
      else
        (ids 0, grantedRow subscriberId e) ::
          created subscriberId current es fun n => ids (n + 1) := rfl

theorem created_ids {record : AccessRecord} (h : record ∈ created subscriberId current es ids) :
    ∃ n, record.1 = ids n := by
  induction es generalizing ids with
  | nil => simp at h
  | cons e es ih =>
    rw [created_cons] at h
    split_ifs at h
    · exact ih h
    · obtain rfl | h := List.mem_cons.1 h
      · exact ⟨0, rfl⟩
      · obtain ⟨n, hn⟩ := ih h
        exact ⟨n + 1, hn⟩

theorem created_nodup (hids : Function.Injective ids) :
    ((created subscriberId current es ids).map Prod.fst).Nodup := by
  induction es generalizing ids with
  | nil => simp
  | cons e es ih =>
    rw [created_cons]
    split_ifs
    · exact ih hids
    · rw [List.map_cons, List.nodup_cons]
      refine ⟨fun h => ?_, ih fun a b hab => by simpa using hids hab⟩
      obtain ⟨record, hm, hid⟩ := List.mem_map.1 h
      obtain ⟨n, hn⟩ := created_ids hm
      exact absurd (hids (hn.symm.trans hid)) (by simp)

theorem created_row {record : AccessRecord} (h : record ∈ created subscriberId current es ids) :
    ∃ e ∈ es, sourceRecord current e.1 e.2.purchaseId = none ∧
      record.2 = grantedRow subscriberId e := by
  induction es generalizing ids with
  | nil => simp at h
  | cons e es ih =>
    rw [created_cons] at h
    split_ifs at h with hs
    · obtain ⟨e', he', h'⟩ := ih h
      exact ⟨e', by simp [he'], h'⟩
    · obtain rfl | h := List.mem_cons.1 h
      · exact ⟨e, by simp, by simpa using hs, rfl⟩
      · obtain ⟨e', he', h'⟩ := ih h
        exact ⟨e', by simp [he'], h'⟩

theorem created_injective (hes : (es.map Prod.fst).Nodup) {record record' : AccessRecord}
    (h : record ∈ created subscriberId current es ids)
    (h' : record' ∈ created subscriberId current es ids)
    (hacc : record.2.accessId = record'.2.accessId) : record = record' := by
  induction es generalizing ids with
  | nil => simp at h
  | cons e es ih =>
    rw [List.map_cons, List.nodup_cons] at hes
    have hrest : ∀ ids : ℕ → String, ∀ x ∈ created subscriberId current es ids,
        x.2.accessId ≠ e.1 := by
      intro ids x hx heq
      obtain ⟨e', he', -, hrow⟩ := created_row hx
      rw [hrow] at heq
      exact hes.1 (List.mem_map.2 ⟨e', he', heq⟩)
    rw [created_cons] at h h'
    split_ifs at h h'
    · exact ih hes.2 h h'
    · obtain rfl | h := List.mem_cons.1 h
      · obtain rfl | h' := List.mem_cons.1 h'
        · rfl
        · exact absurd hacc.symm (hrest _ record' h')
      · obtain rfl | h' := List.mem_cons.1 h'
        · exact absurd hacc (hrest _ record h)
        · exact ih hes.2 h h'

theorem created_of_mem (subscriberId : String) (ids : ℕ → String) {e : String × DesiredAccess}
    (he : e ∈ es) (hs : sourceRecord current e.1 e.2.purchaseId = none) :
    ∃ id, (id, grantedRow subscriberId e) ∈ created subscriberId current es ids := by
  induction es generalizing ids with
  | nil => simp at he
  | cons e₁ es ih =>
    rw [created_cons]
    obtain rfl | he := List.mem_cons.1 he
    · exact ⟨ids 0, by simp [hs]⟩
    · split_ifs
      · exact ih ids he
      · have h := ih (fun n => ids (n + 1)) he
        exact h.imp fun id h => List.mem_cons_of_mem _ h

def createdTable (subscriberId : String) (current : List AccessRecord)
    (es : List (String × DesiredAccess)) (hids : Function.Injective ids) :
    Table String SubscriberAccess := ⟨created subscriberId current es ids, created_nodup hids⟩

theorem repairWrites_fold_new (hids : Function.Injective ids)
    (hnew : ∀ record ∈ current, record.1 ≠ id) :
    accessFold id (repairWrites subscriberId current es ids) none =
      (createdTable subscriberId current es hids).get? id := by
  suffices h : ∀ o, accessFold id (repairWrites subscriberId current es ids) o =
      o.orElse fun _ => ((created subscriberId current es ids).find? fun e => e.1 = id).map
        Prod.snd from h none
  clear hids
  induction es generalizing ids with
  | nil => intro o; cases o <;> rfl
  | cons e es ih =>
    intro o
    unfold repairWrites created
    cases hs : sourceRecord current e.1 e.2.purchaseId with
    | some existing =>
      have hne := hnew existing (sourceRecord_mem hs).1
      simp only [accessFold_append, ih, Option.isSome_some, if_true,
        refreshWrites_fold_of_ne hne]
    | none =>
      simp only [accessFold_cons, ih, Option.isSome_none, Bool.false_eq_true, if_false]
      by_cases hid : ids 0 = id
      · cases o <;> simp [Write.accessAt, hid]
      · cases o <;> simp [Write.accessAt, hid, Ne.symm hid]

theorem synced_new (hr : s.subscriberAccess.get? id = none) (hids : Function.Injective ids) :
    (applyAll s (syncWrites subscriberId desired s ids)).subscriberAccess.get? id =
      (createdTable subscriberId (findAllAccessBySubscriber subscriberId s) desired.entries
        hids).get? id := by
  have hnew : ∀ record ∈ findAllAccessBySubscriber subscriberId s, record.1 ≠ id := by
    rintro ⟨id', r'⟩ hm rfl
    have := s.subscriberAccess.mem_entries.1 (List.mem_filter.1 hm).1
    rw [hr] at this
    cases this
  rw [applyAll_accessFold, syncWrites, accessFold_append, staleWrites_fold, hr]
  rw [any_eq_false hnew]
  exact repairWrites_fold_new hids hnew

end Rows
end Rovenue
