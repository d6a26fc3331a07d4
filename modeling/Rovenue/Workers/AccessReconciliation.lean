import Rovenue.Access.DirectRevoke

/-! The drift sweep compares the stored rows with what the purchases entitle to. Checker and
writer derive alike from one read, and the read has no order: a tie is settled by the read. -/

namespace Rovenue
open Txn

inductive DriftClass where
  | missingGrant | staleGrant | wrongExpiry | orphanRow
  deriving DecidableEq, Repr

def driftClasses : List DriftClass := [.missingGrant, .staleGrant, .wrongExpiry, .orphanRow]

def grantDrift (activeStored : List AccessRecord) (entry : String × DesiredAccess) :
    Option DriftClass :=
  match sourceRecord activeStored entry.1 entry.2.purchaseId with
  | none => some .missingGrant
  | some found => if found.2.expiresDate ≠ entry.2.expiresDate then some .wrongExpiry else none

def rowDrift (purchaseIds : List String) (desired : Table String DesiredAccess)
    (record : AccessRecord) : Option DriftClass :=
  if record.2.purchaseId ∉ purchaseIds then some .orphanRow
  else if isSource desired record.2 then none
  else some .staleGrant

def driftIn (purchases : List PurchaseWithAccessIds) (stored : List AccessRecord) (now : ℤ) :
    List DriftClass :=
  let desired := computeDesiredAccess purchases now
  let activeStored := stored.filter fun r => r.2.isActive
  let purchaseIds := purchases.map PurchaseWithAccessIds.id
  let classes := desired.entries.filterMap (grantDrift activeStored) ++
    activeStored.filterMap (rowDrift purchaseIds desired)
  driftClasses.filter (· ∈ classes)

def detectDrift (subscriberId : String) (now : ℤ) : Service (List DriftClass) := do
  let purchases ← Prog.query (findPurchasesWithAccessIds subscriberId)
  let stored ← Prog.query (findAllAccessBySubscriber subscriberId)
  return driftIn purchases stored now

/-- The same rows, the purchases in another order: the query has no `ORDER BY`. -/
structure Reorders (s s₁ : Db) : Prop where
  purchases : s₁.purchases.entries.Perm s.purchases.entries
  rest : s₁ = { s with purchases := s₁.purchases }

/-- At most one row of the subscriber for an entitlement and its source. -/
def OneRowPerSource (subscriberId : String) (s : Db) : Prop :=
  ∀ id id' r r', s.subscriberAccess.get? id = some r → s.subscriberAccess.get? id' = some r' →
    r.subscriberId = subscriberId → r'.subscriberId = subscriberId →
    r.accessId = r'.accessId → r.purchaseId = r'.purchaseId → id = id'

/-- In whatever order either reads the purchases, the sweep reports nothing exactly when a
sync at the same instant writes nothing. -/
def DriftAgrees (subscriberId : String) (clock : ℕ → ℤ) (ids : ℕ → String) (s : Db) : Prop :=
  ∀ s₁ s₂, Reorders s s₁ → Reorders s s₂ → ∀ classes c₁ c₂,
    (detectDrift subscriberId (clock 1)).Returns (.start s₁ clock ids) classes c₁ →
    (syncAccess subscriberId).Returns (.start s₂ clock ids) () c₂ →
    (classes = [] ↔ c₂.written = [])

/-- Right after a sync the sweep reports nothing. -/
def CleanAfterSync (subscriberId : String) (clock : ℕ → ℤ) (ids : ℕ → String) (s : Db) : Prop :=
  ∀ s₁, Reorders s s₁ → ∀ c, (syncAccess subscriberId).Returns (.start s₁ clock ids) () c →
    ∀ s₂, Reorders c.view s₂ → ∀ classes c₂,
      (detectDrift subscriberId (clock 1)).Returns (.start s₂ clock ids) classes c₂ → classes = []

/-- No two purchases last longest for one entitlement. -/
def SoleLongest (subscriberId : String) (now : ℤ) (s : Db) : Prop :=
  ∀ accessId, ∀ p ∈ entitling (findPurchasesWithAccessIds subscriberId s) accessId now,
    ∀ q ∈ entitling (findPurchasesWithAccessIds subscriberId s) accessId now,
      (∀ r ∈ entitling (findPurchasesWithAccessIds subscriberId s) accessId now,
        lifespan r.expiry ≤ lifespan p.expiry ∧ lifespan r.expiry ≤ lifespan q.expiry) →
      p.id = q.id

section Agreement
variable {subscriberId : String} {now : ℤ} {s s₁ s₂ : Db} {clock : ℕ → ℤ} {ids : ℕ → String}

theorem detectDrift_returns {c c' : Session Db Write String} {classes : List DriftClass} :
    (detectDrift subscriberId now).Returns c classes c' ↔
      driftIn (findPurchasesWithAccessIds subscriberId c.view)
        (findAllAccessBySubscriber subscriberId c.view) now = classes ∧ c = c' := by
  simp only [detectDrift, Prog.bind_eq, Prog.pure_eq, Prog.returns_bind, Prog.returns_query,
    Prog.returns_done]
  constructor
  · rintro ⟨_, _, ⟨rfl, rfl⟩, _, _, ⟨rfl, rfl⟩, rfl, rfl⟩
    exact ⟨rfl, rfl⟩
  · rintro ⟨rfl, rfl⟩
    exact ⟨_, _, ⟨rfl, rfl⟩, _, _, ⟨rfl, rfl⟩, rfl, rfl⟩

theorem driftIn_eq_nil_iff {purchases : List PurchaseWithAccessIds} {stored : List AccessRecord} :
    driftIn purchases stored now = [] ↔
      (∀ entry ∈ (computeDesiredAccess purchases now).entries,
        grantDrift (stored.filter fun r => r.2.isActive) entry = none) ∧
      ∀ record ∈ stored, record.2.isActive = true →
        rowDrift (purchases.map PurchaseWithAccessIds.id) (computeDesiredAccess purchases now)
          record = none := by
  have hall : ∀ cls : DriftClass, cls ∈ driftClasses := by
    intro cls
    cases cls <;> decide
  have hnil : ∀ classes : List DriftClass,
      driftClasses.filter (· ∈ classes) = [] ↔ classes = [] := by
    intro classes
    rw [List.filter_eq_nil_iff, List.eq_nil_iff_forall_not_mem]
    simp only [decide_eq_true_eq]
    exact ⟨fun h cls => h cls (hall cls), fun h cls _ => h cls⟩
  rw [driftIn, hnil, List.append_eq_nil_iff, List.filterMap_eq_nil_iff, List.filterMap_eq_nil_iff]
  simp only [List.mem_filter, and_imp]

theorem mem_current {id : String} {r : SubscriberAccess} :
    (id, r) ∈ findAllAccessBySubscriber subscriberId s ↔
      s.subscriberAccess.get? id = some r ∧ r.subscriberId = subscriberId := by
  rw [findAllAccessBySubscriber, List.mem_filter, Table.mem_entries, decide_eq_true_eq]

theorem OneRowPerSource.sourceRecord (hone : OneRowPerSource subscriberId s)
    {records : List AccessRecord}
    (hrecords : ∀ record ∈ records, record ∈ findAllAccessBySubscriber subscriberId s)
    {id : String} {r : SubscriberAccess} (hmem : (id, r) ∈ records) :
    sourceRecord records r.accessId r.purchaseId = some (id, r) := by
  cases hfound : Rovenue.sourceRecord records r.accessId r.purchaseId with
  | none =>
    rw [Rovenue.sourceRecord, List.find?_eq_none] at hfound
    exact absurd (decide_eq_true ⟨rfl, rfl⟩) (hfound _ hmem)
  | some found =>
    obtain ⟨id', r'⟩ := found
    obtain ⟨hfoundMem, hacc, hsource⟩ := sourceRecord_mem hfound
    obtain ⟨hget, hsub⟩ := mem_current.1 (hrecords _ hmem)
    obtain ⟨hget', hsub'⟩ := mem_current.1 (hrecords _ hfoundMem)
    have hid : id' = id := hone id' id r' r hget' hget hsub' hsub hacc hsource
    subst hid
    rw [Option.some.inj (hget.symm.trans hget')]

theorem isSource_iff {desired : Table String DesiredAccess} {r : SubscriberAccess} :
    isSource desired r = true ↔
      ∃ target, desired.get? r.accessId = some target ∧ r.purchaseId = target.purchaseId := by
  rw [isSource]
  cases desired.get? r.accessId <;> simp [eq_comm]

theorem synced_of_driftIn_eq_nil
    (h : driftIn (findPurchasesWithAccessIds subscriberId s)
      (findAllAccessBySubscriber subscriberId s) now = []) : Synced subscriberId now s := by
  obtain ⟨hgrants, hrows⟩ := driftIn_eq_nil_iff.1 h
  constructor
  · intro id r hget hsub hact
    have hrow := hrows (id, r) (mem_current.2 ⟨hget, hsub⟩) hact
    rw [rowDrift] at hrow
    split_ifs at hrow with horphan hsource
    exact isSource_iff.1 hsource
  · intro accessId target hd
    have hgrant := hgrants (accessId, target) ((Table.mem_entries _).2 hd)
    rw [grantDrift] at hgrant
    cases hfound : sourceRecord ((findAllAccessBySubscriber subscriberId s).filter
        fun r => r.2.isActive) accessId target.purchaseId with
    | none => simp [hfound] at hgrant
    | some found =>
      simp only [hfound] at hgrant
      split_ifs at hgrant with hexp
      obtain ⟨hmem, hacc, hsource⟩ := sourceRecord_mem hfound
      obtain ⟨hmem, hact⟩ := List.mem_filter.1 hmem
      obtain ⟨hget, hsub⟩ := mem_current.1 hmem
      exact ⟨found.1, found.2, hget, hsub, hacc, hsource, hact, not_not.1 hexp⟩

theorem driftIn_eq_nil_iff_synced (hone : OneRowPerSource subscriberId s) :
    driftIn (findPurchasesWithAccessIds subscriberId s)
      (findAllAccessBySubscriber subscriberId s) now = [] ↔ Synced subscriberId now s := by
  refine ⟨synced_of_driftIn_eq_nil, fun hsynced => driftIn_eq_nil_iff.2 ⟨?_, ?_⟩⟩
  · rintro ⟨accessId, target⟩ hentry
    have hd := (Table.mem_entries _).1 hentry
    obtain ⟨id, r, hget, hsub, hacc, hsource, hact, hexp⟩ := hsynced.row accessId target hd
    have hactive : (id, r) ∈ (findAllAccessBySubscriber subscriberId s).filter
        fun r => r.2.isActive := List.mem_filter.2 ⟨mem_current.2 ⟨hget, hsub⟩, hact⟩
    have hfound := hone.sourceRecord (fun record hrecord => (List.mem_filter.1 hrecord).1) hactive
    rw [hacc, hsource] at hfound
    rw [grantDrift, hfound]
    simp [hexp]
  · rintro ⟨id, r⟩ hrecord hact
    obtain ⟨hget, hsub⟩ := mem_current.1 hrecord
    obtain ⟨target, hd, hsource⟩ := hsynced.source id r hget hsub hact
    -- a source is one of the purchases read, so the row is no orphan
    have hmember : r.purchaseId ∈
        (findPurchasesWithAccessIds subscriberId s).map PurchaseWithAccessIds.id := by
      obtain ⟨q, hq, -, htarget⟩ := derived_source hd
      rw [hsource, ← htarget]
      exact List.mem_map.2 ⟨q, (mem_entitling.1 hq).1, rfl⟩
    have hkept : isSource (computeDesiredAccess (findPurchasesWithAccessIds subscriberId s) now)
        r = true := isSource_iff.2 ⟨target, hd, hsource⟩
    rw [rowDrift, if_neg (not_not.2 hmember), if_pos hkept]

theorem repairWrites_eq_nil_iff {current : List AccessRecord}
    {es : List (String × DesiredAccess)} :
    repairWrites subscriberId current es ids = [] ↔
      ∀ e ∈ es, ∃ existing, sourceRecord current e.1 e.2.purchaseId = some existing ∧
        existing.2.isActive = true ∧ existing.2.expiresDate = e.2.expiresDate := by
  induction es generalizing ids with
  | nil => simp [repairWrites]
  | cons e es ih =>
    rw [repairWrites, List.forall_mem_cons]
    cases hfound : sourceRecord current e.1 e.2.purchaseId with
    | none => simp
    | some existing =>
      have hrefresh : refreshWrites existing e.2 = [] ↔
          existing.2.isActive = true ∧ existing.2.expiresDate = e.2.expiresDate := by
        rw [refreshWrites]
        split_ifs with hneeds
        · have hstale : ¬(existing.2.isActive = true ∧
              existing.2.expiresDate = e.2.expiresDate) := by
            simpa [or_iff_not_imp_left] using hneeds
          simp [hstale]
        · have hfine : existing.2.isActive = true ∧
              existing.2.expiresDate = e.2.expiresDate := by
            simpa using hneeds
          simp [hfine]
      simp only [List.append_eq_nil_iff, hrefresh, ih]
      simp

theorem syncWrites_eq_nil_iff_synced (hone : OneRowPerSource subscriberId s) :
    syncWrites subscriberId (desiredAt subscriberId s now) s ids = [] ↔
      Synced subscriberId now s := by
  have hstale : ∀ record : AccessRecord,
      staleWrites (desiredAt subscriberId s now) record = [] ↔
        (record.2.isActive = true → isSource (desiredAt subscriberId s now) record.2 = true) := by
    intro record
    rw [staleWrites, stale]
    cases isSource (desiredAt subscriberId s now) record.2 <;> cases record.2.isActive <;> simp
  rw [syncWrites, List.append_eq_nil_iff, List.flatMap_eq_nil_iff, repairWrites_eq_nil_iff]
  constructor
  · rintro ⟨hrows, hgrants⟩
    constructor
    · intro id r hget hsub hact
      have hrow := (hstale (id, r)).1 (hrows (id, r) (mem_current.2 ⟨hget, hsub⟩)) hact
      exact isSource_iff.1 hrow
    · intro accessId target hd
      obtain ⟨existing, hfound, hact, hexp⟩ :=
        hgrants (accessId, target) ((Table.mem_entries _).2 hd)
      obtain ⟨hmem, hacc, hsource⟩ := sourceRecord_mem hfound
      obtain ⟨hget, hsub⟩ := mem_current.1 hmem
      exact ⟨existing.1, existing.2, hget, hsub, hacc, hsource, hact, hexp⟩
  · intro hsynced
    constructor
    · rintro ⟨id, r⟩ hrecord
      obtain ⟨hget, hsub⟩ := mem_current.1 hrecord
      exact (hstale (id, r)).2 fun hact => isSource_iff.2 (hsynced.source id r hget hsub hact)
    · rintro ⟨accessId, target⟩ hentry
      obtain ⟨id, r, hget, hsub, hacc, hsource, hact, hexp⟩ :=
        hsynced.row accessId target ((Table.mem_entries _).1 hentry)
      have hfound := hone.sourceRecord (fun record hrecord => hrecord)
        (mem_current.2 ⟨hget, hsub⟩)
      rw [hacc, hsource] at hfound
      exact ⟨(id, r), hfound, hact, hexp⟩

theorem Reorders.access (h : Reorders s s₁) : s₁.subscriberAccess = s.subscriberAccess := by
  rw [h.rest]

theorem Reorders.oneRowPerSource (h : Reorders s s₁) (hone : OneRowPerSource subscriberId s) :
    OneRowPerSource subscriberId s₁ := by
  unfold OneRowPerSource
  rw [h.access]
  exact hone

theorem Reorders.read (h : Reorders s s₁) :
    (findPurchasesWithAccessIds subscriberId s₁).Perm
      (findPurchasesWithAccessIds subscriberId s) := by
  have hproducts : s₁.products = s.products := by rw [h.rest]
  rw [findPurchasesWithAccessIds, findPurchasesWithAccessIds, hproducts]
  exact (h.purchases.filter _).filterMap _

theorem Reorders.mem_entitling (h : Reorders s s₁) {accessId : String}
    {q : PurchaseWithAccessIds} :
    q ∈ entitling (findPurchasesWithAccessIds subscriberId s₁) accessId now ↔
      q ∈ entitling (findPurchasesWithAccessIds subscriberId s) accessId now :=
  (h.read.filter _).mem_iff

theorem SoleLongest.source (hsole : SoleLongest subscriberId now s) (h₁ : Reorders s s₁)
    (h₂ : Reorders s s₂) {accessId : String} {target : DesiredAccess}
    (hd : (desiredAt subscriberId s₁ now).get? accessId = some target) :
    ∃ target', (desiredAt subscriberId s₂ now).get? accessId = some target' ∧
      target'.purchaseId = target.purchaseId ∧ target'.expiresDate = target.expiresDate := by
  have hlongest := source_lifespan hd
  obtain ⟨p, hp, -, hsource⟩ := derived_source hd
  have hp₂ := h₂.mem_entitling.2 (h₁.mem_entitling.1 hp)
  cases hd₂ : (desiredAt subscriberId s₂ now).get? accessId with
  | none => exact absurd hp₂ (computeDesiredAccess_eq_none_iff.1 hd₂ p)
  | some target' =>
    have hlongest' := source_lifespan hd₂
    obtain ⟨q, hq, -, hsource'⟩ := derived_source hd₂
    have hq₁ := h₁.mem_entitling.2 (h₂.mem_entitling.1 hq)
    have hid : q.id = p.id := by
      refine hsole accessId q (h₂.mem_entitling.1 hq) p (h₁.mem_entitling.1 hp) fun r hr => ?_
      have hle := hlongest r (h₁.mem_entitling.2 hr)
      have hle' := hlongest' r (h₂.mem_entitling.2 hr)
      rw [← hsource] at hle
      rw [← hsource'] at hle'
      exact ⟨hle', hle⟩
    have hexp : q.expiry = p.expiry := by
      have hle := hlongest q hq₁
      have hle' := hlongest' p hp₂
      rw [← hsource] at hle
      rw [← hsource'] at hle'
      exact lifespan_injective (le_antisymm hle hle')
    refine ⟨target', rfl, ?_, ?_⟩
    · rw [← hsource, ← hsource']
      exact hid
    · rw [← hsource, ← hsource']
      exact hexp

theorem SoleLongest.synced (hsole : SoleLongest subscriberId now s) (h₁ : Reorders s s₁)
    (h₂ : Reorders s s₂) (hsynced : Synced subscriberId now s₁) : Synced subscriberId now s₂ := by
  have hrows : s₂.subscriberAccess = s₁.subscriberAccess := h₂.access.trans h₁.access.symm
  constructor
  · intro id r hget hsub hact
    rw [hrows] at hget
    obtain ⟨target, hd, hsource⟩ := hsynced.source id r hget hsub hact
    obtain ⟨target', hd', hid, -⟩ := hsole.source h₁ h₂ hd
    exact ⟨target', hd', hsource.trans hid.symm⟩
  · intro accessId target hd
    obtain ⟨target', hd', hid, hexp⟩ := hsole.source h₂ h₁ hd
    obtain ⟨id, r, hget, hsub, hacc, hsource, hact, hexpires⟩ := hsynced.row accessId target' hd'
    rw [hrows]
    exact ⟨id, r, hget, hsub, hacc, hsource.trans hid, hact, hexpires.trans hexp⟩

theorem exists_reorder_source {accessId : String} {p : PurchaseWithAccessIds}
    (hp : p ∈ entitling (findPurchasesWithAccessIds subscriberId s) accessId now)
    (hlongest : ∀ r ∈ entitling (findPurchasesWithAccessIds subscriberId s) accessId now,
      lifespan r.expiry ≤ lifespan p.expiry) :
    ∃ s₁, Reorders s s₁ ∧ (desiredAt subscriberId s₁ now).get? accessId = some p.source := by
  obtain ⟨hread, hgrants⟩ := List.mem_filter.1 hp
  obtain ⟨e, he, hjoin⟩ := List.mem_filterMap.1 hread
  obtain ⟨he, hsub⟩ := List.mem_filter.1 he
  have hperm : (e :: s.purchases.entries.erase e).Perm s.purchases.entries :=
    (List.perm_cons_erase he).symm
  have hnodup : ((e :: s.purchases.entries.erase e).map Prod.fst).Nodup :=
    (hperm.map Prod.fst).nodup_iff.2 s.purchases.nodup
  have hreorders : Reorders s { s with purchases := ⟨_, hnodup⟩ } := ⟨hperm, rfl⟩
  refine ⟨_, hreorders, ?_⟩
  obtain ⟨rest, hfirst⟩ : ∃ rest,
      entitling (findPurchasesWithAccessIds subscriberId { s with purchases := ⟨_, hnodup⟩ })
        accessId now = p :: rest := by
    rw [entitling, findPurchasesWithAccessIds, withAccessIds, List.filter_cons, if_pos hsub]
    simp only [List.filterMap_cons, hjoin]
    rw [List.filter_cons, if_pos hgrants]
    exact ⟨_, rfl⟩
  have hleads : Leads [] rest p := by
    refine ⟨by simp, fun q hq => hlongest q (hreorders.mem_entitling.1 ?_)⟩
    rw [hfirst]
    exact List.mem_cons_of_mem _ hq
  have htop := topRanked_of_leads hleads
  rw [desiredAt, computeDesiredAccess_get?, hfirst]
  exact congrArg _ htop

theorem syncAccess_row {c : Session Db Write String} (hids : Function.Injective ids)
    (hfresh : ∀ n, s.subscriberAccess.get? (ids n) = none)
    (h : (syncAccess subscriberId).Returns (.start s clock ids) () c) {id : String}
    {r : SubscriberAccess} (hget : c.view.subscriberAccess.get? id = some r)
    (hsub : r.subscriberId = subscriberId) :
    (∃ old, (id, old) ∈ findAllAccessBySubscriber subscriberId s ∧
        r.accessId = old.accessId ∧ r.purchaseId = old.purchaseId) ∨
      (id, r) ∈ created subscriberId (findAllAccessBySubscriber subscriberId s)
        (desiredAt subscriberId s (clock 1)).entries ids := by
  rw [syncAccess_returns h] at hget
  simp only [Session.start_view, Session.start_clock, Session.start_ids] at hget
  cases hold : s.subscriberAccess.get? id with
  | none =>
    rw [synced_new hold hids] at hget
    exact .inr ((Table.mem_entries _).2 hget)
  | some old =>
    have hne : ∀ n, ids n ≠ id := by
      intro n hn
      have hnone := hfresh n
      rw [hn, hold] at hnone
      cases hnone
    by_cases howner : old.subscriberId = subscriberId
    · have hmem : (id, old) ∈ findAllAccessBySubscriber subscriberId s :=
        mem_current.2 ⟨hold, howner⟩
      rw [synced_of_mem hmem hne, Option.some.injEq] at hget
      refine .inl ⟨old, hmem, ?_⟩
      rw [← hget, syncedRow]
      cases (desiredAt subscriberId s (clock 1)).get? old.accessId with
      | none => exact ⟨rfl, rfl⟩
      | some target => dsimp only; split_ifs <;> exact ⟨rfl, rfl⟩
    · rw [synced_of_other hold howner hne, Option.some.injEq] at hget
      rw [← hget] at hsub
      exact absurd hsub howner

theorem oneRowPerSource_syncAccess {c : Session Db Write String} (hids : Function.Injective ids)
    (hfresh : ∀ n, s.subscriberAccess.get? (ids n) = none)
    (hone : OneRowPerSource subscriberId s)
    (h : (syncAccess subscriberId).Returns (.start s clock ids) () c) :
    OneRowPerSource subscriberId c.view := by
  have hapart : ∀ {id id' : String} {r' old : SubscriberAccess},
      (id, old) ∈ findAllAccessBySubscriber subscriberId s →
      (id', r') ∈ created subscriberId (findAllAccessBySubscriber subscriberId s)
        (desiredAt subscriberId s (clock 1)).entries ids →
      ¬(old.accessId = r'.accessId ∧ old.purchaseId = r'.purchaseId) := by
    rintro id id' r' old hold hnew ⟨hacc, hsource⟩
    obtain ⟨e, -, hnone, hrow⟩ := created_row hnew
    have hrow : r' = grantedRow subscriberId e := hrow
    have hfound := hone.sourceRecord (fun record hrecord => hrecord) hold
    rw [hacc, hsource, hrow] at hfound
    exact absurd (hfound.symm.trans hnone) (by simp)
  intro id id' r r' hget hget' hsub hsub' hacc hsource
  obtain ⟨old, hold, ha, hp⟩ | hnew := syncAccess_row hids hfresh h hget hsub
  · obtain ⟨old', hold', ha', hp'⟩ | hnew' := syncAccess_row hids hfresh h hget' hsub'
    · obtain ⟨hold, howner⟩ := mem_current.1 hold
      obtain ⟨hold', howner'⟩ := mem_current.1 hold'
      have hacc : old.accessId = old'.accessId := by rw [← ha, ← ha', hacc]
      have hsource : old.purchaseId = old'.purchaseId := by rw [← hp, ← hp', hsource]
      exact hone id id' old old' hold hold' howner howner' hacc hsource
    · exact absurd ⟨ha.symm.trans hacc, hp.symm.trans hsource⟩ (hapart hold hnew')
  · obtain ⟨old', hold', ha', hp'⟩ | hnew' := syncAccess_row hids hfresh h hget' hsub'
    · exact absurd ⟨ha'.symm.trans hacc.symm, hp'.symm.trans hsource.symm⟩ (hapart hold' hnew)
    · exact congrArg Prod.fst (created_injective (Table.nodup _) hnew hnew' hacc)

theorem driftAgrees_of_soleLongest (hone : OneRowPerSource subscriberId s)
    (hsole : SoleLongest subscriberId (clock 1) s) : DriftAgrees subscriberId clock ids s := by
  intro s₁ s₂ h₁ h₂ classes c₁ c₂ hdetect hsync
  obtain ⟨rfl, -⟩ := detectDrift_returns.1 hdetect
  have hwritten := (syncAccess_session hsync).2
  simp only [Session.start_view, Session.start_clock, Session.start_ids, Session.start_written,
    List.nil_append] at hwritten
  rw [hwritten, syncWrites_eq_nil_iff_synced (h₂.oneRowPerSource hone), Session.start_view,
    driftIn_eq_nil_iff_synced (h₁.oneRowPerSource hone)]
  exact ⟨hsole.synced h₁ h₂, hsole.synced h₂ h₁⟩

theorem syncAccess_read {c : Session Db Write String}
    (h : (syncAccess subscriberId).Returns (.start s clock ids) () c) :
    findPurchasesWithAccessIds subscriberId c.view = findPurchasesWithAccessIds subscriberId s := by
  have hkeeps := syncAccess_keeps h
  rw [Session.start_view] at hkeeps
  rw [findPurchasesWithAccessIds, findPurchasesWithAccessIds, hkeeps.1, hkeeps.2]

theorem soleLongest_congr (hread : (findPurchasesWithAccessIds subscriberId s₁).Perm
      (findPurchasesWithAccessIds subscriberId s)) (hsole : SoleLongest subscriberId now s) :
    SoleLongest subscriberId now s₁ := by
  have hmem : ∀ accessId q, q ∈ entitling (findPurchasesWithAccessIds subscriberId s₁) accessId now ↔
      q ∈ entitling (findPurchasesWithAccessIds subscriberId s) accessId now :=
    fun accessId q => (hread.filter _).mem_iff
  intro accessId p hp q hq hlongest
  refine hsole accessId p ((hmem accessId p).1 hp) q ((hmem accessId q).1 hq) fun r hr => ?_
  exact hlongest r ((hmem accessId r).2 hr)

theorem cleanAfterSync_of_soleLongest (hids : Function.Injective ids)
    (hfresh : ∀ n, s.subscriberAccess.get? (ids n) = none)
    (hone : OneRowPerSource subscriberId s)
    (hsole : SoleLongest subscriberId (clock 1) s) : CleanAfterSync subscriberId clock ids s := by
  intro s₁ h₁ c hsync s₂ h₂ classes c₂ hdetect
  obtain ⟨rfl, -⟩ := detectDrift_returns.1 hdetect
  have hfresh₁ : ∀ n, s₁.subscriberAccess.get? (ids n) = none := by rw [h₁.access]; exact hfresh
  have hsynced := synced_syncAccess hids hfresh₁ hsync
  have hone₁ := oneRowPerSource_syncAccess hids hfresh₁ (h₁.oneRowPerSource hone) hsync
  have hread : (findPurchasesWithAccessIds subscriberId c.view).Perm
      (findPurchasesWithAccessIds subscriberId s) := by
    rw [syncAccess_read hsync]
    exact h₁.read
  have hsame : Reorders c.view c.view := ⟨.refl _, rfl⟩
  rw [Session.start_view, driftIn_eq_nil_iff_synced (h₂.oneRowPerSource hone₁)]
  exact (soleLongest_congr hread hsole).synced hsame h₂ hsynced

theorem soleLongest_of_cleanAfterSync (hids : Function.Injective ids)
    (hfresh : ∀ n, s.subscriberAccess.get? (ids n) = none)
    (hclean : CleanAfterSync subscriberId clock ids s) :
    SoleLongest subscriberId (clock 1) s := by
  intro accessId p hp q hq hlongest
  -- a sync that reads `p` first, and a sweep that reads `q` first
  obtain ⟨s₁, h₁, hd₁⟩ := exists_reorder_source hp fun r hr => (hlongest r hr).1
  obtain ⟨c, hsync⟩ := syncAccess_total subscriberId (.start s₁ clock ids)
  have hfresh₁ : ∀ n, s₁.subscriberAccess.get? (ids n) = none := by rw [h₁.access]; exact hfresh
  have hsynced := synced_syncAccess hids hfresh₁ hsync
  have hread := syncAccess_read hsync
  have hentitling : ∀ r, r ∈ entitling (findPurchasesWithAccessIds subscriberId c.view) accessId
      (clock 1) ↔ r ∈ entitling (findPurchasesWithAccessIds subscriberId s) accessId (clock 1) := by
    intro r
    rw [hread]
    exact h₁.mem_entitling
  obtain ⟨s₂, h₂, hd₂⟩ := exists_reorder_source ((hentitling q).2 hq)
    fun r hr => (hlongest r ((hentitling r).1 hr)).2
  have hdetect : (detectDrift subscriberId (clock 1)).Returns (.start s₂ clock ids)
      (driftIn (findPurchasesWithAccessIds subscriberId s₂)
        (findAllAccessBySubscriber subscriberId s₂) (clock 1)) (.start s₂ clock ids) :=
    detectDrift_returns.2 ⟨rfl, rfl⟩
  have hnil := hclean s₁ h₁ c hsync s₂ h₂ _ _ hdetect
  have hsynced₂ : Synced subscriberId (clock 1) s₂ := synced_of_driftIn_eq_nil hnil
  obtain ⟨id, r, hget, hsub, hacc, hsource, hact, -⟩ := hsynced₂.row accessId q.source hd₂
  rw [h₂.access] at hget
  obtain ⟨target, hd, htarget⟩ := hsynced.source id r hget hsub hact
  rw [desiredAt, hread, ← desiredAt, hacc, hd₁, Option.some.injEq] at hd
  rw [← hd] at htarget
  exact htarget.symm.trans hsource

/-- The sweep and the sync agree, and the sweep is quiet after a sync, whatever the orders they
read the purchases in, exactly when no entitlement has two longest-lasting purchases. -/
theorem driftAgrees_iff_soleLongest (hids : Function.Injective ids)
    (hfresh : ∀ n, s.subscriberAccess.get? (ids n) = none)
    (hone : OneRowPerSource subscriberId s) :
    DriftAgrees subscriberId clock ids s ∧ CleanAfterSync subscriberId clock ids s ↔
      SoleLongest subscriberId (clock 1) s := by
  constructor
  · rintro ⟨-, hclean⟩
    exact soleLongest_of_cleanAfterSync hids hfresh hclean
  · intro hsole
    exact ⟨driftAgrees_of_soleLongest hone hsole,
      cleanAfterSync_of_soleLongest hids hfresh hone hsole⟩

end Agreement

def lifetimeProducts : Table String Product :=
  ⟨[("prod", { projectId := "p1", identifier := "lifetime", accessIds := ["pro"] })], by decide⟩

def appStoreLifetime : PurchaseKey × Purchase :=
  ({ store := .appStore, storeTransactionId := "t1" },
    { id := "pu1", projectId := "p1", subscriberId := "s1", productId := "prod"
      originalTransactionId := "t1", status := .active })

def stripeLifetime : PurchaseKey × Purchase :=
  ({ store := .stripe, storeTransactionId := "ch_1" },
    { id := "pu2", projectId := "p1", subscriberId := "s1", productId := "prod"
      originalTransactionId := "ch_1", status := .active })

def lifetimeAccess : Table String SubscriberAccess :=
  ⟨[("a1", { subscriberId := "s1", purchaseId := "pu1", accessId := "pro", expiresDate := none
             store := .appStore })], by decide⟩

def lifetimeDb : Db where
  products := lifetimeProducts
  purchases := ⟨[appStoreLifetime, stripeLifetime], by decide⟩
  subscriberAccess := lifetimeAccess

def lifetimeReversed : Db where
  products := lifetimeProducts
  purchases := ⟨[stripeLifetime, appStoreLifetime], by decide⟩
  subscriberAccess := lifetimeAccess

theorem reorders_lifetime : Reorders lifetimeDb lifetimeReversed :=
  ⟨List.Perm.swap _ _ _, rfl⟩

theorem lifetime_id {id : String} {r : SubscriberAccess}
    (h : lifetimeDb.subscriberAccess.get? id = some r) : id = "a1" := by
  have hid : id ∈ lifetimeDb.subscriberAccess.entries.map Prod.fst :=
    List.mem_map_of_mem ((Table.mem_entries _).2 h)
  simpa [lifetimeDb, lifetimeAccess] using hid

theorem oneRowPerSource_lifetime : OneRowPerSource "s1" lifetimeDb := by
  intro id id' r r' hget hget' _ _ _ _
  exact (lifetime_id hget).trans (lifetime_id hget').symm

theorem freshIds_lifetime (n : ℕ) : lifetimeDb.subscriberAccess.get? (freshIds n) = none := by
  cases h : lifetimeDb.subscriberAccess.get? (freshIds n) with
  | none => rfl
  | some r =>
    have hid := congrArg String.toList (lifetime_id h)
    simp [freshIds, List.replicate_succ] at hid

theorem lifetime_drifts :
    (∃ c₁ c₂, (syncAccess "s1").Returns (.start lifetimeDb (fun _ => 10) freshIds) () c₂ ∧
      c₂.written = [] ∧
      (detectDrift "s1" 10).Returns (.start lifetimeReversed (fun _ => 10) freshIds)
        [.missingGrant, .staleGrant] c₁) ∧
      OneRowPerSource "s1" lifetimeDb ∧ Reorders lifetimeDb lifetimeReversed ∧
      ¬DriftAgrees "s1" (fun _ => 10) freshIds lifetimeDb := by
  refine ⟨⟨_, _, rfl, rfl, rfl⟩, oneRowPerSource_lifetime, reorders_lifetime, fun hagrees => ?_⟩
  have hsame : Reorders lifetimeDb lifetimeDb := ⟨.refl _, rfl⟩
  have hnone := (hagrees lifetimeReversed lifetimeDb reorders_lifetime hsame
    [.missingGrant, .staleGrant] _ _ rfl rfl).2 rfl
  exact absurd hnone (by decide)

theorem driftAgrees_iff_soleLongest_lifetime :
    DriftAgrees "s1" (fun _ => 10) freshIds lifetimeDb ∧
        CleanAfterSync "s1" (fun _ => 10) freshIds lifetimeDb ↔ SoleLongest "s1" 10 lifetimeDb :=
  driftAgrees_iff_soleLongest freshIds_injective freshIds_lifetime oneRowPerSource_lifetime

end Rovenue
