import Rovenue.Purchases.TransitionGuard

/-! What a run does to the status column. A plan says which status each row gets
and the event time stamped with it; a run follows a plan when its writes do just
that. Plans are read off the state before the run. -/

namespace Rovenue
open Txn

abbrev Standing := PurchaseStatus × Option ℤ

def Purchase.standing (r : Purchase) : Standing := (r.status, r.lastStoreEventAt)

def standingAt (s : Db) (key : PurchaseKey) : Option Standing :=
  (s.purchases.get? key).map Purchase.standing

structure StatusWrite where
  status : PurchaseStatus
  eventTime : Option ℤ

def StatusWrite.on (plan : Option StatusWrite) (o : Option Standing) : Option Standing :=
  match plan with
  | none => o
  | some w => some (w.status, w.eventTime.or (o.bind Prod.snd))

def StatusWrite.andThen : Option StatusWrite → Option StatusWrite → Option StatusWrite
  | first, none => first
  | none, second => second
  | some first, some second => some ⟨second.status, second.eventTime.or first.eventTime⟩

@[simp] theorem StatusWrite.andThen_none (plan : Option StatusWrite) :
    StatusWrite.andThen plan none = plan := by cases plan <;> rfl

@[simp] theorem StatusWrite.none_andThen (plan : Option StatusWrite) :
    StatusWrite.andThen none plan = plan := by cases plan <;> rfl

theorem StatusWrite.on_andThen (first second : Option StatusWrite) (o : Option Standing) :
    StatusWrite.on (StatusWrite.andThen first second) o =
      StatusWrite.on second (StatusWrite.on first o) := by
  cases first <;> cases second <;> simp [StatusWrite.on, StatusWrite.andThen, Option.or_assoc]

theorem StatusWrite.isSome_andThen (first second : Option StatusWrite) :
    (StatusWrite.andThen first second).isSome = (first.isSome || second.isSome) := by
  cases first <;> cases second <;> rfl

def StatusGuard.passes (g : StatusGuard) (status : PurchaseStatus) (r : Purchase) : Bool :=
  match g with
  | .unguarded => true
  | .caseTerminal => r.status ∉ repoTerminalStatuses || status = r.status
  | .notTerminal => r.status ∉ repoTerminalStatuses
  | .whenStatus s => r.status = s

def Write.purchaseAt (key : PurchaseKey) : Write → Option Purchase → Option Purchase
  | .insertPurchase key' row, o => if key = key' then some (o.getD row) else o
  | .updatePurchase key' guard set, o => if key = key' then o.map (guard.patch set) else o
  | _, o => o

def Write.setsStatus (key : PurchaseKey) : Write → Option Purchase → Bool
  -- whether the write sets the status of the row under `key`, now `o`
  | .insertPurchase key' _, o => key = key' && o.isNone
  | .updatePurchase key' guard set, o =>
    key = key' && set.status.any fun status => o.any (guard.passes status)
  | _, _ => false

def setsStatus (key : PurchaseKey) : List Write → Option Purchase → Bool
  | [], _ => false
  | w :: ws, o => w.setsStatus key o || setsStatus key ws (w.purchaseAt key o)

theorem write_purchaseAt (s : Db) (w : Write) (key : PurchaseKey) :
    (s.write w).purchases.get? key = w.purchaseAt key (s.purchases.get? key) := by
  cases w with
  | insertPurchase key' row =>
    simp only [Db.write, Table.get?_insert, Write.purchaseAt]
    split_ifs with h
    · rw [h]
    · rfl
  | updatePurchase key' guard set => simp only [Db.write, Table.get?_modify, Write.purchaseAt]
  | _ => rfl

theorem setsStatus_append (key : PurchaseKey) (ws vs : List Write) (s : Db) :
    setsStatus key (ws ++ vs) (s.purchases.get? key) =
      (setsStatus key ws (s.purchases.get? key) ||
        setsStatus key vs ((applyAll s ws).purchases.get? key)) := by
  induction ws generalizing s with
  | nil => simp [setsStatus]
  | cons w ws ih =>
    rw [List.cons_append, setsStatus, setsStatus, ← write_purchaseAt, ih, applyAll_cons,
      apply_eq, Bool.or_assoc]

theorem setsStatus_of_not_onPurchases {key : PurchaseKey} {ws : List Write}
    (h : ∀ w ∈ ws, ¬w.OnPurchases) (o : Option Purchase) : setsStatus key ws o = false := by
  induction ws generalizing o with
  | nil => rfl
  | cons w ws ih =>
    have hw := h w (by simp)
    rw [setsStatus, ih fun v hv => h v (by simp [hv])]
    cases w <;> simp_all [Write.OnPurchases, Write.setsStatus]

/-- An update that keeps a column of every row it may meet. -/
def Write.Keeps {β : Type} (f : Purchase → β) : Write → Prop
  | .insertPurchase .. => False
  | .updatePurchase _ guard set => ∀ r, f (guard.patch set r) = f r
  | _ => True

theorem get?_of_keeps {β : Type} {f : Purchase → β} {α : Type} {p : Service α}
    (hp : p.Each fun _ ws => ∀ w ∈ ws, w.Keeps f) {c c' : Session Db Write String} {a : α}
    (h : p.Returns c a c') (key : PurchaseKey) :
    (c'.view.purchases.get? key).map f = (c.view.purchases.get? key).map f := by
  refine Prog.Each.returns (R := fun s s' : Db =>
      (s'.purchases.get? key).map f = (s.purchases.get? key).map f) (fun _ => rfl)
    (fun h g => g.trans h) (fun s ws hws => ?_) hp h
  refine applyAll_induct (R := fun s s' : Db =>
      (s'.purchases.get? key).map f = (s.purchases.get? key).map f) (fun _ => rfl)
    (fun h g => g.trans h) (fun w hw s => ?_) s
  have hkeeps := hws w hw
  rw [apply_eq, write_purchaseAt]
  cases w with
  | insertPurchase key' row => exact hkeeps.elim
  | updatePurchase key' g set =>
    simp only [Write.purchaseAt]
    split_ifs
    · rw [Option.map_map]
      exact Option.map_congr fun r _ => hkeeps r
    · rfl
  | _ => rfl

structure Follows (plan : PurchaseKey → Option StatusWrite) (c c' : Session Db Write String) :
    Prop where
  writes : ∃ ws, c'.written = c.written ++ ws ∧ c'.view = applyAll c.view ws ∧
    ∀ key, setsStatus key ws (c.view.purchases.get? key) = (plan key).isSome
  standing : ∀ key, standingAt c'.view key = StatusWrite.on (plan key) (standingAt c.view key)

section Follows
variable {plan plan' : PurchaseKey → Option StatusWrite} {c c₁ c' : Session Db Write String}

theorem Follows.andThen (h : Follows plan c c₁) (h' : Follows plan' c₁ c') :
    Follows (fun key => StatusWrite.andThen (plan key) (plan' key)) c c' := by
  obtain ⟨ws, hw, hv, hs⟩ := h.writes
  obtain ⟨vs, hw', hv', hs'⟩ := h'.writes
  refine ⟨⟨ws ++ vs, ?_, ?_, fun key => ?_⟩, fun key => ?_⟩
  · rw [hw', hw, List.append_assoc]
  · rw [hv', hv, applyAll_append]
  · rw [setsStatus_append, hs, ← hv, hs', StatusWrite.isSome_andThen]
  · rw [h'.standing, h.standing, StatusWrite.on_andThen]

theorem Follows.congr (h : Follows plan c c') (hp : ∀ key, plan' key = plan key) :
    Follows plan' c c' := by
  obtain rfl : plan' = plan := funext hp
  exact h

theorem Follows.start {d : Session Db Write String} (h : Follows plan d c')
    (hview : d.view = c.view) (hwritten : d.written = c.written) : Follows plan c c' := by
  obtain ⟨⟨ws, hw, hv, hs⟩, hstanding⟩ := h
  rw [hview] at hs hv hstanding
  rw [hwritten] at hw
  exact ⟨⟨ws, hw, hv, hs⟩, hstanding⟩

theorem Follows.refl (c : Session Db Write String) : Follows (fun _ => none) c c :=
  ⟨⟨[], by simp, rfl, fun _ => rfl⟩, fun _ => rfl⟩

theorem follows_of_each {α : Type} {p : Service α} {a : α}
    (hp : p.Each fun _ ws => ∀ w ∈ ws, ¬w.OnPurchases) (h : p.Returns c a c') :
    Follows (fun _ => none) c c' := by
  obtain ⟨ws, hw, hv, hnone⟩ := hp.written h
  refine ⟨⟨ws, hw, hv, fun key => setsStatus_of_not_onPurchases hnone _⟩, fun key => ?_⟩
  rw [hv, standingAt, applyAll_purchases _ _ hnone]
  rfl

theorem follows_write {c : Session Db Write String} {ws : List Write}
    (hsets : ∀ key, setsStatus key ws (c.view.purchases.get? key) = (plan key).isSome)
    (hstanding : ∀ key, standingAt (applyAll c.view ws) key =
      StatusWrite.on (plan key) (standingAt c.view key)) : Follows plan c (c.write ws) :=
  ⟨⟨ws, rfl, rfl, hsets⟩, hstanding⟩

end Follows

def GuardStatusWriteArgs.plan (args : GuardStatusWriteArgs) (o : Option Standing) :
    Option StatusWrite :=
  o.bind fun row =>
    if !(args.eventTime.any fun t => row.2.any (t < ·)) &&
        (validateTransition row.1 args.toStatus || row.1 ∈ args.allowFrom) then
      some ⟨args.toStatus, args.eventTime⟩
    else none

def GuardStatusWriteArgs.upsertPlan (args : GuardStatusWriteArgs) (o : Option Standing) :
    Option StatusWrite :=
  if o.isNone then some ⟨args.toStatus, args.eventTime⟩ else args.plan o

def onlyRow (key : PurchaseKey) (plan : Option StatusWrite) (k : PurchaseKey) :
    Option StatusWrite := if k = key then plan else none

namespace GuardStatusWriteArgs
variable {args : GuardStatusWriteArgs}

theorem plan_some (r : Purchase) : args.plan (some r.standing) =
    if args.admits (some r) then some ⟨args.toStatus, args.eventTime⟩ else none := rfl

theorem plan_again (o : Option Standing) :
    StatusWrite.andThen (args.plan o) (args.plan (StatusWrite.on (args.plan o) o)) =
      args.plan o := by
  cases o with
  | none => rfl
  | some row =>
    cases hp : args.plan (some row) with
    | none => simp [StatusWrite.on, hp]
    | some w =>
      simp only [plan, Option.bind_some, Option.ite_none_right_eq_some, Option.some.injEq] at hp
      obtain ⟨-, rfl⟩ := hp
      cases ht : args.eventTime <;>
        simp [plan, StatusWrite.on, StatusWrite.andThen, ht]

end GuardStatusWriteArgs

section Guarded
variable {args : GuardStatusWriteArgs} {patch : PurchasePatch} {c : Session Db Write String}

theorem standing_apply {r : Purchase} {status : PurchaseStatus} {t : Option ℤ}
    (hs : patch.status = some status) (ht : patch.lastStoreEventAt = t.map some) :
    (patch.apply r).standing = (status, t.or r.lastStoreEventAt) := by
  cases t <;> simp [Purchase.standing, PurchasePatch.apply, hs, ht]

theorem get?_write_of_ne {key k : PurchaseKey} {g : StatusGuard} (h : k ≠ key) (s : Db) :
    (applyAll s [.updatePurchase key g patch]).purchases.get? k = s.purchases.get? k := by
  rw [applyAll_cons, applyAll_nil, apply_eq, write_purchaseAt, Write.purchaseAt, if_neg h]

theorem follows_silent (key : PurchaseKey) (g : StatusGuard) (hs : patch.status = none)
    (ht : patch.lastStoreEventAt = none) :
    Follows (fun _ => none) c (c.write [.updatePurchase key g patch]) := by
  refine follows_write (fun k => by simp [setsStatus, Write.setsStatus, hs]) fun k => ?_
  rw [StatusWrite.on, standingAt, applyAll_cons, applyAll_nil, apply_eq, write_purchaseAt,
    Write.purchaseAt, standingAt]
  split_ifs with hk
  · rw [Option.map_map]
    refine Option.map_congr fun r _ => ?_
    obtain hg | hg | hg := g.patch_cases patch r <;>
      simp [hg, Purchase.standing, PurchasePatch.apply, hs, ht]
  · rfl

theorem follows_guarded {g : StatusGuard}
    (hg : g = .unguarded ∨ g = .caseTerminal ∧ args.allowFrom = [])
    (hs : patch.status = some args.toStatus)
    (ht : patch.lastStoreEventAt = args.eventTime.map some)
    (hadmits : args.admits (c.view.purchases.get? args.key) = true) :
    Follows (onlyRow args.key (args.plan (standingAt c.view args.key))) c
      (c.write [.updatePurchase args.key g patch]) := by
  have hpass : ∀ r, args.admits (some r) = true → g.passes args.toStatus r = true ∧
      g.patch patch r = patch.apply r := by
    intro r hr
    obtain rfl | ⟨rfl, hallow⟩ := hg
    · exact ⟨rfl, rfl⟩
    · have hedge : validateTransition r.status args.toStatus = true := by
        simpa [hallow] using admits_status hr
      by_cases hr : r.status ∈ repoTerminalStatuses
      · have hsame := validateTransition_terminal (mem_repoTerminalStatuses.1 hr) hedge
        refine ⟨by simp [StatusGuard.passes, hsame], ?_⟩
        rw [StatusGuard.patch, if_pos hr]
        simp [PurchasePatch.apply, hs, hsame]
      · exact ⟨by simp [StatusGuard.passes, hr], if_neg hr⟩
  have hplan : args.plan (standingAt c.view args.key) =
      (c.view.purchases.get? args.key).map fun _ => ⟨args.toStatus, args.eventTime⟩ := by
    rw [standingAt]
    cases hget : c.view.purchases.get? args.key with
    | none => rfl
    | some r => rw [Option.map_some, args.plan_some, if_pos (hget ▸ hadmits), Option.map_some]
  refine follows_write (fun k => ?_) fun k => ?_
  · rw [onlyRow, setsStatus, setsStatus, Bool.or_false, Write.setsStatus, hs]
    by_cases hk : k = args.key
    · subst hk
      rw [if_pos rfl, hplan]
      cases hget : c.view.purchases.get? args.key with
      | none => simp
      | some r => simp [(hpass r (hget ▸ hadmits)).1]
    · simp [hk]
  · rw [onlyRow]
    by_cases hk : k = args.key
    · subst hk
      rw [if_pos rfl, hplan, standingAt, applyAll_cons, applyAll_nil, apply_eq, write_purchaseAt,
        Write.purchaseAt, if_pos rfl, standingAt]
      cases hget : c.view.purchases.get? args.key with
      | none => rfl
      | some r =>
        rw [Option.map_some, Option.map_some, (hpass r (hget ▸ hadmits)).2,
          standing_apply hs ht]
        rfl
    · rw [if_neg hk, standingAt, get?_write_of_ne hk]
      rfl

theorem withheld_plan {s : Db} {key : PurchaseKey}
    (h : args.admits (s.purchases.get? key) = false) : args.plan (standingAt s key) = none := by
  rw [standingAt]
  cases hget : s.purchases.get? key with
  | none => rfl
  | some r => rw [Option.map_some, args.plan_some, if_neg (by simp [← hget, h])]

theorem onlyRow_none (key k : PurchaseKey) : onlyRow key none k = none := by simp [onlyRow]

theorem follows_upsert {create : Purchase} (hallow : args.allowFrom = [])
    (hcreate : create.standing = (args.toStatus, args.eventTime))
    (hs : patch.status =
      if args.admits (c.view.purchases.get? args.key) then some args.toStatus else none)
    (ht : patch.lastStoreEventAt =
      if args.admits (c.view.purchases.get? args.key) then args.eventTime.map some else none) :
    Follows (onlyRow args.key (args.upsertPlan (standingAt c.view args.key))) c
      (c.write (upsertWrites args.key create patch c.view)) := by
  unfold upsertWrites
  cases hget : c.view.purchases.get? args.key with
  | none =>
    have hplan : args.upsertPlan (standingAt c.view args.key) =
        some ⟨args.toStatus, args.eventTime⟩ := by
      rw [standingAt, hget]
      rfl
    refine follows_write (fun k => ?_) fun k => ?_
    · rw [hplan, onlyRow, setsStatus, setsStatus, Bool.or_false, Write.setsStatus]
      by_cases hk : k = args.key
      · simp [hk, hget]
      · simp [hk]
    · rw [hplan, onlyRow, standingAt, applyAll_cons, applyAll_nil, apply_eq, write_purchaseAt,
        Write.purchaseAt]
      by_cases hk : k = args.key
      · simp [hk, hget, hcreate, standingAt, StatusWrite.on]
      · simp [hk, standingAt, StatusWrite.on]
  | some r =>
    have hplan : args.upsertPlan (standingAt c.view args.key) =
        args.plan (standingAt c.view args.key) := by
      rw [GuardStatusWriteArgs.upsertPlan, if_neg (by simp [standingAt, hget])]
    rw [hplan]
    cases hadmits : args.admits (c.view.purchases.get? args.key) with
    | true =>
      rw [hadmits, if_pos rfl] at hs ht
      exact follows_guarded (.inr ⟨rfl, hallow⟩) hs ht hadmits
    | false =>
      rw [hadmits, if_neg (by simp)] at hs ht
      refine (follows_silent _ _ hs ht).congr fun k => ?_
      rw [withheld_plan hadmits, onlyRow_none]

def swapPlan (expected new : PurchaseStatus) (o : Option Standing) : Option StatusWrite :=
  o.bind fun row => if row.1 = expected then some ⟨new, none⟩ else none

theorem follows_swap (key : PurchaseKey) (expected new : PurchaseStatus) :
    Follows (onlyRow key (swapPlan expected new (standingAt c.view key))) c
      (c.write [.updatePurchase key (.whenStatus expected) { status := some new }]) := by
  refine follows_write (fun k => ?_) fun k => ?_ <;> rw [onlyRow]
  · rw [setsStatus, setsStatus, Bool.or_false, Write.setsStatus]
    by_cases hk : k = key
    · subst hk
      cases hget : c.view.purchases.get? k with
      | none => simp [standingAt, hget, swapPlan]
      | some r =>
        by_cases hr : r.status = expected <;>
          simp [standingAt, hget, swapPlan, StatusGuard.passes, Purchase.standing, hr]
    · simp [hk]
  · by_cases hk : k = key
    · subst hk
      rw [if_pos rfl, standingAt, applyAll_cons, applyAll_nil, apply_eq, write_purchaseAt,
        Write.purchaseAt, if_pos rfl, standingAt]
      cases hget : c.view.purchases.get? k with
      | none => rfl
      | some r =>
        by_cases hr : r.status = expected <;>
          simp [swapPlan, StatusWrite.on, StatusGuard.patch, PurchasePatch.apply,
            Purchase.standing, hr]
    · rw [if_neg hk, standingAt, get?_write_of_ne hk]
      rfl

def updatesOf (keys : List PurchaseKey) (g : StatusGuard) (set : PurchasePatch) : List Write :=
  keys.map fun key => .updatePurchase key g set

theorem get?_updatesOf {keys : List PurchaseKey} (hkeys : keys.Nodup) (g : StatusGuard) (s : Db)
    (key : PurchaseKey) : (applyAll s (updatesOf keys g patch)).purchases.get? key =
      if key ∈ keys then (s.purchases.get? key).map (g.patch patch) else s.purchases.get? key := by
  induction keys generalizing s with
  | nil => simp [updatesOf]
  | cons k ks ih =>
    obtain ⟨hk, hks⟩ := List.nodup_cons.1 hkeys
    rw [updatesOf, List.map_cons, applyAll_cons, ← updatesOf, ih hks, apply_eq, write_purchaseAt,
      Write.purchaseAt]
    by_cases hkey : key = k
    · simp [hkey, hk]
    · simp [hkey]

theorem setsStatus_updatesOf {keys : List PurchaseKey} (hkeys : keys.Nodup) (g : StatusGuard)
    (key : PurchaseKey) (o : Option Purchase) : setsStatus key (updatesOf keys g patch) o =
      (decide (key ∈ keys) && patch.status.any fun status => o.any (g.passes status)) := by
  induction keys generalizing o with
  | nil => simp [updatesOf, setsStatus]
  | cons k ks ih =>
    obtain ⟨hk, hks⟩ := List.nodup_cons.1 hkeys
    rw [updatesOf, List.map_cons, setsStatus, ← updatesOf, ih hks, Write.setsStatus,
      Write.purchaseAt]
    by_cases hkey : key = k
    · simp [hkey, hk]
    · simp [hkey]

theorem mem_purchasesWhere_keys {p : PurchaseRecord → Bool} {s : Db} {key : PurchaseKey} :
    key ∈ (purchasesWhere p s).map Prod.fst ↔
      ∃ r, s.purchases.get? key = some r ∧ p (key, r) = true := by
  simp only [purchasesWhere, List.mem_map, List.mem_filter]
  constructor
  · rintro ⟨⟨_, r⟩, ⟨hm, hp⟩, rfl⟩
    exact ⟨r, s.purchases.mem_entries.1 hm, hp⟩
  · rintro ⟨r, hr, hp⟩
    exact ⟨(key, r), ⟨s.purchases.mem_entries.2 hr, hp⟩, rfl⟩

theorem purchasesWhere_keys_nodup (p : PurchaseRecord → Bool) (s : Db) :
    ((purchasesWhere p s).map Prod.fst).Nodup :=
  s.purchases.nodup.sublist (List.filter_sublist.map _)

theorem mem_openChainKeys {projectId originalTransactionId : String} {s : Db} {key : PurchaseKey} :
    key ∈ openChainKeys projectId originalTransactionId s ↔
      ∃ r, s.purchases.get? key = some r ∧ inChain projectId originalTransactionId (key, r) = true ∧
        r.status ∉ repoTerminalStatuses := by
  simp [openChainKeys, mem_purchasesWhere_keys]

theorem openChainKeys_nodup (projectId originalTransactionId : String) (s : Db) :
    (openChainKeys projectId originalTransactionId s).Nodup := purchasesWhere_keys_nodup _ s

theorem follows_chain (projectId originalTransactionId : String) {status : PurchaseStatus}
    (hs : patch.status = some status) (ht : patch.lastStoreEventAt = none) :
    Follows (fun key =>
        if key ∈ openChainKeys projectId originalTransactionId c.view then some ⟨status, none⟩
        else none) c
      (c.write (updatesOf (openChainKeys projectId originalTransactionId c.view) .notTerminal
        patch)) := by
  have hnodup := openChainKeys_nodup projectId originalTransactionId c.view
  refine follows_write (fun key => ?_) fun key => ?_
  · rw [setsStatus_updatesOf hnodup, hs]
    by_cases hmem : key ∈ openChainKeys projectId originalTransactionId c.view
    · obtain ⟨r, hr, -, hopen⟩ := mem_openChainKeys.1 hmem
      simp [hmem, hr, StatusGuard.passes, hopen]
    · simp [hmem]
  · rw [standingAt, get?_updatesOf hnodup]
    by_cases hmem : key ∈ openChainKeys projectId originalTransactionId c.view
    · obtain ⟨r, hr, -, hopen⟩ := mem_openChainKeys.1 hmem
      rw [if_pos hmem, if_pos hmem, standingAt, hr, Option.map_some, Option.map_some,
        StatusGuard.patch, if_neg hopen, standing_apply (t := none) hs ht]
      rfl
    · rw [if_neg hmem, if_neg hmem]
      rfl

theorem follows_silent_all (keys : List PurchaseKey) (g : StatusGuard) (hs : patch.status = none)
    (ht : patch.lastStoreEventAt = none) :
    Follows (fun _ => none) c (c.write (updatesOf keys g patch)) := by
  induction keys generalizing c with
  | nil => simpa [updatesOf] using Follows.refl c
  | cons key keys ih =>
    have h := (follows_silent (c := c) key g hs ht).andThen (ih (c := c.write [_]))
    rwa [Session.write_write] at h

end Guarded
end Rovenue
