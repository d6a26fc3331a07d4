import Rovenue.Ledger.MergeWindow

/-! Merges among engine calls. Calls that share a lock key take turns; a merge and a call, or two
merges, that share none are kept apart by nothing but the schedule. -/

namespace Rovenue
open Txn

inductive WalletCall where
  | add (args : AddCreditsArgs)
  | spend (args : SpendCreditsArgs)
  | transfer (projectId fromAppUserId toAppUserId : String)
  | bind (projectId rovenueId appUserId : String)

def WalletCall.run : WalletCall → Service Unit
  | .add args => (addCredits .committed args).bind fun _ => .done ()
  | .spend args => (spendCredits .committed args).bind fun _ => .done ()
  | .transfer p a b => (transferSubscriber .committed p a b).bind fun _ => .done ()
  | .bind p r a => (bindAppUserId .committed p r a).bind fun _ => .done ()

def WalletCall.added (s : Db) (projectId currencyId : String) (call : WalletCall)
    (ws : List Write) : ℤ :=
  -- what a committed transaction added from outside; `s` gives the wallet's project
  match call with
  | .add args =>
    if ws ≠ [] ∧ findSubscriberProjectId args.subscriberId s = some projectId ∧
      args.currencyId = currencyId then args.amount else 0
  | _ => 0

def WalletCall.spent (s : Db) (projectId currencyId : String) (call : WalletCall)
    (ws : List Write) : ℤ :=
  match call with
  | .spend args =>
    if ws ≠ [] ∧ findSubscriberProjectId args.subscriberId s = some projectId ∧
      args.currencyId = currencyId then args.amount else 0
  | _ => 0

section Conservation
variable {ι : Type} (calls : ι → WalletCall) (s₀ : Db)

def addedBy (log : List (ι × List Write)) (projectId currencyId : String) : ℤ :=
  (log.map fun e => (calls e.1).added s₀ projectId currencyId e.2).sum

def spentBy (log : List (ι × List Write)) (projectId currencyId : String) : ℤ :=
  (log.map fun e => (calls e.1).spent s₀ projectId currencyId e.2).sum

/-- Total before, plus what was added, minus what was spent. -/
def CreditsConserved (h : History ι Db Write) : Prop :=
  ∀ projectId currencyId, totalCredits h.db projectId currencyId =
    totalCredits s₀ projectId currencyId + addedBy calls s₀ h.log projectId currencyId -
      spentBy calls s₀ h.log projectId currencyId

end Conservation

namespace WalletCall

def merges : WalletCall → Bool
  | .add _ | .spend _ => false
  | .transfer .. | .bind .. => true

def lockKeys : WalletCall → List LockKey
  | .add args => [walletKey args.subscriberId args.currencyId]
  | .spend args => [walletKey args.subscriberId args.currencyId]
  | .transfer projectId fromAppUserId toAppUserId =>
    transferKeys projectId fromAppUserId toAppUserId
  | .bind projectId rovenueId appUserId => bindKeys projectId rovenueId appUserId

def projectId (s : Db) : WalletCall → Option String
  | .add args => findSubscriberProjectId args.subscriberId s
  | .spend args => findSubscriberProjectId args.subscriberId s
  | .transfer projectId _ _ | .bind projectId _ _ => some projectId

def Covers (s : Db) (sub cur : String) : WalletCall → Prop
  | .add args => sub = args.subscriberId ∧ cur = args.currencyId
  | .spend args => sub = args.subscriberId ∧ cur = args.currencyId
  | .transfer projectId _ _ | .bind projectId _ _ =>
    findSubscriberProjectId sub s = some projectId

def Contend (s : Db) (a b : WalletCall) : Prop :=
  (a.merges = true ∨ b.merges = true) ∧ a.projectId s = b.projectId s ∧
    ∀ k ∈ a.lockKeys, k ∉ b.lockKeys

instance (s : Db) (a b : WalletCall) : Decidable (Contend s a b) :=
  inferInstanceAs (Decidable (_ ∧ _))

variable {s : Db} {a b : WalletCall} {sub cur : String}

theorem Covers.projectId (h : a.Covers s sub cur) :
    a.projectId s = findSubscriberProjectId sub s := by
  cases a with
  | add args | spend args =>
    obtain ⟨rfl, -⟩ := h
    rfl
  | transfer p x y | bind p x y =>
    have hproject : findSubscriberProjectId sub s = some p := h
    exact hproject.symm

theorem contend_of_covers (ha : a.Covers s sub cur) (hb : b.Covers s sub cur)
    (hkeys : ∀ k ∈ a.lockKeys, k ∉ b.lockKeys) : Contend s a b := by
  refine ⟨?_, ha.projectId.trans hb.projectId.symm, hkeys⟩
  by_contra hnone
  simp only [not_or, Bool.not_eq_true] at hnone
  have hkey : ∀ call : WalletCall, call.merges = false → call.Covers s sub cur →
      call.lockKeys = [walletKey sub cur] := by
    intro call hmerges hcovers
    cases call with
    | add args | spend args =>
      obtain ⟨rfl, rfl⟩ := hcovers
      rfl
    | transfer | bind => cases hmerges
  rw [hkey a hnone.1 ha, hkey b hnone.2 hb] at hkeys
  exact hkeys _ (List.mem_singleton_self _) (List.mem_singleton_self _)

end WalletCall

section Apart
variable {ι : Type} (s₀ : Db) (calls : ι → WalletCall)

def Inside (w : World ι Db LockKey Write String) (i : ι) : Prop :=
  ∀ k ∈ (calls i).lockKeys, w.holder k = some i

/-- A commit finds nobody inside who contends with it. -/
def CommitsApart (w : World ι Db LockKey Write String) (e : Event ι String) : Prop :=
  ∀ c ∈ w.commitOf e, Inside calls w c.client → ∀ j ≠ c.client, Inside calls w j →
    ¬(calls c.client).Contend s₀ (calls j)

instance [DecidableEq ι] (w : World ι Db LockKey Write String) (i : ι) :
    Decidable (Inside calls w i) := inferInstanceAs (Decidable (∀ k ∈ _, _))

instance [DecidableEq ι] [Fintype ι] (w : World ι Db LockKey Write String) (e : Event ι String) :
    Decidable (CommitsApart s₀ calls w e) := inferInstanceAs (Decidable (∀ c ∈ w.commitOf e, _))

end Apart

def mergeDiscipline {ι : Type} (calls : ι → WalletCall) (s₀ : Db) :
    Discipline ι Db LockKey Write where
  inv h := (∀ id, findSubscriberProjectId id h.db = findSubscriberProjectId id s₀) ∧
    CreditsConserved calls s₀ h
  rely i held h h' := (∀ k ∈ (calls i).lockKeys, k ∈ held) → ∀ sub cur,
    (calls i).Covers s₀ sub cur → walletRows h'.db sub cur = walletRows h.db sub cur
  law i held ws h := (∀ w ∈ ws, CarriesForward s₀ w) ∧
    (∀ p cur, amountsIn p cur ws = (calls i).added s₀ p cur ws - (calls i).spent s₀ p cur ws) ∧
    Continues h.db ws ∧ ∀ found row, .insertCreditLedger found row ∈ ws →
      (∀ k ∈ (calls i).lockKeys, k ∈ held) ∧
        (calls i).Covers s₀ row.subscriberId row.currencyId
  cond _ _ _ := True
  beside i held j others := (∀ k ∈ (calls i).lockKeys, k ∈ held) →
    (∀ k ∈ (calls j).lockKeys, k ∈ others) → ¬(calls i).Contend s₀ (calls j)
  rely_refl _ _ _ := fun _ _ _ _ => rfl
  rely_trans h₁ h₂ := fun hk sub cur hc => (h₂ hk sub cur hc).trans (h₁ hk sub cur hc)
  keeps_inv := by
    rintro i held ws h ⟨hws, hnet, hcont, -⟩ ⟨hproj, hcons⟩ -
    refine ⟨fun id => (applyAll_projectId hws h.db id).trans (hproj id), fun p cur => ?_⟩
    rw [History.commit_db, totalCredits_applyAll hproj hws hcont, hcons p cur, hnet]
    simp only [addedBy, spentBy, History.commit_log, List.map_append, List.map_cons, List.map_nil,
      List.sum_append, List.sum_cons, List.sum_nil, add_zero]
    ring
  keeps_rely := by
    rintro i held ws h ⟨-, -, -, hrows⟩ - - j others - hdisj hbeside hothers sub cur hcovers
    refine walletRows_applyAll_of_ne (fun found row hrow hwallet => ?_) h.db
    obtain ⟨hheld, hcovered⟩ := hrows found row hrow
    obtain ⟨rfl, rfl⟩ := hwallet
    refine hbeside hheld hothers (WalletCall.contend_of_covers hcovered hcovers fun k hk hk' => ?_)
    -- a key of both cannot be held by both
    exact Set.disjoint_left.1 hdisj (hothers k hk') (hheld k hk)

section Calls
variable {ι : Type} {calls : ι → WalletCall} {s₀ : Db} {i : ι} {h : History ι Db Write}

theorem lawful_nil (held : Set LockKey) :
    (mergeDiscipline calls s₀).law i held [] h := by
  refine ⟨by simp, fun p cur => ?_, trivial, by simp⟩
  cases hi : calls i <;> simp [amountsIn, WalletCall.added, WalletCall.spent]

theorem lawful_row {held : Set LockKey} {found : ℤ} {row : CreditLedgerRow}
    (hcarries : CarriesForward s₀ (.insertCreditLedger found row))
    (hnet : ∀ p cur, amountsIn p cur [.insertCreditLedger found row] =
      (calls i).added s₀ p cur [.insertCreditLedger found row] -
        (calls i).spent s₀ p cur [.insertCreditLedger found row])
    (hkeys : ∀ k ∈ (calls i).lockKeys, k ∈ held)
    (hcovers : (calls i).Covers s₀ row.subscriberId row.currencyId)
    {hb : History ι Db Write} (hr : (mergeDiscipline calls s₀).rely i held hb h)
    (hfound : found = balance .committed hb.db row.subscriberId row.currencyId) :
    (mergeDiscipline calls s₀).law i held [.insertCreditLedger found row] h := by
  refine ⟨by simpa using hcarries, hnet, ⟨?_, trivial⟩, ?_⟩
  · exact hfound.trans (balance_of_walletRows (hr hkeys _ _ hcovers) .committed).symm
  · intro found' row' hmem
    obtain ⟨-, rfl⟩ := Write.insertCreditLedger.inj (List.mem_singleton.1 hmem)
    exact ⟨hkeys, hcovers⟩

theorem add_safe {args : AddCreditsArgs} (hi : calls i = .add args) :
    Safe (mergeDiscipline calls s₀) i (addCredits .committed args) ∅ [] h Idle := by
  refine addCredits_safe (fun _ => lawful_nil _) ?_
  intro hp hd hb hc projectId id startedAt hpi _ _ _ _ hr _ hproj _ found _
  rw [hpi.1] at hproj
  refine lawful_row ⟨rfl, hproj⟩ (fun p cur => ?_) (by simp [hi, WalletCall.lockKeys])
    (by rw [hi]; exact ⟨rfl, rfl⟩) hr rfl
  rw [amountsIn_row]
  by_cases hpc : projectId = p ∧ args.currencyId = cur <;>
    simp [hi, WalletCall.added, WalletCall.spent, AddCreditsArgs.entry, CreditLedgerEntry.row,
      hproj, hpc]

theorem spend_safe {args : SpendCreditsArgs} (hi : calls i = .spend args) :
    Safe (mergeDiscipline calls s₀) i (spendCredits .committed args) ∅ [] h Idle := by
  refine spendCredits_safe (fun _ => lawful_nil _) ?_
  intro hp hb hc projectId id startedAt hpi _ _ hr _ hproj found _
  rw [hpi.1] at hproj
  refine lawful_row ⟨sub_eq_add_neg _ _, hproj⟩ (fun p cur => ?_)
    (by simp [hi, WalletCall.lockKeys]) (by rw [hi]; exact ⟨rfl, rfl⟩) hr rfl
  rw [amountsIn_row]
  by_cases hpc : projectId = p ∧ args.currencyId = cur <;>
    simp [hi, WalletCall.added, WalletCall.spent, SpendCreditsArgs.entry, CreditLedgerEntry.row,
      hproj, hpc]

theorem allowsMerges {p : String} {keys : List LockKey} (hmerges : (calls i).merges = true)
    (hproject : (calls i).projectId s₀ = some p) (hkeys : (calls i).lockKeys = keys) :
    AllowsMerges (mergeDiscipline calls s₀) .committed s₀ i p keys fun _ _ _ => True := by
  have hcovers : ∀ {sub cur}, findSubscriberProjectId sub s₀ = some p →
      (calls i).Covers s₀ sub cur := by
    intro sub cur hsub
    cases hi : calls i with
    | add | spend =>
      rw [hi] at hmerges
      cases hmerges
    | transfer | bind =>
      rw [hi] at hproject
      obtain rfl := Option.some.inj hproject
      exact hsub
  have hnet : ∀ {ws}, (∀ p cur, amountsIn p cur ws = 0) → ∀ p cur, amountsIn p cur ws =
      (calls i).added s₀ p cur ws - (calls i).spent s₀ p cur ws := by
    intro ws hzero p cur
    rw [hzero]
    cases hi : calls i with
    | add | spend =>
      rw [hi] at hmerges
      cases hmerges
    | transfer | bind => simp [WalletCall.added, WalletCall.spent]
  have hplain : ∀ {held ws h}, (∀ w ∈ ws, w.Plain) →
      (mergeDiscipline calls s₀).law i held ws h := by
    intro held ws h hws
    have hbalanced : Balanced s₀ ws := balanced_of_plain hws
    refine ⟨hbalanced.1, hnet hbalanced.2, ?_, fun found row hrow => (hws _ hrow).elim⟩
    exact continues_of_not_onLedger fun w hw => (hws w hw).not_onLedger
  subst hkeys
  refine ⟨fun hi => hi.1, fun _ _ _ => rfl, ?_, fun _ _ _ => trivial, fun _ => .inl rfl, ?_, ?_, ?_⟩
  · exact fun hheld hr sub hsub cur => hr hheld sub cur (hcovers hsub)
  · exact fun hws => hplain fun w hw => (hws w hw).plain
  · refine fun _ hws => hplain fun w hw => ?_
    have hlabels := hws w hw
    cases w <;> first | exact hlabels.elim | trivial
  · intro held ws h x y hheld _ hhanded
    refine ⟨hhanded.transfers.1.1, hnet hhanded.transfers.1.2, hhanded.continues,
      fun found row hrow => ⟨hheld, hcovers ?_⟩⟩
    rw [hhanded.transfers.project hrow, (hhanded.rows found row hrow).1]

theorem walletCall_safe (i : ι) (h : History ι Db Write) :
    Safe (mergeDiscipline calls s₀) i (calls i).run ∅ [] h fun _ _ _ _ => True := by
  cases hi : calls i with
  | add args => exact (add_safe hi).bind fun _ _ _ _ _ => trivial
  | spend args => exact (spend_safe hi).bind fun _ _ _ _ _ => trivial
  | transfer p a b =>
    have hm : AllowsMerges (mergeDiscipline calls s₀) .committed s₀ i p (transferKeys p a b)
        fun _ _ _ => True := by
      apply allowsMerges <;> rw [hi] <;> rfl
    refine (transferSubscriber_safe hm ?_).bind fun _ _ _ _ _ => trivial
    exact fun _ _ _ _ _ _ _ _ _ => trivial
  | bind p r a =>
    have hm : AllowsMerges (mergeDiscipline calls s₀) .committed s₀ i p (bindKeys p r a)
        fun _ _ _ => True := by
      apply allowsMerges <;> rw [hi] <;> rfl
    refine (bindAppUserId_safe hm ?_).bind fun _ _ _ _ _ => trivial
    exact fun _ _ _ _ _ _ _ => trivial

end Calls

def mergeWorld {ι : Type} (s : Db) (t : ℤ) (calls : ι → WalletCall) :
    World ι Db LockKey Write String := .init s t fun i => (calls i).run

/-- Where no commit finds a call inside that has no lock key in common with it, one of the two
being a merge in the other's project, a project's credits are what they were, plus what was added,
minus what was spent. -/
theorem credits_conserved_of_apart {ι : Type} [DecidableEq ι] (calls : ι → WalletCall)
    (s : Db) (t : ℤ) (evs : List (Event ι String))
    (hapart : ∀ x ∈ (mergeWorld s t calls).transitions evs, CommitsApart s calls x.1 x.2) :
    ∀ h ∈ (mergeWorld s t calls).visited evs, CreditsConserved calls s h := by
  have hsafe : (mergeWorld s t calls).Safe (mergeDiscipline calls s) :=
    .init ⟨fun _ => rfl, fun p cur => by simp [addedBy, spentBy]⟩ fun i => walletCall_safe i _
  refine fun h hh => (hsafe.visited (fun _ _ => trivial) (fun x hx c hc j hj => ?_) h hh).2
  exact fun hself hother => hapart x hx c hc hself j hj hother

def mergeDb : Db where
  subscribers := ⟨[
    ("s1", { projectId := "p1", rovenueId := "r1", appUserId := some "ann" }),
    ("s2", { projectId := "p1", rovenueId := "r2", appUserId := some "bob" })], by decide⟩
  creditLedger := [
    { id := "c0", projectId := "p1", subscriberId := "s1", type := .bonus, currencyId := "gold"
      amount := 10, balance := 10, createdAt := 0 }]

inductive MergeClient where
  | merging | spending
  deriving DecidableEq

instance : Fintype MergeClient where
  elems := {.merging, .spending}
  complete client := by cases client <;> decide

def mergeCalls : MergeClient → WalletCall
  | .merging => .transfer "p1" "ann" "bob"
  | .spending => .spend { subscriberId := "s1", currencyId := "gold", amount := 4 }

def mergeReads : List (Event MergeClient String) := List.replicate 10 (.run .merging)

def mergeWrites : List (Event MergeClient String) :=
  [.draw .merging "c2", .run .merging, .run .merging, .draw .merging "c3"] ++
    List.replicate 4 (.run .merging)

def spendWhole : List (Event MergeClient String) :=
  List.replicate 5 (.run .spending) ++ [.draw .spending "c1", .run .spending, .run .spending]

theorem spent_and_transferred :
    let h := ((mergeWorld mergeDb 0 mergeCalls).runAll
      (mergeReads ++ spendWhole ++ mergeWrites)).hist
    totalCredits mergeDb "p1" "gold" = 10 ∧ spentBy mergeCalls mergeDb h.log "p1" "gold" = 4 ∧
      totalCredits h.db "p1" "gold" = 10 ∧
      ¬∀ h ∈ (mergeWorld mergeDb 0 mergeCalls).visited (mergeReads ++ spendWhole ++ mergeWrites),
        CreditsConserved mergeCalls mergeDb h := by
  refine ⟨by decide, by decide, by decide, fun h => ?_⟩
  exact absurd (h _ (World.last_mem_visited _ _) "p1" "gold") (by decide)

theorem credits_conserved_of_apart_spend : CreditsConserved mergeCalls mergeDb
    ((mergeWorld mergeDb 0 mergeCalls).runAll (spendWhole ++ mergeReads ++ mergeWrites)).hist :=
  credits_conserved_of_apart mergeCalls mergeDb 0 (spendWhole ++ mergeReads ++ mergeWrites)
    (by decide) _ (World.last_mem_visited _ _)

end Rovenue
