import Rovenue.Ledger.MergeEffect
import Rovenue.Redirects

/-! Where the redirects of merged subscribers lead after any number of merges, and how far
the lookup follows them. -/

namespace Rovenue
open Txn Redirects

inductive MergeCall where
  | transfer (projectId fromAppUserId toAppUserId : String)
  | bind (projectId rovenueId appUserId : String)

def MergeCall.run : MergeCall → Service Unit
  | .transfer p a b => (transferSubscriber .createdAt p a b).bind fun _ => .done ()
  | .bind p r a => (bindAppUserId .createdAt p r a).bind fun _ => .done ()

def redirect (s : Db) (id : String) : Option String := (footingOf s id).bind Footing.mergedInto

/-- No subscriber is merged yet, and no project has two subscribers of one `rovenueId`. -/
structure Unmerged (s : Db) : Prop where
  unique : ∀ id id' r r', footingOf s id = some r → footingOf s id' = some r' →
    r.projectId = r'.projectId → r.rovenueId = r'.rovenueId → id = id'
  none : ∀ id, redirect s id = none

/-- Each merge starts after every row the ledger then holds. -/
def StartsInOrder (turns : List (Turn MergeCall Db Write String)) : Prop :=
  ∀ t ∈ turns, ∀ row ∈ t.before.creditLedger, row.createdAt < t.clock 0

def inheritedBalance (s : Db) (owner : String → String) (b cur : String) : ℤ :=
  -- the balances, in `s`, of the subscribers that `b` now answers for
  (s.subscribers.entries.map fun e =>
    if owner e.1 = b then balance .createdAt s e.1 cur else 0).sum

section Lookup
variable {s : Db} {a r : String} {n : ℕ} {row last : Subscriber} {c : Session Db Write String}

def MergedAreDead (s : Db) : Prop :=
  ∀ id st, footingOf s id = some st → st.mergedInto.isSome → st.dead = true

theorem footingOf_of_get (h : s.subscribers.get? a = some row) :
    footingOf s a = some row.footing := by
  rw [footingOf, h]
  rfl

theorem redirect_of_get (h : s.subscribers.get? a = some row) : redirect s a = row.mergedInto := by
  rw [redirect, footingOf_of_get h]
  rfl

theorem exists_row_of_leads (h : Redirects.Leads (redirect s) a n r)
    (hlast : s.subscribers.get? r = some last) : ∃ row, s.subscribers.get? a = some row := by
  cases h with
  | root h => exact ⟨last, hlast⟩
  | hop h rest =>
    obtain ⟨st, hst, -⟩ := Option.bind_eq_some_iff.1 h
    obtain ⟨row, hrow, -⟩ := Option.map_eq_some_iff.1 hst
    exact ⟨row, hrow⟩

theorem followMergedInto_of_leads (hdead : MergedAreDead c.view)
    (h : Redirects.Leads (redirect c.view) a n r)
    (hrow : c.view.subscribers.get? a = some row) (hlast : c.view.subscribers.get? r = some last)
    (hlive : last.deletedAt = none) (hops : ℕ) :
    (followMergedInto hops (a, row)).Returns c (if n ≤ hops then some (r, last) else none) c := by
  induction h generalizing row hops with
  | root h =>
    obtain rfl := Option.some.inj (hrow.symm.trans hlast)
    rw [if_pos (Nat.zero_le _)]
    rcases hops with _ | hops
    · simp [followMergedInto, hlive]
    · simp [followMergedInto, hlive]
  | @hop a b r n h rest ih =>
    rw [redirect_of_get hrow] at h
    have hgone := hdead a _ (footingOf_of_get hrow) (by
      rw [show row.footing.mergedInto = row.mergedInto from rfl, h]
      rfl)
    obtain ⟨deletedAt, hdeletedAt⟩ := Option.isSome_iff_exists.1 hgone
    obtain ⟨next, hnext⟩ := exists_row_of_leads rest hlast
    rcases hops with _ | hops
    · simp [followMergedInto, hdeletedAt]
    · have hquery : findSubscriberById b c.view = some (b, next) := by
        rw [findSubscriberById, hnext]
        rfl
      simp only [followMergedInto, hdeletedAt, h, Prog.bind_eq, Prog.returns_bind,
        Prog.returns_query, Nat.add_le_add_iff_right]
      exact ⟨_, c, ⟨hquery, rfl⟩, ih hnext hlast hops⟩

theorem resolve_of_leads (hdead : MergedAreDead c.view)
    (hunique : ∀ id id' r r', footingOf c.view id = some r → footingOf c.view id' = some r' →
      r.projectId = r'.projectId → r.rovenueId = r'.rovenueId → id = id')
    (h : Redirects.Leads (redirect c.view) a n r) (hrow : c.view.subscribers.get? a = some row)
    (hlast : c.view.subscribers.get? r = some last) (hlive : last.deletedAt = none) :
    (resolveSubscriberByRovenueId row.projectId row.rovenueId).Returns c
      (if n ≤ 5 then some (r, last) else none) c := by
  have hfind : findSubscriberByRovenueId row.projectId row.rovenueId c.view = some (a, row) := by
    have hmem := c.view.subscribers.mem_entries.2 hrow
    have hsome : (findSubscriberByRovenueId row.projectId row.rovenueId c.view).isSome :=
      List.find?_isSome.2 ⟨_, hmem, by simp⟩
    obtain ⟨⟨id, found⟩, hfound⟩ := Option.isSome_iff_exists.1 hsome
    have hget := findSubscriberByRovenueId_some hfound
    have hnames := List.find?_some hfound
    simp only [decide_eq_true_eq] at hnames
    obtain rfl : id = a := hunique _ _ _ _ (footingOf_of_get hget) (footingOf_of_get hrow)
      hnames.1 hnames.2
    obtain rfl := Option.some.inj (hget.symm.trans hrow)
    exact hfound
  -- a live row is its own root
  have hroot : row.deletedAt = none → redirect c.view a = none := by
    intro halive
    rw [redirect_of_get hrow]
    by_contra hmerged
    have hgone := hdead a _ (footingOf_of_get hrow) (Option.isSome_iff_ne_none.2 hmerged)
    simp [Subscriber.footing, halive] at hgone
  simp only [resolveSubscriberByRovenueId, Prog.bind_eq, Prog.returns_bind, Prog.returns_query]
  refine ⟨_, c, ⟨hfind, rfl⟩, ?_⟩
  dsimp only
  by_cases halive : row.deletedAt.isNone
  · obtain ⟨rfl, rfl⟩ := h.eq_of_root (hroot (Option.isNone_iff_eq_none.1 halive))
    obtain rfl := Option.some.inj (hrow.symm.trans hlast)
    rw [if_pos halive]
    simp
  · rw [if_neg halive]
    exact followMergedInto_of_leads hdead h hrow hlast hlive 5

end Lookup

/-- Where everything of `s₀` is in `s`: with its owner's survivor. -/
structure Inherits (s₀ s : Db) (owner : String → String) : Prop where
  leads : ∀ a, ∃ n, Redirects.Leads (redirect s) a n (owner a)
  dead : MergedAreDead s
  live : ∀ a, (redirect s a).isSome → Live s (owner a)
  names : ∀ a, (footingOf s a).map (fun r => (r.projectId, r.rovenueId)) =
    (footingOf s₀ a).map fun r => (r.projectId, r.rovenueId)
  purchases : ∀ key, purchaseOwner s key = (purchaseOwner s₀ key).map owner
  access : ∀ id o, accessOwner s₀ id = some o → accessOwner s id = some (owner o)
  held : ∀ id o, accessOwner s id = some o → redirect s o = none

section Step
variable {s₀ s s' : Db} {owner : String → String} {x y : String} {startedAt : ℤ}

theorem Inherits.init (h : Unmerged s₀) : Inherits s₀ s₀ id where
  leads a := ⟨0, .root (h.none a)⟩
  dead id st hst hmerged := by
    have hnone := h.none id
    rw [redirect, hst, Option.bind_some] at hnone
    simp [hnone] at hmerged
  live a hmerged := by simp [h.none] at hmerged
  names _ := rfl
  purchases key := Option.map_id'.symm ▸ rfl
  access _ _ ho := ho
  held _ o _ := h.none o

theorem Live.redirect_eq_none (hdead : MergedAreDead s) (h : Live s x) : redirect s x = none := by
  obtain ⟨st, hst, hlive⟩ := h
  rw [redirect, hst, Option.bind_some]
  by_contra hmerged
  rw [hdead x st hst (Option.isSome_iff_ne_none.2 hmerged)] at hlive
  cases hlive

theorem Inherits.kept (h : Inherits s₀ s owner) (hy : Live s y) (hkept : Kept y s s') :
    Inherits s₀ s' owner := by
  have hredirect : ∀ a, redirect s' a = redirect s a := fun a => by
    rw [redirect, hkept.footing, redirect]
  have hlive : ∀ a, Live s' a ↔ Live s a := fun a => by rw [Live, hkept.footing, Live]
  constructor
  · intro a
    obtain ⟨n, hn⟩ := h.leads a
    exact ⟨n, hn.congr hredirect⟩
  · intro id st hst
    rw [hkept.footing] at hst
    exact h.dead id st hst
  · intro a hmerged
    rw [hredirect] at hmerged
    exact (hlive _).2 (h.live a hmerged)
  · intro a
    rw [hkept.footing]
    exact h.names a
  · intro key
    rw [hkept.purchases]
    exact h.purchases key
  · intro id o ho
    exact hkept.access id _ (h.access id o ho)
  · intro id o ho
    rw [hredirect]
    rcases hbefore : accessOwner s id with _ | o'
    · rw [hkept.fresh id o hbefore ho]
      exact hy.redirect_eq_none h.dead
    · obtain rfl := Option.some.inj ((hkept.access id o' hbefore).symm.trans ho)
      exact h.held id _ hbefore

theorem Merged.redirect (h : Merged startedAt s s' x y) (a : String) :
    redirect s' a = if a = x then some y else redirect s a := by
  rw [Rovenue.redirect, h.footing]
  split_ifs
  · obtain ⟨st, hst, -⟩ := h.source
    rw [hst]
    rfl
  · rfl

theorem Inherits.merged (h : Inherits s₀ s owner) (hmerged : Merged startedAt s s' x y) :
    Inherits s₀ s' (passOn owner x y) := by
  have hx : redirect s x = none := Live.redirect_eq_none h.dead hmerged.source
  have hy : redirect s y = none := Live.redirect_eq_none h.dead hmerged.target
  have hlive : ∀ a, a ≠ x → Live s a → Live s' a := by
    rintro a ha ⟨st, hst, halive⟩
    exact ⟨st, by rw [hmerged.footing, if_neg ha, hst], halive⟩
  have hylive : Live s' y := hlive y (Ne.symm hmerged.ne) hmerged.target
  have hroot : ∀ o, redirect s o = none → redirect s' (handOn x y o) = none := by
    intro o ho
    rw [hmerged.redirect, handOn]
    split_ifs with hox hyx
    · exact absurd hyx (Ne.symm hmerged.ne)
    · exact hy
    · exact ho
  constructor
  · intro a
    obtain ⟨n, hn⟩ := h.leads a
    exact hn.passOn hx hy hmerged.ne hmerged.redirect
  · intro id st hst hsome
    rw [hmerged.footing] at hst
    split_ifs at hst
    · obtain ⟨before, -, rfl⟩ := Option.map_eq_some_iff.1 hst
      rfl
    · exact h.dead id st hst hsome
  · intro a hsome
    rw [passOn]
    split_ifs with howner
    · exact hylive
    · rw [hmerged.redirect] at hsome
      split_ifs at hsome with hax
      · obtain ⟨n, hn⟩ := h.leads a
        exact absurd (hn.eq_of_root (hax ▸ hx)).1 (hax ▸ howner)
      · exact hlive _ howner (h.live a hsome)
  · intro a
    rw [← h.names, hmerged.footing]
    split_ifs with hax
    · rw [hax, Option.map_map]
      rfl
    · rfl
  · intro key
    rw [hmerged.purchases, h.purchases, Option.map_map]
    rfl
  · intro id o ho
    exact hmerged.access id _ (h.access id o ho)
  · intro id o ho
    rcases hbefore : accessOwner s id with _ | o'
    · rw [hmerged.fresh id o hbefore ho, hmerged.redirect, if_neg (Ne.symm hmerged.ne), hy]
    · obtain rfl := Option.some.inj ((hmerged.access id o' hbefore).symm.trans ho)
      exact hroot o' (h.held id o' hbefore)

end Step

def BalancesInherited (s₀ s : Db) (owner : String → String) : Prop :=
  ∀ b cur, (footingOf s₀ b).isSome →
    balance .createdAt s b cur = inheritedBalance s₀ owner b cur

section Balances
variable {s₀ s s' : Db} {owner : String → String} {x y b cur : String} {startedAt : ℤ}

theorem inheritedBalance_id (hb : (footingOf s₀ b).isSome) :
    inheritedBalance s₀ id b cur = balance .createdAt s₀ b cur := by
  obtain ⟨st, hst⟩ := Option.isSome_iff_exists.1 hb
  obtain ⟨row, hrow, -⟩ := Option.map_eq_some_iff.1 hst
  have hentries : ∀ e ∈ s₀.subscribers.entries,
      (if id e.1 = b then balance .createdAt s₀ e.1 cur else 0) =
        if e.1 = b then balance .createdAt s₀ b cur else 0 := by
    intro e _
    by_cases he : e.1 = b <;> simp [he]
  rw [inheritedBalance, List.map_congr_left hentries, s₀.subscribers.sum_map_ite hrow]

theorem inheritedBalance_nonneg (h : ∀ a cur, 0 ≤ balance .createdAt s₀ a cur) :
    0 ≤ inheritedBalance s₀ owner b cur := by
  refine List.sum_nonneg fun v hv => ?_
  obtain ⟨e, -, rfl⟩ := List.mem_map.1 hv
  split_ifs
  · exact h _ _
  · exact le_rfl

theorem inheritedBalance_passOn (hne : x ≠ y) :
    inheritedBalance s₀ (passOn owner x y) b cur =
      if b = x then 0
      else if b = y then inheritedBalance s₀ owner y cur + inheritedBalance s₀ owner x cur
      else inheritedBalance s₀ owner b cur := by
  split_ifs with hbx hby
  · subst hbx
    refine List.sum_eq_zero fun v hv => ?_
    obtain ⟨e, -, rfl⟩ := List.mem_map.1 hv
    refine if_neg fun howner => ?_
    rw [passOn] at howner
    split_ifs at howner with hx
    · exact hne howner.symm
    · exact hx howner
  · subst hby
    have hentries : ∀ e ∈ s₀.subscribers.entries,
        (if passOn owner x b e.1 = b then balance .createdAt s₀ e.1 cur else 0) =
          (if owner e.1 = b then balance .createdAt s₀ e.1 cur else 0) +
            if owner e.1 = x then balance .createdAt s₀ e.1 cur else 0 := by
      intro e _
      by_cases hx : owner e.1 = x
      · simp [passOn, hx, hne]
      · simp [passOn, hx]
    rw [inheritedBalance, List.map_congr_left hentries, List.sum_map_add]
    rfl
  · have hentries : ∀ e ∈ s₀.subscribers.entries,
        (if passOn owner x y e.1 = b then balance .createdAt s₀ e.1 cur else 0) =
          if owner e.1 = b then balance .createdAt s₀ e.1 cur else 0 := by
      intro e _
      by_cases hx : owner e.1 = x
      · simp [passOn, hx, Ne.symm hbx, Ne.symm hby]
      · simp [passOn, hx]
    rw [inheritedBalance, List.map_congr_left hentries]
    rfl

theorem BalancesInherited.merged (h : BalancesInherited s₀ s owner) (hin : Inherits s₀ s owner)
    (hnonneg : ∀ a cur, 0 ≤ balance .createdAt s₀ a cur) (hmerged : Merged startedAt s s' x y)
    (hnew : ∀ row ∈ s.creditLedger, row.createdAt < startedAt) :
    BalancesInherited s₀ s' (passOn owner x y) := by
  have hthere : ∀ a, (∃ r, footingOf s a = some r ∧ r.dead = false) → (footingOf s₀ a).isSome := by
    rintro a ⟨r, hr, -⟩
    have hname := hin.names a
    rw [hr, Option.map_some] at hname
    obtain ⟨r₀, hr₀, -⟩ := Option.map_eq_some_iff.1 hname.symm
    rw [hr₀]
    rfl
  intro b cur hb
  obtain ⟨hx, hy, hother⟩ := hmerged.balances hnew cur
  have hsource := h x cur (hthere x hmerged.source)
  have htarget := h y cur (hthere y hmerged.target)
  have hpos : 0 ≤ inheritedBalance s₀ owner x cur := inheritedBalance_nonneg hnonneg
  rw [inheritedBalance_passOn hmerged.ne]
  split_ifs with hbx hby
  · rw [hbx, hx]
    omega
  · rw [hby, hy]
    omega
  · rw [hother b hbx hby]
    exact h b cur hb

end Balances

theorem mergeCall_returns {call : MergeCall} {c c' : Session Db Write String} {u : Unit}
    (h : call.run.Returns c u c') :
    (∃ y, Live c.view y ∧ Kept y c.view c'.view) ∨
      ∃ x y, Merged (c.clock 0) c.view c'.view x y := by
  cases call with
  | transfer p a b =>
    obtain ⟨_, c₁, hcall, hdone⟩ := Prog.returns_bind.1 h
    obtain ⟨-, rfl⟩ := Prog.returns_done.1 hdone
    exact .inr (transferSubscriber_merged hcall)
  | bind p r a =>
    obtain ⟨_, c₁, hcall, hdone⟩ := Prog.returns_bind.1 h
    obtain ⟨-, rfl⟩ := Prog.returns_done.1 hdone
    exact bindAppUserId_merged hcall

theorem Inherits.run {s₀ s s' : Db} {turns : List (Turn MergeCall Db Write String)}
    (run : Turns MergeCall.run s turns s') {owner : String → String}
    (h : Inherits s₀ s owner) :
    ∃ owner', Inherits s₀ s' owner' ∧
      (StartsInOrder turns → (∀ a cur, 0 ≤ balance .createdAt s₀ a cur) → BalancesInherited s₀ s owner →
        BalancesInherited s₀ s' owner') := by
  induction run generalizing owner with
  | nil s => exact ⟨owner, h, fun _ _ => id⟩
  | @cons t ts s' hturn rest ih =>
    obtain ⟨c, hreturns, -, hafter⟩ := hturn
    have hrest : StartsInOrder (t :: ts) → StartsInOrder ts :=
      fun horder u hu => horder u (List.mem_cons_of_mem _ hu)
    rcases mergeCall_returns hreturns with ⟨y, hy, hkept⟩ | ⟨x, y, hmerged⟩
    · rw [hafter] at hkept
      obtain ⟨owner', hin, hbalanced⟩ := ih (h.kept hy hkept)
      refine ⟨owner', hin, fun horder hnonneg hb => hbalanced (hrest horder) hnonneg ?_⟩
      intro b cur hsome
      rw [balance_of_creditLedger_eq hkept.ledger]
      exact hb b cur hsome
    · rw [hafter] at hmerged
      obtain ⟨owner', hin, hbalanced⟩ := ih (h.merged hmerged)
      refine ⟨owner', hin, fun horder hnonneg hb => hbalanced (hrest horder) hnonneg ?_⟩
      exact hb.merged h hnonneg hmerged (horder t (List.mem_cons_self ..))

/-- After any merges each subscriber that was merged away leads to the live one that holds
what it held, and its `rovenueId` resolves there over at most five hops, to nothing over more. -/
theorem merged_resolves_within_five {s₀ s : Db} {turns : List (Turn MergeCall Db Write String)}
    (hstart : Unmerged s₀) (run : Turns MergeCall.run s₀ turns s) :
    ∃ owner : String → String,
      (∀ a row, s.subscribers.get? a = some row → row.mergedInto.isSome →
        ∃ n survivor, Redirects.Leads (redirect s) a n (owner a) ∧
          s.subscribers.get? (owner a) = some survivor ∧ survivor.deletedAt = none ∧
          ∀ clock ids, (resolveSubscriberByRovenueId row.projectId row.rovenueId).Returns
            (.start s clock ids) (if n ≤ 5 then some (owner a, survivor) else none)
            (.start s clock ids)) ∧
      (∀ key, purchaseOwner s key = (purchaseOwner s₀ key).map owner) ∧
      (∀ id o, accessOwner s₀ id = some o → accessOwner s id = some (owner o)) ∧
      (∀ id o, accessOwner s id = some o → redirect s o = none) ∧
      (StartsInOrder turns → (∀ a cur, 0 ≤ balance .createdAt s₀ a cur) →
        ∀ b cur, (footingOf s₀ b).isSome →
          balance .createdAt s b cur = inheritedBalance s₀ owner b cur) := by
  obtain ⟨owner, hin, hbalanced⟩ := Inherits.run run (.init hstart)
  refine ⟨owner, fun a row hrow hmerged => ?_, hin.purchases, hin.access, hin.held,
    fun horder hnonneg =>
      hbalanced horder hnonneg fun b cur hb => (inheritedBalance_id hb).symm⟩
  obtain ⟨n, hn⟩ := hin.leads a
  have hredirect : (redirect s a).isSome := by rwa [redirect_of_get hrow]
  obtain ⟨st, hst, halive⟩ := hin.live a hredirect
  obtain ⟨survivor, hsurvivor, rfl⟩ := Option.map_eq_some_iff.1 hst
  have hlive : survivor.deletedAt = none := by simpa [Subscriber.footing] using halive
  -- names never change, so they still tell subscribers apart
  have hunique : ∀ id id' r r', footingOf s id = some r → footingOf s id' = some r' →
      r.projectId = r'.projectId → r.rovenueId = r'.rovenueId → id = id' := by
    intro id id' r r' hr hr' hproject hrovenue
    have hname := hin.names id
    have hname' := hin.names id'
    rw [hr, Option.map_some] at hname
    rw [hr', Option.map_some] at hname'
    obtain ⟨r₀, hr₀, hr₀r⟩ := Option.map_eq_some_iff.1 hname.symm
    obtain ⟨r₀', hr₀', hr₀r'⟩ := Option.map_eq_some_iff.1 hname'.symm
    simp only [Prod.mk.injEq] at hr₀r hr₀r'
    exact hstart.unique id id' r₀ r₀' hr₀ hr₀'
      (hr₀r.1.trans (hproject.trans hr₀r'.1.symm)) (hr₀r.2.trans (hrovenue.trans hr₀r'.2.symm))
  exact ⟨n, survivor, hn, hsurvivor, hlive, fun clock ids =>
    resolve_of_leads (c := .start s clock ids) hin.dead hunique hn hrow hsurvivor hlive⟩

def pastLedger (s : Db) : ℤ := (s.creditLedger.map CreditLedgerRow.createdAt).foldr max 0 + 1

theorem lt_pastLedger {s : Db} {row : CreditLedgerRow} (h : row ∈ s.creditLedger) :
    row.createdAt < pastLedger s := by
  unfold pastLedger
  generalize s.creditLedger = rows at h ⊢
  induction rows with
  | nil => cases h
  | cons r rows ih =>
    rw [List.map_cons, List.foldr_cons]
    obtain rfl | h := List.mem_cons.1 h
    · exact Int.lt_add_one_of_le (le_max_left _ _)
    · exact (ih h).trans_le (add_le_add_left (le_max_right _ _) 1)

def afterCall (s : Db) (call : MergeCall) : Option Db :=
  (call.run.eval (.start s (fun _ => pastLedger s) freshIds)).toOption.map fun r => r.2.view

theorem turns_of_afterCall {calls : List MergeCall} {s s' : Db}
    (h : calls.foldlM afterCall s = some s') :
    ∃ turns, Turns MergeCall.run s turns s' ∧ StartsInOrder turns := by
  induction calls generalizing s with
  | nil =>
    obtain rfl := Option.some.inj h
    exact ⟨[], .nil _, nofun⟩
  | cons call calls ih =>
    obtain ⟨mid, hmid, hrest⟩ := Option.bind_eq_some_iff.1 h
    obtain ⟨r, hr, rfl⟩ := Option.map_eq_some_iff.1 hmid
    obtain ⟨turns, hturns, horder⟩ := ih hrest
    have hreturns : call.run.Returns (.start s (fun _ => pastLedger s) freshIds) () r.2 := by
      rcases heval : call.run.eval (.start s (fun _ => pastLedger s) freshIds) with e | r'
      · rw [heval] at hr
        cases hr
      · rw [heval] at hr
        obtain rfl := Option.some.inj hr
        exact heval
    refine ⟨_, .turn hreturns hturns, fun t ht row hrow => ?_⟩
    obtain rfl | ht := List.mem_cons.1 ht
    · exact lt_pastLedger hrow
    · exact horder t ht row hrow

def accountNames : List String := ["0", "1", "2", "3", "4", "5", "6"]

def sevenAccounts : Db where
  subscribers := ⟨accountNames.map fun n =>
    (n, { projectId := "p1", rovenueId := n, appUserId := some n }), by decide⟩

def chainOfMerges : List MergeCall :=
  [.transfer "p1" "0" "1", .transfer "p1" "1" "2", .transfer "p1" "2" "3", .transfer "p1" "3" "4",
    .transfer "p1" "4" "5", .transfer "p1" "5" "6"]

theorem sevenAccounts_unmerged : Unmerged sevenAccounts := by
  have hget : ∀ id r, footingOf sevenAccounts id = some r →
      r = ⟨"p1", id, false, none⟩ := by
    intro id r hr
    obtain ⟨row, hrow, rfl⟩ := Option.map_eq_some_iff.1 hr
    obtain ⟨n, -, heq⟩ := List.mem_map.1 (sevenAccounts.subscribers.mem_entries.2 hrow)
    obtain ⟨rfl, rfl⟩ := Prod.mk.inj heq
    rfl
  constructor
  · intro id id' r r' hr hr' _ hrovenue
    rw [hget id r hr, hget id' r' hr'] at hrovenue
    exact hrovenue
  · intro id
    rcases hr : footingOf sevenAccounts id with _ | r
    · rw [redirect, hr]
      rfl
    · rw [redirect, hr, hget id r hr]
      rfl

theorem chainOfMerges_returns : (chainOfMerges.foldlM afterCall sevenAccounts).isSome := by
  decide

def afterChain : Db := (chainOfMerges.foldlM afterCall sevenAccounts).get chainOfMerges_returns

theorem chainOfMerges_run : ∃ turns, Turns MergeCall.run sevenAccounts turns afterChain := by
  obtain ⟨turns, hrun, -⟩ := turns_of_afterCall (Option.some_get chainOfMerges_returns).symm
  exact ⟨turns, hrun⟩

theorem six_hops_unresolved : (∃ turns, Turns MergeCall.run sevenAccounts turns afterChain) ∧
    Unmerged sevenAccounts ∧ redirect afterChain "0" = some "1" ∧ Live afterChain "6" ∧
    ((resolveSubscriberByRovenueId "p1" "0").eval
      (.start afterChain (fun _ => 0) freshIds)).toOption.map Prod.fst = some none := by
  refine ⟨chainOfMerges_run, sevenAccounts_unmerged, by decide, ?_, by decide⟩
  exact ⟨⟨"p1", "6", false, none⟩, by decide, rfl⟩

def endowedAccounts : Db where
  subscribers := sevenAccounts.subscribers
  purchases := Table.empty.insert ⟨.appStore, "t1"⟩
    { id := "pur", projectId := "p1", subscriberId := "0", productId := "pro",
      originalTransactionId := "t1", status := .active }
  creditLedger :=
    [{ id := "row", projectId := "p1", subscriberId := "0", type := .purchase,
       currencyId := "coin", amount := 3, balance := 3, createdAt := 0 }]

theorem chainOfMerges_endowed : (chainOfMerges.foldlM afterCall endowedAccounts).isSome := by
  decide +kernel

theorem merged_resolves_within_five_chain : ∃ (s : Db) (owner : String → String),
    chainOfMerges.foldlM afterCall endowedAccounts = some s ∧
    purchaseOwner s ⟨.appStore, "t1"⟩ = some (owner "0") ∧
    balance .createdAt s "6" "coin" = inheritedBalance endowedAccounts owner "6" "coin" := by
  obtain ⟨s, hs⟩ := Option.isSome_iff_exists.1 chainOfMerges_endowed
  obtain ⟨turns, hrun, horder⟩ := turns_of_afterCall hs
  have hstart : Unmerged endowedAccounts :=
    ⟨sevenAccounts_unmerged.unique, sevenAccounts_unmerged.none⟩
  have hnonneg : ∀ a cur, 0 ≤ balance .createdAt endowedAccounts a cur := by
    intro a cur
    by_cases hwallet : "0" = a ∧ "coin" = cur
    · obtain ⟨rfl, rfl⟩ := hwallet
      decide
    · have hrows : walletRows endowedAccounts a cur = [] := by
        simp [walletRows, endowedAccounts, hwallet]
      rw [balance, findLatestBalance, hrows]
      decide
  obtain ⟨owner, -, hpurchases, -, -, hbalances⟩ := merged_resolves_within_five hstart hrun
  exact ⟨s, owner, hs, hpurchases _, hbalances horder hnonneg "6" "coin" (by decide)⟩

end Rovenue
