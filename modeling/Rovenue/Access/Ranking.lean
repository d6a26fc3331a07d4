import Rovenue.Access.SyncRead

/-! Which purchase an entitlement is derived from: the first of the longest-lived. -/

namespace Rovenue
open Txn

def PurchaseWithAccessIds.source (p : PurchaseWithAccessIds) : DesiredAccess :=
  ⟨p.id, p.expiry, p.store⟩

def entitling (purchases : List PurchaseWithAccessIds) (accessId : String) (now : ℤ) :
    List PurchaseWithAccessIds :=
  -- the purchases that entitle to `accessId` at `now`, in query order
  purchases.filter fun p => p.grantsAt now ∧ accessId ∈ p.accessIds

def takeOver (best : Option PurchaseWithAccessIds) (p : PurchaseWithAccessIds) :
    Option PurchaseWithAccessIds :=
  if best.all fun b => isLaterExpiry p.expiry b.expiry then some p else best

def topRanked (purchases : List PurchaseWithAccessIds) : Option PurchaseWithAccessIds :=
  purchases.foldl takeOver none

theorem isLaterExpiry_self (e : Option ℤ) : isLaterExpiry e e = false := by
  cases e <;> simp [isLaterExpiry]

theorem foldl_desire_get? (p : PurchaseWithAccessIds) (accessIds : List String)
    (desired : Table String DesiredAccess) (accessId : String)
    (best : Option PurchaseWithAccessIds)
    (h : desired.get? accessId = best.map PurchaseWithAccessIds.source) :
    (accessIds.foldl p.desire desired).get? accessId =
      (if accessId ∈ accessIds then takeOver best p else best).map
        PurchaseWithAccessIds.source := by
  induction accessIds generalizing desired best with
  | nil => simpa using h
  | cons a accessIds ih =>
    by_cases ha : accessId = a
    · subst ha
      have hstep : (p.desire desired accessId).get? accessId =
          (takeOver best p).map PurchaseWithAccessIds.source := by
        rw [PurchaseWithAccessIds.desire, h, takeOver]
        cases best with
        | none => simp [PurchaseWithAccessIds.source]
        | some b =>
          by_cases hl : isLaterExpiry p.expiry b.expiry = true
          · simp [PurchaseWithAccessIds.source, hl]
          · simp [PurchaseWithAccessIds.source, hl, h]
      have hagain : takeOver (takeOver best p) p = takeOver best p := by
        have hself := isLaterExpiry_self p.expiry
        cases best with
        | none => simp [takeOver, hself]
        | some b => by_cases hl : isLaterExpiry p.expiry b.expiry = true <;> simp [takeOver, hl, hself]
      rw [List.foldl_cons, ih _ _ hstep, hagain]
      simp
    · have hstep : (p.desire desired a).get? accessId = best.map PurchaseWithAccessIds.source := by
        rw [PurchaseWithAccessIds.desire]
        split_ifs
        · rw [Table.get?_set, if_neg ha, h]
        · exact h
      rw [List.foldl_cons, ih _ _ hstep]
      simp [ha]

theorem computeDesiredAccess_get? (purchases : List PurchaseWithAccessIds) (now : ℤ)
    (accessId : String) : (computeDesiredAccess purchases now).get? accessId =
      (topRanked (entitling purchases accessId now)).map PurchaseWithAccessIds.source := by
  induction purchases using List.reverseRecOn with
  | nil => simp [computeDesiredAccess, entitling, topRanked]
  | append_singleton purchases p ih =>
    rw [computeDesiredAccess, List.foldl_append, List.foldl_cons, List.foldl_nil,
      ← computeDesiredAccess, entitling, List.filter_append, topRanked, List.foldl_append,
      ← entitling, ← topRanked]
    by_cases hp : p.grantsAt now = true
    · rw [if_pos hp, foldl_desire_get? p _ _ _ _ ih]
      by_cases ha : accessId ∈ p.accessIds <;> simp [hp, ha]
    · rw [if_neg hp, ih]
      simp [hp]

/-- The earliest of the longest-lived. -/
def Leads (before after : List PurchaseWithAccessIds) (p : PurchaseWithAccessIds) : Prop :=
  (∀ q ∈ before, lifespan q.expiry < lifespan p.expiry) ∧
    ∀ q ∈ after, lifespan q.expiry ≤ lifespan p.expiry

instance (before after : List PurchaseWithAccessIds) (p : PurchaseWithAccessIds) :
    Decidable (Leads before after p) := inferInstanceAs (Decidable (_ ∧ _))

theorem topRanked_leads (purchases : List PurchaseWithAccessIds) :
    match topRanked purchases with
    | none => purchases = []
    | some p => ∃ before after, purchases = before ++ p :: after ∧ Leads before after p := by
  induction purchases using List.reverseRecOn with
  | nil => rfl
  | append_singleton purchases p ih =>
    rw [topRanked, List.foldl_append, List.foldl_cons, List.foldl_nil, ← topRanked]
    cases hbest : topRanked purchases with
    | none =>
      rw [hbest] at ih
      subst ih
      exact ⟨[], [], by simp, by simp [Leads]⟩
    | some b =>
      rw [hbest] at ih
      obtain ⟨before, after, rfl, hbefore, hafter⟩ := ih
      by_cases hl : isLaterExpiry p.expiry b.expiry = true
      · have hlt := isLaterExpiry_iff.1 hl
        simp only [takeOver, Option.all_some, hl, if_true]
        refine ⟨before ++ b :: after, [], by simp, fun q hq => ?_, by simp⟩
        obtain hq | hq := List.mem_append.1 hq
        · exact (hbefore q hq).trans hlt
        · obtain rfl | hq := List.mem_cons.1 hq
          · exact hlt
          · exact (hafter q hq).trans_lt hlt
      · simp only [takeOver, Option.all_some, hl, Bool.false_eq_true, if_false]
        refine ⟨before, after ++ [p], by simp, hbefore, fun q hq => ?_⟩
        obtain hq | hq := List.mem_append.1 hq
        · exact hafter q hq
        · rw [List.mem_singleton.1 hq]
          exact not_lt.1 fun hlt => hl (isLaterExpiry_iff.2 hlt)

theorem topRanked_eq_none_iff {purchases : List PurchaseWithAccessIds} :
    topRanked purchases = none ↔ purchases = [] := by
  have hleads := topRanked_leads purchases
  constructor
  · intro hnone
    rw [hnone] at hleads
    exact hleads
  · intro hnil
    rw [hnil]
    rfl

theorem computeDesiredAccess_eq_none_iff {purchases : List PurchaseWithAccessIds} {now : ℤ}
    {accessId : String} : (computeDesiredAccess purchases now).get? accessId = none ↔
      ∀ q, q ∉ entitling purchases accessId now := by
  rw [computeDesiredAccess_get?, Option.map_eq_none_iff, topRanked_eq_none_iff,
    List.eq_nil_iff_forall_not_mem]

theorem derived_source {purchases : List PurchaseWithAccessIds} {now : ℤ}
    {accessId : String} {target : DesiredAccess}
    (h : (computeDesiredAccess purchases now).get? accessId = some target) :
    ∃ q ∈ entitling purchases accessId now, topRanked (entitling purchases accessId now) = some q ∧
      q.source = target := by
  rw [computeDesiredAccess_get?, Option.map_eq_some_iff] at h
  obtain ⟨q, htop, hq⟩ := h
  have hleads := topRanked_leads (entitling purchases accessId now)
  rw [htop] at hleads
  obtain ⟨before, after, heq, -⟩ := hleads
  exact ⟨q, by simp [heq], htop, hq⟩

theorem topRanked_of_leads {before after : List PurchaseWithAccessIds} {p : PurchaseWithAccessIds}
    (hleads : Leads before after p) : topRanked (before ++ p :: after) = some p := by
  have h := topRanked_leads (before ++ p :: after)
  obtain ⟨hlt, hle⟩ := hleads
  cases htop : topRanked (before ++ p :: after) with
  | none => rw [htop] at h; simp at h
  | some q =>
    rw [htop] at h
    obtain ⟨before', after', hsplit, hlt', hle'⟩ := h
    obtain ⟨l, rfl, hl⟩ | ⟨l, rfl, hl⟩ := List.append_eq_append_iff.1 hsplit
    · cases l with
      | nil =>
        rw [List.nil_append, List.cons.injEq] at hl
        rw [hl.1]
      | cons x l =>
        rw [List.cons_append, List.cons.injEq] at hl
        obtain ⟨rfl, rfl⟩ := hl
        exact absurd (hlt' p (by simp)) (not_lt.2 (hle q (by simp)))
    · cases l with
      | nil =>
        rw [List.nil_append, List.cons.injEq] at hl
        rw [hl.1]
      | cons x l =>
        rw [List.cons_append, List.cons.injEq] at hl
        obtain ⟨rfl, rfl⟩ := hl
        exact absurd (hle' p (by simp)) (not_le.2 (hlt q (by simp)))

theorem topRanked_eq_some_iff {before after : List PurchaseWithAccessIds}
    {p : PurchaseWithAccessIds} (hbefore : p ∉ before) (hafter : p ∉ after) :
    topRanked (before ++ p :: after) = some p ↔ Leads before after p := by
  refine ⟨fun htop => ?_, topRanked_of_leads⟩
  have h := topRanked_leads (before ++ p :: after)
  rw [htop] at h
  obtain ⟨before', after', hsplit, hleads⟩ := h
  obtain ⟨rfl, -, rfl⟩ := (List.append_cons_inj_of_notMem hbefore hafter).1 hsplit
  exact hleads

end Rovenue
