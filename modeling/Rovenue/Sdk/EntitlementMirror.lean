import Rovenue.Sdk.Entitlements

/-! Whether the cached entitlements are the server's. A refresh upserts what a 200
carries and trusts the cache on a 304, whichever user's rows the ETag described. -/

namespace Rovenue.Sdk
open Txn

variable {etagOf : EntitlementMap → String} {r : EntitlementReader} {m : EntitlementMap}
  {t : EntitlementRows} {scope scope' id : String}

/-- Equal maps, and only these, share an ETag. -/
def ContentHash (etagOf : EntitlementMap → String) : Prop :=
  ∀ m m' : EntitlementMap, etagOf m = etagOf m' ↔ ∀ id, m.get? id = m'.get? id

def Mirrors (r : EntitlementReader) (m : EntitlementMap) : Prop :=
  r.listAll.Perm (m.entries.map fun e => rowToEntitlement e.1 e.2.toRow)

/-- Every refresh of the run that returns `Ok` leaves what the server held. -/
def RefreshMirrors (etagOf : EntitlementMap → String) (r : EntitlementReader)
    (calls : List ReaderCall) : Prop :=
  ∀ x ∈ r.run etagOf calls, ∀ held fault, x.2 = .refresh held fault →
    (x.1.refresh (fun wireId => respond etagOf (held wireId)) fault).2 = .ok () →
      Mirrors (x.1.call etagOf x.2) (held x.1.user.rovenueId)

namespace EntitlementReader

def cached (r : EntitlementReader) (id : String) : Option EntitlementRow :=
  r.rows.get? (r.user.currentUserScope, id)

def Fits (etagOf : EntitlementMap → String) (r : EntitlementReader) (m : EntitlementMap) : Prop :=
  -- a cache that a refresh brings to `m`: the rows of `m` itself if the stored ETag is that of `m`,
  -- otherwise no key that `m` lacks
  if r.etag = some (etagOf m) then ∀ id, r.cached id = (m.get? id).map EntitlementWire.toRow
  else ∀ id, r.cached id ≠ none → m.get? id ≠ none

end EntitlementReader

theorem get?_upsertMany {rows : List (String × EntitlementRow)}
    (hn : (rows.map Prod.fst).Nodup) :
    (upsertMany scope rows t).get? (scope', id) =
      if scope' = scope then ((rows.find? fun e => e.1 = id).map Prod.snd).or (t.get? (scope', id))
      else t.get? (scope', id) := by
  induction rows generalizing t with
  | nil => simp [upsertMany]
  | cons e rows ih =>
    rw [List.map_cons, List.nodup_cons] at hn
    have hrest : (upsertMany scope (e :: rows) t).get? (scope', id) = _ := ih hn.2
    rw [hrest, Table.get?_set]
    by_cases hs : scope' = scope
    · subst hs
      by_cases hid : e.1 = id
      · subst hid
        have hnone : rows.find? (fun e' => e'.1 = e.1) = none := by
          rw [List.find?_eq_none]
          intro x hx
          simpa using fun h => hn.1 (List.mem_map.2 ⟨x, hx, h⟩)
        simp [hnone]
      · simp [hid, Ne.symm hid]
    · simp [hs]

theorem get?_upsertMany_mapToRows :
    (upsertMany scope (mapToRows m) t).get? (scope', id) =
      if scope' = scope then ((m.get? id).map EntitlementWire.toRow).or (t.get? (scope', id))
      else t.get? (scope', id) := by
  have hn : ((mapToRows m).map Prod.fst).Nodup := by
    rw [mapToRows, List.map_map]
    exact m.nodup
  have hfind : ((mapToRows m).find? fun e => e.1 = id).map Prod.snd =
      (m.get? id).map EntitlementWire.toRow := by
    rw [mapToRows, List.find?_map, Option.map_map, Table.get?, Option.map_map]
    rfl
  rw [get?_upsertMany hn, hfind]

def Entitlement.row (e : Entitlement) : EntitlementRow :=
  ⟨e.isActive, e.productIdentifier, e.store, e.expiresIso⟩

theorem rowToEntitlement_eq_iff {row : EntitlementRow} {e : Entitlement} :
    rowToEntitlement id row = e ↔ id = e.id ∧ row = e.row := by
  obtain ⟨id', a, p, s, x⟩ := e
  obtain ⟨a', p', s', x'⟩ := row
  simp [rowToEntitlement, Entitlement.row]

theorem mem_listAll {e : Entitlement} : e ∈ r.listAll ↔ r.cached e.id = some e.row := by
  rw [EntitlementReader.cached, ← Table.mem_entries]
  simp only [EntitlementReader.listAll, listRows, List.map_map, List.mem_map, List.mem_filter,
    Function.comp_apply, rowToEntitlement_eq_iff, decide_eq_true_eq]
  constructor
  · rintro ⟨⟨⟨s, i⟩, row⟩, ⟨hmem, rfl⟩, rfl, rfl⟩
    exact hmem
  · intro h
    exact ⟨_, ⟨h, rfl⟩, rfl, rfl⟩

theorem mem_entitlements {e : Entitlement} :
    e ∈ (m.entries.map fun e => rowToEntitlement e.1 e.2.toRow) ↔
      (m.get? e.id).map EntitlementWire.toRow = some e.row := by
  simp only [List.mem_map, rowToEntitlement_eq_iff, Option.map_eq_some_iff, ← Table.mem_entries]
  constructor
  · rintro ⟨⟨i, w⟩, hmem, rfl, hw⟩
    exact ⟨w, hmem, hw⟩
  · rintro ⟨w, hmem, hw⟩
    exact ⟨(e.id, w), hmem, rfl, hw⟩

theorem nodup_listAll : r.listAll.Nodup := by
  have hkeys : (r.rows.entries.filter fun e => e.1.1 = r.user.currentUserScope).Nodup :=
    (List.Nodup.of_map _ r.rows.nodup).filter _
  rw [EntitlementReader.listAll, listRows, List.map_map]
  refine hkeys.map_on fun a ha b hb hab => ?_
  have hscope : a.1.1 = b.1.1 := by
    have h₁ := (List.mem_filter.1 ha).2
    have h₂ := (List.mem_filter.1 hb).2
    rw [decide_eq_true_eq] at h₁ h₂
    rw [h₁, h₂]
  have hrow := rowToEntitlement_eq_iff.1 hab
  exact Prod.ext (Prod.ext hscope hrow.1) hrow.2

theorem nodup_entitlements :
    (m.entries.map fun e => rowToEntitlement e.1 e.2.toRow).Nodup := by
  have hid : ((m.entries.map fun e => rowToEntitlement e.1 e.2.toRow).map
      Entitlement.id).Nodup := by
    rw [List.map_map]
    exact m.nodup
  exact List.Nodup.of_map _ hid

theorem mirrors_iff :
    Mirrors r m ↔ ∀ id, r.cached id = (m.get? id).map EntitlementWire.toRow := by
  rw [Mirrors, List.perm_ext_iff_of_nodup nodup_listAll nodup_entitlements]
  simp only [mem_listAll, mem_entitlements]
  constructor
  · intro h id
    refine Option.ext fun row => ?_
    exact h (rowToEntitlement id row)
  · intro h e
    rw [h]

theorem refresh_ok_cases {server : String → Option String → Response}
    {fault : Option RefreshFault} (h : (r.refresh server fault).2 = .ok ()) :
    (server r.user.rovenueId r.etag = .notModified ∧ (r.refresh server fault).1 = r) ∨
      ∃ held etag, server r.user.rovenueId r.etag = .ok held etag ∧
        (r.refresh server fault).1 = { r with
          rows := upsertMany r.user.currentUserScope (mapToRows held) r.rows
          etag := some etag } := by
  unfold EntitlementReader.refresh at h ⊢
  rcases fault with _ | _ | _ | _ | _ <;> cases hs : server r.user.rovenueId r.etag <;>
    simp_all

theorem mirrors_upsert_iff :
    (∀ id, ((m.get? id).map EntitlementWire.toRow).or (r.cached id) =
        (m.get? id).map EntitlementWire.toRow) ↔
      ∀ id, r.cached id ≠ none → m.get? id ≠ none := by
  constructor
  · intro h id hcached hnone
    have hid := h id
    rw [hnone] at hid
    exact hcached hid
  · intro h id
    cases hm : m.get? id with
    | none =>
      have hnone : r.cached id = none := by
        by_contra hcached
        exact h id hcached hm
      rw [hnone]
      rfl
    | some w => rfl

theorem mirrors_refresh_iff {held : String → EntitlementMap} {fault : Option RefreshFault}
    (hok : (r.refresh (fun wireId => respond etagOf (held wireId)) fault).2 = .ok ()) :
    Mirrors (r.call etagOf (.refresh held fault)) (held r.user.rovenueId) ↔
      r.Fits etagOf (held r.user.rovenueId) := by
  -- an upsert removes nothing and a 304 touches nothing, so a refresh brings the cache to `m`
  -- exactly from a cache that fits it
  rw [mirrors_iff, EntitlementReader.Fits, EntitlementReader.call]
  rcases refresh_ok_cases hok with ⟨hserver, hsame⟩ | ⟨m, etag, hserver, hsame⟩
  · have hetag : r.etag = some (etagOf (held r.user.rovenueId)) := by
      by_contra hne
      rw [respond, if_neg hne] at hserver
      cases hserver
    rw [hsame, if_pos hetag]
  · have hetag : r.etag ≠ some (etagOf (held r.user.rovenueId)) := by
      intro heq
      rw [respond, if_pos heq] at hserver
      cases hserver
    rw [respond, if_neg hetag] at hserver
    cases hserver
    rw [hsame, if_neg hetag, ← mirrors_upsert_iff]
    simp only [EntitlementReader.cached, get?_upsertMany_mapToRows, if_true]

end Rovenue.Sdk
