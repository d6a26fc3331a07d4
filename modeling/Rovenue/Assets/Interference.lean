import Rovenue.Assets.AssetRoutes
import Rovenue.Txn.Guarantee

/-! What the calls on the asset store owe one another: an invariant of every committed state, what
a call may rely on between its statements, and what each of its commits guarantees. -/

namespace Rovenue.Assets
open Txn

def CleanId (id : String) : Prop := '/' ∉ id.toList ∧ '.' ∉ id.toList

instance (id : String) : Decidable (CleanId id) := inferInstanceAs (Decidable (_ ∧ _))

theorem split_unique {α : Type} {sep : α} {xs xs' ys ys' : List α} (hy : sep ∉ ys)
    (hy' : sep ∉ ys') (h : xs ++ sep :: ys = xs' ++ sep :: ys') : xs = xs' ∧ ys = ys' := by
  rw [List.append_eq_append_iff] at h
  obtain ⟨zs, hx, hz⟩ | ⟨zs, hx, hz⟩ := h
  · cases zs with
    | nil => exact ⟨by simpa using hx.symm, (List.cons.inj hz).2⟩
    | cons z zs =>
      obtain ⟨rfl, rfl⟩ := List.cons.inj hz
      exact absurd (by simp) hy
  · cases zs with
    | nil => exact ⟨by simpa using hx, (List.cons.inj hz).2.symm⟩
    | cons z zs =>
      obtain ⟨rfl, rfl⟩ := List.cons.inj hz
      exact absurd (by simp) hy'

theorem split_unique_left {α : Type} {sep : α} {xs xs' ys ys' : List α} (hx : sep ∉ xs)
    (hx' : sep ∉ xs') (h : xs ++ sep :: ys = xs' ++ sep :: ys') : xs = xs' := by
  have hrev := congrArg List.reverse h
  simp only [List.reverse_append, List.reverse_cons, List.append_assoc,
    List.singleton_append] at hrev
  have hsplit := split_unique (by simpa using hx) (by simpa using hx') hrev
  simpa using hsplit.2

theorem buildStorageKey_assetId {p p' id id' : String} {kind kind' : AssetKind} (h : CleanId id)
    (h' : CleanId id') (heq : buildStorageKey p id kind = buildStorageKey p' id' kind') :
    id = id' := by
  have hslash : ∀ k : AssetKind, '/' ∉ k.fileExtension.toList := by
    intro k
    cases k <;> decide
  have hlist := congrArg String.toList heq
  simp only [buildStorageKey, String.toList_append, List.append_assoc] at hlist
  have hname := (@split_unique _ '/' _ _ _ _
    (by simpa using ⟨h.1, hslash kind⟩) (by simpa using ⟨h'.1, hslash kind'⟩) hlist).2
  exact String.toList_inj.1 (split_unique_left h.2 h'.2 hname)

section Log
variable {ι : Type} {h : History ι AssetDb Write} {i : ι} {ws : List Write} {key id : String}
  {t : ℤ} {r : PaywallAssetReservation}

def Put (h : History ι AssetDb Write) (key : String) (t : ℤ) : Prop :=
  ∃ i, (i, [.putObject key t]) ∈ h.log

def Opened (h : History ι AssetDb Write) (id : String) (r : PaywallAssetReservation) : Prop :=
  ∃ i, (i, [.insertReservation id r]) ∈ h.log

theorem put_commit : Put (h.commit i ws) key t ↔ Put h key t ∨ ws = [.putObject key t] := by
  simp only [Put, History.commit_log, List.mem_append, List.mem_singleton, Prod.mk.injEq]
  constructor
  · rintro ⟨j, hj | ⟨-, hw⟩⟩
    · exact .inl ⟨j, hj⟩
    · exact .inr hw.symm
  · rintro (⟨j, hj⟩ | rfl)
    · exact ⟨j, .inl hj⟩
    · exact ⟨i, .inr ⟨rfl, rfl⟩⟩

theorem opened_commit :
    Opened (h.commit i ws) id r ↔ Opened h id r ∨ ws = [.insertReservation id r] := by
  simp only [Opened, History.commit_log, List.mem_append, List.mem_singleton, Prod.mk.injEq]
  constructor
  · rintro ⟨j, hj | ⟨-, hw⟩⟩
    · exact .inl ⟨j, hj⟩
    · exact .inr hw.symm
  · rintro (⟨j, hj⟩ | rfl)
    · exact ⟨j, .inl hj⟩
    · exact ⟨i, .inr ⟨rfl, rfl⟩⟩

/-- A commit that inserts an asset row comes within the grace window of the object's put and of
its reservation, and the reservation covers the bytes. -/
def InTime (ws : List Write) (h : History ι AssetDb Write) : Prop :=
  ∀ id row, .insertAsset id row ∈ ws →
    (∀ t, Put h row.storageKey t → h.db.now < t + graceMs) ∧
      ∀ id r, .deleteReservation id ∈ ws → Opened h id r →
        h.db.now < r.createdAt + graceMs ∧ row.byteSize ≤ r.bytes

def InTimeAfter (ws : List Write) (now : ℤ) (row : PaywallAsset) : List Write → Prop
  | [.putObject key t] => key = row.storageKey → now < t + graceMs
  | [.insertReservation id r] => .deleteReservation id ∈ ws →
      now < r.createdAt + graceMs ∧ row.byteSize ≤ r.bytes
  | _ => True

instance (ws : List Write) (now : ℤ) (row : PaywallAsset) (logged : List Write) :
    Decidable (InTimeAfter ws now row logged) := by
  unfold InTimeAfter
  split <;> infer_instance

theorem inTime_iff : InTime ws h ↔ ∀ w ∈ ws, match w with
    | .insertAsset _ row => ∀ c ∈ h.log, InTimeAfter ws h.db.now row c.2
    | _ => True := by
  constructor
  · intro htime w hw
    split
    · rename_i id row
      rintro ⟨j, logged⟩ hlog
      obtain ⟨hput, hres⟩ := htime id row hw
      unfold InTimeAfter
      split
      · rename_i key t heq
        rintro rfl
        exact hput t ⟨j, by rwa [← heq]⟩
      · rename_i rid r heq
        exact fun hmem => hres rid r hmem ⟨j, by rwa [← heq]⟩
      · trivial
    · trivial
  · intro hall id row hmem
    have hrow : ∀ c ∈ h.log, InTimeAfter ws h.db.now row c.2 := hall _ hmem
    exact ⟨fun t ⟨j, hput⟩ => hrow _ hput rfl, fun rid r hdel ⟨j, hopened⟩ => hrow _ hopened hdel⟩

instance (ws : List Write) (h : History ι AssetDb Write) : Decidable (InTime ws h) :=
  let _each (w : Write) : Decidable (match w with
      | .insertAsset _ row => ∀ c ∈ h.log, InTimeAfter ws h.db.now row c.2
      | _ => True) :=
    match w with
    | .insertAsset _ row => inferInstanceAs (Decidable (∀ c ∈ h.log, InTimeAfter ws h.db.now row c.2))
    | .advance _ => .isTrue trivial
    | .insertReservation _ _ => .isTrue trivial
    | .deleteReservation _ => .isTrue trivial
    | .expireReservation _ _ => .isTrue trivial
    | .softDelete _ _ => .isTrue trivial
    | .putObject _ _ => .isTrue trivial
    | .deleteObject _ => .isTrue trivial
  decidable_of_iff _ inTime_iff.symm

end Log

section Invariant
variable {ι : Type}

/-- `createId` repeats no id, and its ids are as `CleanId` has them. -/
structure Distinct (calls : ι → Call) (s₀ : AssetDb) : Prop where
  assetId : ∀ {i j u v}, calls i = .upload u → calls j = .upload v → u.assetId = v.assetId → i = j
  reservationId : ∀ {i j u v}, calls i = .upload u → calls j = .upload v →
    u.reservationId = v.reservationId → i = j
  clean : ∀ {i u}, calls i = .upload u → CleanId u.assetId
  limited : ∀ {i u}, calls i = .upload u → u.reservationId ≠ UNLIMITED_RESERVATION
  asset : ∀ {i u}, calls i = .upload u → s₀.assets.get? u.assetId = none
  object : ∀ {i u}, calls i = .upload u → s₀.bucket.get? u.storageKey = none
  reservation : ∀ {i u}, calls i = .upload u → s₀.reservations.get? u.reservationId = none

/-- A row's key is the one its id gives. -/
def WellKeyed (s : AssetDb) : Prop :=
  ∀ id row, s.assets.get? id = some row →
    CleanId id ∧ row.storageKey = buildStorageKey row.projectId id row.kind

def WithinQuota (s : AssetDb) : Prop :=
  ∀ projectId limit, tierLimitBytes s.billing projectId = some limit →
    (chargedBytes s projectId : ℤ) ≤ limit

/-- No live row points at bytes that are gone. -/
def LiveStored (s : AssetDb) : Prop :=
  ∀ id row, s.assets.get? id = some row → row.live → (s.bucket.get? row.storageKey).isSome

structure Sound (s₀ : AssetDb) (h : History ι AssetDb Write) : Prop where
  billing : h.db.billing = s₀.billing
  quota : WithinQuota h.db
  keyed : WellKeyed h.db
  stored : LiveStored h.db
  origin : ∀ key t, h.db.bucket.get? key = some t → s₀.bucket.get? key = some t ∨ Put h key t
  putOnce : ∀ key t t', Put h key t → Put h key t' → t = t'
  putNew : ∀ key t, Put h key t → s₀.bucket.get? key = none

variable {s₀ : AssetDb} {h : History ι AssetDb Write} {key : String}

theorem Sound.lastModified (hs : Sound s₀ h) {t t' : ℤ} (hobj : h.db.bucket.get? key = some t)
    (hput : Put h key t') : t = t' := by
  obtain hold | hnew := hs.origin key t hobj
  · rw [hs.putNew key t' hput] at hold
    cases hold
  · exact hs.putOnce key t t' hnew hput

theorem WellKeyed.id_eq {s : AssetDb} (hs : WellKeyed s) {id id' : String}
    {row row' : PaywallAsset} (h : s.assets.get? id = some row)
    (h' : s.assets.get? id' = some row') (hkey : row.storageKey = row'.storageKey) : id = id' := by
  obtain ⟨hclean, hrow⟩ := hs id row h
  obtain ⟨hclean', hrow'⟩ := hs id' row' h'
  exact buildStorageKey_assetId hclean hclean' (by rw [← hrow, ← hrow', hkey])

theorem WellKeyed.key_ne {s : AssetDb} (hs : WellKeyed s) {u : Upload} (hclean : CleanId u.assetId)
    (hnone : s.assets.get? u.assetId = none) {id : String} {row : PaywallAsset}
    (h : s.assets.get? id = some row) : row.storageKey ≠ u.storageKey := by
  intro hkey
  obtain ⟨hid, hrow⟩ := hs id row h
  obtain rfl := buildStorageKey_assetId hid hclean (hrow.symm.trans hkey)
  rw [hnone] at h
  cases h

end Invariant

section Commits
variable {ι : Type} (calls : ι → Call) (s₀ : AssetDb)

def Reserved (u : Upload) (reservationId : String) (h : History ι AssetDb Write) : Prop :=
  -- the reservation an upload goes on with: none is needed, or it was opened and is still open
  -- within its grace window
  (reservationId = UNLIMITED_RESERVATION ∧ tierLimitBytes s₀.billing u.projectId = none) ∨
    reservationId = u.reservationId ∧ ∃ r, Opened h reservationId r ∧ r.projectId = u.projectId ∧
      (h.db.now < r.createdAt + graceMs → h.db.reservations.get? reservationId = some r)

/-- The upload has put its object, which is there within its grace window. -/
def Stored (u : Upload) (h : History ι AssetDb Write) : Prop :=
  ∃ t, Put h u.storageKey t ∧
    (h.db.now < t + graceMs → h.db.bucket.get? u.storageKey = some t)

def releaseWrites (reservationId : String) : List Write :=
  if reservationId = UNLIMITED_RESERVATION then [] else [.deleteReservation reservationId]

/-- What a client may commit, holding `held`. -/
inductive Lawful (i : ι) (held : Set LockKey) (h : History ι AssetDb Write) : List Write → Prop where
  | nothing : Lawful i held h []
  | elapse (n : ℕ) : Lawful i held h [.advance n]
  | reserve {u : Upload} {limit : ℤ} {bytes : ℕ} (t : ℤ) (hcall : calls i = .upload u)
      (hlimit : tierLimitBytes s₀.billing u.projectId = some limit)
      (hheld : .quota u.projectId ∈ held) (hfit : chargedBytes h.db u.projectId + bytes ≤ limit)
      (hnew : h.db.reservations.get? u.reservationId = none) :
      Lawful i held h [.insertReservation u.reservationId ⟨u.projectId, bytes, t⟩]
  | release {u : Upload} (hcall : calls i = .upload u) :
      Lawful i held h [.deleteReservation u.reservationId]
  | put {u : Upload} (t : ℤ) (hcall : calls i = .upload u)
      (hrow : h.db.assets.get? u.assetId = none) (hnew : ∀ t, ¬Put h u.storageKey t) :
      Lawful i held h [.putObject u.storageKey t]
  | create {u : Upload} {c : Content} {reservationId : String} (hcall : calls i = .upload u)
      (hrow : h.db.assets.get? u.assetId = none) (hstored : Stored u h)
      (hreserved : Reserved s₀ u reservationId h) :
      Lawful i held h (.insertAsset u.assetId (u.row c) :: releaseWrites reservationId)
  | discard {u : Upload} (hcall : calls i = .upload u)
      (hrow : h.db.assets.get? u.assetId = none) : Lawful i held h [.deleteObject u.storageKey]
  | tombstone (id : String) (t : ℤ) : Lawful i held h [.softDelete id t]
  | purge {id : String} {row : PaywallAsset} (hrow : h.db.assets.get? id = some row)
      (hdead : row.live = false) : Lawful i held h [.deleteObject row.storageKey]
  | sweep {key : String}
      (hlive : ∀ id row, h.db.assets.get? id = some row → row.live → row.storageKey ≠ key)
      (hold : ∀ t, h.db.bucket.get? key = some t → t + graceMs ≤ h.db.now) :
      Lawful i held h [.deleteObject key]
  | expire {cutoff : ℤ} (ids : List String) (hold : cutoff + graceMs ≤ h.db.now) :
      Lawful i held h (ids.map (.expireReservation · cutoff))

/-- What the others leave to client `i` while it holds `held`. -/
structure Spares (i : ι) (held : Set LockKey) (h h' : History ι AssetDb Write) : Prop where
  now : h.db.now ≤ h'.db.now
  put : ∀ key t, Put h key t → Put h' key t
  opened : ∀ id r, Opened h id r → Opened h' id r
  ownPut : ∀ u, calls i = .upload u → ∀ t, Put h' u.storageKey t → Put h u.storageKey t
  ownRow : ∀ u, calls i = .upload u → h.db.assets.get? u.assetId = none →
    h'.db.assets.get? u.assetId = none
  ownObject : ∀ u, calls i = .upload u → h.db.assets.get? u.assetId = none →
    ∀ t, h.db.bucket.get? u.storageKey = some t → h'.db.now < t + graceMs →
      h'.db.bucket.get? u.storageKey = some t
  ownReservation : ∀ u, calls i = .upload u → ∀ r,
    h.db.reservations.get? u.reservationId = some r → h'.db.now < r.createdAt + graceMs →
      h'.db.reservations.get? u.reservationId = some r
  noReservation : ∀ u, calls i = .upload u → h.db.reservations.get? u.reservationId = none →
    h'.db.reservations.get? u.reservationId = none
  rows : ∀ id row, h.db.assets.get? id = some row → ∃ row', h'.db.assets.get? id = some row' ∧
    row'.storageKey = row.storageKey ∧ row'.projectId = row.projectId ∧
      (row.live = false → row'.live = false)
  live : ∀ id row, h'.db.assets.get? id = some row → row.live →
    (∃ row', h.db.assets.get? id = some row' ∧ row'.live) ∨
      ∃ t, Put h' row.storageKey t ∧ h.db.now < t + graceMs
  quota : ∀ projectId limit, tierLimitBytes s₀.billing projectId = some limit →
    .quota projectId ∈ held → chargedBytes h'.db projectId ≤ chargedBytes h.db projectId

variable {calls s₀} {i : ι} {held : Set LockKey} {h h' h'' : History ι AssetDb Write}

theorem Spares.refl : Spares calls s₀ i held h h where
  now := le_refl _
  put _ _ hput := hput
  opened _ _ hopened := hopened
  ownPut _ _ _ hput := hput
  ownRow _ _ hrow := hrow
  ownObject _ _ _ _ hobj _ := hobj
  ownReservation _ _ _ hres _ := hres
  noReservation _ _ hres := hres
  rows _ row hrow := ⟨row, hrow, rfl, rfl, id⟩
  live _ row hrow hlive := .inl ⟨row, hrow, hlive⟩
  quota _ _ _ _ := le_refl _

theorem Spares.trans (h₁ : Spares calls s₀ i held h h') (h₂ : Spares calls s₀ i held h' h'') :
    Spares calls s₀ i held h h'' where
  now := h₁.now.trans h₂.now
  put key t hput := h₂.put key t (h₁.put key t hput)
  opened id r hopened := h₂.opened id r (h₁.opened id r hopened)
  ownPut u hu t hput := h₁.ownPut u hu t (h₂.ownPut u hu t hput)
  ownRow u hu hrow := h₂.ownRow u hu (h₁.ownRow u hu hrow)
  ownObject u hu hrow t hobj hnow := by
    have hearly : h'.db.now < t + graceMs := h₂.now.trans_lt hnow
    exact h₂.ownObject u hu (h₁.ownRow u hu hrow) t (h₁.ownObject u hu hrow t hobj hearly) hnow
  ownReservation u hu r hres hnow := by
    have hearly : h'.db.now < r.createdAt + graceMs := h₂.now.trans_lt hnow
    exact h₂.ownReservation u hu r (h₁.ownReservation u hu r hres hearly) hnow
  noReservation u hu hres := h₂.noReservation u hu (h₁.noReservation u hu hres)
  rows id row hrow := by
    obtain ⟨row', hrow', hkey, hproject, hdead⟩ := h₁.rows id row hrow
    obtain ⟨row'', hrow'', hkey', hproject', hdead'⟩ := h₂.rows id row' hrow'
    exact ⟨row'', hrow'', hkey'.trans hkey, hproject'.trans hproject, fun hd => hdead' (hdead hd)⟩
  live id row hrow hlive := by
    obtain ⟨row', hrow', hlive'⟩ | ⟨t, hput, hnow⟩ := h₂.live id row hrow hlive
    · obtain hbefore | ⟨t, hput, hnow⟩ := h₁.live id row' hrow' hlive'
      · exact .inl hbefore
      · obtain ⟨row₂, hrow₂, hkey, -⟩ := h₂.rows id row' hrow'
        obtain rfl := Option.some.inj (hrow.symm.trans hrow₂)
        rw [← hkey] at hput
        exact .inr ⟨t, h₂.put _ t hput, hnow⟩
    · exact .inr ⟨t, hput, h₁.now.trans_lt hnow⟩
  quota p limit hlimit hheld :=
    (h₂.quota p limit hlimit hheld).trans (h₁.quota p limit hlimit hheld)

end Commits

section Effects
variable {s : AssetDb} {id key projectId : String} {t : ℤ} {r : PaywallAssetReservation}
  {row : PaywallAsset}

def PaywallAsset.charge (projectId : String) (row : PaywallAsset) : ℕ :=
  if row.projectId = projectId ∧ row.live then row.byteSize else 0

def PaywallAssetReservation.charge (projectId : String) (r : PaywallAssetReservation) : ℕ :=
  if r.projectId = projectId then r.bytes else 0

theorem applyAll_one (s : AssetDb) (w : Write) : applyAll s [w] = s.write w := rfl

theorem chargedBytes_insertReservation (h : s.reservations.get? id = none) :
    chargedBytes (s.write (.insertReservation id r)) projectId =
      chargedBytes s projectId + r.charge projectId := by
  have hsum : reservedBytes (s.write (.insertReservation id r)) projectId =
      reservedBytes s projectId + r.charge projectId := Table.total_insert h
  have hused : usedBytes (s.write (.insertReservation id r)) projectId = usedBytes s projectId :=
    rfl
  rw [chargedBytes, chargedBytes, hsum, hused, Nat.add_assoc]

theorem chargedBytes_deleteReservation_le :
    chargedBytes (s.write (.deleteReservation id)) projectId ≤ chargedBytes s projectId :=
  Nat.add_le_add_left Table.total_erase_le _

theorem chargedBytes_deleteReservation (h : s.reservations.get? id = some r) :
    chargedBytes (s.write (.deleteReservation id)) projectId + r.charge projectId =
      chargedBytes s projectId := by
  have hsum : reservedBytes (s.write (.deleteReservation id)) projectId + r.charge projectId =
      reservedBytes s projectId := Table.total_erase h
  have hused : usedBytes (s.write (.deleteReservation id)) projectId = usedBytes s projectId := rfl
  rw [chargedBytes, chargedBytes, hused, ← hsum, Nat.add_assoc]

theorem chargedBytes_insertAsset (h : s.assets.get? id = none) :
    chargedBytes (s.write (.insertAsset id row)) projectId =
      chargedBytes s projectId + row.charge projectId := by
  have hsum : usedBytes (s.write (.insertAsset id row)) projectId =
      usedBytes s projectId + row.charge projectId := Table.total_insert h
  have hreserved : reservedBytes (s.write (.insertAsset id row)) projectId =
      reservedBytes s projectId := rfl
  rw [chargedBytes, chargedBytes, hsum, hreserved]
  omega

theorem chargedBytes_softDelete_le :
    chargedBytes (s.write (.softDelete id t)) projectId ≤ chargedBytes s projectId := by
  refine Nat.add_le_add_right (Table.total_modify_le fun row => ?_) _
  simp

theorem WithinQuota.mono {s' : AssetDb} (hs : WithinQuota s) (hbilling : s'.billing = s.billing)
    (hcharged : ∀ p, chargedBytes s' p ≤ chargedBytes s p) : WithinQuota s' := by
  intro p limit hlimit
  rw [hbilling] at hlimit
  have hle := hs p limit hlimit
  have hless := hcharged p
  omega

theorem get?_expireReservation (cutoff : ℤ) (t : Table String PaywallAssetReservation)
    (id k : String) : (expireReservation cutoff t id).get? k =
      if k = id then (t.get? k).filter (fun row => !decide (row.createdAt < cutoff))
      else t.get? k := by
  rw [expireReservation]
  by_cases hk : k = id
  · subst hk
    cases hr : t.get? k with
    | none => simp [hr]
    | some r =>
      by_cases hold : r.createdAt < cutoff
      · simp [hold, Option.filter, Table.get?_erase]
      · simp [hr, hold, Option.filter]
  · split_ifs
    · rw [Table.get?_erase, if_neg hk]
    · rfl

theorem total_expireReservation_le (cutoff : ℤ) (t : Table String PaywallAssetReservation)
    (id : String) (f : String → PaywallAssetReservation → ℕ) :
    (expireReservation cutoff t id).total f ≤ t.total f := by
  rw [expireReservation]
  split_ifs
  · exact Table.total_erase_le
  · exact le_refl _

structure Expires (cutoff : ℤ) (s s' : AssetDb) : Prop where
  rest : s' = { s with reservations := s'.reservations }
  young : ∀ id r, s.reservations.get? id = some r → cutoff ≤ r.createdAt →
    s'.reservations.get? id = some r
  none : ∀ id, s.reservations.get? id = none → s'.reservations.get? id = none
  charged : ∀ projectId, chargedBytes s' projectId ≤ chargedBytes s projectId

theorem expires_applyAll (cutoff : ℤ) (ids : List String) (s : AssetDb) :
    Expires cutoff s (applyAll s (ids.map (Write.expireReservation · cutoff))) := by
  induction ids generalizing s with
  | nil => exact ⟨rfl, fun _ _ hr _ => hr, fun _ hr => hr, fun _ => le_refl _⟩
  | cons id ids ih =>
    have hrest := ih (s.write (.expireReservation id cutoff))
    have hget := get?_expireReservation cutoff s.reservations id
    refine ⟨hrest.rest, fun k r hr hyoung => hrest.young k r ((hget k).trans ?_) hyoung,
      fun k hr => hrest.none k ((hget k).trans ?_), fun p => (hrest.charged p).trans ?_⟩
    · have hnot : ¬r.createdAt < cutoff := not_lt.2 hyoung
      simp [hr, hnot, Option.filter]
    · simp [hr]
    · exact Nat.add_le_add_left (total_expireReservation_le cutoff _ id _) _

end Effects

section Keeps
variable {ι : Type} {calls : ι → Call} {s₀ : AssetDb} {h : History ι AssetDb Write} {i : ι}
  {held : Set LockKey} {ws : List Write}

theorem Sound.commit (hs : Sound s₀ h) (hws : ∀ key t, ws ≠ [.putObject key t])
    (hbilling : (applyAll h.db ws).billing = h.db.billing)
    (hbucket : ∀ key t, (applyAll h.db ws).bucket.get? key = some t →
      h.db.bucket.get? key = some t)
    (hquota : WithinQuota (applyAll h.db ws)) (hkeyed : WellKeyed (applyAll h.db ws))
    (hstored : LiveStored (applyAll h.db ws)) : Sound s₀ (h.commit i ws) := by
  have hput : ∀ key t, Put (h.commit i ws) key t → Put h key t := fun key t hnew =>
    (put_commit.1 hnew).resolve_right (hws key t)
  exact {
    billing := hbilling.trans hs.billing
    quota := hquota
    keyed := hkeyed
    stored := hstored
    origin := fun key t hobj =>
      (hs.origin key t (hbucket key t hobj)).imp_right fun hold => put_commit.2 (.inl hold)
    putOnce := fun key t t' hnew hnew' => hs.putOnce key t t' (hput key t hnew) (hput key t' hnew')
    putNew := fun key t hnew => hs.putNew key t (hput key t hnew) }

theorem Sound.deleteObject (hs : Sound s₀ h) {key : String}
    (hdead : ∀ id row, h.db.assets.get? id = some row → row.live → row.storageKey ≠ key) :
    Sound s₀ (h.commit i [.deleteObject key]) := by
  have hget : ∀ k, (h.db.write (.deleteObject key)).bucket.get? k =
      if k = key then none else h.db.bucket.get? k := fun k => Table.get?_erase _
  refine hs.commit (by simp) rfl ?_ hs.quota hs.keyed ?_
  · intro k t hobj
    have hk := (hget k).symm.trans hobj
    split_ifs at hk
    exact hk
  · intro id row hrow hlive
    have hobj := hs.stored id row hrow hlive
    have hne := hdead id row hrow hlive
    change ((h.db.write (.deleteObject key)).bucket.get? row.storageKey).isSome
    rw [hget, if_neg hne]
    exact hobj

theorem Sound.reserve (hs : Sound s₀ h) {id projectId : String} {limit : ℤ} {bytes : ℕ} (t : ℤ)
    (hlimit : tierLimitBytes s₀.billing projectId = some limit)
    (hfit : chargedBytes h.db projectId + bytes ≤ limit)
    (hnew : h.db.reservations.get? id = none) :
    Sound s₀ (h.commit i [.insertReservation id ⟨projectId, bytes, t⟩]) := by
  refine hs.commit (by simp) rfl (fun _ _ hobj => hobj) ?_ hs.keyed hs.stored
  intro p limit' hlimit'
  have hcharged : chargedBytes (h.db.write (.insertReservation id ⟨projectId, bytes, t⟩)) p =
      chargedBytes h.db p + PaywallAssetReservation.charge p ⟨projectId, bytes, t⟩ :=
    chargedBytes_insertReservation hnew
  rw [applyAll_one, hcharged, PaywallAssetReservation.charge]
  by_cases hp : projectId = p
  · subst hp
    obtain rfl : limit = limit' := by
      have hsame : tierLimitBytes s₀.billing projectId = some limit' := hs.billing ▸ hlimit'
      exact Option.some.inj (hlimit.symm.trans hsame)
    rw [if_pos rfl]
    exact_mod_cast hfit
  · rw [if_neg hp, Nat.add_zero]
    exact hs.quota p limit' hlimit'

theorem Sound.put (hs : Sound s₀ h) {key : String} {t : ℤ} (hnew : ∀ t, ¬Put h key t)
    (hobject : s₀.bucket.get? key = none) : Sound s₀ (h.commit i [.putObject key t]) := by
  have hget : ∀ k, (h.db.write (.putObject key t)).bucket.get? k =
      if k = key then some t else h.db.bucket.get? k := fun k => Table.get?_set _
  have hput : ∀ k t', Put (h.commit i [.putObject key t]) k t' →
      Put h k t' ∧ k ≠ key ∨ k = key ∧ t' = t := by
    intro k t' hk
    obtain hold | heq := put_commit.1 hk
    · refine .inl ⟨hold, ?_⟩
      rintro rfl
      exact hnew t' hold
    · simp only [List.cons.injEq, Write.putObject.injEq, and_true] at heq
      exact .inr ⟨heq.1.symm, heq.2.symm⟩
  refine ⟨hs.billing, hs.quota, hs.keyed, ?_, ?_, ?_, ?_⟩
  · intro id row hrow hlive
    change ((h.db.write (.putObject key t)).bucket.get? row.storageKey).isSome
    rw [hget]
    split_ifs
    · rfl
    · exact hs.stored id row hrow hlive
  · intro k t' hobj
    have hk := (hget k).symm.trans hobj
    split_ifs at hk with heq
    · obtain rfl := Option.some.inj hk
      subst heq
      exact .inr (put_commit.2 (.inr rfl))
    · exact (hs.origin k t' hk).imp_right fun hold => put_commit.2 (.inl hold)
  · intro k t₁ t₂ h₁ h₂
    obtain ⟨hold₁, hne₁⟩ | ⟨hkey₁, rfl⟩ := hput k t₁ h₁
    · obtain ⟨hold₂, -⟩ | ⟨hkey₂, -⟩ := hput k t₂ h₂
      · exact hs.putOnce k t₁ t₂ hold₁ hold₂
      · exact absurd hkey₂ hne₁
    · obtain ⟨-, hne₂⟩ | ⟨-, rfl⟩ := hput k t₂ h₂
      · exact absurd hkey₁ hne₂
      · rfl
  · intro k t' hk
    obtain ⟨hold, -⟩ | ⟨rfl, -⟩ := hput k t' hk
    · exact hs.putNew k t' hold
    · exact hobject

theorem Sound.tombstone (hs : Sound s₀ h) (id : String) (t : ℤ) :
    Sound s₀ (h.commit i [.softDelete id t]) := by
  have hget : ∀ k, (h.db.write (.softDelete id t)).assets.get? k =
      if k = id then (h.db.assets.get? k).map (PaywallAsset.tombstone t)
      else h.db.assets.get? k := fun k => Table.get?_modify _
  have hquota : WithinQuota (h.db.write (.softDelete id t)) :=
    hs.quota.mono rfl fun p => chargedBytes_softDelete_le
  refine hs.commit (by simp) rfl (fun _ _ hobj => hobj) hquota ?_ ?_
  · intro k row hrow
    have hk := (hget k).symm.trans hrow
    split_ifs at hk
    · obtain ⟨row', hrow', rfl⟩ := Option.map_eq_some_iff.1 hk
      exact hs.keyed k row' hrow'
    · exact hs.keyed k row hk
  · intro k row hrow hlive
    have hk := (hget k).symm.trans hrow
    split_ifs at hk
    · obtain ⟨row', -, rfl⟩ := Option.map_eq_some_iff.1 hk
      rw [PaywallAsset.tombstone_live] at hlive
      cases hlive
    · exact hs.stored k row hk hlive

theorem applyAll_create (s : AssetDb) (id reservationId : String) (row : PaywallAsset) :
    applyAll s (.insertAsset id row :: releaseWrites reservationId) =
      { s with
        assets := s.assets.insert id row
        reservations := if reservationId = UNLIMITED_RESERVATION then s.reservations
          else s.reservations.erase reservationId } := by
  rw [releaseWrites]
  split_ifs <;> rfl

theorem chargedBytes_create_le {u : Upload} {c : Content} {reservationId : String}
    (hlimited : u.reservationId ≠ UNLIMITED_RESERVATION)
    (hrow : h.db.assets.get? u.assetId = none) (hreserved : Reserved s₀ u reservationId h)
    (htime : InTime (.insertAsset u.assetId (u.row c) :: releaseWrites reservationId) h)
    {p : String} {limit : ℤ} (hlimit : tierLimitBytes s₀.billing p = some limit) :
    chargedBytes (applyAll h.db (.insertAsset u.assetId (u.row c) :: releaseWrites reservationId)) p
      ≤ chargedBytes h.db p := by
  obtain ⟨rfl, hnone⟩ | ⟨rfl, r, hopened, hproject, hopen⟩ := hreserved
  · have hp : u.projectId ≠ p := by
      rintro rfl
      rw [hnone] at hlimit
      cases hlimit
    have hcharge : (u.row c).charge p = 0 := if_neg fun hand => hp hand.1
    have hcharged : chargedBytes (h.db.write (.insertAsset u.assetId (u.row c))) p =
        chargedBytes h.db p + (u.row c).charge p := chargedBytes_insertAsset hrow
    exact (hcharged.trans (by rw [hcharge, Nat.add_zero])).le
  · have hws : releaseWrites u.reservationId = [.deleteReservation u.reservationId] :=
      if_neg hlimited
    rw [hws] at htime ⊢
    obtain ⟨-, hbytes⟩ := htime _ _ List.mem_cons_self
    obtain ⟨hnow, hcover⟩ := hbytes _ r (by simp) hopened
    have hcharge : (u.row c).charge p ≤ r.charge p := by
      rw [PaywallAsset.charge, PaywallAssetReservation.charge, hproject]
      by_cases hp : u.projectId = p
      · rw [if_pos ⟨hp, rfl⟩, if_pos hp]
        exact hcover
      · rw [if_neg fun hand => hp hand.1]
        exact Nat.zero_le _
    set s₁ := h.db.write (.insertAsset u.assetId (u.row c))
    have hinsert : chargedBytes s₁ p = chargedBytes h.db p + (u.row c).charge p :=
      chargedBytes_insertAsset hrow
    have hdelete : chargedBytes (s₁.write (.deleteReservation u.reservationId)) p + r.charge p =
        chargedBytes s₁ p := chargedBytes_deleteReservation (hopen hnow)
    rw [applyAll_cons, applyAll_one]
    change chargedBytes (s₁.write (.deleteReservation u.reservationId)) p ≤ _
    omega

theorem Sound.create (hs : Sound s₀ h) {u : Upload} {c : Content} {reservationId : String}
    (hlimited : u.reservationId ≠ UNLIMITED_RESERVATION) (hclean : CleanId u.assetId)
    (hrow : h.db.assets.get? u.assetId = none) (hstored : Stored u h)
    (hreserved : Reserved s₀ u reservationId h)
    (htime : InTime (.insertAsset u.assetId (u.row c) :: releaseWrites reservationId) h) :
    Sound s₀ (h.commit i (.insertAsset u.assetId (u.row c) :: releaseWrites reservationId)) := by
  have hdb := applyAll_create h.db u.assetId reservationId (u.row c)
  have hget : ∀ k, (h.db.assets.insert u.assetId (u.row c)).get? k =
      if k = u.assetId then some (u.row c) else h.db.assets.get? k := by
    intro k
    rw [Table.get?_insert, hrow, Option.getD_none]
  refine hs.commit (by simp) (by rw [hdb]) (by simp [hdb]) ?_ ?_ ?_
  · intro p limit hlimit
    have hsame : tierLimitBytes s₀.billing p = some limit := by
      rw [← hs.billing]
      simpa [hdb] using hlimit
    have hle := chargedBytes_create_le hlimited hrow hreserved htime hsame
    have hbefore := hs.quota p limit (by rw [hs.billing]; exact hsame)
    omega
  · rw [hdb]
    intro k row hk
    rw [hget] at hk
    split_ifs at hk with heq
    · obtain rfl := Option.some.inj hk
      subst heq
      exact ⟨hclean, rfl⟩
    · exact hs.keyed k row hk
  · rw [hdb]
    intro k row hk hlive
    rw [hget] at hk
    split_ifs at hk with heq
    · obtain rfl := Option.some.inj hk
      obtain ⟨t, hput, hthere⟩ := hstored
      have hnow := (htime _ _ List.mem_cons_self).1 t hput
      exact Option.isSome_of_eq_some (hthere hnow)
    · exact hs.stored k row hk hlive

theorem not_put_of_expire {cutoff : ℤ} (ids : List String) (key : String) (t : ℤ) :
    ids.map (Write.expireReservation · cutoff) ≠ [.putObject key t] := by
  intro heq
  have hmem : Write.putObject key t ∈ ids.map (Write.expireReservation · cutoff) := heq ▸ by simp
  simp at hmem

theorem Lawful.sound (hids : Distinct calls s₀) (hlaw : Lawful calls s₀ i held h ws)
    (hs : Sound s₀ h) (htime : InTime ws h) : Sound s₀ (h.commit i ws) := by
  cases hlaw with
  | nothing => exact hs.commit (by simp) rfl (fun _ _ hobj => hobj) hs.quota hs.keyed hs.stored
  | elapse n => exact hs.commit (by simp) rfl (fun _ _ hobj => hobj) hs.quota hs.keyed hs.stored
  | reserve t hcall hlimit hheld hfit hnew => exact hs.reserve t hlimit hfit hnew
  | release hcall =>
    refine hs.commit (by simp) rfl (fun _ _ hobj => hobj) (hs.quota.mono rfl fun p => ?_) hs.keyed
      hs.stored
    exact chargedBytes_deleteReservation_le
  | put t hcall hrow hnew => exact hs.put hnew (hids.object hcall)
  | create hcall hrow hstored hreserved =>
    exact hs.create (hids.limited hcall) (hids.clean hcall) hrow hstored hreserved htime
  | discard hcall hrow =>
    exact hs.deleteObject fun id row hget _ => hs.keyed.key_ne (hids.clean hcall) hrow hget
  | tombstone id t => exact hs.tombstone id t
  | purge hrow hdead =>
    refine hs.deleteObject fun id' row' hrow' hlive hkey => ?_
    obtain rfl := hs.keyed.id_eq hrow' hrow hkey
    obtain rfl := Option.some.inj (hrow'.symm.trans hrow)
    rw [hdead] at hlive
    cases hlive
  | sweep hlive hold => exact hs.deleteObject hlive
  | @expire cutoff ids hold =>
    have hexp := expires_applyAll cutoff ids h.db
    have hquota := hs.quota.mono (by rw [hexp.rest]) hexp.charged
    refine hs.commit (not_put_of_expire ids) (by rw [hexp.rest])
      (by rw [hexp.rest]; exact fun _ _ hobj => hobj) hquota (by rw [hexp.rest]; exact hs.keyed)
      (by rw [hexp.rest]; exact hs.stored)

end Keeps

section Spared
variable {ι : Type} {calls : ι → Call} {s₀ : AssetDb} {h : History ι AssetDb Write} {i j : ι}
  {held others : Set LockKey} {ws : List Write} {s' : AssetDb}

theorem Distinct.storageKey_ne (hids : Distinct calls s₀) (hj : j ≠ i) {u v : Upload}
    (hu : calls i = .upload u) (hv : calls j = .upload v) : v.storageKey ≠ u.storageKey :=
  fun heq => hj (hids.assetId hv hu (buildStorageKey_assetId (hids.clean hv) (hids.clean hu) heq))

theorem Spares.reservations (s' : AssetDb)
    (hdb : applyAll h.db ws = { h.db with reservations := s'.reservations })
    (hws : ∀ key t, ws ≠ [.putObject key t])
    (hown : ∀ u, calls j = .upload u → ∀ r,
      h.db.reservations.get? u.reservationId = some r → h.db.now < r.createdAt + graceMs →
        s'.reservations.get? u.reservationId = some r)
    (hnone : ∀ u, calls j = .upload u → h.db.reservations.get? u.reservationId = none →
      s'.reservations.get? u.reservationId = none)
    (hquota : ∀ projectId limit, tierLimitBytes s₀.billing projectId = some limit →
      .quota projectId ∈ others →
        chargedBytes (applyAll h.db ws) projectId ≤ chargedBytes h.db projectId) :
    Spares calls s₀ j others h (h.commit i ws) := by
  refine ⟨?_, fun key t hput => put_commit.2 (.inl hput), fun id r hr => opened_commit.2 (.inl hr),
    fun u _ t hput => (put_commit.1 hput).resolve_right (hws _ t), ?_, ?_, ?_, ?_, ?_, ?_, hquota⟩
  all_goals simp only [History.commit_db, hdb]
  · exact le_refl _
  · exact fun _ _ hrow => hrow
  · exact fun _ _ _ _ hobj _ => hobj
  · exact hown
  · exact hnone
  · exact fun _ row hrow => ⟨row, hrow, rfl, rfl, id⟩
  · exact fun _ row hrow hlive => .inl ⟨row, hrow, hlive⟩

theorem Spares.bucket (s' : AssetDb) (hdb : applyAll h.db ws = { h.db with bucket := s'.bucket })
    (hws : ∀ u, calls j = .upload u → ∀ t, ws ≠ [.putObject u.storageKey t])
    (hown : ∀ u, calls j = .upload u → h.db.assets.get? u.assetId = none →
      ∀ t, h.db.bucket.get? u.storageKey = some t → h.db.now < t + graceMs →
        s'.bucket.get? u.storageKey = some t) :
    Spares calls s₀ j others h (h.commit i ws) := by
  refine ⟨?_, fun key t hput => put_commit.2 (.inl hput), fun id r hr => opened_commit.2 (.inl hr),
    fun u hu t hput => (put_commit.1 hput).resolve_right (hws u hu t), ?_, ?_, ?_, ?_, ?_, ?_, ?_⟩
  all_goals simp only [History.commit_db, hdb]
  · exact le_refl _
  · exact fun _ _ hrow => hrow
  · exact hown
  · exact fun _ _ _ hres _ => hres
  · exact fun _ _ hres => hres
  · exact fun _ row hrow => ⟨row, hrow, rfl, rfl, id⟩
  · exact fun _ row hrow hlive => .inl ⟨row, hrow, hlive⟩
  · exact fun _ _ _ _ => le_refl _

theorem Spares.deleteObject {key : String}
    (hkey : ∀ u, calls j = .upload u → h.db.assets.get? u.assetId = none → u.storageKey = key →
      ∀ t, h.db.bucket.get? key = some t → t + graceMs ≤ h.db.now) :
    Spares calls s₀ j others h (h.commit i [.deleteObject key]) := by
  refine .bucket (h.db.write (.deleteObject key)) rfl (by simp) ?_
  intro u hu hrow t hobj hnow
  have hne : u.storageKey ≠ key := by
    rintro rfl
    exact absurd hnow (not_lt.2 (hkey u hu hrow rfl t hobj))
  exact (Table.get?_erase _).trans ((if_neg hne).trans hobj)

theorem Spares.elapse (n : ℕ) : Spares calls s₀ j others h (h.commit i [.advance n]) where
  now := by
    change h.db.now ≤ h.db.now + n
    omega
  put _ _ hput := put_commit.2 (.inl hput)
  opened _ _ hr := opened_commit.2 (.inl hr)
  ownPut _ _ _ hput := (put_commit.1 hput).resolve_right (by simp)
  ownRow _ _ hrow := hrow
  ownObject _ _ _ _ hobj _ := hobj
  ownReservation _ _ _ hres _ := hres
  noReservation _ _ hres := hres
  rows _ row hrow := ⟨row, hrow, rfl, rfl, id⟩
  live _ row hrow hlive := .inl ⟨row, hrow, hlive⟩
  quota _ _ _ _ := le_refl _

theorem Spares.tombstone (id : String) (t : ℤ) :
    Spares calls s₀ j others h (h.commit i [.softDelete id t]) := by
  have hget : ∀ k, (h.db.write (.softDelete id t)).assets.get? k =
      if k = id then (h.db.assets.get? k).map (PaywallAsset.tombstone t)
      else h.db.assets.get? k := fun k => Table.get?_modify _
  refine ⟨le_refl _, fun key t hput => put_commit.2 (.inl hput),
    fun id r hr => opened_commit.2 (.inl hr),
    fun u _ t hput => (put_commit.1 hput).resolve_right (by simp), ?_, fun _ _ _ _ hobj _ => hobj,
    fun _ _ _ hres _ => hres, fun _ _ hres => hres, ?_, ?_,
    fun _ _ _ _ => chargedBytes_softDelete_le⟩
  · intro u _ hrow
    refine (hget u.assetId).trans ?_
    rw [hrow]
    split_ifs <;> rfl
  · intro k row hrow
    by_cases hk : k = id
    · refine ⟨row.tombstone t, (hget k).trans ?_, rfl, rfl, fun _ => rfl⟩
      rw [if_pos hk, hrow, Option.map_some]
    · exact ⟨row, (hget k).trans ((if_neg hk).trans hrow), rfl, rfl, fun hdead => hdead⟩
  · intro k row hrow hlive
    have hk := (hget k).symm.trans hrow
    split_ifs at hk
    · obtain ⟨row', -, rfl⟩ := Option.map_eq_some_iff.1 hk
      rw [PaywallAsset.tombstone_live] at hlive
      cases hlive
    · exact .inl ⟨row, hk, hlive⟩

theorem Spares.create (hids : Distinct calls s₀) (hj : j ≠ i) {u : Upload} {c : Content}
    {reservationId : String} (hcall : calls i = .upload u)
    (hrow : h.db.assets.get? u.assetId = none) (hstored : Stored u h)
    (hreserved : Reserved s₀ u reservationId h)
    (htime : InTime (.insertAsset u.assetId (u.row c) :: releaseWrites reservationId) h) :
    Spares calls s₀ j others h
      (h.commit i (.insertAsset u.assetId (u.row c) :: releaseWrites reservationId)) := by
  have hdb := applyAll_create h.db u.assetId reservationId (u.row c)
  have hget : ∀ k, (h.db.assets.insert u.assetId (u.row c)).get? k =
      if k = u.assetId then some (u.row c) else h.db.assets.get? k := by
    intro k
    rw [Table.get?_insert, hrow, Option.getD_none]
  refine ⟨?_, fun key t hput => put_commit.2 (.inl hput), fun id r hr => opened_commit.2 (.inl hr),
    fun v _ t hput => (put_commit.1 hput).resolve_right (by simp), ?_, ?_, ?_, ?_, ?_, ?_,
    fun p limit hlimit _ =>
      chargedBytes_create_le (hids.limited hcall) hrow hreserved htime hlimit⟩
  all_goals simp only [History.commit_db, hdb]
  · exact le_refl _
  · intro v hv hnone
    have hne : v.assetId ≠ u.assetId := fun heq => hj (hids.assetId hv hcall heq)
    rw [hget, if_neg hne]
    exact hnone
  · exact fun _ _ _ _ hobj _ => hobj
  · intro v hv r hres _
    split_ifs with hsentinel
    · exact hres
    · have hne : v.reservationId ≠ reservationId := by
        obtain ⟨rfl, -⟩ | ⟨rfl, -⟩ := hreserved
        · exact absurd rfl hsentinel
        · exact fun heq => hj (hids.reservationId hv hcall heq)
      rw [Table.get?_erase, if_neg hne]
      exact hres
  · intro v _ hres
    split_ifs
    · exact hres
    · rw [Table.get?_erase, hres, ite_self]
  · intro k row hk
    have hne : k ≠ u.assetId := by
      rintro rfl
      rw [hrow] at hk
      cases hk
    exact ⟨row, by rw [hget, if_neg hne, hk], rfl, rfl, fun hdead => hdead⟩
  · intro k row hk hlive
    rw [hget] at hk
    split_ifs at hk
    · obtain rfl := Option.some.inj hk
      obtain ⟨t, hput, -⟩ := hstored
      exact .inr ⟨t, put_commit.2 (.inl hput), (htime _ _ List.mem_cons_self).1 t hput⟩
    · exact .inl ⟨row, hk, hlive⟩

theorem Lawful.spares (hids : Distinct calls s₀) (hlaw : Lawful calls s₀ i held h ws)
    (hs : Sound s₀ h) (htime : InTime ws h) (hj : j ≠ i) (hdisj : Disjoint others held) :
    Spares calls s₀ j others h (h.commit i ws) := by
  cases hlaw with
  | nothing => exact .bucket h.db rfl (by simp) fun _ _ _ _ hobj _ => hobj
  | elapse n => exact .elapse n
  | @reserve u limit bytes t hcall hlimit hheld hfit hnew =>
    have hget : ∀ k, (h.db.write (.insertReservation u.reservationId
        ⟨u.projectId, bytes, t⟩)).reservations.get? k = if k = u.reservationId then
          some ((h.db.reservations.get? u.reservationId).getD ⟨u.projectId, bytes, t⟩)
        else h.db.reservations.get? k := fun k => Table.get?_insert _
    have hother : ∀ v, calls j = .upload v → v.reservationId ≠ u.reservationId :=
      fun v hv heq => hj (hids.reservationId hv hcall heq)
    refine .reservations (h.db.write (.insertReservation u.reservationId
      ⟨u.projectId, bytes, t⟩)) rfl (by simp) ?_ ?_ ?_
    · exact fun v hv r hres _ => (hget _).trans ((if_neg (hother v hv)).trans hres)
    · exact fun v hv hres => (hget _).trans ((if_neg (hother v hv)).trans hres)
    · intro p limit' hlimit' hp
      have hne : u.projectId ≠ p := by
        rintro rfl
        exact Set.disjoint_left.1 hdisj hp hheld
      have hcharge : PaywallAssetReservation.charge p ⟨u.projectId, bytes, t⟩ = 0 := if_neg hne
      have hcharged : chargedBytes (h.db.write (.insertReservation u.reservationId
          ⟨u.projectId, bytes, t⟩)) p =
            chargedBytes h.db p + PaywallAssetReservation.charge p ⟨u.projectId, bytes, t⟩ :=
        chargedBytes_insertReservation hnew
      exact (hcharged.trans (by rw [hcharge, Nat.add_zero])).le
  | @release u hcall =>
    have hget : ∀ k, (h.db.write (.deleteReservation u.reservationId)).reservations.get? k =
        if k = u.reservationId then none else h.db.reservations.get? k :=
      fun k => Table.get?_erase _
    have hother : ∀ v, calls j = .upload v → v.reservationId ≠ u.reservationId :=
      fun v hv heq => hj (hids.reservationId hv hcall heq)
    refine .reservations (h.db.write (.deleteReservation u.reservationId)) rfl (by simp) ?_ ?_
      fun p limit _ _ => chargedBytes_deleteReservation_le
    · exact fun v hv r hres _ => (hget _).trans ((if_neg (hother v hv)).trans hres)
    · exact fun v hv hres => (hget _).trans ((if_neg (hother v hv)).trans hres)
  | @put u t hcall hrow hnew =>
    have hother : ∀ v, calls j = .upload v → v.storageKey ≠ u.storageKey :=
      fun v hv => hids.storageKey_ne hj hcall hv
    refine .bucket (h.db.write (.putObject u.storageKey t)) rfl ?_ ?_
    · intro v hv t' heq
      simp only [List.cons.injEq, Write.putObject.injEq, and_true] at heq
      exact hother v hv heq.1.symm
    · exact fun v hv _ t' hobj _ =>
        (Table.get?_set _).trans ((if_neg (hother v hv)).trans hobj)
  | create hcall hrow hstored hreserved => exact .create hids hj hcall hrow hstored hreserved htime
  | discard hcall hrow =>
    exact .deleteObject fun v hv _ heq => absurd heq (hids.storageKey_ne hj hcall hv)
  | tombstone id t => exact .tombstone id t
  | purge hrow hdead =>
    refine .deleteObject fun v hv hnone heq => ?_
    exact absurd heq.symm (hs.keyed.key_ne (hids.clean hv) hnone hrow)
  | sweep hlive hold => exact .deleteObject fun v hv _ _ => hold
  | @expire cutoff ids hold =>
    have hexp := expires_applyAll cutoff ids h.db
    refine .reservations _ hexp.rest (not_put_of_expire ids) ?_ (fun v _ hres => hexp.none _ hres)
      fun p limit _ _ => hexp.charged p
    intro v hv r hres hnow
    exact hexp.young _ r hres (by omega)

end Spared

def assetDiscipline {ι : Type} {calls : ι → Call} {s₀ : AssetDb} (hids : Distinct calls s₀) :
    Discipline ι AssetDb LockKey Write where
  inv := Sound s₀
  rely i held := Spares calls s₀ i held
  law i held ws h := Lawful calls s₀ i held h ws
  cond _ ws h := InTime ws h
  rely_refl _ _ _ := Spares.refl
  rely_trans := Spares.trans
  keeps_inv hlaw hs htime := hlaw.sound hids hs htime
  keeps_rely hlaw hs htime _ _ hj hdisj _ := hlaw.spares hids hs htime hj hdisj

end Rovenue.Assets
