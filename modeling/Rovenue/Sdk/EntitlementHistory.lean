import Rovenue.Sdk.EntitlementMirror

/-! What the calls alone say of the entitlement cache: who the user is, which ETag a
refresh sends and what each scope was given last. The cache follows them as long as
every refresh that returned `Ok` left the server's map. Calls that were made are listed
with the latest first. -/

namespace Rovenue.Sdk
open Txn

variable {etagOf : EntitlementMap → String} {u : User} {r : EntitlementReader}
  {past : List ReaderCall} {c : ReaderCall} {scope id : String}

def userAfter (u : User) : List ReaderCall → User
  | [] => u
  | c :: past =>
    match c with
    | .identify appUserId =>
      if isBlank appUserId then userAfter u past
      else ((userAfter u past).setAppUserId appUserId).1
    | .logOut newRovenueId saved => if saved then User.logOut newRovenueId else userAfter u past
    | _ => userAfter u past

def ReaderCall.gives (u : User) (scope : String) : ReaderCall → Option EntitlementMap
  -- the map that a call has for the rows of a scope: an answered refresh the server's, a hydrate
  -- the one it brings
  | .refresh held fault =>
    if scope = u.currentUserScope ∧ (fault = none ∨ fault = some .writeEtag) then
      some (held u.rovenueId)
    else none
  | .hydrate scope' m saved => if scope = scope' ∧ saved then some m else none
  | _ => none

def lastGiven (u : User) (scope id : String) : List ReaderCall → Option EntitlementWire
  -- what the last call that gave the scope an entitlement `id` gave it
  | [] => none
  | c :: past =>
    ((c.gives (userAfter u past) scope).bind fun m => m.get? id).or (lastGiven u scope id past)

def lastTag (etagOf : EntitlementMap → String) (u : User) : List ReaderCall → Option String
  | [] => none
  | c :: past =>
    match c with
    | .refresh held none => some (etagOf (held (userAfter u past).rovenueId))
    | _ => lastTag etagOf u past

def Answered (etagOf : EntitlementMap → String) (u : User) (past : List ReaderCall)
    (held : String → EntitlementMap) (fault : Option RefreshFault) : Prop :=
  -- the refresh returns `Ok`: nothing fails, or what fails is the saving, and a 304 leaves nothing
  -- to save
  fault = none ∨ (fault = some .upsert ∨ fault = some .writeEtag) ∧
    lastTag etagOf u past = some (etagOf (held (userAfter u past).rovenueId))

/-- What a refresh that is to leave `m` asks of the calls before it. -/
structure Faithful (etagOf : EntitlementMap → String) (u : User) (past : List ReaderCall)
    (m : EntitlementMap) : Prop where
  -- nothing that the scope was ever given has been revoked
  unrevoked : ∀ id, lastGiven u (userAfter u past).currentUserScope id past ≠ none →
    m.get? id ≠ none
  -- if the last answered map was `m` too, the scope was given it, and nothing else since
  described : lastTag etagOf u past = some (etagOf m) → ∀ id w, m.get? id = some w →
    lastGiven u (userAfter u past).currentUserScope id past = some w

def withPast (past : List ReaderCall) : List ReaderCall → List (List ReaderCall × ReaderCall)
  | [] => []
  | c :: calls => (past, c) :: withPast (c :: past) calls

def CallsFaithful (etagOf : EntitlementMap → String) (u : User) (past calls : List ReaderCall) :
    Prop :=
  -- every answered refresh of `calls`, made after `past`, is a faithful one
  ∀ x ∈ withPast past calls, ∀ held fault, x.2 = .refresh held fault →
    Answered etagOf u x.1 held fault →
      Faithful etagOf u x.1 (held (userAfter u x.1).rovenueId)

def newInstall (u : User) : EntitlementReader := ⟨u, Table.empty, none⟩

structure EntitlementReader.Follows (r : EntitlementReader) (etagOf : EntitlementMap → String)
    (u : User) (past : List ReaderCall) : Prop where
  user : r.user = userAfter u past
  etag : r.etag = lastTag etagOf u past
  rows : ∀ scope id, r.rows.get? (scope, id) = (lastGiven u scope id past).map EntitlementWire.toRow

theorem EntitlementWire.toRow_injective : Function.Injective EntitlementWire.toRow := by
  rintro ⟨⟩ ⟨⟩ h
  simp only [toRow, EntitlementRow.mk.injEq] at h
  obtain ⟨rfl, rfl, rfl, rfl⟩ := h
  rfl

theorem newInstall_follows : (newInstall u).Follows etagOf u [] :=
  ⟨rfl, rfl, fun _ _ => rfl⟩

namespace EntitlementReader.Follows

theorem get?_upsert (hr : r.Follows etagOf u past) {m : EntitlementMap} {scope' : String} :
    (upsertMany scope' (mapToRows m) r.rows).get? (scope, id) =
      (((if scope = scope' then some m else none).bind fun m => m.get? id).or
        (lastGiven u scope id past)).map EntitlementWire.toRow := by
  rw [get?_upsertMany_mapToRows, hr.rows]
  split_ifs
  · rw [Option.bind_some]
    cases m.get? id <;> rfl
  · rfl

theorem identify (hr : r.Follows etagOf u past) (appUserId : String) :
    (r.identify appUserId).Follows etagOf u (.identify appUserId :: past) := by
  by_cases hblank : isBlank appUserId = true
  · rw [EntitlementReader.identify, if_pos hblank]
    refine ⟨?_, hr.etag, hr.rows⟩
    rw [userAfter, if_pos hblank, hr.user]
  · rw [EntitlementReader.identify, if_neg hblank]
    refine ⟨?_, hr.etag, hr.rows⟩
    rw [userAfter, if_neg hblank, hr.user]

theorem logOut (hr : r.Follows etagOf u past) (newRovenueId : String) (saved : Bool) :
    (r.logOut newRovenueId saved).Follows etagOf u (.logOut newRovenueId saved :: past) := by
  cases saved with
  | false => exact ⟨hr.user, hr.etag, hr.rows⟩
  | true => exact ⟨rfl, hr.etag, hr.rows⟩

theorem hydrate (hr : r.Follows etagOf u past) (scope : String) (m : EntitlementMap)
    (saved : Bool) :
    (r.hydrate scope m saved).Follows etagOf u (.hydrate scope m saved :: past) := by
  cases saved with
  | false => exact ⟨hr.user, hr.etag, fun s id => by simp [hr.rows, lastGiven, ReaderCall.gives,
      EntitlementReader.hydrate]⟩
  | true =>
    refine ⟨hr.user, hr.etag, fun s id => ?_⟩
    rw [EntitlementReader.hydrate, if_pos rfl, hr.get?_upsert, lastGiven, ReaderCall.gives]
    simp only [and_true]

theorem answered_iff (hr : r.Follows etagOf u past) {held : String → EntitlementMap}
    {fault : Option RefreshFault} :
    (r.refresh (fun wireId => respond etagOf (held wireId)) fault).2 = .ok () ↔
      Answered etagOf u past held fault := by
  -- the 304 or 200 of a refresh, and whether it returns `Ok`, are decided by the calls
  rw [Answered, ← hr.etag, ← hr.user]
  by_cases htag : r.etag = some (etagOf (held r.user.rovenueId))
  · rcases fault with _ | _ | _ | _ | _ <;>
      simp [EntitlementReader.refresh, respond, htag]
  · rcases fault with _ | _ | _ | _ | _ <;>
      simp [EntitlementReader.refresh, respond, htag]

theorem fits_iff (hr : r.Follows etagOf u past) {m : EntitlementMap} :
    r.Fits etagOf m ↔ Faithful etagOf u past m := by
  have hcached : ∀ id, r.cached id =
      (lastGiven u (userAfter u past).currentUserScope id past).map EntitlementWire.toRow := by
    intro id
    rw [EntitlementReader.cached, hr.rows, hr.user]
  have hinj := Option.map_injective EntitlementWire.toRow_injective
  simp only [EntitlementReader.Fits, hcached, hr.etag, hinj.eq_iff, ne_eq, Option.map_eq_none_iff]
  split_ifs with htag
  · constructor
    · intro h
      exact ⟨fun id hid => (h id) ▸ hid, fun _ id w hw => (h id).trans hw⟩
    · intro h id
      cases hm : m.get? id with
      | some w => exact h.described htag id w hm
      | none =>
        by_contra hgiven
        exact h.unrevoked id hgiven hm
  · constructor
    · intro h
      exact ⟨h, fun heq => absurd heq htag⟩
    · intro h
      exact h.unrevoked

theorem given_of_mirrors (hr : r.Follows etagOf u past) {m : EntitlementMap}
    (hm : Mirrors r m) {w : EntitlementWire} (hw : m.get? id = some w) :
    lastGiven u (userAfter u past).currentUserScope id past = some w := by
  -- after a 304 the map that the server meant is what the scope was given last, provided the cache
  -- is that map
  have hid := mirrors_iff.1 hm id
  rw [EntitlementReader.cached, hr.rows, hr.user, hw] at hid
  exact Option.map_injective EntitlementWire.toRow_injective hid

theorem refresh_notModified (hr : r.Follows etagOf u past) {held : String → EntitlementMap}
    {fault : Option RefreshFault} (htag : r.etag = some (etagOf (held r.user.rovenueId)))
    (hmirrors : fault = none ∨ fault = some .writeEtag → Mirrors r (held r.user.rovenueId)) :
    r.Follows etagOf u (.refresh held fault :: past) := by
  refine ⟨hr.user, ?_, fun s id => ?_⟩
  · cases fault with
    | none => rw [htag, hr.user]; rfl
    | some fault => exact hr.etag
  · rw [hr.rows, lastGiven, ReaderCall.gives, ← hr.user]
    split_ifs with hgives
    · obtain ⟨rfl, hfault⟩ := hgives
      rw [Option.bind_some]
      cases hm : (held r.user.rovenueId).get? id with
      | none => rfl
      | some w =>
        rw [hr.user, hr.given_of_mirrors (hmirrors hfault) hm]
        rfl
    · rfl

theorem refresh (hr : r.Follows etagOf u past) {held : String → EntitlementMap}
    {fault : Option RefreshFault}
    (hmirrors : (r.refresh (fun wireId => respond etagOf (held wireId)) fault).2 = .ok () →
      Mirrors (r.call etagOf (.refresh held fault)) (held r.user.rovenueId)) :
    (r.call etagOf (.refresh held fault)).Follows etagOf u (.refresh held fault :: past) := by
  -- a refresh keeps the reader in step unless it returns `Ok` on other rows than the map's: what a
  -- 304 stands for is what the scope holds only then
  rw [EntitlementReader.call] at hmirrors ⊢
  have hunsaved : fault ≠ none → fault ≠ some .writeEtag →
      r.Follows etagOf u (.refresh held fault :: past) := by
    intro hnone hwrite
    refine ⟨hr.user, ?_, fun s id => ?_⟩
    · cases fault with
      | none => exact absurd rfl hnone
      | some fault => exact hr.etag
    · rw [hr.rows, lastGiven, ReaderCall.gives, if_neg fun h => h.2.elim hnone hwrite]
      rfl
  have hsaved : fault = none ∨ fault = some .writeEtag → ∀ s id,
      (upsertMany r.user.currentUserScope (mapToRows (held r.user.rovenueId)) r.rows).get?
        (s, id) = (lastGiven u s id (.refresh held fault :: past)).map EntitlementWire.toRow := by
    intro hfault s id
    rw [hr.get?_upsert, lastGiven, ReaderCall.gives, ← hr.user]
    simp only [hfault, and_true]
  by_cases htag : r.etag = some (etagOf (held r.user.rovenueId))
  · have hsame : (r.refresh (fun wireId => respond etagOf (held wireId)) fault).1 = r := by
      rcases fault with _ | _ | _ | _ | _ <;> simp [EntitlementReader.refresh, respond, htag]
    rw [hsame] at hmirrors ⊢
    refine hr.refresh_notModified htag fun hfault => hmirrors ?_
    rcases hfault with rfl | rfl <;> simp [EntitlementReader.refresh, respond, htag]
  · rcases fault with _ | _ | _ | _ | _
    · simp only [EntitlementReader.refresh, respond, if_neg htag, reduceCtorEq, if_false]
      exact ⟨hr.user, by rw [hr.user]; rfl, hsaved (.inl rfl)⟩
    · exact hunsaved (by simp) (by simp)
    · exact hunsaved (by simp) (by simp)
    · simp only [EntitlementReader.refresh, respond, if_neg htag, if_true]
      exact hunsaved (by simp) (by simp)
    · simp only [EntitlementReader.refresh, respond, if_neg htag, if_true]
      exact ⟨hr.user, hr.etag, hsaved (.inr rfl)⟩

theorem call (hr : r.Follows etagOf u past)
    (hmirrors : ∀ held fault, c = .refresh held fault →
      (r.refresh (fun wireId => respond etagOf (held wireId)) fault).2 = .ok () →
        Mirrors (r.call etagOf c) (held r.user.rovenueId)) :
    (r.call etagOf c).Follows etagOf u (c :: past) := by
  -- one call keeps the reader in step, a refresh if it is `Ok` on the map's rows only
  cases c with
  | identify appUserId => exact hr.identify appUserId
  | logOut newRovenueId saved => exact hr.logOut newRovenueId saved
  | refresh held fault => exact hr.refresh (hmirrors held fault rfl)
  | hydrate scope m saved => exact hr.hydrate scope m saved

theorem mirrors_iff_faithful (hr : r.Follows etagOf u past) :
    (∀ held fault, c = .refresh held fault →
      (r.refresh (fun wireId => respond etagOf (held wireId)) fault).2 = .ok () →
        Mirrors (r.call etagOf c) (held r.user.rovenueId)) ↔
      ∀ held fault, c = .refresh held fault → Answered etagOf u past held fault →
        Faithful etagOf u past (held (userAfter u past).rovenueId) := by
  -- a refresh that returns `Ok` leaves the server's map exactly when it is faithful
  refine forall_congr' fun held => forall_congr' fun fault => forall_congr' fun hc => ?_
  subst hc
  rw [hr.answered_iff, ← hr.user]
  refine forall_congr' fun hok => ?_
  rw [mirrors_refresh_iff (hr.answered_iff.2 hok), hr.fits_iff]

theorem run_iff (hr : r.Follows etagOf u past) (calls : List ReaderCall) :
    RefreshMirrors etagOf r calls ↔ CallsFaithful etagOf u past calls := by
  induction calls generalizing r past with
  | nil => simp [RefreshMirrors, CallsFaithful, EntitlementReader.run, withPast]
  | cons c calls ih =>
    rw [RefreshMirrors, CallsFaithful, EntitlementReader.run, withPast, List.forall_mem_cons,
      List.forall_mem_cons, hr.mirrors_iff_faithful]
    refine and_congr_right fun hc => ?_
    exact ih (hr.call (hr.mirrors_iff_faithful.2 hc))

end EntitlementReader.Follows

/-- From a new install every refresh that returns `Ok` leaves the server's map exactly when
at each of them nothing that the scope was given is gone, and a map answered before is
what the scope was given last. -/
theorem refresh_mirrors_iff (etagOf : EntitlementMap → String) (u : User)
    (calls : List ReaderCall) :
    RefreshMirrors etagOf (newInstall u) calls ↔ CallsFaithful etagOf u [] calls :=
  newInstall_follows.run_iff calls

theorem exists_contentHash : ∃ etagOf, ContentHash etagOf := by
  have hstring : Function.Injective String.toList := fun a b h => String.toList_inj.1 h
  have hchar : Function.Injective Char.toNat := fun a b h => Char.toNat_inj.1 h
  have : Countable Char := hchar.countable
  have : Countable String := hstring.countable
  have hwire : Function.Injective fun w : EntitlementWire =>
      (w.isActive, w.expiresDate, w.store, w.productIdentifier) := by
    rintro ⟨⟩ ⟨⟩ h
    simpa using h
  have : Countable EntitlementWire := hwire.countable
  obtain ⟨code, hcode⟩ := exists_injective_nat (Finset (String × EntitlementWire))
  refine ⟨fun m => String.ofList (List.replicate (code m.entries.toFinset) 'e'), fun m m' => ?_⟩
  have hhash : String.ofList (List.replicate (code m.entries.toFinset) 'e') =
      String.ofList (List.replicate (code m'.entries.toFinset) 'e') ↔
        m.entries.toFinset = m'.entries.toFinset := by
    constructor
    · intro h
      have hlen := congrArg List.length (String.ofList_injective h)
      exact hcode (by simpa using hlen)
    · intro h
      rw [h]
  rw [hhash]
  constructor
  · intro h id
    refine Option.ext fun w => ?_
    rw [← Table.mem_entries, ← Table.mem_entries, ← List.mem_toFinset, h, List.mem_toFinset]
  · intro h
    ext ⟨id, w⟩
    rw [List.mem_toFinset, List.mem_toFinset, Table.mem_entries, Table.mem_entries, h id]

def freshInstall : EntitlementReader := newInstall ⟨"rov_1", none⟩

def proMap : EntitlementMap :=
  Table.empty.insert "pro" ⟨true, none, "APP_STORE", "monthly"⟩

/-- A revoked entitlement stays listed: the user held `pro` at the first refresh and
nothing at the second. -/
theorem revoked_stays_listed : ∃ etagOf, ContentHash etagOf ∧
    ¬ RefreshMirrors etagOf freshInstall
      [.refresh (fun _ => proMap) none, .refresh (fun _ => Table.empty) none] := by
  obtain ⟨etagOf, hhash⟩ := exists_contentHash
  refine ⟨etagOf, hhash, fun h => ?_⟩
  have hne : etagOf proMap ≠ etagOf Table.empty := by
    intro heq
    have hpro := (hhash proMap Table.empty).1 heq "pro"
    simp [proMap, Table.get?_insert] at hpro
  have hfirst : freshInstall.call etagOf (.refresh (fun _ => proMap) none) =
      ⟨⟨"rov_1", none⟩, upsertMany "rov_1" (mapToRows proMap) Table.empty,
        some (etagOf proMap)⟩ := rfl
  have hok : ((freshInstall.call etagOf (.refresh (fun _ => proMap) none)).refresh
      (fun _ => respond etagOf Table.empty) none).2 = .ok () := by
    simp [hfirst, EntitlementReader.refresh, respond, hne]
  have hm := h _ (List.mem_cons_of_mem _ (List.mem_cons_self ..)) _ _ rfl hok
  have hfits := (mirrors_refresh_iff hok).1 hm
  rw [EntitlementReader.Fits, hfirst, if_neg fun heq => hne (Option.some.inj heq)] at hfits
  have hcached : (EntitlementReader.mk ⟨"rov_1", none⟩
      (upsertMany "rov_1" (mapToRows proMap) Table.empty) (some (etagOf proMap))).cached "pro" ≠
        none := by
    simp [EntitlementReader.cached, User.currentUserScope, get?_upsertMany_mapToRows, proMap,
      Table.get?_insert]
  exact hfits "pro" hcached rfl

end Rovenue.Sdk
