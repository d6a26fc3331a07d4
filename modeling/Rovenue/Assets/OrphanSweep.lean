import Rovenue.Assets.LiveObjects
import Rovenue.Txn.Session

/-! What one orphan sweep does when nothing else runs: it reclaims exactly the objects and the
reservations that are past the grace window and serve no live row. -/

namespace Rovenue.Assets
open Txn

variable {s : AssetDb} {c c' : Session AssetDb Write String} {key : String} {cutoff : ℤ}
  {unseen : String → Bool} {live : List String}

def listedKeys : Option String → List String → AssetDb → List String
  | after, [], s => keysAfter after s
  | after, token :: tokens, s =>
    ((keysAfter after s).filter fun key => !(token < key)) ++ listedKeys (some token) tokens s

theorem returns_listAllKeys (tokens : List String) (after : Option String) {keys : List String} :
    (listAllKeys after tokens).Returns c keys c' ↔ listedKeys after tokens c.view = keys ∧ c = c' := by
  induction tokens generalizing after keys c c' with
  | nil => simp [listAllKeys, listedKeys]
  | cons token tokens ih =>
    simp only [listAllKeys, Prog.bind_eq, Prog.returns_bind, Prog.returns_query, ih, Prog.pure_eq,
      Prog.returns_done, listedKeys]
    constructor
    · rintro ⟨_, _, ⟨rfl, rfl⟩, _, _, ⟨rfl, rfl⟩, rfl, rfl⟩
      exact ⟨rfl, rfl⟩
    · rintro ⟨rfl, rfl⟩
      exact ⟨_, _, ⟨rfl, rfl⟩, _, _, ⟨rfl, rfl⟩, rfl, rfl⟩

theorem mem_listedKeys (tokens : List String) (after : Option String) (s : AssetDb)
    (h : key ∈ keysAfter after s) : key ∈ listedKeys after tokens s := by
  induction tokens generalizing after with
  | nil => exact h
  | cons token tokens ih =>
    rw [listedKeys, List.mem_append, List.mem_filter]
    by_cases hlt : token < key
    · right
      refine ih (some token) ?_
      have hkey := (List.mem_filter.1 h).1
      exact List.mem_filter.2 ⟨hkey, by simpa using hlt⟩
    · exact .inl ⟨h, by simpa using hlt⟩

theorem mem_keysAfter_none : key ∈ keysAfter none s ↔ (s.bucket.get? key).isSome := by
  rw [keysAfter, List.mem_filter]
  simp only [Option.all_none, and_true]
  rw [← not_iff_not, ← Table.get?_eq_none]
  simp

def reclaims (unseen : String → Bool) (cutoff : ℤ) (live : List String) (key : String) (t : ℤ) :
    Bool := key ∉ live ∧ !unseen key ∧ t ≤ cutoff

def survivor (unseen : String → Bool) (cutoff : ℤ) (live : List String) (key : String)
    (object : Option ℤ) : Option ℤ := object.filter fun t => !reclaims unseen cutoff live key t

@[simp] theorem survivor_none : survivor unseen cutoff live key none = none := rfl

/-- `s'` is `s` but for the bucket, where what is left of the listed objects is left. -/
structure Reclaimed (unseen : String → Bool) (cutoff : ℤ) (live keys : List String)
    (s s' : AssetDb) : Prop where
  rest : s' = { s with bucket := s'.bucket }
  objects : ∀ key, s'.bucket.get? key = if key ∈ keys then
    survivor unseen cutoff live key (s.bucket.get? key) else s.bucket.get? key

theorem Reclaimed.skip {keys : List String} {s' : AssetDb}
    (hkey : survivor unseen cutoff live key (s.bucket.get? key) = s.bucket.get? key)
    (h : Reclaimed unseen cutoff live keys s s') :
    Reclaimed unseen cutoff live (key :: keys) s s' := by
  refine ⟨h.rest, fun k => (h.objects k).trans ?_⟩
  by_cases hk : k = key
  · subst hk
    simp [hkey]
  · simp [hk]

theorem Reclaimed.delete {keys : List String} {s' : AssetDb}
    (hkey : survivor unseen cutoff live key (s.bucket.get? key) = none)
    (h : Reclaimed unseen cutoff live keys (s.write (.deleteObject key)) s') :
    Reclaimed unseen cutoff live (key :: keys) s s' := by
  have hget : ∀ k, (s.write (.deleteObject key)).bucket.get? k =
      if k = key then none else s.bucket.get? k := fun k => Table.get?_erase _
  refine ⟨h.rest, fun k => (h.objects k).trans ?_⟩
  rw [hget]
  by_cases hk : k = key
  · subst hk
    simp [hkey]
  · simp [hk]

theorem returns_deleteObject {u : Unit} :
    (deleteObject key).Returns c u c' ↔ c.write [.deleteObject key] = c' := by
  rw [deleteObject, Prog.returns_autocommit, Prog.returns_exec]
  simp

theorem exists_returns_sweepKeys (unseen : String → Bool) (cutoff : ℤ) (live keys : List String)
    (reclaimed : ℕ) (c : Session AssetDb Write String) : ∃ n c',
      (sweepKeys unseen cutoff live keys reclaimed).Returns c n c' ∧
        Reclaimed unseen cutoff live keys c.view c'.view := by
  induction keys generalizing reclaimed c with
  | nil => exact ⟨reclaimed, c, by simp [sweepKeys], rfl, fun key => by simp⟩
  | cons key keys ih =>
    rw [sweepKeys]
    by_cases hlive : key ∈ live
    · obtain ⟨n, c', hret, hrec⟩ := ih reclaimed c
      rw [if_pos hlive]
      refine ⟨n, c', hret, hrec.skip ?_⟩
      have hkeep : ∀ t, reclaims unseen cutoff live key t = false := by simp [reclaims, hlive]
      cases c.view.bucket.get? key <;> simp [survivor, Option.filter, hkeep]
    · rw [if_neg hlive]
      have hhead : ∀ {α : Type} {f : Option ℤ → AssetService α} {a : α}
          {c' : Session AssetDb Write String},
          ((getObjectLastModified unseen key).bind f).Returns c a c' ↔
            (f (if unseen key then none else c.view.bucket.get? key)).Returns c a c' := by
        intro α f a c'
        simp [getObjectLastModified]
      simp only [Prog.bind_eq, hhead]
      cases hseen : (if unseen key then none else c.view.bucket.get? key) with
      | none =>
        obtain ⟨n, c', hret, hrec⟩ := ih reclaimed c
        refine ⟨n, c', hret, hrec.skip ?_⟩
        by_cases hunseen : unseen key
        · have hkeep : ∀ t, reclaims unseen cutoff live key t = false := by
            simp [reclaims, hunseen]
          cases c.view.bucket.get? key <;> simp [survivor, Option.filter, hkeep]
        · rw [if_neg hunseen] at hseen
          simp [hseen, survivor]
      | some t =>
        have hobj : unseen key = false ∧ c.view.bucket.get? key = some t := by
          by_cases hunseen : unseen key
          · simp [hunseen] at hseen
          · exact ⟨by simpa using hunseen, by simpa [hunseen] using hseen⟩
        by_cases hyoung : cutoff < t
        · obtain ⟨n, c', hret, hrec⟩ := ih reclaimed c
          refine ⟨n, c', by simpa [hyoung] using hret, hrec.skip ?_⟩
          simp [survivor, Option.filter, hobj.2, reclaims, hyoung]
        · obtain ⟨n, c', hret, hrec⟩ := ih (reclaimed + 1) (c.write [.deleteObject key])
          refine ⟨n, c', ?_, hrec.delete ?_⟩
          · simp only [if_neg hyoung, Prog.returns_bind, returns_deleteObject]
            exact ⟨(), _, rfl, hret⟩
          · simp [survivor, Option.filter, hobj.2, reclaims, hlive, hobj.1, not_lt.1 hyoung]

theorem mem_staleReservations {id : String} {r : PaywallAssetReservation}
    (h : s.reservations.get? id = some r) (hstale : r.createdAt < cutoff) :
    id ∈ staleReservations cutoff s := by
  have hmem : (id, r) ∈ s.reservations.entries := s.reservations.mem_entries.2 h
  exact List.mem_map.2 ⟨(id, r), List.mem_filter.2 ⟨hmem, by simpa using hstale⟩, rfl⟩

theorem get?_expireAll (ids : List String) (s : AssetDb) (id : String) :
    (applyAll s (ids.map (Write.expireReservation · cutoff))).reservations.get? id =
      if id ∈ ids then (s.reservations.get? id).filter (fun r => !decide (r.createdAt < cutoff))
      else s.reservations.get? id := by
  induction ids generalizing s with
  | nil => simp
  | cons id' ids ih =>
    have hget := get?_expireReservation cutoff s.reservations id' id
    refine (ih (s.write (.expireReservation id' cutoff))).trans ?_
    change (if id ∈ ids then ((expireReservation cutoff s.reservations id').get? id).filter _
      else (expireReservation cutoff s.reservations id').get? id) = _
    rw [hget]
    by_cases hid : id = id'
    · cases hr : s.reservations.get? id with
      | none => simp [hid, Option.filter]
      | some r => by_cases hold : r.createdAt < cutoff <;> simp [hid, Option.filter, hold]
    · simp [hid]

theorem sweepOrphanedAssets_exact (w : Sweep) (s : AssetDb) (clock : ℕ → ℤ) (ids : ℕ → String) :
    ∃ n c', (sweepOrphanedAssets w).Returns (.start s clock ids) n c' ∧
      c'.view.assets = s.assets ∧
      (∀ key, c'.view.bucket.get? key =
        survivor w.unseen (s.now - graceMs) (liveKeys s) key (s.bucket.get? key)) ∧
      ∀ id, c'.view.reservations.get? id =
        (s.reservations.get? id).filter fun r => !decide (r.createdAt < s.now - graceMs) := by
  -- run alone, a sweep deletes exactly the objects of no live row and the reservations that are
  -- past the grace window
  obtain ⟨n, c₁, hret, hrec⟩ := exists_returns_sweepKeys w.unseen (s.now - graceMs) (liveKeys s)
    (listedKeys none w.pageEnds s) 0 (.start s clock ids)
  have hnow : c₁.view.reservations = s.reservations := by rw [hrec.rest]; rfl
  have hassets : c₁.view.assets = s.assets := by rw [hrec.rest]; rfl
  have hexp := expires_applyAll (s.now - graceMs)
    (staleReservations (s.now - graceMs) c₁.view) c₁.view
  refine ⟨n, c₁.write ((staleReservations (s.now - graceMs) c₁.view).map
    (.expireReservation · (s.now - graceMs))), ?_, ?_, ?_, ?_⟩
  · simp only [sweepOrphanedAssets, sweepReservations, Prog.bind_eq, Prog.returns_bind,
      Prog.returns_query, returns_listAllKeys, Prog.returns_autocommit, Prog.returns_exec,
      Prog.pure_eq, Prog.returns_done]
    exact ⟨_, _, ⟨rfl, rfl⟩, _, _, ⟨rfl, rfl⟩, _, _, ⟨rfl, rfl⟩, _, _, hret, (), _, ⟨trivial, rfl⟩,
      rfl, rfl⟩
  · exact (congrArg AssetDb.assets hexp.rest).trans hassets
  · intro key
    have hbucket := congrArg AssetDb.bucket hexp.rest
    refine ((congrArg (Table.get? · key) hbucket).trans (hrec.objects key)).trans ?_
    by_cases hkey : key ∈ listedKeys none w.pageEnds s
    · rw [if_pos hkey]
      rfl
    · have hnone : s.bucket.get? key = none := by
        by_contra hsome
        exact hkey (mem_listedKeys _ _ _ (mem_keysAfter_none.2 (Option.ne_none_iff_isSome.1 hsome)))
      rw [if_neg hkey]
      simp [hnone, survivor]
  · intro id
    refine (get?_expireAll _ _ id).trans ?_
    rw [hnow]
    by_cases hid : id ∈ staleReservations (s.now - graceMs) c₁.view
    · rw [if_pos hid]
    · rw [if_neg hid]
      cases hr : s.reservations.get? id with
      | none => rfl
      | some r =>
        have hyoung : ¬r.createdAt < s.now - graceMs := fun hold =>
          hid (mem_staleReservations (by rw [hnow]; exact hr) hold)
        simp [Option.filter, hyoung]

/-- Once uploads have stopped for longer than the grace window, the sweep that sees every object
leaves the live rows' objects and no reservation: nothing leaks. -/
theorem sweep_leaves_no_orphan {ι : Type} [DecidableEq ι] {calls : ι → Call} {s₀ : AssetDb}
    (hids : Distinct calls s₀) (hkeyed : WellKeyed s₀) (hquota : WithinQuota s₀)
    (hstored : LiveStored s₀) (evs : List (Event ι String))
    (htime : ∀ c ∈ (assetWorld calls s₀).commits evs, InTime c.writes c.before)
    {h : History ι AssetDb Write} (hh : h ∈ (assetWorld calls s₀).visited evs)
    (hobjects : ∀ key t, h.db.bucket.get? key = some t → t + graceMs ≤ h.db.now)
    (hreservations : ∀ id r, h.db.reservations.get? id = some r → r.createdAt + graceMs < h.db.now)
    (pageEnds : List String) (clock : ℕ → ℤ) (ids : ℕ → String) :
    ∃ n c', (sweepOrphanedAssets { pageEnds := pageEnds }).Returns (.start h.db clock ids) n c' ∧
      (∀ key, (c'.view.bucket.get? key).isSome ↔ key ∈ liveKeys c'.view) ∧
      ∀ id, c'.view.reservations.get? id = none := by
  have hlive := (assetWorld_sound hids hkeyed hquota hstored evs htime h hh).stored
  obtain ⟨n, c', hret, hassets, hbucket, hres⟩ :=
    sweepOrphanedAssets_exact { pageEnds := pageEnds } h.db clock ids
  have hkeys : liveKeys c'.view = liveKeys h.db := by
    rw [liveKeys, hassets, liveKeys]
  refine ⟨n, c', hret, fun key => ?_, fun id => ?_⟩
  · rw [hbucket, hkeys]
    constructor
    · intro hsome
      by_contra hnot
      obtain ⟨t, ht⟩ := Option.isSome_iff_exists.1 hsome
      obtain ⟨hobj, hkept⟩ := Option.filter_eq_some_iff.1 ht
      have hage := hobjects key t hobj
      simp [reclaims, hnot] at hkept
      omega
    · intro hmem
      obtain ⟨⟨id, row⟩, hentry, rfl⟩ := List.mem_map.1 hmem
      obtain ⟨hrow, halive⟩ := List.mem_filter.1 hentry
      have hobj := hlive id row (h.db.assets.mem_entries.1 hrow) halive
      obtain ⟨t, ht⟩ := Option.isSome_iff_exists.1 hobj
      dsimp only at hmem ⊢
      rw [ht]
      simp [survivor, Option.filter, reclaims, hmem]
  · rw [hres]
    cases hr : h.db.reservations.get? id with
    | none => rfl
    | some r =>
      have hage := hreservations id r hr
      have hstale : r.createdAt < h.db.now - graceMs := by omega
      simp [Option.filter, hstale]

inductive CrashCaller where
  | dying
  | ending
  | waiting
  deriving DecidableEq

def crashCalls : CrashCaller → Call
  | .dying => .upload (raceUpload "a" "r" "x" 6)
  | .ending => .upload (raceUpload "b" "s" "y" 3)
  | .waiting => .clock [86400001]

def crashEvents : List (Event CrashCaller String) :=
  List.replicate 22 (.run .ending) ++ List.replicate 12 (.run .dying) ++
    [.crash .dying, .run .waiting, .run .waiting]

theorem crashIds : Distinct crashCalls raceDb where
  assetId {i j u v} hi hj heq := by
    cases i <;> cases j <;> cases hi <;> cases hj <;> first | rfl | simp [raceUpload] at heq
  reservationId {i j u v} hi hj heq := by
    cases i <;> cases j <;> cases hi <;> cases hj <;> first | rfl | simp [raceUpload] at heq
  clean {i u} hi := by cases i <;> cases hi <;> decide
  limited {i u} hi := by cases i <;> cases hi <;> decide
  asset {i u} hi := rfl
  object {i u} hi := rfl
  reservation {i u} hi := rfl

theorem crash_in_time : ∀ c ∈ (assetWorld crashCalls raceDb).commits crashEvents,
    InTime c.writes c.before := by
  decide +kernel

theorem sweep_leaves_no_orphan_crash :
    let s := ((assetWorld crashCalls raceDb).runAll crashEvents).hist.db
    (s.bucket.get? "p/a.webp").isSome ∧ "p/a.webp" ∉ liveKeys s ∧
      (s.reservations.get? "r").isSome ∧
      ∃ n c', (sweepOrphanedAssets { pageEnds := ["p/a.webp"] }).Returns
          (.start s (fun _ => 0) fun _ => "") n c' ∧
        (∀ key, (c'.view.bucket.get? key).isSome ↔ key ∈ liveKeys c'.view) ∧
        ∀ id, c'.view.reservations.get? id = none := by
  have hobjects :
      ∀ e ∈ ((assetWorld crashCalls raceDb).runAll crashEvents).hist.db.bucket.entries,
        e.2 + graceMs ≤ ((assetWorld crashCalls raceDb).runAll crashEvents).hist.db.now := by
    decide +kernel
  have hreservations :
      ∀ e ∈ ((assetWorld crashCalls raceDb).runAll crashEvents).hist.db.reservations.entries,
        e.2.createdAt + graceMs <
          ((assetWorld crashCalls raceDb).runAll crashEvents).hist.db.now := by
    decide +kernel
  refine ⟨by decide +kernel, by decide +kernel, by decide +kernel, ?_⟩
  exact sweep_leaves_no_orphan crashIds (fun _ _ h => by cases h) raceDb_withinQuota
    (fun _ _ h => by cases h) crashEvents crash_in_time (World.last_mem_visited _ _)
    (fun key t h => hobjects (key, t) ((Table.mem_entries _).2 h))
    (fun id r h => hreservations (id, r) ((Table.mem_entries _).2 h)) _ _ _

end Rovenue.Assets
