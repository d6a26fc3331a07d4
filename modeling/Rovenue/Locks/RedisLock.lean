import Rovenue.Threads.System

/-! The single-holder lock on Redis: `SET NX PX` with a token, and a release that compares before it
deletes. Calls outlive their TTL, and Redis fails, at any point. -/

namespace Rovenue.Locks
open Threads

structure Entry where
  token : String
  expiresAt : ℕ

structure Redis where
  now : ℕ
  values : String → Option Entry

def Redis.get (s : Redis) (key : String) : Option Entry :=
  (s.values key).filter fun e => s.now < e.expiresAt

def Redis.set (s : Redis) (key token : String) (ttlMs : ℕ) : Redis :=
  if (s.get key).isSome then s
  else { s with values := Function.update s.values key (some ⟨token, s.now + ttlMs⟩) }

def Redis.release (s : Redis) (key token : String) : Redis :=
  if (s.get key).any fun e => e.token = token then
    { s with values := Function.update s.values key none }
  else s

structure LockCall where
  key : String
  token : String
  ttlMs : ℕ
  -- Redis refuses `PX 0`
  ttl_pos : 0 < ttlMs

/-- How a command of a call goes: it runs and is answered, it runs and the answer is lost (the
client may send it again), or the client gives it up. -/
inductive Reply where
  | answered
  | lost
  | failed

/-- How `withLock` ends; `fn` returned or threw. -/
inductive Outcome (α : Type) where
  | null
  | lockUnavailable
  | ran (result : Except String α)

inductive Stage (α : Type) where
  | arrived
  | inside
  | releasing (result : Except String α)
  | over (outcome : Outcome α)

structure Holder (α : Type) where
  call : LockCall
  stage : Stage α
  -- when the call set its key, unless a release of it has run since
  acquiredAt : Option ℕ

inductive Move (α : Type) where
  | redis (reply : Reply)
  | finish (result : Except String α)

variable {α : Type}

def Holder.acquire (h : Holder α) (s : Redis) : Redis × Holder α :=
  if (s.get h.call.key).isSome then (s, h)
  else (s.set h.call.key h.call.token h.call.ttlMs, { h with acquiredAt := some s.now })

def Holder.release (h : Holder α) (s : Redis) : Redis × Holder α :=
  (s.release h.call.key h.call.token, { h with acquiredAt := none })

def withLock (s : Redis) (h : Holder α) (m : Move α) : Redis × Holder α :=
  match h.stage, m with
  | .arrived, .redis .answered =>
    let stage := if (s.get h.call.key).isSome then .over .null else .inside
    ((h.acquire s).1, { (h.acquire s).2 with stage })
  | .arrived, .redis .lost => h.acquire s
  | .arrived, .redis .failed => (s, { h with stage := .over .lockUnavailable })
  | .inside, .finish result => (s, { h with stage := .releasing result })
  -- the `finally`: a release that fails is only logged
  | .releasing result, .redis .answered =>
    ((h.release s).1, { (h.release s).2 with stage := .over (.ran result) })
  | .releasing _, .redis .lost => h.release s
  | .releasing result, .redis .failed => (s, { h with stage := .over (.ran result) })
  -- a command that was given up may still be on its way
  | .over .lockUnavailable, .redis .lost => h.acquire s
  | .over (.ran _), .redis .lost => h.release s
  | _, _ => (s, h)

def stillHeld (s : Redis) (c : LockCall) : Reply → Bool
  | .answered => (s.get c.key).any fun e => e.token = c.token
  | _ => false

def lockSystem : System Redis (Holder α) (Move α) ℕ where
  step := withLock
  env s ms := { s with now := s.now + ms }
  reset h _ := h

abbrev LockWorld (ι α : Type) := World ι Redis (Holder α)

def lockStart {ι : Type} (calls : ι → LockCall) (now : ℕ) : LockWorld ι α :=
  ⟨⟨now, fun _ => none⟩, fun i => ⟨calls i, .arrived, none⟩⟩

theorem withLock_cases (s : Redis) (h : Holder α) (m : Move α) :
    (withLock s h m).2.call = h.call ∧
      (((withLock s h m).1 = s ∧ (withLock s h m).2.acquiredAt = h.acquiredAt) ∨
        (s.get h.call.key = none ∧
          (withLock s h m).1 = s.set h.call.key h.call.token h.call.ttlMs ∧
          (withLock s h m).2.acquiredAt = some s.now) ∨
        ((withLock s h m).1 = s.release h.call.key h.call.token ∧
          (withLock s h m).2.acquiredAt = none)) := by
  have hacquire : (h.acquire s).2.call = h.call ∧
      (((h.acquire s).1 = s ∧ (h.acquire s).2.acquiredAt = h.acquiredAt) ∨
        (s.get h.call.key = none ∧
          (h.acquire s).1 = s.set h.call.key h.call.token h.call.ttlMs ∧
          (h.acquire s).2.acquiredAt = some s.now)) := by
    rw [Holder.acquire]
    split_ifs with hheld
    · exact ⟨rfl, .inl ⟨rfl, rfl⟩⟩
    · exact ⟨rfl, .inr ⟨by simpa using hheld, rfl, rfl⟩⟩
  -- the shape of a step that may have acquired the key
  have hset := hacquire.2.imp_right (Or.inl (b := (h.acquire s).1 =
    s.release h.call.key h.call.token ∧ (h.acquire s).2.acquiredAt = none))
  unfold withLock
  split
  · exact ⟨hacquire.1, hset⟩
  · exact ⟨hacquire.1, hset⟩
  · exact ⟨rfl, .inl ⟨rfl, rfl⟩⟩
  · exact ⟨rfl, .inl ⟨rfl, rfl⟩⟩
  · exact ⟨rfl, .inr (.inr ⟨rfl, rfl⟩)⟩
  · exact ⟨rfl, .inr (.inr ⟨rfl, rfl⟩)⟩
  · exact ⟨rfl, .inl ⟨rfl, rfl⟩⟩
  · exact ⟨hacquire.1, hset⟩
  · exact ⟨rfl, .inr (.inr ⟨rfl, rfl⟩)⟩
  · exact ⟨rfl, .inl ⟨rfl, rfl⟩⟩

section Invariant
variable {ι : Type} {calls : ι → LockCall} {s : Redis} {acquiredAt : ι → Option ℕ} {i : ι}

/-- The call has set its key, no release of it has run, and its TTL is not over. -/
def Holds (calls : ι → LockCall) (s : Redis) (acquiredAt : ι → Option ℕ) (i : ι) (a : ℕ) : Prop :=
  acquiredAt i = some a ∧ s.now < a + (calls i).ttlMs

def Faithful (calls : ι → LockCall) (s : Redis) (acquiredAt : ι → Option ℕ) : Prop :=
  ∀ key e, s.get key = some e ↔ ∃ i a, (calls i).key = key ∧ Holds calls s acquiredAt i a ∧
    e = ⟨(calls i).token, a + (calls i).ttlMs⟩

theorem get_eq_some {key : String} {e : Entry} :
    s.get key = some e ↔ s.values key = some e ∧ s.now < e.expiresAt := by
  simp [Redis.get, Option.filter_eq_some_iff]

theorem Redis.set_of_free {key token : String} {ttlMs : ℕ} (hfree : s.get key = none) :
    s.set key token ttlMs =
      ⟨s.now, Function.update s.values key (some ⟨token, s.now + ttlMs⟩)⟩ := by
  rw [Redis.set, hfree]
  rfl

theorem faithful_start (calls : ι → LockCall) (now : ℕ) :
    Faithful calls ⟨now, fun _ => none⟩ fun _ => none := by
  intro key e
  constructor
  · intro h
    cases h
  · rintro ⟨i, a, -, ⟨h, -⟩, -⟩
    cases h

theorem Faithful.tick (h : Faithful calls s acquiredAt) (ms : ℕ) :
    Faithful calls { s with now := s.now + ms } acquiredAt := by
  intro key e
  constructor
  · intro hget
    obtain ⟨hvalue, hlive⟩ := get_eq_some.1 hget
    have hbefore : s.now < e.expiresAt := (Nat.le_add_right _ _).trans_lt hlive
    obtain ⟨i, a, hkey, ⟨ha, -⟩, rfl⟩ := (h key e).1 (get_eq_some.2 ⟨hvalue, hbefore⟩)
    exact ⟨i, a, hkey, ⟨ha, hlive⟩, rfl⟩
  · rintro ⟨i, a, hkey, ⟨ha, hlive⟩, rfl⟩
    have hbefore : s.now < a + (calls i).ttlMs := (Nat.le_add_right _ _).trans_lt hlive
    have hget := (h key _).2 ⟨i, a, hkey, ⟨ha, hbefore⟩, rfl⟩
    exact get_eq_some.2 ⟨(get_eq_some.1 hget).1, hlive⟩

theorem Faithful.get_eq_none_iff (h : Faithful calls s acquiredAt) {key : String} :
    s.get key = none ↔ ∀ j, (calls j).key = key → ∀ a, ¬Holds calls s acquiredAt j a := by
  rw [Option.eq_none_iff_forall_ne_some]
  constructor
  · intro hfree j hj a hholds
    exact hfree _ ((h key _).2 ⟨j, a, hj, hholds, rfl⟩)
  · intro hnone e hget
    obtain ⟨j, a, hj, hholds, -⟩ := (h key e).1 hget
    exact hnone j hj a hholds

theorem Faithful.get_of_holds (h : Faithful calls s acquiredAt) {a : ℕ}
    (hholds : Holds calls s acquiredAt i a) :
    s.get (calls i).key = some ⟨(calls i).token, a + (calls i).ttlMs⟩ :=
  (h _ _).2 ⟨i, a, rfl, hholds, rfl⟩

def acquisitions (w : LockWorld ι α) : ι → Option ℕ := fun i => (w.task i).acquiredAt

structure LockInv (calls : ι → LockCall) (w : LockWorld ι α) : Prop where
  call : ∀ i, (w.task i).call = calls i
  inside : ∀ i, (w.task i).stage = .inside → ((w.task i).acquiredAt).isSome
  faithful : Faithful calls w.shared (acquisitions w)

theorem lockInv_start (calls : ι → LockCall) (now : ℕ) :
    LockInv calls (lockStart calls now : LockWorld ι α) where
  call _ := rfl
  inside _ h := by cases h
  faithful := faithful_start calls now

/-- The answer to `stillHeld` is about the call's own TTL and nothing else. -/
theorem LockInv.stillHeld_iff {w : LockWorld ι α} (h : LockInv calls w)
    (htokens : ∀ i j, (calls i).token = (calls j).token → i = j) {a : ℕ}
    (ha : (w.task i).acquiredAt = some a) :
    stillHeld w.shared (w.task i).call .answered = true ↔ w.shared.now < a + (calls i).ttlMs := by
  rw [stillHeld, h.call i]
  constructor
  · intro hheld
    rcases hget : w.shared.get (calls i).key with _ | e
    · simp [hget] at hheld
    · obtain ⟨j, b, -, ⟨hb, hlive⟩, rfl⟩ := (h.faithful _ e).1 hget
      obtain rfl : j = i := by
        refine htokens j i ?_
        simpa [hget] using hheld
      obtain rfl := Option.some.inj (hb.symm.trans ha)
      exact hlive
  · intro hlive
    rw [h.faithful.get_of_holds ⟨ha, hlive⟩]
    simp

theorem LockInv.holder_unique {w : LockWorld ι α} (h : LockInv calls w)
    (htokens : ∀ i j, (calls i).token = (calls j).token → i = j) {i j : ι} {a b : ℕ}
    (hkey : (calls i).key = (calls j).key)
    (hi : Holds calls w.shared (acquisitions w) i a)
    (hj : Holds calls w.shared (acquisitions w) j b) : i = j := by
  have hgi := h.faithful.get_of_holds hi
  rw [hkey, h.faithful.get_of_holds hj, Option.some_inj] at hgi
  exact (htokens j i (congrArg Entry.token hgi)).symm

variable [DecidableEq ι]

theorem Faithful.set (h : Faithful calls s acquiredAt) (hfree : s.get (calls i).key = none) :
    Faithful calls (s.set (calls i).key (calls i).token (calls i).ttlMs)
      (Function.update acquiredAt i (some s.now)) := by
  rw [Redis.set_of_free hfree]
  intro key e
  by_cases hkey : key = (calls i).key
  · -- no call held the key, so the new entry is the only one
    subst hkey
    rw [get_eq_some]
    simp only [Function.update_self, Option.some_inj]
    constructor
    · rintro ⟨rfl, hlive⟩
      exact ⟨i, s.now, rfl, ⟨Function.update_self .., hlive⟩, rfl⟩
    · rintro ⟨j, a, hj, ⟨ha, hlive⟩, rfl⟩
      by_cases hji : j = i
      · subst hji
        rw [Function.update_self, Option.some_inj] at ha
        subst ha
        exact ⟨rfl, hlive⟩
      · rw [Function.update_of_ne hji] at ha
        exact absurd ⟨ha, hlive⟩ (h.get_eq_none_iff.1 hfree j hj a)
  · rw [Redis.get]
    simp only [Function.update_of_ne hkey]
    rw [← Redis.get, h key e]
    refine exists_congr fun j => exists_congr fun a => and_congr_right fun hj => ?_
    have hji : j ≠ i := by
      rintro rfl
      exact hkey hj.symm
    rw [Holds, Holds, Function.update_of_ne hji]

theorem Redis.get_release {key token : String} {k : String} {e : Entry} :
    (s.release key token).get k = some e ↔ s.get k = some e ∧ ¬(k = key ∧ e.token = token) := by
  rw [Redis.release]
  split_ifs with hown
  · rw [get_eq_some, get_eq_some]
    by_cases hk : k = key
    · subst hk
      simp only [Function.update_self, reduceCtorEq, false_and, true_and, false_iff, not_and,
        not_not]
      intro hthere
      rw [get_eq_some.2 hthere] at hown
      simpa using hown
    · simp only [Function.update_of_ne hk, hk, false_and, not_false_eq_true, and_true]
  · refine ⟨fun hthere => ⟨hthere, ?_⟩, fun hthere => hthere.1⟩
    rintro ⟨rfl, rfl⟩
    rw [hthere] at hown
    simp at hown

theorem Redis.release_now {key token : String} : (s.release key token).now = s.now := by
  rw [Redis.release]
  split_ifs <;> rfl

theorem Faithful.release (h : Faithful calls s acquiredAt)
    (htokens : ∀ i j, (calls i).token = (calls j).token → i = j) :
    Faithful calls (s.release (calls i).key (calls i).token)
      (Function.update acquiredAt i none) := by
  intro key e
  rw [Redis.get_release, h key e]
  constructor
  · rintro ⟨⟨j, a, hj, ⟨ha, hlive⟩, rfl⟩, hnot⟩
    have hji : j ≠ i := by
      rintro rfl
      exact hnot ⟨hj.symm, rfl⟩
    refine ⟨j, a, hj, ⟨?_, ?_⟩, rfl⟩
    · rw [Function.update_of_ne hji, ha]
    · rw [Redis.release_now]
      exact hlive
  · rintro ⟨j, a, hj, ⟨ha, hlive⟩, rfl⟩
    have hji : j ≠ i := by
      rintro rfl
      rw [Function.update_self] at ha
      cases ha
    rw [Function.update_of_ne hji] at ha
    rw [Redis.release_now] at hlive
    refine ⟨⟨j, a, hj, ⟨ha, hlive⟩, rfl⟩, ?_⟩
    -- the script compares tokens, and no other call has this one
    rintro ⟨-, htoken⟩
    exact hji (htokens j i htoken)

theorem withLock_inside (h : Holder α) (m : Move α)
    (hbefore : h.stage = .inside → h.acquiredAt.isSome)
    (hafter : (withLock s h m).2.stage = .inside) : (withLock s h m).2.acquiredAt.isSome := by
  have hacquire : (h.acquire s).2.stage = h.stage := by
    rw [Holder.acquire]
    split_ifs <;> rfl
  have hrelease : (h.release s).2.stage = h.stage := rfl
  unfold withLock at hafter ⊢
  split at hafter
  · split_ifs at hafter with hheld
    simp only [Holder.acquire, if_neg hheld, Option.isSome_some]
  · next hstage =>
    rw [hacquire, hstage] at hafter
    cases hafter
  · cases hafter
  · cases hafter
  · cases hafter
  · next hstage =>
    rw [hrelease, hstage] at hafter
    cases hafter
  · cases hafter
  · next hstage =>
    rw [hacquire, hstage] at hafter
    cases hafter
  · next hstage =>
    rw [hrelease, hstage] at hafter
    cases hafter
  · exact hbefore hafter

theorem LockInv.next {w : LockWorld ι α} (h : LockInv calls w)
    (htokens : ∀ i j, (calls i).token = (calls j).token → i = j) (e : Event ι (Move α) ℕ) :
    LockInv calls (lockSystem.next w e) := by
  cases e with
  | env ms => exact ⟨h.call, h.inside, h.faithful.tick ms⟩
  | act i m =>
    obtain ⟨hcall, heffect⟩ := withLock_cases w.shared (w.task i) m
    have hothers : acquisitions (lockSystem.next w (.act i m)) =
        Function.update (acquisitions w) i
          (withLock w.shared (w.task i) m).2.acquiredAt := by
      funext j
      by_cases hj : j = i
      · subst hj
        simp [acquisitions, System.next, lockSystem]
      · simp [acquisitions, System.next, lockSystem, hj]
    have hsame : (withLock w.shared (w.task i) m).2.acquiredAt = (w.task i).acquiredAt →
        Function.update (acquisitions w) i (withLock w.shared (w.task i) m).2.acquiredAt =
          acquisitions w := by
      intro hacquired
      rw [hacquired]
      exact Function.update_eq_self ..
    refine ⟨fun j => ?_, fun j => ?_, ?_⟩
    · by_cases hj : j = i
      · subst hj
        have hself : ((lockSystem.next w (.act j m)).task j).call = (w.task j).call := by
          simpa [System.next, lockSystem] using hcall
        exact hself.trans (h.call j)
      · simpa [System.next, lockSystem, hj] using h.call j
    · by_cases hj : j = i
      · subst hj
        simpa [System.next, lockSystem] using withLock_inside (w.task j) m (h.inside j)
      · simpa [System.next, lockSystem, hj] using h.inside j
    · rw [hothers]
      rw [h.call i] at heffect
      change Faithful calls (withLock w.shared (w.task i) m).1 _
      rcases heffect with ⟨hshared, hacquired⟩ | ⟨hfree, hshared, hacquired⟩ | ⟨hshared, hacquired⟩
      · rw [hshared, hsame hacquired]
        exact h.faithful
      · rw [hshared, hacquired]
        exact h.faithful.set hfree
      · rw [hshared, hacquired]
        exact h.faithful.release htokens

theorem LockInv.let_in_iff {w : LockWorld ι α} (h : LockInv calls w)
    (harrived : (w.task i).stage = .arrived) :
    ((lockSystem.next w (.act i (.redis .answered))).task i).stage = .inside ↔
      ∀ j, (calls j).key = (calls i).key → ∀ a,
        ¬Holds calls w.shared (acquisitions w) j a := by
  rw [← h.faithful.get_eq_none_iff, ← h.call i]
  have hstage : ((lockSystem.next w (.act i (.redis .answered))).task i).stage =
      if (w.shared.get (w.task i).call.key).isSome then .over .null else .inside := by
    simp [System.next, lockSystem, withLock, harrived]
  rw [hstage]
  rcases w.shared.get (w.task i).call.key with _ | e <;> simp

/-- In every run a call that is let in keeps the lock for its whole TTL, whatever the others and
Redis do, and `stillHeld` tells exactly whether the TTL is over; no two calls hold one key; and a
call is let in exactly if no acquisition of its key is live, its own from a lost answer included. -/
theorem lock_held_for_its_ttl (htokens : ∀ i j, (calls i).token = (calls j).token → i = j)
    (now : ℕ) (evs : List (Event ι (Move α) ℕ)) :
    ∀ w ∈ lockSystem.visited (lockStart calls now) evs,
      (∀ i, (w.task i).stage = .inside → ∃ a, (w.task i).acquiredAt = some a ∧
        (stillHeld w.shared (w.task i).call .answered = true ↔
          w.shared.now < a + (calls i).ttlMs)) ∧
      (∀ i j a b, (calls i).key = (calls j).key →
        Holds calls w.shared (acquisitions w) i a →
        Holds calls w.shared (acquisitions w) j b → i = j) ∧
      ∀ i, (w.task i).stage = .arrived →
        (((lockSystem.next w (.act i (.redis .answered))).task i).stage = .inside ↔
          ∀ j, (calls j).key = (calls i).key → ∀ a,
            ¬Holds calls w.shared (acquisitions w) j a) := by
  intro w hw
  have hall : ∀ v ∈ lockSystem.visited (lockStart calls now) evs, LockInv calls v :=
    System.visited_invariant (fun v e hv => LockInv.next hv htokens e) (lockInv_start calls now)
  have hinv := hall w hw
  refine ⟨fun i hinside => ?_, fun i j a b hkey hi hj => hinv.holder_unique htokens hkey hi hj,
    fun i harrived => hinv.let_in_iff harrived⟩
  obtain ⟨a, ha⟩ := Option.isSome_iff_exists.1 (hinv.inside i hinside)
  exact ⟨a, ha, hinv.stillHeld_iff htokens ha⟩

end Invariant

def slowCalls : Bool → LockCall
  | false => ⟨"funnel:payment:s", "first", 60000, by decide⟩
  | true => ⟨"funnel:payment:s", "second", 60000, by decide⟩

def slowEvents : List (Event Bool (Move Unit) ℕ) :=
  -- the first call is let in and takes longer than its TTL, the second is let in, and the release
  -- of the first comes last
  [.act false (.redis .answered), .env 60000, .act true (.redis .answered),
    .act false (.finish (.ok ())), .act false (.redis .answered)]

theorem lock_held_for_its_ttl_slow :
    let w := lockSystem.runAll (lockStart slowCalls 0) slowEvents
    stillHeld w.shared (slowCalls true) .answered = true ∧
      stillHeld w.shared (slowCalls false) .answered = false := by
  have htokens : ∀ i j, (slowCalls i).token = (slowCalls j).token → i = j := by decide
  have hend := lock_held_for_its_ttl htokens 0 slowEvents _ System.last_mem_visited
  obtain ⟨a, ha, hiff⟩ := hend.1 true rfl
  obtain rfl := Option.some.inj ha
  exact ⟨hiff.2 (by decide), rfl⟩

end Rovenue.Locks
