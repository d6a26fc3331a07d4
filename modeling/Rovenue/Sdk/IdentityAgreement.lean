import Rovenue.Sdk.IdentityManager

/-! Whether disk and memory agree on the user. Each call updates the two in separate
sections, and `mark_synced` loads and saves in two more. -/

namespace Rovenue.Sdk
open Threads

variable {ι : Type} {s s' : IdentityState} {t : IdentityCall}

abbrev IdentityWorld (ι : Type) := World ι IdentityState IdentityCall

/-- The memory has no flag of its own to compare. -/
def Agrees (s : IdentityState) : Prop :=
  s.disk.rovenueId = s.cached.rovenueId ∧ s.disk.appUserId = s.cached.appUserId

/-- A synced row's app user id was accepted by the server for the row's rovenue id. -/
def SyncedTruthful (s : IdentityState) : Prop :=
  s.disk.synced = true → ∀ a, s.disk.appUserId = some a → (s.disk.rovenueId, a) ∈ s.posted

def Quiet (w : IdentityWorld ι) : Prop := ∀ i, w.task i = .idle

/-- A failing save of `set_app_user_id` puts back the user it replaced. -/
def RestoresUser (w : IdentityWorld ι) (e : Event ι IdentityEvent Empty) : Prop :=
  ∀ i before rovenueId appUserId, w.task i = .saving before rovenueId appUserId →
    e = .act i (.save false) → w.shared.cached = before

/-- Each write finds what its call left: the save of an identify the user it set, the
swap of a log-out the row it saved, the save of a mark the row it loaded, with the
rovenue id that was sent. And a save of an identify succeeds. -/
def IdentityCall.Orderly (s : IdentityState) : IdentityCall → IdentityEvent → Prop
  | .saving _ rovenueId appUserId, .save ok => ok = true ∧ s.cached = ⟨rovenueId, some appUserId⟩
  | .swapping row, .swap => s.disk.rovenueId = row.rovenueId ∧ s.disk.appUserId = row.appUserId
  | .markSaving rovenueId row, .save true =>
    s.disk.rovenueId = row.rovenueId ∧ s.disk.appUserId = row.appUserId ∧
      row.rovenueId = rovenueId
  | _, _ => True

instance (s : IdentityState) (t : IdentityCall) (e : IdentityEvent) : Decidable (t.Orderly s e) := by
  unfold IdentityCall.Orderly
  split <;> infer_instance

def Orderly (w : IdentityWorld ι) : Event ι IdentityEvent Empty → Prop
  | .act i e => (w.task i).Orderly w.shared e
  | .env _ => True

instance (w : IdentityWorld ι) (e : Event ι IdentityEvent Empty) : Decidable (Orderly w e) := by
  unfold Orderly
  split <;> infer_instance

theorem setAppUserId_cases (s : IdentityState) (appUserId : String) :
    s.setAppUserId appUserId = (s, .idle) ∨
      s.setAppUserId appUserId =
        ({ s with cached := ⟨s.cached.rovenueId, some appUserId⟩ },
          .saving s.cached s.cached.rovenueId appUserId) := by
  simp only [IdentityState.setAppUserId, User.setAppUserId]
  by_cases hblank : isBlank appUserId = true
  · simp [hblank]
  · by_cases hsame : s.cached.appUserId = some appUserId
    · simp [hsame]
    · simp [hblank, hsame]

def IdentityCall.Carries (s : IdentityState) : IdentityCall → Prop
  | .saving _ rovenueId appUserId => s.cached = ⟨rovenueId, some appUserId⟩
  | .swapping row => s.disk.rovenueId = row.rovenueId ∧ s.disk.appUserId = row.appUserId
  | _ => False

/-- What a call has done so far is in `posted`. -/
def IdentityCall.Sound (posted : List (String × String)) : IdentityCall → Prop
  | .marking rovenueId appUserId => (rovenueId, appUserId) ∈ posted
  | .markSaving rovenueId row => ∃ a, row.appUserId = some a ∧ (rovenueId, a) ∈ posted
  | .swapping row => row.appUserId = none
  | _ => True

structure SameUsers (s s' : IdentityState) : Prop where
  cached : s'.cached = s.cached
  rovenueId : s'.disk.rovenueId = s.disk.rovenueId
  appUserId : s'.disk.appUserId = s.disk.appUserId

theorem SameUsers.carries (h : SameUsers s s') (ht : t.Carries s) : t.Carries s' := by
  unfold IdentityCall.Carries at ht ⊢
  rw [h.cached, h.rovenueId, h.appUserId]
  exact ht

theorem SameUsers.agrees (h : SameUsers s s') (hs : Agrees s) : Agrees s' := by
  rw [Agrees, h.cached, h.rovenueId, h.appUserId]
  exact hs

theorem IdentityCall.Sound.mono {posted posted' : List (String × String)}
    (hsub : posted ⊆ posted') (h : t.Sound posted) : t.Sound posted' := by
  unfold IdentityCall.Sound at h ⊢
  split at h
  · exact hsub h
  · obtain ⟨a, ha, hmem⟩ := h
    exact ⟨a, ha, hsub hmem⟩
  · exact h
  · trivial

theorem step_carries (hsound : t.Sound s.posted) {e : IdentityEvent} (hcond : t.Orderly s e) :
    Agrees (s.step t e).1 ∨ (s.step t e).2.Carries (s.step t e).1 ∨
      SameUsers s (s.step t e).1 ∧ (t.Carries s → (s.step t e).2.Carries (s.step t e).1) := by
  -- after a step disk and memory agree, or the call carries the difference, or it touched neither
  have hsame : SameUsers s s := ⟨rfl, rfl, rfl⟩
  unfold IdentityState.step
  split
  · rename_i appUserId
    rcases setAppUserId_cases s appUserId with heq | heq <;> rw [heq]
    · exact .inr (.inr ⟨hsame, False.elim⟩)
    · exact .inr (.inl rfl)
  · split_ifs
    · exact .inr (.inl ⟨rfl, rfl⟩)
    · exact .inr (.inr ⟨hsame, False.elim⟩)
  · exact .inr (.inr ⟨hsame, False.elim⟩)
  · obtain ⟨rfl, hcached⟩ := hcond
    left
    simp [Agrees, hcached]
  · exact .inr (.inr ⟨hsame, False.elim⟩)
  · split_ifs
    · exact .inr (.inr ⟨⟨rfl, rfl, rfl⟩, False.elim⟩)
    · exact .inr (.inr ⟨hsame, False.elim⟩)
  · exact .inr (.inr ⟨hsame, False.elim⟩)
  · rename_i ok
    cases ok with
    | false => exact .inr (.inr ⟨hsame, False.elim⟩)
    | true => exact .inr (.inr ⟨⟨rfl, hcond.1.symm, hcond.2.1.symm⟩, False.elim⟩)
  · rename_i row
    left
    exact ⟨hcond.1, hcond.2.trans hsound⟩
  · exact .inr (.inr ⟨hsame, id⟩)

theorem step_posted (s : IdentityState) (t : IdentityCall) (e : IdentityEvent) :
    s.posted ⊆ (s.step t e).1.posted := by
  unfold IdentityState.step
  split
  · rename_i appUserId
    rcases setAppUserId_cases s appUserId with heq | heq <;> rw [heq] <;>
      exact List.Subset.refl _
  · split_ifs <;> exact List.Subset.refl _
  · exact List.Subset.refl _
  · split_ifs <;> exact List.Subset.refl _
  · exact List.Subset.refl _
  · split_ifs
    · exact List.subset_append_left ..
    · exact List.Subset.refl _
  · exact List.Subset.refl _
  · split_ifs <;> exact List.Subset.refl _
  · exact List.Subset.refl _
  · exact List.Subset.refl _

theorem step_sound (hsound : t.Sound s.posted) (e : IdentityEvent) :
    (s.step t e).2.Sound (s.step t e).1.posted := by
  unfold IdentityState.step
  split
  · rename_i appUserId
    rcases setAppUserId_cases s appUserId with heq | heq <;> rw [heq] <;> trivial
  · split_ifs
    · rfl
    · trivial
  · split_ifs
    · cases s.pendingAppUserId <;> trivial
    · trivial
  · split_ifs <;> trivial
  · trivial
  · split_ifs
    · simp [IdentityCall.Sound]
    · trivial
  · rename_i rovenueId appUserId ok
    simp only [IdentityState.markSynced]
    split_ifs with hok hload
    · exact ⟨appUserId, hload.2, hsound⟩
    · trivial
    · trivial
  · trivial
  · trivial
  · exact hsound

theorem step_synced (hsynced : SyncedTruthful s) (hsound : t.Sound s.posted) {e : IdentityEvent}
    (hcond : t.Orderly s e) : SyncedTruthful (s.step t e).1 := by
  unfold IdentityState.step
  split
  · rename_i appUserId
    rcases setAppUserId_cases s appUserId with heq | heq <;> rw [heq] <;> exact hsynced
  · split_ifs
    · rintro - a ⟨⟩
    · exact hsynced
  · exact hsynced
  · split_ifs
    · rintro ⟨⟩
    · exact hsynced
  · exact hsynced
  · split_ifs
    · intro hs a ha
      exact List.mem_append_left _ (hsynced hs a ha)
    · exact hsynced
  · exact hsynced
  · rename_i ok
    cases ok with
    | false => exact hsynced
    | true =>
      obtain ⟨a, ha, hmem⟩ := hsound
      obtain ⟨-, -, hrov⟩ := hcond
      rintro - a' ha'
      obtain rfl : a = a' := Option.some.inj (ha.symm.trans ha')
      simpa [hrov] using hmem
  · exact hsynced
  · exact hsynced

structure Coherent (w : IdentityWorld ι) : Prop where
  users : Agrees w.shared ∨ ∃ i, (w.task i).Carries w.shared
  synced : SyncedTruthful w.shared
  calls : ∀ i, (w.task i).Sound w.shared.posted

variable [DecidableEq ι]

theorem Coherent.next {w : IdentityWorld ι} (h : Coherent w) {e : Event ι IdentityEvent Empty}
    (hcond : Orderly w e) : Coherent (identitySystem.next w e) := by
  cases e with
  | env d => exact d.elim
  | act i e =>
    have hi := h.calls i
    refine ⟨?_, step_synced h.synced hi hcond, fun j => ?_⟩
    · rcases step_carries hi hcond with hagrees | hcarries | ⟨hsame, hstill⟩
      · exact .inl hagrees
      · exact .inr ⟨i, by simpa [System.next, identitySystem] using hcarries⟩
      · rcases h.users with hagrees | ⟨j, hj⟩
        · exact .inl (hsame.agrees hagrees)
        · right
          refine ⟨j, ?_⟩
          by_cases hji : j = i
          · subst hji
            simpa [System.next, identitySystem] using hstill hj
          · simpa [System.next, identitySystem, Function.update_of_ne hji] using hsame.carries hj
    · by_cases hji : j = i
      · subst hji
        simpa [System.next, identitySystem] using step_sound hi e
      · simpa [System.next, identitySystem, Function.update_of_ne hji] using
          (h.calls j).mono (step_posted w.shared (w.task i) e)

/-- In a run of orderly writes from an agreeing start, disk and memory agree whenever no
call is in progress, a synced row is always truthful, and no identify leaves a user
behind that it failed to save. -/
theorem identity_agrees (w : IdentityWorld ι) (hquiet : Quiet w) (hagrees : Agrees w.shared)
    (hsynced : SyncedTruthful w.shared) (evs : List (Event ι IdentityEvent Empty))
    (hcond : ∀ x ∈ identitySystem.transitions w evs, Orderly x.1 x.2) :
    (∀ v ∈ identitySystem.visited w evs, (Quiet v → Agrees v.shared) ∧ SyncedTruthful v.shared) ∧
      ∀ x ∈ identitySystem.transitions w evs, RestoresUser x.1 x.2 := by
  have hinit : Coherent w := by
    refine ⟨.inl hagrees, hsynced, fun i => ?_⟩
    rw [hquiet i]
    trivial
  have hrun := System.visited_induct (fun w e => Coherent.next (w := w) (e := e)) hinit hcond
  constructor
  · intro v hv
    refine ⟨fun hq => ?_, (hrun v hv).synced⟩
    rcases (hrun v hv).users with hagrees | ⟨i, hi⟩
    · exact hagrees
    · rw [hq i] at hi
      exact hi.elim
  · intro x hx i before rovenueId appUserId htask he
    have hx' := hcond x hx
    rw [he] at hx'
    change (x.1.task i).Orderly x.1.shared (.save false) at hx'
    rw [htask] at hx'
    exact absurd hx'.1 Bool.false_ne_true

inductive AppThread where
  | first | second
deriving DecidableEq

def anonymous : IdentityWorld AppThread :=
  ⟨⟨⟨"rov_1", none⟩, ⟨"rov_1", none, true⟩, []⟩, fun _ => .idle⟩

def identifyThenLogOut : List (Event AppThread IdentityEvent Empty) :=
  [.act .first (.identify "A"), .act .first (.save true), .act .first .readId,
    .act .first (.reply true), .act .first (.load true), .act .first (.save true),
    .act .second (.logOut "rov_2" true), .act .second .swap, .act .first (.identify "A"),
    .act .first (.save true)]

theorem identity_agrees_identifyThenLogOut :
    (∀ v ∈ identitySystem.visited anonymous identifyThenLogOut,
      (Quiet v → Agrees v.shared) ∧ SyncedTruthful v.shared) ∧
      ∀ x ∈ identitySystem.transitions anonymous identifyThenLogOut, RestoresUser x.1 x.2 :=
  identity_agrees anonymous (fun _ => rfl) ⟨rfl, rfl⟩ (fun _ _ h => nomatch h)
    identifyThenLogOut (by decide)

def crossedSaves : List (Event AppThread IdentityEvent Empty) :=
  [.act .first (.identify "A"), .act .second (.identify "B"), .act .second (.save true),
    .act .first (.save true), .act .first .readId, .act .first (.reply false),
    .act .second .readId, .act .second (.reply false)]

def staleMark : List (Event AppThread IdentityEvent Empty) :=
  -- the mark for the id sent under `rov_1` lands on the row of `rov_2`
  [.act .first (.identify "A"), .act .first (.save true), .act .first .readId,
    .act .first (.reply true), .act .second (.logOut "rov_2" true), .act .second .swap,
    .act .second (.identify "A"), .act .second (.save true), .act .first (.load true),
    .act .first (.save true), .act .second .readId, .act .second (.reply false)]

theorem identity_disagrees :
    (∃ v ∈ identitySystem.visited anonymous crossedSaves, Quiet v ∧ ¬ Agrees v.shared) ∧
      (∃ v ∈ identitySystem.visited anonymous staleMark, Quiet v ∧ ¬ SyncedTruthful v.shared) ∧
        ∃ x ∈ identitySystem.transitions anonymous
          [.act .first (.identify "A"), .act .first (.save false)], ¬ RestoresUser x.1 x.2 := by
  refine ⟨⟨_, System.last_mem_visited, fun i => ?_, fun h => ?_⟩,
    ⟨_, System.last_mem_visited, fun i => ?_, fun h => ?_⟩,
    ⟨_, List.mem_cons_of_mem _ (List.mem_cons_self ..), fun h => ?_⟩⟩
  · cases i <;> rfl
  · exact absurd h.2 (by decide)
  · cases i <;> rfl
  · exact absurd (h (by decide) "A" (by decide)) (by decide)
  · exact absurd (h .first ⟨"rov_1", none⟩ "rov_1" "A" rfl rfl) (by decide)

end Rovenue.Sdk
