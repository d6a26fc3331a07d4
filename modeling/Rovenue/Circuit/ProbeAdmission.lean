import Rovenue.Circuit.CircuitBreaker

/-! Where every call ends in the phase that let it in, the half-open breaker bounds and counts its
own probes, and its deadline stands. -/

namespace Rovenue.Circuit
open Threads

variable {o : CircuitBreakerOptions} {c c' : StoreCircuit} {t t' : ExecCall} {e : ExecEvent}

def slotsLeft (current : CircuitState) (n : ℕ) : ℕ := if current = .halfOpen then n - 1 else n

inductive Ends (o : CircuitBreakerOptions) (c : StoreCircuit) (current : CircuitState) :
    Bool → StoreCircuit → Prop
  | closes {b : CircuitBreaker} (hstate : c.breaker.state = .halfOpen)
    (hcount : o.halfOpenRequests ≤ c.breaker.halfOpenSuccessCount + 1)
    (hclosed : b.state = .closed) (hslots : b.halfOpenInFlight = 0) :
    Ends o c current true { c with breaker := b, closings := c.closings + 1 }
  | counts {b : CircuitBreaker} (hstate : c.breaker.state = .halfOpen)
    (hsame : b.state = .halfOpen)
    (hcount : b.halfOpenSuccessCount = c.breaker.halfOpenSuccessCount + 1)
    (hslots : b.halfOpenInFlight = slotsLeft current c.breaker.halfOpenInFlight) :
    Ends o c current true { c with breaker := b }
  | trips {b : CircuitBreaker} (hopened : b.state = .opened)
    (hreach : c.breaker.state = .opened → o.failureThreshold ≤ c.breaker.failures + 1)
    (hdeadline : b.openedAt = some c.now) (hcount : b.halfOpenSuccessCount = 0)
    (hslots : b.halfOpenInFlight = slotsLeft current c.breaker.halfOpenInFlight) :
    Ends o c current false { c with
      breaker := b
      openings := if c.breaker.state = .opened then c.openings else c.now :: c.openings }
  | stays {succeeded : Bool} {b : CircuitBreaker} (hstate : c.breaker.state ≠ .halfOpen)
    (hsame : b.state = c.breaker.state) (hdeadline : b.openedAt = c.breaker.openedAt)
    (hcount : b.halfOpenSuccessCount = c.breaker.halfOpenSuccessCount)
    (hslots : b.halfOpenInFlight = slotsLeft current c.breaker.halfOpenInFlight) :
    Ends o c current succeeded { c with breaker := b }

theorem become_same {b : CircuitBreaker} (h : b.state = c.breaker.state) :
    c.become b = { c with breaker := b } := by
  unfold StoreCircuit.become
  rw [h, if_neg fun hboth => hboth.1 hboth.2, if_neg fun hboth => hboth.1 hboth.2]

theorem become_closed {b : CircuitBreaker} (hstate : c.breaker.state = .halfOpen)
    (h : b.state = .closed) :
    c.become b = { c with breaker := b, closings := c.closings + 1 } := by
  unfold StoreCircuit.become
  rw [h, hstate]
  rfl

theorem become_opened {b : CircuitBreaker} (h : b.state = .opened) :
    c.become b = { c with
      breaker := b
      openings := if c.breaker.state = .opened then c.openings else c.now :: c.openings } := by
  unfold StoreCircuit.become
  rw [h]
  by_cases hstate : c.breaker.state = .opened <;> simp [hstate]

theorem ends_true {current : CircuitState} :
    Ends o c current true (c.become (c.breaker.leave o c.now current true)) := by
  by_cases hstate : c.breaker.state = .halfOpen
  · by_cases hcount : o.halfOpenRequests ≤ c.breaker.halfOpenSuccessCount + 1
    · have hclosed : (c.breaker.leave o c.now current true).state = .closed := by
        by_cases hcurrent : current = .halfOpen <;>
          simp [CircuitBreaker.leave, CircuitBreaker.onSuccess, CircuitBreaker.close, hstate,
            hcount, hcurrent]
      rw [become_closed hstate hclosed]
      refine .closes hstate hcount hclosed ?_
      by_cases hcurrent : current = .halfOpen <;>
        simp [CircuitBreaker.leave, CircuitBreaker.onSuccess, CircuitBreaker.close, hstate,
          hcount, hcurrent]
    · have hsame : (c.breaker.leave o c.now current true).state = .halfOpen := by
        by_cases hcurrent : current = .halfOpen <;>
          simp [CircuitBreaker.leave, CircuitBreaker.onSuccess, hstate, hcount, hcurrent]
      rw [become_same (hsame.trans hstate.symm)]
      refine .counts hstate hsame ?_ ?_ <;>
        by_cases hcurrent : current = .halfOpen <;>
        simp [CircuitBreaker.leave, CircuitBreaker.onSuccess, slotsLeft, hstate, hcount, hcurrent]
  · have hsame : (c.breaker.leave o c.now current true).state = c.breaker.state := by
      by_cases hcurrent : current = .halfOpen <;>
        simp [CircuitBreaker.leave, CircuitBreaker.onSuccess, hstate, hcurrent]
    rw [become_same hsame]
    refine .stays hstate hsame ?_ ?_ ?_ <;>
      by_cases hcurrent : current = .halfOpen <;>
      simp [CircuitBreaker.leave, CircuitBreaker.onSuccess, slotsLeft, hstate, hcurrent]

theorem ends_false {current : CircuitState} :
    Ends o c current false (c.become (c.breaker.leave o c.now current false)) := by
  by_cases hreach : c.breaker.state = .halfOpen ∨ o.failureThreshold ≤ c.breaker.failures + 1
  · have htrip : c.breaker.onFailure o c.now =
        { c.breaker with failures := c.breaker.failures + 1, lastFailureAt := some c.now }.trip
          c.now := by
      unfold CircuitBreaker.onFailure
      obtain hstate | hcount := hreach
      · exact if_pos hstate
      · simp only [hcount, if_true, ite_self]
    have hopened : (c.breaker.leave o c.now current false).state = .opened := by
      by_cases hcurrent : current = .halfOpen <;>
        simp [CircuitBreaker.leave, htrip, CircuitBreaker.trip, hcurrent]
    rw [become_opened hopened]
    refine .trips hopened ?_ ?_ ?_ ?_
    · intro hstate
      refine hreach.resolve_left fun hhalf => ?_
      rw [hstate] at hhalf
      cases hhalf
    all_goals
      by_cases hcurrent : current = .halfOpen <;>
        simp [CircuitBreaker.leave, htrip, CircuitBreaker.trip, slotsLeft, hcurrent]
  · obtain ⟨hstate, hcount⟩ := not_or.1 hreach
    have hsame : (c.breaker.leave o c.now current false).state = c.breaker.state := by
      by_cases hcurrent : current = .halfOpen <;>
        simp [CircuitBreaker.leave, CircuitBreaker.onFailure, hstate, hcount, hcurrent]
    rw [become_same hsame]
    refine .stays hstate hsame ?_ ?_ ?_ <;>
      by_cases hcurrent : current = .halfOpen <;>
      simp [CircuitBreaker.leave, CircuitBreaker.onFailure, slotsLeft, hstate, hcount, hcurrent]

inductive CallStep (o : CircuitBreakerOptions) (c : StoreCircuit) :
    ExecCall → ExecEvent → StoreCircuit → ExecCall → Prop
  | idle {t : ExecCall} {e : ExecEvent} : CallStep o c t e c t
  | rejects (message : String) : CallStep o c .idle .call c (.rejected message)
  | starts (hstate : c.breaker.state = .closed) :
    CallStep o c .idle .call c (.running .closed c.openings.length c.closings)
  | probes (hstate : c.breaker.stateAt o c.now = .halfOpen)
    (hslots : c.breaker.halfOpenInFlight < o.halfOpenRequests) :
    CallStep o c .idle .call
      { c with breaker := { c.breaker with
          state := .halfOpen
          halfOpenInFlight := c.breaker.halfOpenInFlight + 1 } }
      (.running .halfOpen c.openings.length c.closings)
  | resolves {current : CircuitState} {opening closing : ℕ} {c' : StoreCircuit}
    (h : Ends o c current true c') :
    CallStep o c (.running current opening closing) .resolve c' (.settled current opening true)
  | fails {current : CircuitState} {opening closing : ℕ} {c' : StoreCircuit}
    (h : Ends o c current false c') :
    CallStep o c (.running current opening closing) .reject c' (.settled current opening false)

theorem stateAt_eq_closed (h : c.breaker.stateAt o c.now = .closed) :
    c.breaker.state = .closed := by
  unfold CircuitBreaker.stateAt at h
  split_ifs at h
  exact h

theorem callStep : CallStep o c t e (t.step o c e).1 (t.step o c e).2 := by
  cases t with
  | idle =>
    cases e with
    | call =>
      have hsame : c.become c.breaker = c := become_same rfl
      simp only [ExecCall.step, CircuitBreaker.enter]
      cases hstate : c.breaker.stateAt o c.now with
      | opened =>
        simp only [hsame]
        exact .rejects _
      | closed =>
        simp only [hsame]
        exact .starts (stateAt_eq_closed hstate)
      | halfOpen =>
        by_cases hslots : o.halfOpenRequests ≤ c.breaker.halfOpenInFlight
        · simp only [if_pos hslots, hsame]
          exact .rejects _
        · have hbecome : c.become { c.breaker with
              state := .halfOpen
              halfOpenInFlight := c.breaker.halfOpenInFlight + 1 } = { c with breaker :=
                { c.breaker with
                  state := .halfOpen
                  halfOpenInFlight := c.breaker.halfOpenInFlight + 1 } } := by
            simp [StoreCircuit.become]
          simp only [if_neg hslots, hbecome]
          exact .probes hstate (by omega)
    | _ => exact .idle
  | running current opening closing =>
    cases e with
    | call => exact .idle
    | resolve => exact .resolves ends_true
    | reject => exact .fails ends_false
  | _ => cases e <;> exact .idle

variable {ι : Type} [DecidableEq ι] {w : CircuitWorld ι} {i : ι}

theorem act_step : CallStep o w.shared (w.task i) e ((breakerSystem o).next w (.act i e)).shared
    (((breakerSystem o).next w (.act i e)).task i) := by
  have htask : ((breakerSystem o).next w (.act i e)).task i =
      ((w.task i).step o w.shared e).2 := Function.update_self ..
  rw [htask]
  exact callStep

theorem act_task_of_ne {j : ι} (hj : j ≠ i) :
    ((breakerSystem o).next w (.act i e)).task j = w.task j := Function.update_of_ne hj ..

omit [DecidableEq ι] in
theorem world_eq {w' : CircuitWorld ι} (hothers : ∀ j ≠ i, w'.task j = w.task j)
    (hi : w'.task i = w.task i) (hshared : w'.shared = w.shared) : w' = w := by
  have htask : w'.task = w.task := by
    funext j
    by_cases hj : j = i
    · exact hj ▸ hi
    · exact hothers j hj
  cases w
  cases w'
  exact congr (congrArg World.mk hshared) htask

omit [DecidableEq ι] in
theorem picked_before {w' : CircuitWorld ι} {P : ExecCall → Bool} {calls : List ι}
    (hothers : ∀ j ≠ i, w'.task j = w.task j) (hi : P (w'.task i) = false)
    (h : ∀ j ∈ calls, P (w'.task j) = true) : i ∉ calls ∧ ∀ j ∈ calls, P (w.task j) = true := by
  have hnot : i ∉ calls := fun hmem => by
    rw [h i hmem] at hi
    cases hi
  refine ⟨hnot, fun j hj => ?_⟩
  have hne : j ≠ i := fun heq => hnot (heq ▸ hj)
  rw [← hothers j hne]
  exact h j hj

theorem ExecCall.isProbing_of_sinceClosing {n : ℕ} (h : t.probesSinceClosing n = true) :
    t.isProbing = true := by
  cases t with
  | running current opening closing =>
    cases current with
    | halfOpen => rfl
    | _ => cases h
  | _ => cases h

structure Slots (o : CircuitBreakerOptions) (w : CircuitWorld ι) : Prop where
  closingLe : ∀ i n, (w.task i).probesSinceClosing n = true → n ≤ w.shared.closings
  own : ∀ calls : List ι, calls.Nodup →
    (∀ i ∈ calls, (w.task i).probesSinceClosing w.shared.closings = true) →
      calls.length ≤ w.shared.breaker.halfOpenInFlight
  bounded : ProbesBounded o w
  slots : w.shared.breaker.halfOpenInFlight ≤ o.halfOpenRequests
  afresh : w.shared.breaker.halfOpenInFlight = 0 ∨ ∀ i, (w.task i).isProbing = true →
    (w.task i).probesSinceClosing w.shared.closings = true

theorem slotsLeft_le {current : CircuitState} {n : ℕ} : slotsLeft current n ≤ n := by
  unfold slotsLeft
  split_ifs
  · exact Nat.sub_le n 1
  · exact le_rfl

omit [DecidableEq ι] in
theorem Slots.settle {w' : CircuitWorld ι} {current : CircuitState} {opening closing : ℕ}
    {succeeded : Bool} (h : Slots o w) (hrun : w.task i = .running current opening closing)
    (hothers : ∀ j ≠ i, w'.task j = w.task j) (hi : w'.task i = .settled current opening succeeded)
    (hclosings : w'.shared.closings = w.shared.closings)
    (hslots : w'.shared.breaker.halfOpenInFlight =
      slotsLeft current w.shared.breaker.halfOpenInFlight) : Slots o w' where
  closingLe j n hj := by
    have hne : j ≠ i := fun heq => by
      rw [heq, hi] at hj
      cases hj
    rw [hothers j hne] at hj
    rw [hclosings]
    exact h.closingLe j n hj
  own calls hnodup hcalls := by
    rw [hclosings] at hcalls
    obtain ⟨hnot, hbefore⟩ := picked_before (P := (·.probesSinceClosing w.shared.closings)) hothers
      (by rw [hi]; rfl) hcalls
    rw [hslots]
    by_cases hcurrent : current = .halfOpen
    · subst hcurrent
      rw [slotsLeft, if_pos rfl]
      obtain hnone | hown := h.afresh
      · have hlength := h.own calls hnodup hbefore
        omega
      · -- the call's own slot is one of those taken
        have hself : (w.task i).probesSinceClosing w.shared.closings = true :=
          hown i (by rw [hrun]; rfl)
        have hlength := h.own (i :: calls) (List.nodup_cons.2 ⟨hnot, hnodup⟩)
          (List.forall_mem_cons.2 ⟨hself, hbefore⟩)
        rw [List.length_cons] at hlength
        omega
    · rw [slotsLeft, if_neg hcurrent]
      exact h.own calls hnodup hbefore
  bounded calls hnodup hcalls := by
    obtain ⟨-, hbefore⟩ := picked_before (P := (·.isProbing)) hothers (by rw [hi]; rfl) hcalls
    exact h.bounded calls hnodup hbefore
  slots := by
    rw [hslots]
    exact slotsLeft_le.trans h.slots
  afresh := by
    rw [hslots, hclosings]
    obtain hnone | hown := h.afresh
    · left
      rw [hnone]
      exact Nat.le_zero.1 slotsLeft_le
    · refine .inr fun j hj => ?_
      have hne : j ≠ i := fun heq => by
        rw [heq, hi] at hj
        cases hj
      rw [hothers j hne] at hj ⊢
      exact hown j hj

omit [DecidableEq ι] in
theorem Slots.keep {w' : CircuitWorld ι} (h : Slots o w)
    (hothers : ∀ j ≠ i, w'.task j = w.task j) (hi : (w'.task i).isProbing = false)
    (hshared : w'.shared = w.shared) : Slots o w' where
  closingLe j n hj := by
    have hne : j ≠ i := fun heq => by
      rw [← heq, ExecCall.isProbing_of_sinceClosing hj] at hi
      cases hi
    rw [hothers j hne] at hj
    rw [hshared]
    exact h.closingLe j n hj
  own calls hnodup hcalls := by
    rw [hshared] at hcalls ⊢
    have hnot : (w'.task i).probesSinceClosing w.shared.closings = false := by
      by_contra hprobe
      rw [ExecCall.isProbing_of_sinceClosing (Bool.not_eq_false _ ▸ hprobe)] at hi
      cases hi
    exact h.own calls hnodup
      (picked_before (P := (·.probesSinceClosing w.shared.closings)) hothers hnot hcalls).2
  bounded calls hnodup hcalls :=
    h.bounded calls hnodup (picked_before (P := (·.isProbing)) hothers hi hcalls).2
  slots := by
    rw [hshared]
    exact h.slots
  afresh := by
    rw [hshared]
    refine h.afresh.imp_right fun hown j hj => ?_
    have hne : j ≠ i := fun heq => by
      rw [← heq, hj] at hi
      cases hi
    rw [hothers j hne] at hj ⊢
    exact hown j hj

omit [DecidableEq ι] in
theorem Slots.close {w' : CircuitWorld ι} {current : CircuitState} {opening : ℕ}
    {succeeded : Bool} (h : Slots o w) (hothers : ∀ j ≠ i, w'.task j = w.task j)
    (hi : w'.task i = .settled current opening succeeded)
    (hclosings : w'.shared.closings = w.shared.closings + 1)
    (hslots : w'.shared.breaker.halfOpenInFlight = 0) : Slots o w' := by
  have hclosing : ∀ j n, (w'.task j).probesSinceClosing n = true → n ≤ w.shared.closings := by
    intro j n hj
    have hne : j ≠ i := fun heq => by
      rw [heq, hi] at hj
      cases hj
    rw [hothers j hne] at hj
    exact h.closingLe j n hj
  refine ⟨fun j n hj => ?_, fun calls hnodup hcalls => ?_, fun calls hnodup hcalls => ?_, ?_,
    .inl hslots⟩
  · rw [hclosings]
    exact (hclosing j n hj).trans (Nat.le_succ _)
  · cases calls with
    | nil => exact Nat.zero_le _
    | cons j calls =>
      have hle := hclosing j _ (hcalls j (List.mem_cons_self ..))
      omega
  · exact h.bounded calls hnodup
      (picked_before (P := (·.isProbing)) hothers (by rw [hi]; rfl) hcalls).2
  · rw [hslots]
    exact Nat.zero_le _

theorem Slots.probe {w' : CircuitWorld ι} {opening : ℕ} (h : Slots o w)
    (hothers : ∀ j ≠ i, w'.task j = w.task j)
    (hi : w'.task i = .running .halfOpen opening w.shared.closings)
    (hclosings : w'.shared.closings = w.shared.closings)
    (hslots : w'.shared.breaker.halfOpenInFlight = w.shared.breaker.halfOpenInFlight + 1)
    (hroom : w.shared.breaker.halfOpenInFlight < o.halfOpenRequests)
    (hafresh : ∀ j, (w.task j).isProbing = true →
      (w.task j).probesSinceClosing w.shared.closings = true) : Slots o w' := by
  have hown : ∀ j, (w'.task j).isProbing = true →
      (w'.task j).probesSinceClosing w.shared.closings = true := by
    intro j hj
    by_cases hji : j = i
    · rw [hji, hi]
      exact decide_eq_true rfl
    · rw [hothers j hji] at hj ⊢
      exact hafresh j hj
  have hlength : ∀ calls : List ι, calls.Nodup →
      (∀ j ∈ calls, (w'.task j).probesSinceClosing w.shared.closings = true) →
        calls.length ≤ w.shared.breaker.halfOpenInFlight + 1 := by
    intro calls hnodup hcalls
    have hrest := h.own (calls.erase i) (hnodup.erase i) fun j hj => by
      have hmem := hnodup.mem_erase_iff.1 hj
      rw [← hothers j hmem.1]
      exact hcalls j hmem.2
    have herase := List.length_erase_le (l := calls) (a := i)
    have hlong := calls.length_erase_add_one (a := i)
    by_cases hmem : i ∈ calls
    · have hsucc := hlong hmem
      omega
    · rw [List.erase_of_not_mem hmem] at hrest
      omega
  refine ⟨fun j n hj => ?_, fun calls hnodup hcalls => ?_, fun calls hnodup hcalls => ?_, ?_, ?_⟩
  · rw [hclosings]
    by_cases hji : j = i
    · rw [hji, hi] at hj
      exact (of_decide_eq_true hj).symm.le
    · rw [hothers j hji] at hj
      exact h.closingLe j n hj
  · rw [hclosings] at hcalls
    rw [hslots]
    exact hlength calls hnodup hcalls
  · have hbound := hlength calls hnodup fun j hj => hown j (hcalls j hj)
    omega
  · rw [hslots]
    exact hroom
  · rw [hclosings]
    exact .inr hown

omit [DecidableEq ι] in
theorem Slots.ends {w' : CircuitWorld ι} {current : CircuitState} {opening closing : ℕ}
    {succeeded : Bool} (h : Slots o w) (hrun : w.task i = .running current opening closing)
    (hothers : ∀ j ≠ i, w'.task j = w.task j) (hi : w'.task i = .settled current opening succeeded)
    (hends : Ends o w.shared current succeeded w'.shared) : Slots o w' := by
  generalize hs' : w'.shared = c' at hends
  cases hends with
  | closes hstate hcount hclosed hslots =>
    exact h.close hothers hi (by rw [hs']) (by rw [hs']; exact hslots)
  | counts hstate hsame hcount hslots =>
    exact h.settle hrun hothers hi (by rw [hs']) (by rw [hs']; exact hslots)
  | trips hopened hreach hdeadline hcount hslots =>
    exact h.settle hrun hothers hi (by rw [hs']) (by rw [hs']; exact hslots)
  | stays hstate hsame hdeadline hcount hslots =>
    exact h.settle hrun hothers hi (by rw [hs']) (by rw [hs']; exact hslots)

theorem slots_act (h : Slots o w) (hafresh : ProbesAfresh o w (.act i e)) :
    Slots o ((breakerSystem o).next w (.act i e)) := by
  have hothers : ∀ j ≠ i, ((breakerSystem o).next w (.act i e)).task j = w.task j :=
    fun j hj => act_task_of_ne hj
  have hstep : CallStep o w.shared (w.task i) e ((breakerSystem o).next w (.act i e)).shared
      (((breakerSystem o).next w (.act i e)).task i) := act_step
  generalize (breakerSystem o).next w (.act i e) = w' at hothers hstep ⊢
  generalize ht : w.task i = t at hstep
  generalize ht' : w'.task i = t' at hstep
  generalize hs' : w'.shared = c' at hstep
  cases hstep with
  | idle =>
    have hsame : w' = w := world_eq hothers (ht'.trans ht.symm) hs'
    exact hsame ▸ h
  | rejects message => exact h.keep hothers (by rw [ht']; rfl) hs'
  | starts hstate => exact h.keep hothers (by rw [ht']; rfl) hs'
  | probes hstate hslots =>
    exact h.probe hothers ht' (by rw [hs']) (by rw [hs']) hslots (hafresh ht hstate)
  | resolves hends => exact h.ends ht hothers ht' (hs' ▸ hends)
  | fails hends => exact h.ends ht hothers ht' (hs' ▸ hends)

theorem slots_env {d : ℕ} (h : Slots o w) : Slots o ((breakerSystem o).next w (.env d)) where
  closingLe := h.closingLe
  own := h.own
  bounded := h.bounded
  slots := h.slots
  afresh := h.afresh

omit [DecidableEq ι] in
theorem slots_start : Slots o (breakerStart : CircuitWorld ι) where
  closingLe _ _ hj := nomatch hj
  own calls _ hcalls := by
    cases calls with
    | nil => exact le_rfl
    | cons j calls => exact nomatch hcalls j (List.mem_cons_self ..)
  bounded calls _ hcalls := by
    cases calls with
    | nil => exact Nat.zero_le _
    | cons j calls => exact nomatch hcalls j (List.mem_cons_self ..)
  slots := Nat.zero_le _
  afresh := .inl rfl

def ExecCall.probeOpening : ExecCall → Option ℕ
  | .running .halfOpen opening _ | .settled .halfOpen opening _ => some opening
  | _ => none

structure Phases (o : CircuitBreakerOptions) (w : CircuitWorld ι) : Prop where
  openingLe : ∀ i, ∀ n ∈ (w.task i).probeOpening, n ≤ w.shared.openings.length
  past : ∀ t ∈ w.shared.openings, t ≤ w.shared.now
  elapsed : w.shared.breaker.state ≠ .opened →
    ∀ t ∈ w.shared.openings, t + o.resetTimeoutMs ≤ w.shared.now
  opened : w.shared.breaker.state = .opened →
    w.shared.breaker.halfOpenSuccessCount = 0 ∧
    (∃ t rest, w.shared.openings = t :: rest ∧ w.shared.breaker.openedAt = some t ∧
      ∀ t' ∈ rest, t' ≤ t) ∧
    ∀ i, (w.task i).probeOpening ≠ some w.shared.openings.length
  halfOpen : w.shared.breaker.state = .halfOpen →
    (∃ calls : List ι, calls.Nodup ∧
      calls.length = w.shared.breaker.halfOpenSuccessCount ∧
      ∀ i ∈ calls, w.task i = .settled .halfOpen w.shared.openings.length true) ∧
    ∀ i, w.task i ≠ .settled .halfOpen w.shared.openings.length false

omit [DecidableEq ι] in
theorem Phases.deadlineKept (h : Phases o w) : DeadlineKept w := by
  intro hstate
  obtain ⟨-, ⟨t, rest, hopenings, hopened, -⟩, -⟩ := h.opened hstate
  rw [hopened, hopenings]
  rfl

omit [DecidableEq ι] in
theorem Phases.elapsed_of_stateAt (h : Phases o w)
    (hstate : w.shared.breaker.stateAt o w.shared.now ≠ .opened) :
    ∀ t ∈ w.shared.openings, t + o.resetTimeoutMs ≤ w.shared.now := by
  by_cases hopened : w.shared.breaker.state = .opened
  · obtain ⟨-, ⟨t, rest, hopenings, hat, hrest⟩, -⟩ := h.opened hopened
    have hover : o.resetTimeoutMs ≤ w.shared.now - t := by
      unfold CircuitBreaker.stateAt at hstate
      by_contra hnot
      refine hstate ?_
      rw [if_neg fun hboth => hnot ?_, hopened]
      simpa [hat] using hboth.2
    intro t' ht'
    rw [hopenings] at ht'
    obtain rfl | ht' := List.mem_cons.1 ht'
    · omega
    · have hle := hrest t' ht'
      omega
  · exact h.elapsed hopened

section Ends
variable {w' : CircuitWorld ι} {current : CircuitState} {opening closing : ℕ} {succeeded : Bool}

theorem probeOpening_ends (hrun : w.task i = .running current opening closing)
    (hothers : ∀ j ≠ i, w'.task j = w.task j) (hi : w'.task i = .settled current opening succeeded)
    (j : ι) : (w'.task j).probeOpening = (w.task j).probeOpening := by
  by_cases hj : j = i
  · rw [hj, hi, hrun]
    cases current <;> rfl
  · rw [hothers j hj]

theorem Phases.verdicts (h : Phases o w) (hrun : w.task i = .running current opening closing)
    (hothers : ∀ j ≠ i, w'.task j = w.task j) (hi : w'.task i = .settled current opening true)
    (hstate : w.shared.breaker.state = .halfOpen)
    (hcounts : (w.task i).probesSinceOpening w.shared.openings.length = true) :
    (∃ calls : List ι, calls.Nodup ∧
      calls.length = w.shared.breaker.halfOpenSuccessCount + 1 ∧
      ∀ j ∈ calls, w'.task j = .settled .halfOpen w.shared.openings.length true) ∧
    ∀ j, w'.task j ≠ .settled .halfOpen w.shared.openings.length false := by
  obtain ⟨⟨calls, hnodup, hlength, hcalls⟩, hnone⟩ := h.halfOpen hstate
  have hprobe : current = .halfOpen ∧ opening = w.shared.openings.length := by
    rw [hrun] at hcounts
    cases current with
    | halfOpen => exact ⟨rfl, of_decide_eq_true hcounts⟩
    | _ => cases hcounts
  have hnot : i ∉ calls := fun hmem => by
    have hsettled := hcalls i hmem
    rw [hrun] at hsettled
    cases hsettled
  constructor
  · refine ⟨i :: calls, List.nodup_cons.2 ⟨hnot, hnodup⟩, congrArg (· + 1) hlength, ?_⟩
    intro j hj
    obtain rfl | hj := List.mem_cons.1 hj
    · rw [hi, hprobe.1, hprobe.2]
    · have hne : j ≠ i := fun heq => hnot (heq ▸ hj)
      rw [hothers j hne]
      exact hcalls j hj
  · intro j hj
    by_cases hji : j = i
    · rw [hji, hi] at hj
      cases hj
    · rw [hothers j hji] at hj
      exact hnone j hj

theorem Phases.ends (h : Phases o w) (hrun : w.task i = .running current opening closing)
    (hothers : ∀ j ≠ i, w'.task j = w.task j) (hi : w'.task i = .settled current opening succeeded)
    (hends : Ends o w.shared current succeeded w'.shared)
    (hcounts : succeeded = true → w.shared.breaker.state = .halfOpen →
      (w.task i).probesSinceOpening w.shared.openings.length = true)
    (hbelow : succeeded = false → w.shared.breaker.state = .opened →
      w.shared.breaker.failures + 1 < o.failureThreshold) : Phases o w' := by
  have hopening := probeOpening_ends hrun hothers hi
  generalize hs' : w'.shared = c' at hends
  cases hends with
  | closes hstate hcount hclosed hslots =>
    have hnot : w.shared.breaker.state ≠ .opened := by simp [hstate]
    refine ⟨?_, ?_, ?_, ?_, ?_⟩ <;> rw [hs']
    · exact fun j n hn => h.openingLe j n (hopening j ▸ hn)
    · exact h.past
    · exact fun _ => h.elapsed hnot
    · exact fun hopened => nomatch hclosed.symm.trans hopened
    · exact fun hhalf => nomatch hclosed.symm.trans hhalf
  | counts hstate hsame hcount hslots =>
    have hnot : w.shared.breaker.state ≠ .opened := by simp [hstate]
    obtain ⟨⟨calls, hnodup, hlength, hcalls⟩, hnone⟩ :=
      h.verdicts hrun hothers hi hstate (hcounts rfl hstate)
    refine ⟨?_, ?_, ?_, ?_, ?_⟩ <;> rw [hs']
    · exact fun j n hn => h.openingLe j n (hopening j ▸ hn)
    · exact h.past
    · exact fun _ => h.elapsed hnot
    · exact fun hopened => nomatch hsame.symm.trans hopened
    · exact fun _ => ⟨⟨calls, hnodup, hlength.trans hcount.symm, hcalls⟩, hnone⟩
  | trips hopened hreach hdeadline hcount hslots =>
    have hnot : w.shared.breaker.state ≠ .opened := by
      intro hstate
      have hlt := hbelow rfl hstate
      have hge := hreach hstate
      omega
    refine ⟨?_, ?_, ?_, ?_, ?_⟩ <;> rw [hs', if_neg hnot]
    · exact fun j n hn => (h.openingLe j n (hopening j ▸ hn)).trans (Nat.le_succ _)
    · exact List.forall_mem_cons.2 ⟨le_rfl, h.past⟩
    · exact fun hstate => absurd hopened hstate
    · refine fun _ => ⟨hcount, ⟨w.shared.now, w.shared.openings, rfl, hdeadline, h.past⟩, ?_⟩
      -- every probe so far is of an earlier opening
      intro j hj
      rw [hopening j, List.length_cons] at hj
      have hle := h.openingLe j _ hj
      omega
    · exact fun hhalf => nomatch hopened.symm.trans hhalf
  | stays hstate hsame hdeadline hcount hslots =>
    refine ⟨?_, ?_, ?_, ?_, ?_⟩ <;> rw [hs']
    · exact fun j n hn => h.openingLe j n (hopening j ▸ hn)
    · exact h.past
    · exact fun hnot => h.elapsed (hsame ▸ hnot)
    · intro hopened
      obtain ⟨hzero, ⟨t, rest, hopenings, hat, hrest⟩, hnone⟩ := h.opened (hsame.symm.trans hopened)
      refine ⟨hcount.trans hzero, ⟨t, rest, hopenings, hdeadline.trans hat, hrest⟩, fun j => ?_⟩
      rw [hopening j]
      exact hnone j
    · exact fun hhalf => absurd (hsame.symm.trans hhalf) hstate

theorem Phases.closedByProbes (h : Phases o w)
    (hrun : w.task i = .running current opening closing)
    (hothers : ∀ j ≠ i, w'.task j = w.task j) (hi : w'.task i = .settled current opening succeeded)
    (hends : Ends o w.shared current succeeded w'.shared)
    (hcounts : succeeded = true → w.shared.breaker.state = .halfOpen →
      (w.task i).probesSinceOpening w.shared.openings.length = true) : ClosedByProbes o w w' := by
  intro hhalf hclosed
  generalize hs' : w'.shared = c' at hends hclosed
  cases hends with
  | closes hstate hcount hclosed' hslots =>
    obtain ⟨⟨calls, hnodup, hlength, hcalls⟩, hnone⟩ :=
      h.verdicts hrun hothers hi hstate (hcounts rfl hstate)
    exact ⟨⟨calls, hnodup, hlength ▸ hcount, hcalls⟩, hnone⟩
  | counts hstate hsame hcount hslots => exact nomatch hsame.symm.trans hclosed
  | trips hopened hreach hdeadline hcount hslots => exact nomatch hopened.symm.trans hclosed
  | stays hstate hsame hdeadline hcount hslots => exact absurd hhalf hstate

theorem Phases.enter (h : Phases o w) (hothers : ∀ j ≠ i, w'.task j = w.task j)
    (hidle : w.task i = .idle) (hi : (w'.task i).probeOpening = none)
    (hshared : w'.shared = w.shared) : Phases o w' := by
  have hopening : ∀ j, (w'.task j).probeOpening = (w.task j).probeOpening := by
    intro j
    by_cases hj : j = i
    · rw [hj, hi, hidle]
      rfl
    · rw [hothers j hj]
  refine ⟨?_, ?_, ?_, ?_, ?_⟩ <;> rw [hshared]
  · exact fun j n hn => h.openingLe j n (hopening j ▸ hn)
  · exact h.past
  · exact h.elapsed
  · intro hstate
    obtain ⟨hzero, hdeadline, hnone⟩ := h.opened hstate
    refine ⟨hzero, hdeadline, fun j => ?_⟩
    rw [hopening j]
    exact hnone j
  · intro hstate
    obtain ⟨⟨calls, hnodup, hlength, hcalls⟩, hnone⟩ := h.halfOpen hstate
    refine ⟨⟨calls, hnodup, hlength, fun j hj => ?_⟩, fun j hj => ?_⟩
    · have hne : j ≠ i := fun heq => by
        have hsettled := hcalls j hj
        rw [heq, hidle] at hsettled
        cases hsettled
      rw [hothers j hne]
      exact hcalls j hj
    · by_cases hji : j = i
      · rw [hji] at hj
        rw [hj] at hi
        cases hi
      · rw [hothers j hji] at hj
        exact hnone j hj

theorem Phases.probe (h : Phases o w) (hothers : ∀ j ≠ i, w'.task j = w.task j)
    (hidle : w.task i = .idle)
    (hi : w'.task i = .running .halfOpen w.shared.openings.length w.shared.closings)
    (hstate : w.shared.breaker.stateAt o w.shared.now = .halfOpen)
    (hopenings : w'.shared.openings = w.shared.openings) (hnow : w'.shared.now = w.shared.now)
    (hhalf : w'.shared.breaker.state = .halfOpen)
    (hcount : w'.shared.breaker.halfOpenSuccessCount =
      w.shared.breaker.halfOpenSuccessCount) : Phases o w' := by
  have helapsed := h.elapsed_of_stateAt (by rw [hstate]; nofun)
  refine ⟨?_, ?_, ?_, ?_, ?_⟩ <;> rw [hopenings]
  · intro j n hn
    by_cases hj : j = i
    · rw [hj, hi] at hn
      exact (Option.some.inj hn).symm.le
    · rw [hothers j hj] at hn
      exact h.openingLe j n hn
  · rw [hnow]
    exact h.past
  · rw [hnow]
    exact fun _ => helapsed
  · exact fun hopened => nomatch hhalf.symm.trans hopened
  · intro _
    rw [hcount]
    have hbefore : (∃ calls : List ι, calls.Nodup ∧
        calls.length = w.shared.breaker.halfOpenSuccessCount ∧
        ∀ j ∈ calls, w.task j = .settled .halfOpen w.shared.openings.length true) ∧
        ∀ j, w.task j ≠ .settled .halfOpen w.shared.openings.length false := by
      by_cases hopened : w.shared.breaker.state = .opened
      · -- none of the probes so far is of this opening
        obtain ⟨hzero, -, hnone⟩ := h.opened hopened
        refine ⟨⟨[], List.nodup_nil, hzero.symm, nofun⟩, fun j hj => hnone j ?_⟩
        rw [hj]
        rfl
      · unfold CircuitBreaker.stateAt at hstate
        rw [if_neg fun hboth => hopened hboth.1] at hstate
        exact h.halfOpen hstate
    obtain ⟨⟨calls, hnodup, hlength, hcalls⟩, hnone⟩ := hbefore
    refine ⟨⟨calls, hnodup, hlength, fun j hj => ?_⟩, fun j hj => ?_⟩
    · have hne : j ≠ i := fun heq => by
        have hsettled := hcalls j hj
        rw [heq, hidle] at hsettled
        cases hsettled
      rw [hothers j hne]
      exact hcalls j hj
    · by_cases hji : j = i
      · rw [hji, hi] at hj
        cases hj
      · rw [hothers j hji] at hj
        exact hnone j hj

end Ends

theorem phases_act (h : Phases o w) (hcounts : CountsOwn w (.act i e))
    (hbelow : FailsBelow o w (.act i e)) : Phases o ((breakerSystem o).next w (.act i e)) ∧
      ClosedByProbes o w ((breakerSystem o).next w (.act i e)) := by
  have hothers : ∀ j ≠ i, ((breakerSystem o).next w (.act i e)).task j = w.task j :=
    fun j hj => act_task_of_ne hj
  have hstep : CallStep o w.shared (w.task i) e ((breakerSystem o).next w (.act i e)).shared
      (((breakerSystem o).next w (.act i e)).task i) := act_step
  generalize (breakerSystem o).next w (.act i e) = w' at hothers hstep ⊢
  generalize ht : w.task i = t at hstep
  generalize ht' : w'.task i = t' at hstep
  generalize hs' : w'.shared = c' at hstep
  have hstays : w'.shared.breaker.state = w.shared.breaker.state → ClosedByProbes o w w' :=
    fun hsame hhalf hclosed => nomatch hhalf.symm.trans (hsame.symm.trans hclosed)
  cases hstep with
  | idle =>
    have hsame : w' = w := world_eq hothers (ht'.trans ht.symm) hs'
    exact ⟨hsame ▸ h, hstays (by rw [hsame])⟩
  | rejects message =>
    exact ⟨h.enter hothers ht (by rw [ht']; rfl) hs', hstays (by rw [hs'])⟩
  | starts hstate =>
    exact ⟨h.enter hothers ht (by rw [ht']; rfl) hs', hstays (by rw [hs'])⟩
  | probes hstate hslots =>
    have hhalf : w'.shared.breaker.state = .halfOpen := by rw [hs']
    exact ⟨h.probe hothers ht ht' hstate (by rw [hs']) (by rw [hs']) hhalf (by rw [hs']),
      fun _ hclosed => nomatch hhalf.symm.trans hclosed⟩
  | resolves hends =>
    have hends' : Ends o w.shared _ true w'.shared := hs' ▸ hends
    have hown := fun (_ : true = true) hstate => hcounts hstate (by rw [ht]; rfl)
    exact ⟨h.ends ht hothers ht' hends' hown nofun, h.closedByProbes ht hothers ht' hends' hown⟩
  | fails hends =>
    have hends' : Ends o w.shared _ false w'.shared := hs' ▸ hends
    have hlow := fun (_ : false = false) hstate => hbelow hstate (by rw [ht]; rfl)
    exact ⟨h.ends ht hothers ht' hends' nofun hlow, h.closedByProbes ht hothers ht' hends' nofun⟩

theorem phases_env {d : ℕ} (h : Phases o w) : Phases o ((breakerSystem o).next w (.env d)) where
  openingLe := h.openingLe
  past t ht := by
    have hle := h.past t ht
    show t ≤ w.shared.now + d
    omega
  elapsed hstate t ht := by
    have hle := h.elapsed hstate t ht
    show t + o.resetTimeoutMs ≤ w.shared.now + d
    omega
  opened := h.opened
  halfOpen := h.halfOpen

omit [DecidableEq ι] in
theorem phases_start : Phases o (breakerStart : CircuitWorld ι) where
  openingLe _ _ hn := nomatch hn
  past _ ht := nomatch ht
  elapsed _ _ ht := nomatch ht
  opened hstate := nomatch hstate
  halfOpen hstate := nomatch hstate

theorem waitsOut_next {ev : Event ι ExecEvent ℕ} (h : Phases o w) :
    WaitsOut o w ((breakerSystem o).next w ev) := by
  intro j hidle hruns
  cases ev with
  | env d =>
    have hsame : ((breakerSystem o).next w (.env d)).task j = w.task j := rfl
    rw [hsame, hidle] at hruns
    cases hruns
  | act i e =>
    by_cases hj : j = i
    · subst hj
      have hstep : CallStep o w.shared (w.task j) e ((breakerSystem o).next w (.act j e)).shared
        (((breakerSystem o).next w (.act j e)).task j) := act_step
      generalize (breakerSystem o).next w (.act j e) = w' at hstep hruns
      generalize w.task j = t at hidle hstep
      generalize w'.task j = t' at hruns hstep
      generalize w'.shared = c' at hstep
      cases hstep with
      | idle =>
        rw [hidle] at hruns
        cases hruns
      | starts hstate => exact h.elapsed (by rw [hstate]; nofun)
      | probes hstate hslots => exact h.elapsed_of_stateAt (by rw [hstate]; nofun)
      | rejects => cases hruns
      | resolves => cases hruns
      | fails => cases hruns
    · rw [act_task_of_ne hj, hidle] at hruns
      cases hruns

/-- Over a run in which every call ends in the phase that let it in. -/
theorem admission_of_inPhase {evs : List (Event ι ExecEvent ℕ)}
    (hphase : ∀ x ∈ (breakerSystem o).transitions breakerStart evs, InPhase o x.1 x.2) :
    (∀ v ∈ (breakerSystem o).visited breakerStart evs, ProbesBounded o v ∧ DeadlineKept v) ∧
    ∀ x ∈ (breakerSystem o).transitions breakerStart evs,
      ClosedByProbes o x.1 ((breakerSystem o).next x.1 x.2) ∧
        WaitsOut o x.1 ((breakerSystem o).next x.1 x.2) := by
  have hnext : ∀ (v : CircuitWorld ι) ev, (Slots o v ∧ Phases o v) → InPhase o v ev →
      Slots o ((breakerSystem o).next v ev) ∧ Phases o ((breakerSystem o).next v ev) := by
    intro v ev ⟨hslots, hphases⟩ hev
    cases ev with
    | env d => exact ⟨slots_env hslots, phases_env hphases⟩
    | act i e =>
      exact ⟨slots_act hslots hev.probesAfresh, (phases_act hphases hev.countsOwn hev.failsBelow).1⟩
  have hinv := (breakerSystem o).visited_induct hnext ⟨slots_start, phases_start⟩ hphase
  constructor
  · exact fun v hv => ⟨(hinv v hv).1.bounded, (hinv v hv).2.deadlineKept⟩
  · intro x hx
    have hphases := (hinv x.1 (System.fst_mem_visited hx)).2
    refine ⟨?_, waitsOut_next hphases⟩
    obtain ⟨v, ev⟩ := x
    cases ev with
    | env d => exact fun hhalf hclosed => nomatch hhalf.symm.trans hclosed
    | act i e =>
      have hev := hphase _ hx
      exact (phases_act hphases hev.countsOwn hev.failsBelow).2

instance : (ev : Event ι ExecEvent ℕ) → Decidable (CountsOwn w ev)
  | .act i .resolve => inferInstanceAs (Decidable (w.shared.breaker.state = .halfOpen →
      (w.task i).isRunning = true →
        (w.task i).probesSinceOpening w.shared.openings.length = true))
  | .act _ .call | .act _ .reject | .env _ => .isTrue trivial

instance : (ev : Event ι ExecEvent ℕ) → Decidable (FailsBelow o w ev)
  | .act i .reject => inferInstanceAs (Decidable (w.shared.breaker.state = .opened →
      (w.task i).isRunning = true → w.shared.breaker.failures + 1 < o.failureThreshold))
  | .act _ .call | .act _ .resolve | .env _ => .isTrue trivial

instance [Fintype ι] : (ev : Event ι ExecEvent ℕ) → Decidable (ProbesAfresh o w ev)
  | .act i .call => inferInstanceAs (Decidable (w.task i = .idle →
      w.shared.breaker.stateAt o w.shared.now = .halfOpen → ∀ j, (w.task j).isProbing = true →
        (w.task j).probesSinceClosing w.shared.closings = true))
  | .act _ .resolve | .act _ .reject | .env _ => .isTrue trivial

instance [Fintype ι] (ev : Event ι ExecEvent ℕ) : Decidable (InPhase o w ev) :=
  decidable_of_iff (CountsOwn w ev ∧ FailsBelow o w ev ∧ ProbesAfresh o w ev)
    ⟨fun ⟨hcounts, hbelow, hafresh⟩ => ⟨hcounts, hbelow, hafresh⟩,
      fun h => ⟨h.countsOwn, h.failsBelow, h.probesAfresh⟩⟩

def frailOptions (halfOpenRequests : ℕ) : CircuitBreakerOptions :=
  ⟨"apple", 1, 10, halfOpenRequests⟩

def openedAndClosed : List (Event (Fin 7) ExecEvent ℕ) :=
  [.act 0 .call, .act 0 .reject, .env 10, .act 1 .call, .act 2 .call, .act 1 .resolve,
    .act 3 .call, .act 2 .resolve]

theorem admission_of_inPhase_closed :
    (∀ v ∈ (breakerSystem (frailOptions 2)).visited breakerStart openedAndClosed,
      ProbesBounded (frailOptions 2) v ∧ DeadlineKept v) ∧
    ∀ x ∈ (breakerSystem (frailOptions 2)).transitions breakerStart openedAndClosed,
      ClosedByProbes (frailOptions 2) x.1 ((breakerSystem (frailOptions 2)).next x.1 x.2) ∧
        WaitsOut (frailOptions 2) x.1 ((breakerSystem (frailOptions 2)).next x.1 x.2) :=
  admission_of_inPhase (by decide)

def lateCalls (between : List (Event (Fin 7) ExecEvent ℕ)) : List (Event (Fin 7) ExecEvent ℕ) :=
  [.act 0 .call, .act 1 .call, .act 0 .reject] ++ between

/-- A probe outlives the closing and two more join it; the late call closes the breaker in a
probe's place; and its failure moves the deadline. -/
theorem late_ends_break_admission :
    (¬ProbesBounded (frailOptions 2) ((breakerSystem (frailOptions 2)).runAll breakerStart
        (openedAndClosed ++ [.act 4 .call, .act 4 .reject, .env 10, .act 5 .call, .act 6 .call]))) ∧
    (¬ClosedByProbes (frailOptions 1)
        ((breakerSystem (frailOptions 1)).runAll breakerStart (lateCalls [.env 10, .act 2 .call]))
        ((breakerSystem (frailOptions 1)).runAll breakerStart
          (lateCalls [.env 10, .act 2 .call, .act 1 .resolve]))) ∧
    ¬DeadlineKept ((breakerSystem (frailOptions 1)).runAll breakerStart
        (lateCalls [.env 5, .act 1 .reject])) := by
  refine ⟨fun h => ?_, fun h => ?_, fun h => ?_⟩
  · have hbound := h [3, 5, 6] (by decide) (by decide)
    exact absurd hbound (by decide)
  · obtain ⟨⟨calls, -, hlength, hcalls⟩, -⟩ := h rfl rfl
    obtain ⟨j, hj⟩ := List.exists_mem_of_length_pos (Nat.lt_of_lt_of_le Nat.one_pos hlength)
    have hsettled := hcalls j hj
    revert hsettled
    fin_cases j <;> decide
  · exact absurd (h rfl) (by decide)

end Rovenue.Circuit
