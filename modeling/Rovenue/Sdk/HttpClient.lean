import Rovenue.Sdk.Error

/-! The SDK's POST: a few attempts, each one's answer classified by its status. -/

namespace Rovenue.Sdk

inductive RetryDecision where
  | success
  | retryable
  | retryAfter (secs : ℕ)
  | fatal
deriving DecidableEq

def classify (status retryAfter : Option ℕ) : RetryDecision :=
  match status with
  | none => .retryable
  | some s =>
    if 500 ≤ s ∧ s < 600 then .retryable
    else if s = 429 then retryAfter.elim .retryable .retryAfter
    else if s = 409 then .success
    else if 400 ≤ s ∧ s < 500 then .fatal
    else .success

def retryAfterMax : ℕ := 30
def maxAttempts : ℕ := 3

/-- What comes back from one attempt; `parses` is about a body that is read. -/
inductive Reply where
  | response (status : ℕ) (retryAfter : Option ℕ) (parses : Bool)
  | timedOut
  | unreachable

inductive Attempt where
  | settled (result : Except RovenueError ℕ)
  | again (lastErr : RovenueError)

def attempt (expectEmptyBody : Bool) : Reply → Attempt
  | .response status retryAfter parses =>
    match classify (some status) retryAfter with
    | .success =>
      if status = 204 ∨ expectEmptyBody ∨ parses then .settled (.ok status)
      else .settled (.error (.ofKind .internal))
    | .retryable =>
      .again (.ofKind (if 500 ≤ status ∧ status < 600 then .serverError else .networkUnavailable))
    | .retryAfter d =>
      if d > retryAfterMax then .settled (.error (.ofKind .rateLimited))
      else .again (.ofKind .rateLimited)
    | .fatal => .settled (.error (errorFromStatus status))
  | .timedOut => .again (.ofKind .timeout)
  | .unreachable => .again (.ofKind .networkUnavailable)

def postAttempts (expectEmptyBody : Bool) :
    ℕ → RovenueError → (ℕ → Reply) → Except RovenueError ℕ
  -- the attempts left, with the error of the one before; `replies` answers them in turn
  | 0, lastErr, _ => .error lastErr
  | n + 1, _, replies =>
    match attempt expectEmptyBody (replies 0) with
    | .settled result => result
    | .again lastErr => postAttempts expectEmptyBody n lastErr fun k => replies (k + 1)

def postJson (expectEmptyBody : Bool) (replies : ℕ → Reply) : Except RovenueError ℕ :=
  postAttempts expectEmptyBody maxAttempts (.ofKind .networkUnavailable) replies

/-- A status that ends the attempts as delivered. -/
def Accepted (status : ℕ) : Prop := status < 400 ∨ 600 ≤ status ∨ status = 409

variable {expectEmptyBody : Bool} {replies : ℕ → Reply} {status : ℕ} {e : RovenueError}

theorem classify_success {retryAfter : Option ℕ}
    (h : classify (some status) retryAfter = .success) : Accepted status := by
  unfold classify at h
  simp only at h
  unfold Accepted
  split_ifs at h with h5 h429 h409 h4
  · cases retryAfter <;> cases h
  · exact .inr (.inr h409)
  · omega

theorem attempt_ok {r : Reply} (h : attempt expectEmptyBody r = .settled (.ok status)) :
    Accepted status ∧ ∃ retryAfter parses, r = .response status retryAfter parses := by
  cases r with
  | timedOut => cases h
  | unreachable => cases h
  | response s retryAfter parses =>
    unfold attempt at h
    simp only at h
    split at h
    · rename_i hclass
      split_ifs at h
      · cases h
        exact ⟨classify_success hclass, _, _, rfl⟩
      · cases h
    · cases h
    · split_ifs at h
      cases h
    · cases h

theorem attempt_error {r : Reply} (h : attempt expectEmptyBody r = .settled (.error e)) :
    e.httpStatus = none ∨ ∃ s retryAfter parses, r = .response s retryAfter parses ∧
      classify (some s) retryAfter = .fatal ∧ e = errorFromStatus s := by
  cases r with
  | timedOut => cases h
  | unreachable => cases h
  | response s retryAfter parses =>
    unfold attempt at h
    simp only at h
    split at h
    · split_ifs at h
      · cases h
      · cases h
        exact .inl rfl
    · cases h
    · split_ifs at h
      cases h
      exact .inl rfl
    · rename_i hclass
      cases h
      exact .inr ⟨s, retryAfter, parses, rfl, hclass, rfl⟩

theorem attempt_again {r : Reply} {lastErr : RovenueError}
    (h : attempt expectEmptyBody r = .again lastErr) : lastErr.httpStatus = none := by
  cases r with
  | timedOut => cases h; rfl
  | unreachable => cases h; rfl
  | response s retryAfter parses =>
    unfold attempt at h
    simp only at h
    split at h
    · split_ifs at h
    · split_ifs at h <;> cases h <;> rfl
    · split_ifs at h
      cases h
      rfl
    · cases h

def Made (expectEmptyBody : Bool) (replies : ℕ → Reply) (n : ℕ) : Prop :=
  -- the attempts before the `n`-th were made and settled nothing
  ∀ m < n, ∃ lastErr, attempt expectEmptyBody (replies m) = .again lastErr

theorem postAttempts_result (n : ℕ) {lastErr : RovenueError} (hlast : lastErr.httpStatus = none)
    (replies : ℕ → Reply) :
    (∃ k < n, Made expectEmptyBody replies k ∧
      attempt expectEmptyBody (replies k) =
        .settled (postAttempts expectEmptyBody n lastErr replies)) ∨
    ∃ e, postAttempts expectEmptyBody n lastErr replies = .error e ∧ e.httpStatus = none := by
  induction n generalizing lastErr replies with
  | zero => exact .inr ⟨lastErr, rfl, hlast⟩
  | succ n ih =>
    rw [postAttempts]
    cases hattempt : attempt expectEmptyBody (replies 0) with
    | settled result => exact .inl ⟨0, Nat.succ_pos n, by rintro m ⟨⟩, hattempt⟩
    | again lastErr' =>
      refine (ih (attempt_again hattempt) fun k => replies (k + 1)).imp_left ?_
      rintro ⟨k, hk, hmade, hsettled⟩
      refine ⟨k + 1, Nat.succ_lt_succ hk, fun m hm => ?_, hsettled⟩
      cases m with
      | zero => exact ⟨lastErr', hattempt⟩
      | succ m => exact hmade m (Nat.lt_of_succ_lt_succ hm)

theorem postJson_result (expectEmptyBody : Bool) (replies : ℕ → Reply) :
    (∃ k < maxAttempts, Made expectEmptyBody replies k ∧
      attempt expectEmptyBody (replies k) = .settled (postJson expectEmptyBody replies)) ∨
    ∃ e, postJson expectEmptyBody replies = .error e ∧ e.httpStatus = none :=
  postAttempts_result maxAttempts rfl replies

theorem postJson_ok (h : postJson expectEmptyBody replies = .ok status) :
    Accepted status ∧ ∃ n retryAfter parses, replies n = .response status retryAfter parses := by
  rcases postJson_result expectEmptyBody replies with ⟨k, -, -, hsettled⟩ | ⟨e, herr, -⟩
  · rw [h] at hsettled
    obtain ⟨haccepted, retryAfter, parses, hr⟩ := attempt_ok hsettled
    exact ⟨haccepted, k, retryAfter, parses, hr⟩
  · rw [h] at herr
    cases herr

/-- Only a 400 or a 422 is poison. -/
theorem postJson_poison (h : postJson expectEmptyBody replies = .error e)
    (he : e.isPoison = true) :
    ∃ n s retryAfter parses, replies n = .response s retryAfter parses ∧ (s = 400 ∨ s = 422) := by
  have hstatus : e.httpStatus = some 400 ∨ e.httpStatus = some 422 := by
    simp only [RovenueError.isPoison, Bool.and_eq_true, Bool.or_eq_true, decide_eq_true_eq] at he
    exact he.2
  have hnone : e.httpStatus ≠ none := by rcases hstatus with h | h <;> simp [h]
  rcases postJson_result expectEmptyBody replies with ⟨k, -, -, hsettled⟩ | ⟨e', herr, hnone'⟩
  · rw [h] at hsettled
    rcases attempt_error hsettled with hnone' | ⟨s, retryAfter, parses, hr, -, rfl⟩
    · exact absurd hnone' hnone
    · exact ⟨k, s, retryAfter, parses, hr, hstatus.imp Option.some.inj Option.some.inj⟩
  · rw [h] at herr
    cases herr
    exact absurd hnone' hnone

end Rovenue.Sdk
