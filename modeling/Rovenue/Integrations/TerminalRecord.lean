import Rovenue.Integrations.Deliver

/-! What the attempts of a job leave behind: a terminal row, unless the last `deliver` throws. -/

namespace Rovenue.Integrations

inductive Kind where
  | settles | retries | throws
  deriving DecidableEq

def deliverKind : Except String DeliverResult → Kind
  | .error _ => .throws
  | .ok (.ok _ _) => .settles
  | .ok (.failed failure) => if failure.retriable then .retries else .settles

def Behaviour.kind (behaviour : Behaviour) : Kind :=
  -- settled is what no attempt is made again for; a retriable failure and an exception are left to
  -- the queue
  match behaviour.mapEvent with
  | .skip _ => .settles
  | .payload payload => deliverKind (behaviour.deliver payload)

/-- No row has the id that is given next. -/
def DeliveryLog.Fresh (log : DeliveryLog) : Prop := ∀ row ∈ log.rows, row.id < log.nextId

namespace DeliveryLog
variable {log : DeliveryLog} {row : ℕ → IntegrationDelivery}
  {set : IntegrationDelivery → IntegrationDelivery}

@[simp] theorem rows_insertRow : (log.insertRow row).rows = log.rows ++ [row log.nextId] := rfl
@[simp] theorem nextId_insertRow : (log.insertRow row).nextId = log.nextId + 1 := rfl
@[simp] theorem rows_callProvider (k : ℕ) : (log.callProvider k).rows = log.rows := rfl
@[simp] theorem rows_notify (notices : List Notice) : (log.notify notices).rows = log.rows := rfl
@[simp] theorem nextId_callProvider (k : ℕ) : (log.callProvider k).nextId = log.nextId := rfl
@[simp] theorem nextId_notify (notices : List Notice) : (log.notify notices).nextId = log.nextId := rfl
@[simp] theorem nextId_updateDeliveryStatus (id : ℕ) :
    (log.updateDeliveryStatus id set).nextId = log.nextId := rfl

theorem rows_update_insertRow (h : log.Fresh) (hrow : ∀ id, (row id).id = id) (k : ℕ) :
    (((log.insertRow row).callProvider k).updateDeliveryStatus log.nextId set).rows =
      log.rows ++ [set (row log.nextId)] := by
  have hold : log.rows.map (fun r => if r.id = log.nextId then set r else r) = log.rows := by
    rw [List.map_congr_left fun r hr => if_neg (h r hr).ne, List.map_id']
  change (log.rows ++ [row log.nextId]).map (fun r => if r.id = log.nextId then set r else r) = _
  rw [List.map_append, hold, List.map_singleton, if_pos (hrow _)]

end DeliveryLog

section Step
variable {job : IntegrationsDeliverJob} {conn : IntegrationConnection} {maxAttempts attempt : ℕ}
  {behaviour : Behaviour} {log : DeliveryLog}

structure Leaves (maxAttempts attempt : ℕ) (kind : Kind) (log : DeliveryLog)
    (step : Except String DeliverStepResult × DeliveryLog) : Prop where
  row : ∃ row, step.2.rows = log.rows ++ [row] ∧ row.id = log.nextId ∧ row.attempt = attempt ∧
    row.status.terminal = step.1.isOk
  nextId : step.2.nextId = log.nextId + 1
  returned : step.1.isOk = true ↔
    kind = .settles ∨ (kind = .retries ∧ maxAttempts - 1 ≤ attempt)

theorem Leaves.fresh {kind : Kind} {step : Except String DeliverStepResult × DeliveryLog}
    (h : Leaves maxAttempts attempt kind log step) (hfresh : log.Fresh) : step.2.Fresh := by
  obtain ⟨row, hrows, hid, -, -⟩ := h.row
  intro r hr
  rw [h.nextId]
  rw [hrows] at hr
  rcases List.mem_append.mp hr with hr | hr
  · exact (hfresh r hr).trans (Nat.lt_succ_self _)
  · rw [List.mem_singleton.mp hr, hid]
    exact Nat.lt_succ_self _

theorem leaves_of_rows {kind : Kind} {row : IntegrationDelivery}
    {step : Except String DeliverStepResult × DeliveryLog} (hrows : step.2.rows = log.rows ++ [row])
    (hid : row.id = log.nextId) (hattempt : row.attempt = attempt)
    (hstatus : row.status.terminal = step.1.isOk) (hnext : step.2.nextId = log.nextId + 1)
    (hreturned : step.1.isOk = true ↔
      kind = .settles ∨ (kind = .retries ∧ maxAttempts - 1 ≤ attempt)) :
    Leaves maxAttempts attempt kind log step :=
  ⟨⟨row, hrows, hid, hattempt, hstatus⟩, hnext, hreturned⟩

section Pending
variable {payload : ProviderPayload} {row : ℕ → IntegrationDelivery}

theorem deadLetter_leaves {failure : Failure} {kind : Kind} (hfresh : log.Fresh)
    (hid : ∀ id, (row id).id = id)
    (hkind : kind = .settles ∨ kind = .retries ∧ maxAttempts - 1 ≤ attempt) :
    Leaves maxAttempts attempt kind log (deadLetter attempt payload failure log.nextId
      ((log.insertRow row).callProvider attempt)) :=
  leaves_of_rows (DeliveryLog.rows_update_insertRow hfresh hid _) (hid _) rfl rfl rfl
    (iff_of_true rfl hkind)

theorem afterPending_leaves {deliver : ProviderPayload → Except String DeliverResult}
    (hfresh : log.Fresh) (hid : ∀ id, (row id).id = id) (hattempt : ∀ id, (row id).attempt = attempt)
    (hpending : ∀ id, (row id).status = .pending) :
    Leaves maxAttempts attempt (deliverKind (deliver payload)) log
      (afterPending maxAttempts attempt payload deliver log.nextId (log.insertRow row)) := by
  unfold afterPending
  rcases deliver payload with thrown | httpStatus | failure
  · -- the row stays as it was inserted
    refine leaves_of_rows DeliveryLog.rows_insertRow (hid _) (hattempt _) ?_ rfl
      (iff_of_false Bool.false_ne_true ?_)
    · rw [hpending]
      rfl
    · rintro (h | ⟨h, -⟩) <;> cases h
  · exact leaves_of_rows (DeliveryLog.rows_update_insertRow hfresh hid _) (hid _) rfl rfl rfl
      (iff_of_true rfl (Or.inl rfl))
  · change Leaves maxAttempts attempt (if failure.retriable then Kind.retries else .settles) log
      (if !failure.retriable then _ else _)
    cases failure.retriable with
    | false => exact deadLetter_leaves hfresh hid (Or.inl rfl)
    | true =>
      change Leaves maxAttempts attempt .retries log (if maxAttempts - 1 ≤ attempt then _ else _)
      by_cases hlast : maxAttempts - 1 ≤ attempt
      · rw [if_pos hlast]
        exact deadLetter_leaves hfresh hid (Or.inr ⟨rfl, hlast⟩)
      · rw [if_neg hlast]
        refine leaves_of_rows (DeliveryLog.rows_update_insertRow hfresh hid _) (hid _) rfl rfl rfl
          (iff_of_false Bool.false_ne_true ?_)
        rintro (h | ⟨-, h⟩)
        · cases h
        · exact hlast h

end Pending

variable (job behaviour) in
theorem runDeliverStep_leaves (hconn : conn.isEnabled = true) (hattempt : attempt < maxAttempts)
    (hfresh : log.Fresh) :
    Leaves maxAttempts attempt behaviour.kind log
      (runDeliverStep job conn maxAttempts attempt behaviour log) := by
  unfold runDeliverStep Behaviour.kind
  rw [hconn, if_neg (by decide)]
  cases behaviour.mapEvent with
  | skip reason =>
    exact leaves_of_rows DeliveryLog.rows_insertRow rfl rfl rfl rfl (iff_of_true rfl (Or.inl rfl))
  | payload payload =>
    change Leaves maxAttempts attempt _ log (if maxAttempts ≤ attempt then _ else _)
    rw [if_neg (not_le.mpr hattempt)]
    exact afterPending_leaves hfresh (fun _ => rfl) (fun _ => rfl) (fun _ => rfl)

end Step

section Queue
variable {job : IntegrationsDeliverJob} {conn : IntegrationConnection} {maxAttempts : ℕ}
  {behaviours : ℕ → Behaviour}

/-- The row of the last attempt is terminal, and `deliver` is not called after an attempt that
returned. -/
structure EndsRecorded (run : List Attempt × DeliveryLog) : Prop where
  terminal : ∃ last row, run.1.getLast? = some last ∧ run.2.rows.getLast? = some row ∧
    row.attempt = last.number ∧ row.status.terminal = true
  settled : run.1.Pairwise fun earlier later =>
    later.calledProvider = true → earlier.returned = false

theorem runAttempts_zero (attempt : ℕ) (log : DeliveryLog) :
    runAttempts job conn maxAttempts behaviours attempt log 0 = ([], log) := rfl

theorem runAttempts_of_returned (left : ℕ) {attempt : ℕ} {log : DeliveryLog}
    (h : (runDeliverStep job conn maxAttempts attempt (behaviours attempt) log).1.isOk = true) :
    ∃ made, made.number = attempt ∧
      runAttempts job conn maxAttempts behaviours attempt log (left + 1) =
        ([made], (runDeliverStep job conn maxAttempts attempt (behaviours attempt) log).2) := by
  refine ⟨⟨attempt, true, calledIn log
    (runDeliverStep job conn maxAttempts attempt (behaviours attempt) log).2⟩, rfl, ?_⟩
  simp only [runAttempts, h, if_true]

theorem runAttempts_of_thrown (left : ℕ) {attempt : ℕ} {log : DeliveryLog}
    (h : (runDeliverStep job conn maxAttempts attempt (behaviours attempt) log).1.isOk = false) :
    ∃ made, made.number = attempt ∧ made.returned = false ∧
      runAttempts job conn maxAttempts behaviours attempt log (left + 1) =
        (made :: (runAttempts job conn maxAttempts behaviours (attempt + 1)
            (runDeliverStep job conn maxAttempts attempt (behaviours attempt) log).2 left).1,
          (runAttempts job conn maxAttempts behaviours (attempt + 1)
            (runDeliverStep job conn maxAttempts attempt (behaviours attempt) log).2 left).2) := by
  refine ⟨⟨attempt, false, calledIn log
    (runDeliverStep job conn maxAttempts attempt (behaviours attempt) log).2⟩, rfl, rfl, ?_⟩
  simp only [runAttempts, h, Bool.false_eq_true, if_false]

variable (job conn maxAttempts behaviours) in
theorem runAttempts_settled (left : ℕ) : ∀ (attempt : ℕ) (log : DeliveryLog),
    (runAttempts job conn maxAttempts behaviours attempt log left).1.Pairwise
      fun earlier _ => earlier.returned = false := by
  induction left with
  | zero => exact fun _ _ => List.Pairwise.nil
  | succ left ih =>
    intro attempt log
    cases hok : (runDeliverStep job conn maxAttempts attempt (behaviours attempt) log).1.isOk with
    | true =>
      obtain ⟨made, -, heq⟩ := runAttempts_of_returned left hok
      rw [heq]
      exact List.pairwise_singleton _ _
    | false =>
      obtain ⟨made, -, hthrown, heq⟩ := runAttempts_of_thrown left hok
      rw [heq]
      exact List.Pairwise.cons (fun _ _ => hthrown) (ih _ _)

theorem runAttempts_ne_nil (attempt : ℕ) (log : DeliveryLog) (left : ℕ) :
    (runAttempts job conn maxAttempts behaviours attempt log (left + 1)).1 ≠ [] := by
  cases hok : (runDeliverStep job conn maxAttempts attempt (behaviours attempt) log).1.isOk with
  | true =>
    obtain ⟨made, -, heq⟩ := runAttempts_of_returned left hok
    rw [heq]
    exact List.cons_ne_nil _ _
  | false =>
    obtain ⟨made, -, -, heq⟩ := runAttempts_of_thrown left hok
    rw [heq]
    exact List.cons_ne_nil _ _

def LastTerminal (run : List Attempt × DeliveryLog) : Prop :=
  ∃ last row, run.1.getLast? = some last ∧ run.2.rows.getLast? = some row ∧
    row.attempt = last.number ∧ row.status.terminal = true

def SettlesInTime (behaviours : ℕ → Behaviour) (maxAttempts attempt : ℕ) : Prop :=
  (∃ k, attempt ≤ k ∧ k + 1 < maxAttempts ∧ (behaviours k).kind = .settles) ∨
    (behaviours (maxAttempts - 1)).kind ≠ .throws

variable (job behaviours) in
theorem lastTerminal_iff (hconn : conn.isEnabled = true) (left : ℕ) :
    ∀ (attempt : ℕ) (log : DeliveryLog), attempt + (left + 1) = maxAttempts → log.Fresh →
      (LastTerminal (runAttempts job conn maxAttempts behaviours attempt log (left + 1)) ↔
        SettlesInTime behaviours maxAttempts attempt) := by
  induction left with
  | zero =>
    intro attempt log hsum hfresh
    have hleaves := runDeliverStep_leaves job (behaviours attempt) hconn
      (show attempt < maxAttempts by omega) hfresh
    obtain ⟨row, hrows, -, hattempt, hstatus⟩ := hleaves.row
    have hlast : maxAttempts - 1 = attempt := by omega
    have hcond : SettlesInTime behaviours maxAttempts attempt ↔
        (behaviours attempt).kind ≠ .throws := by
      unfold SettlesInTime
      rw [hlast, or_iff_right]
      rintro ⟨k, hk, hk', -⟩
      omega
    have hreturned := hleaves.returned
    rw [hcond]
    cases hok : (runDeliverStep job conn maxAttempts attempt (behaviours attempt) log).1.isOk with
    | true =>
      obtain ⟨made, hnumber, heq⟩ := runAttempts_of_returned 0 hok
      rw [heq]
      refine iff_of_true ⟨made, row, rfl, ?_, hattempt.trans hnumber.symm, hstatus.trans hok⟩ ?_
      · rw [hrows, List.getLast?_concat]
      · rcases hreturned.mp hok with h | ⟨h, -⟩ <;> rw [h] <;> decide
    | false =>
      obtain ⟨made, -, -, heq⟩ := runAttempts_of_thrown 0 hok
      rw [heq, runAttempts_zero]
      refine iff_of_false ?_ ?_
      · rintro ⟨-, row', -, hrow', -, hterminal⟩
        rw [hrows, List.getLast?_concat, Option.some.injEq] at hrow'
        rw [← hrow', hstatus, hok] at hterminal
        cases hterminal
      · rw [hok] at hreturned
        intro hkind
        apply absurd (hreturned.mpr ?_) (by decide)
        cases h : (behaviours attempt).kind with
        | settles => exact Or.inl rfl
        | retries => exact Or.inr ⟨rfl, hlast.le⟩
        | throws => exact absurd h hkind
  | succ left ih =>
    intro attempt log hsum hfresh
    have hleaves := runDeliverStep_leaves job (behaviours attempt) hconn
      (show attempt < maxAttempts by omega) hfresh
    obtain ⟨row, hrows, -, hattempt, hstatus⟩ := hleaves.row
    have hreturned : (runDeliverStep job conn maxAttempts attempt (behaviours attempt) log).1.isOk =
        true ↔ (behaviours attempt).kind = .settles := by
      rw [hleaves.returned, or_iff_left]
      rintro ⟨-, hlast⟩
      omega
    cases hok : (runDeliverStep job conn maxAttempts attempt (behaviours attempt) log).1.isOk with
    | true =>
      obtain ⟨made, hnumber, heq⟩ := runAttempts_of_returned (left + 1) hok
      rw [heq]
      refine iff_of_true ⟨made, row, rfl, ?_, hattempt.trans hnumber.symm, hstatus.trans hok⟩ ?_
      · rw [hrows, List.getLast?_concat]
      · exact Or.inl ⟨attempt, le_rfl, by omega, hreturned.mp hok⟩
    | false =>
      obtain ⟨made, -, -, heq⟩ := runAttempts_of_thrown (left + 1) hok
      have hlater := ih (attempt + 1) _ (by omega) (hleaves.fresh hfresh)
      have hskip : LastTerminal
          (runAttempts job conn maxAttempts behaviours attempt log (left + 1 + 1)) ↔
          LastTerminal (runAttempts job conn maxAttempts behaviours (attempt + 1)
            (runDeliverStep job conn maxAttempts attempt (behaviours attempt) log).2 (left + 1)) := by
        rw [heq]
        unfold LastTerminal
        rw [List.getLast?_cons_of_ne_nil (runAttempts_ne_nil _ _ _)]
      rw [hskip, hlater]
      -- this attempt did not settle the job
      unfold SettlesInTime
      apply or_congr_left
      constructor
      · rintro ⟨k, hk, hk', hkind⟩
        exact ⟨k, by omega, hk', hkind⟩
      · rintro ⟨k, hk, hk', hkind⟩
        refine ⟨k, lt_of_le_of_ne hk ?_, hk', hkind⟩
        rintro rfl
        rw [hreturned.mpr hkind] at hok
        cases hok

/-- Every delivery of an enabled connection ends in a terminal record just when an attempt before
the last one settles it or `deliver` does not throw in the last one. -/
theorem endsRecorded_iff (job : IntegrationsDeliverJob) (conn : IntegrationConnection)
    (behaviours : ℕ → Behaviour) (maxAttempts : ℕ) (log : DeliveryLog)
    (hconn : conn.isEnabled = true) (hmax : 1 ≤ maxAttempts) (hfresh : log.Fresh) :
    EndsRecorded (runJob job conn maxAttempts behaviours log) ↔
      (∃ k, k + 1 < maxAttempts ∧ (behaviours k).kind = .settles) ∨
        (behaviours (maxAttempts - 1)).kind ≠ .throws := by
  obtain ⟨left, rfl⟩ : ∃ left, maxAttempts = left + 1 := ⟨maxAttempts - 1, by omega⟩
  have hlast := lastTerminal_iff job behaviours hconn left 0 log
    (Nat.zero_add _) hfresh
  unfold SettlesInTime at hlast
  simp only [Nat.zero_le, true_and] at hlast
  rw [← hlast]
  constructor
  · exact fun h => h.terminal
  · intro h
    refine ⟨h, ?_⟩
    have hsettled := runAttempts_settled job conn (left + 1) behaviours (left + 1) 0 log
    apply hsettled.imp
    intro earlier later hreturned _
    exact hreturned

end Queue

def sampleJob : IntegrationsDeliverJob := ⟨"evt_1", "revenue.event.recorded"⟩

def sampleConnection : IntegrationConnection := ⟨"conn_1", "proj_1", "META_CAPI", true⟩

def samplePayload : ProviderPayload := ⟨"revenue.INITIAL", "Purchase", "{}"⟩

def throwingFrom (start attempt : ℕ) : Behaviour where
  -- unreachable at first, an exception in every attempt from `from` on
  mapEvent := .payload samplePayload
  deliver _ :=
    if start ≤ attempt then .error "ECONNRESET"
    else .ok (.failed ⟨true, some 503, none, some "HTTP 503"⟩)

theorem endsRecorded_iff_fiveAttempts :
    sampleConnection.isEnabled = true ∧
      EndsRecorded (runJob sampleJob sampleConnection 5 (throwingFrom 5) {}) ∧
      ¬EndsRecorded (runJob sampleJob sampleConnection 5 (throwingFrom 3) {}) := by
  have hiff := fun behaviours => endsRecorded_iff sampleJob sampleConnection behaviours 5 {} rfl
    (by decide) (by intro row hrow; cases hrow)
  refine ⟨rfl, (hiff _).mpr (Or.inr (by decide)), fun h => ?_⟩
  rcases (hiff _).mp h with ⟨k, hk, hkind⟩ | hlast
  · have hcases : ∀ k < 4, (throwingFrom 3 k).kind ≠ .settles := by decide
    exact hcases k (by omega) hkind
  · exact hlast (by decide)

/-- A `deliver` that throws in the last attempt leaves the row pending for good. -/
theorem last_throw_leaves_pending :
    ¬∀ (job : IntegrationsDeliverJob) (conn : IntegrationConnection) (behaviours : ℕ → Behaviour)
      (maxAttempts : ℕ) (log : DeliveryLog), conn.isEnabled = true → 1 ≤ maxAttempts → log.Fresh →
      EndsRecorded (runJob job conn maxAttempts behaviours log) := by
  intro h
  obtain ⟨last, row, -, hrow, -, hterminal⟩ := (h sampleJob sampleConnection (throwingFrom 0) 1 {} rfl
    le_rfl (by intro row hrow; cases hrow)).terminal
  have hpending : (runJob sampleJob sampleConnection 1 (throwingFrom 0) {}).2.rows.getLast? =
      some { deliveryRow sampleJob sampleConnection 0 "revenue.INITIAL" .pending 0 with
        providerEvent := some "Purchase" } := by
    rfl
  rw [hpending, Option.some.injEq] at hrow
  rw [← hrow] at hterminal
  cases hterminal

end Rovenue.Integrations
