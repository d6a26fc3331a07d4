import Rovenue.Purchases.Repository
import Rovenue.Purchases.StatusPlan

/-! The expiry sweep and the ageing of held rows: each candidate is moved by a
compare and swap on the status it was selected with. -/

namespace Rovenue
open Txn

def maxCandidatesPerRun : ℕ := 500

def billingIssueMaxAge : ℤ := 60 * 24 * 60 * 60 * 1000

def Purchase.hasActiveGrace (candidate : Purchase) (now : ℤ) : Bool :=
  candidate.status ≠ .gracePeriod && candidate.status ≠ .paused &&
    candidate.gracePeriodExpires.any (now < ·)

def Purchase.graceWindowStillOpen (candidate : Purchase) (now : ℤ) : Bool :=
  candidate.status = .gracePeriod && candidate.gracePeriodExpires.any (now < ·)

def moveCandidate (candidate : PurchaseRecord) (expected new : PurchaseStatus) : Service Unit := do
  let updated ← (updatePurchaseStatusIf candidate.1 expected new).autocommit
  if updated = 0 then pure () else syncAccess candidate.2.subscriberId

def processCandidate (candidate : PurchaseRecord) (now : ℤ) : Service Unit :=
  if candidate.2.hasActiveGrace now then moveCandidate candidate candidate.2.status .gracePeriod
  else if candidate.2.graceWindowStillOpen now then pure ()
  else moveCandidate candidate candidate.2.status .expired

def runExpiryCheck : Service Unit := do
  let now ← Prog.now
  let candidates ← Prog.query (findOverduePurchases now expirySweepStatuses maxCandidatesPerRun)
  Prog.forEach candidates fun candidate => processCandidate candidate now

def runBillingIssueAgeing : Service Unit := do
  let now ← Prog.now
  let candidates ← Prog.query
    (findAgedBillingIssuePurchases (now - billingIssueMaxAge) maxCandidatesPerRun)
  Prog.forEach candidates fun candidate => moveCandidate candidate .billingIssue .expired

end Rovenue

/-! The status plans of the two passes: each candidate's swap, one row at a time. -/

namespace Rovenue
open Txn

def candidatePlan (now : ℤ) (candidate : Purchase) (o : Option Standing) : Option StatusWrite :=
  if candidate.hasActiveGrace now then swapPlan candidate.status .gracePeriod o
  else if candidate.graceWindowStillOpen now then none
  else swapPlan candidate.status .expired o

def sweepPlan (candidates : List PurchaseRecord)
    (plan : PurchaseRecord → Option Standing → Option StatusWrite) (s : Db) (key : PurchaseKey) :
    Option StatusWrite :=
  (candidates.find? fun e => e.1 = key).bind fun e => plan e (standingAt s key)

def expiryPlan (now : ℤ) (s : Db) : PurchaseKey → Option StatusWrite :=
  sweepPlan (findOverduePurchases now expirySweepStatuses maxCandidatesPerRun s)
    (fun e => candidatePlan now e.2) s

def ageingPlan (now : ℤ) (s : Db) : PurchaseKey → Option StatusWrite :=
  sweepPlan (findAgedBillingIssuePurchases (now - billingIssueMaxAge) maxCandidatesPerRun s)
    (fun _ => swapPlan .billingIssue .expired) s

section Sweep
variable {c c' : Session Db Write String} {u : Unit}

theorem moveCandidate_follows {candidate : PurchaseRecord} {expected new : PurchaseStatus}
    (h : (moveCandidate candidate expected new).Returns c u c') :
    Follows (onlyRow candidate.1 (swapPlan expected new (standingAt c.view candidate.1))) c c' := by
  simp only [moveCandidate, Prog.bind_eq, Prog.returns_bind, Prog.returns_autocommit,
    updatePurchaseStatusIf, Prog.returns_exec] at h
  obtain ⟨updated, c₁, ⟨-, rfl⟩, h⟩ := h
  have hswap := @follows_swap c candidate.1 expected new
  split_ifs at h
  · obtain ⟨-, rfl⟩ := Prog.returns_done.1 h
    exact hswap
  · have hrest := follows_of_each ((syncAccess_each candidate.2.subscriberId).mono
      fun _ _ hws w hw => (hws w hw).not_onPurchases) h
    exact (hswap.andThen hrest).congr fun k => by rw [StatusWrite.andThen_none]

theorem processCandidate_follows {candidate : PurchaseRecord} {now : ℤ}
    (h : (processCandidate candidate now).Returns c u c') :
    Follows (onlyRow candidate.1 (candidatePlan now candidate.2
      (standingAt c.view candidate.1))) c c' := by
  unfold processCandidate at h
  unfold candidatePlan
  split_ifs at h ⊢
  · exact moveCandidate_follows h
  · obtain ⟨-, rfl⟩ := Prog.returns_done.1 h
    exact (Follows.refl c).congr fun k => onlyRow_none _ _
  · exact moveCandidate_follows h

theorem sweep_follows {plan : PurchaseRecord → Option Standing → Option StatusWrite}
    {f : PurchaseRecord → Service Unit}
    (hf : ∀ e c (u : Unit) c', (f e).Returns c u c' →
      Follows (onlyRow e.1 (plan e (standingAt c.view e.1))) c c')
    (candidates : List PurchaseRecord) (hkeys : (candidates.map Prod.fst).Nodup)
    (h : (Prog.forEach candidates f).Returns c u c') :
    Follows (sweepPlan candidates plan c.view) c c' := by
  induction candidates generalizing c with
  | nil =>
    obtain ⟨-, rfl⟩ := Prog.returns_done.1 h
    exact .refl c
  | cons e es ih =>
    rw [List.map_cons, List.nodup_cons] at hkeys
    simp only [Prog.forEach, Prog.returns_bind] at h
    obtain ⟨u', c₁, hfirst, h⟩ := h
    have hfirst := hf e c u' c₁ hfirst
    refine (hfirst.andThen (ih hkeys.2 h)).congr fun k => ?_
    simp only [sweepPlan, List.find?_cons, hfirst.standing, onlyRow]
    by_cases hk : k = e.1
    · subst hk
      have hrest : es.find? (fun e' => e'.1 = e.1) = none := by
        rw [List.find?_eq_none]
        intro e' he' hkey
        exact hkeys.1 (List.mem_map.2 ⟨e', he', of_decide_eq_true hkey⟩)
      simp [hrest]
    · simp [hk, Ne.symm hk, StatusWrite.on]

section Candidates
variable {s : Db} {p : PurchaseRecord → Bool} {r : PurchaseRecord → PurchaseRecord → Prop}
  [DecidableRel r] {limit : ℕ}

theorem candidates_nodup :
    ((((purchasesWhere p s).insertionSort r).take limit).map Prod.fst).Nodup :=
  (((List.perm_insertionSort r _).map Prod.fst).nodup_iff.2
    (purchasesWhere_keys_nodup p s)).sublist ((List.take_sublist _ _).map _)

theorem mem_candidates {e : PurchaseRecord}
    (h : e ∈ ((purchasesWhere p s).insertionSort r).take limit) :
    s.purchases.get? e.1 = some e.2 ∧ p e = true := by
  have hmem := List.mem_insertionSort r |>.1 (List.mem_of_mem_take h)
  obtain ⟨hentry, hp⟩ := List.mem_filter.1 hmem
  exact ⟨s.purchases.mem_entries.1 hentry, hp⟩

end Candidates

theorem runExpiryCheck_follows (h : runExpiryCheck.Returns c u c') :
    Follows (expiryPlan (c.clock 0) c.view) c c' := by
  simp only [runExpiryCheck, Prog.bind_eq, Prog.returns_bind, Prog.returns_now,
    Prog.returns_query] at h
  obtain ⟨now, c₁, ⟨rfl, rfl⟩, candidates, c₂, ⟨rfl, rfl⟩, h⟩ := h
  have hsweep := sweep_follows (fun e c u c' h => processCandidate_follows h) _ candidates_nodup h
  exact hsweep.start rfl rfl

theorem runBillingIssueAgeing_follows (h : runBillingIssueAgeing.Returns c u c') :
    Follows (ageingPlan (c.clock 0) c.view) c c' := by
  simp only [runBillingIssueAgeing, Prog.bind_eq, Prog.returns_bind, Prog.returns_now,
    Prog.returns_query] at h
  obtain ⟨now, c₁, ⟨rfl, rfl⟩, candidates, c₂, ⟨rfl, rfl⟩, h⟩ := h
  have hsweep := sweep_follows (fun e c u c' h => moveCandidate_follows h) _ candidates_nodup h
  exact hsweep.start rfl rfl

end Sweep
end Rovenue
