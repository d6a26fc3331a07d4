import Rovenue.Google.PlanChange

/-! A plan change is announced once, together with the retirement of the old row, in the runs
where no verification retires it. A notification that comes later finds nothing left to retire. -/

namespace Rovenue.Google
open Threads
variable {ι : Type} {r : Replacement} {old : Purchase}

structure OldRow (old row : Purchase) : Prop where
  productId : row.productId = old.productId
  status : row.status.grantsAccess = true ∨ row.status = .expired

def PlanStage.OfProduct (r : Replacement) (old : Purchase) : PlanStage → Prop
  | .opened _ w seen => w.productId = r.productId ∧ ∀ row ∈ seen, row.productId = r.productId
  | .superseding _ _ _ found => found.productId = old.productId
  | _ => True

def ofProducts (r : Replacement) (old : Purchase) : Annotation PlanState PlanCall where
  inv s := (∃ row, s.old = some row ∧ OldRow old row) ∧
    ∀ row ∈ s.row, row.productId = r.productId
  assert _ t := t.stage.OfProduct r old

theorem productId_write {path : OrderPath} {answer : SubscriptionAnswer} {found : OrderLookups}
    {projectId purchaseToken : String} {eventTime : ℤ} :
    (path.write projectId purchaseToken answer found eventTime).productId = found.productId := by
  cases path <;> rfl

theorem OrderWrite.productId_upserted {w : OrderWrite} {seen current : Option Purchase}
    {startedAt insertedAt updatedAt : ℤ} {id productId : String} (hw : w.productId = productId)
    (hrow : ∀ row ∈ current, row.productId = productId) :
    (w.upserted seen startedAt insertedAt updatedAt id current).productId = productId := by
  cases current with
  | none =>
    cases w with
    | notification w => exact hw
    | receipt w => exact hw
  | some row =>
    have hkeep : row.productId = productId := hrow row rfl
    cases w with
    | notification w =>
      have hproduct : w.productId = productId := hw
      have hpatch : ∀ p : PurchasePatch, p.productId = none ∨ p.productId = some productId →
          (p.apply row).productId = productId := by
        intro p hp
        show p.productId.getD row.productId = productId
        obtain hp | hp := hp <;> rw [hp]
        · exact hkeep
        · rfl
      have hset : (w.update (w.guard.result seen) updatedAt).productId = none ∨
          (w.update (w.guard.result seen) updatedAt).productId = some productId := by
        unfold SubscriptionWrite.update
        split_ifs
        · exact .inr (congrArg some hproduct)
        · exact .inl rfl
      obtain hg | hg | hg := StatusGuard.caseTerminal.patch_cases
        (w.update (w.guard.result seen) updatedAt) row
      · exact (congrArg Purchase.productId hg).trans (hpatch _ hset)
      · exact (congrArg Purchase.productId hg).trans (hpatch _ hset)
      · exact (congrArg Purchase.productId hg).trans hkeep
    | receipt w =>
      have hset : (w.update (w.guard.result seen) updatedAt).productId = none := by
        unfold ReceiptWrite.update
        split_ifs <;> rfl
      have hsame : (w.upserted seen startedAt insertedAt updatedAt id (some row)).productId =
          row.productId := StatusGuard.patch_productId _ hset row
      exact hsame.trans hkeep

theorem OldRow.status_ne {row : Purchase} (h : OldRow old row) :
    row.status ∉ repoTerminalStatuses := by
  rw [mem_repoTerminalStatuses]
  obtain h | h := h.status
  · cases hstatus : row.status <;> simp_all [PurchaseStatus.grantsAccess,
      PurchaseStatus.isTerminal, PurchaseStatus.semantics]
  · rw [h]
    decide

theorem OldRow.admits_iff {row : Purchase} (h : OldRow old row) (now : ℤ) :
    (r.retireGuard now).admits (some row) = true ↔ staleFor (some now) row = false := by
  have hstatus : validateTransition row.status .expired = true := by
    obtain h | h := h.status
    · cases hs : row.status <;> simp_all [PurchaseStatus.grantsAccess, PurchaseStatus.semantics] <;>
        decide
    · rw [h]
      decide
  simp [GuardStatusWriteArgs.admits, Replacement.retireGuard, decideTransition, hstatus]

theorem OldRow.retire {row : Purchase} (h : OldRow old row) (now : ℤ) :
    OldRow old (StatusGuard.caseTerminal.patch (retirePatch now) row) ∧
      (StatusGuard.caseTerminal.patch (retirePatch now) row).status = .expired := by
  rw [StatusGuard.patch_open h.status_ne]
  exact ⟨⟨h.productId, .inr rfl⟩, rfl⟩

theorem retired_some {s : PlanState} {row : Purchase} (h : s.old = some row) :
    s.retired = decide (row.status = .expired) := by
  simp [PlanState.retired, h]

theorem retire_effect {s : PlanState} {row seen : Purchase} (path : OrderPath)
    (found : OrderLookups) (purchaseId : String) (eventTime : ℤ) {now : ℤ}
    (hmoved : old.productId ≠ r.productId)
    (hold : s.old = some row) (hrow : OldRow old row) (hseen : seen.productId = old.productId)
    (hadmits : (r.retireGuard now).admits s.old = true) :
    (r.retire s path found purchaseId eventTime seen now).retired = true ∧
      (announcements r old (r.retire s path found purchaseId eventTime seen now)).length =
        (announcements r old s).length +
          if path.isNotification = true ∧ s.retired = false then 1 else 0 := by
  have hchange : emitProductChanged (r.change found purchaseId seen eventTime) =
      [r.change found purchaseId seen eventTime] := by
    unfold emitProductChanged
    exact if_neg fun hsame => hmoved (hseen.symm.trans hsame)
  have hfresh : (s.old.map Purchase.status ≠ some .expired) ↔ s.retired = false := by
    rw [retired_some hold, hold]
    simp
  unfold Replacement.retire
  rw [if_pos hadmits]
  constructor
  · have hnew : s.old.map (StatusGuard.caseTerminal.patch (retirePatch now)) =
        some (StatusGuard.caseTerminal.patch (retirePatch now) row) := by rw [hold]; rfl
    rw [retired_some hnew]
    exact decide_eq_true (hrow.retire now).2
  · unfold announcements
    rw [List.filter_append, List.length_append]
    congr 1
    simp only [hfresh]
    split_ifs with hfirst
    · rw [hchange]
      simp [Replacement.change, hseen]
    · rfl

variable {s : PlanState} {t : PlanCall} {e : PlanEvent}

theorem announces_nil {w : OrderWrite} {seen : Option Purchase} {projectId purchaseId : String}
    (hw : w.productId = r.productId) (hseen : ∀ row ∈ seen, row.productId = r.productId) :
    w.announces projectId purchaseId seen = [] := by
  cases w with
  | receipt w => rfl
  | notification w =>
    have hproduct : w.productId = r.productId := hw
    simp only [OrderWrite.announces]
    split_ifs
    · cases seen with
      | none => rfl
      | some row =>
        have hsame : row.productId = w.productId := (hseen row rfl).trans hproduct.symm
        simp [emitProductChanged, hsame]
    · rfl

theorem planStep_ofProducts (hs : (ofProducts r old).inv s) (ht : t.stage.OfProduct r old) :
    (ofProducts r old).inv (planStep r s t e).1 ∧
      (planStep r s t e).2.stage.OfProduct r old := by
  obtain ⟨path, stage⟩ := t
  obtain ⟨⟨row, hold, hrow⟩, hnew⟩ := hs
  have hkeep : (ofProducts r old).inv s := ⟨⟨row, hold, hrow⟩, hnew⟩
  cases stage with
  | waiting =>
    cases e with
    | fetch answer =>
      simp only [planStep]
      split
      · exact ⟨hkeep, trivial⟩
      · exact ⟨hkeep, trivial⟩
    | _ => exact ⟨hkeep, trivial⟩
  | fetched answer =>
    cases e with
    | openTx subscriberId announced readAt eventTime =>
      have hwrite : (path.write r.projectId r.purchaseToken answer
          ⟨subscriberId, r.productId, announced, readAt⟩ eventTime).productId = r.productId :=
        productId_write
      simp only [planStep]
      split
      · exact ⟨hkeep, hwrite, by simp⟩
      · rename_i found hfound
        split_ifs
        · exact ⟨hkeep, trivial⟩
        · refine ⟨hkeep, hwrite, ?_⟩
          intro seen hseen
          obtain rfl := Option.mem_some.1 hseen
          exact hnew _ hfound
    | _ => exact ⟨hkeep, trivial⟩
  | opened found w seen =>
    cases e with
    | save startedAt insertedAt updatedAt id =>
      simp only [planStep]
      split_ifs
      · refine ⟨⟨⟨row, hold, hrow⟩, ?_⟩, trivial⟩
        intro saved hsaved
        obtain rfl := Option.mem_some.1 hsaved
        exact OrderWrite.productId_upserted ht.1 hnew
      · exact ⟨hkeep, ht⟩
    | abandon => exact ⟨hkeep, trivial⟩
    | _ => exact ⟨hkeep, ht⟩
  | saved found purchaseId eventTime =>
    cases e with
    | findOld =>
      simp only [planStep]
      split_ifs
      · split
        · exact ⟨hkeep, trivial⟩
        · rename_i seen hseen
          refine ⟨hkeep, ?_⟩
          obtain ⟨hfound, -⟩ := Option.filter_eq_some_iff.1 hseen
          obtain rfl := Option.some.inj (hold.symm.trans hfound)
          exact hrow.productId
      · exact ⟨hkeep, trivial⟩
    | _ => exact ⟨hkeep, trivial⟩
  | superseding found purchaseId eventTime seen =>
    cases e with
    | retire now =>
      refine ⟨?_, trivial⟩
      show (ofProducts r old).inv (r.retire s path found purchaseId eventTime seen now)
      unfold Replacement.retire
      by_cases hadmits : (r.retireGuard now).admits s.old = true
      · rw [if_pos hadmits]
        refine ⟨⟨_, ?_, (hrow.retire now).1⟩, hnew⟩
        rw [hold]
        rfl
      · rw [if_neg hadmits]
        exact hkeep
    | abandon => exact ⟨hkeep, trivial⟩
    | _ => exact ⟨hkeep, ht⟩
  | _ => exact ⟨hkeep, trivial⟩

theorem ofProducts_next [DecidableEq ι] {w : PlanWorld ι} {ev : Event ι PlanEvent Empty}
    (h : (ofProducts r old).Holds w) : (ofProducts r old).Holds ((planSystem r).next w ev) := by
  cases ev with
  | env d => exact nomatch d
  | act i e =>
    obtain ⟨hinv, hstage⟩ := planStep_ofProducts (e := e) h.inv (h.assert i)
    exact h.update hinv hstage (fun j _ => h.assert j) fun _ _ => ⟨trivial, trivial⟩

theorem planStep_keeps (ht : t.stage.OfProduct r old)
    (hother : ∀ found purchaseId eventTime seen now,
      t.stage = .superseding found purchaseId eventTime seen → e ≠ .retire now) :
    (planStep r s t e).1.old = s.old ∧ (planStep r s t e).1.outbox = s.outbox := by
  obtain ⟨path, stage⟩ := t
  cases stage with
  | waiting =>
    cases e with
    | fetch answer =>
      simp only [planStep]
      split <;> exact ⟨rfl, rfl⟩
    | _ => exact ⟨rfl, rfl⟩
  | fetched answer =>
    cases e with
    | openTx subscriberId announced readAt eventTime =>
      simp only [planStep]
      split
      · exact ⟨rfl, rfl⟩
      · split_ifs <;> exact ⟨rfl, rfl⟩
    | _ => exact ⟨rfl, rfl⟩
  | opened found w seen =>
    cases e with
    | save startedAt insertedAt updatedAt id =>
      simp only [planStep]
      split_ifs
      · refine ⟨rfl, ?_⟩
        rw [announces_nil ht.1 ht.2]
        exact List.append_nil _
      · exact ⟨rfl, rfl⟩
    | _ => exact ⟨rfl, rfl⟩
  | saved found purchaseId eventTime =>
    cases e with
    | findOld =>
      simp only [planStep]
      split_ifs
      · split <;> exact ⟨rfl, rfl⟩
      · exact ⟨rfl, rfl⟩
    | _ => exact ⟨rfl, rfl⟩
  | superseding found purchaseId eventTime seen =>
    cases e with
    | retire now => exact absurd rfl (hother found purchaseId eventTime seen now rfl)
    | _ => exact ⟨rfl, rfl⟩
  | _ => exact ⟨rfl, rfl⟩

theorem announced_congr {s s' : PlanState} (hold : s'.old = s.old) (houtbox : s'.outbox = s.outbox) :
    AnnouncedWithRetirement r old s' ↔ AnnouncedWithRetirement r old s := by
  have hretired : s'.retired = s.retired := by rw [PlanState.retired, hold, PlanState.retired]
  have hrows : announcements r old s' = announcements r old s := by
    rw [announcements, houtbox, announcements]
  rw [AnnouncedWithRetirement, hretired, hrows, AnnouncedWithRetirement]

variable [DecidableEq ι] {w : PlanWorld ι} {ev : Event ι PlanEvent Empty}

theorem planEvent_cases (ev : Event ι PlanEvent Empty) (hw : (ofProducts r old).Holds w) :
    (∃ i found purchaseId eventTime seen now, ev = .act i (.retire now) ∧
      (w.task i).stage = .superseding found purchaseId eventTime seen ∧
      seen.productId = old.productId ∧ ((planSystem r).next w ev).shared =
        r.retire w.shared (w.task i).path found purchaseId eventTime seen now) ∨
    (((planSystem r).next w ev).shared.old = w.shared.old ∧
      ((planSystem r).next w ev).shared.outbox = w.shared.outbox ∧
      ¬Silent r w ev ∧ ¬InTime w ev) := by
  cases ev with
  | env d => exact nomatch d
  | act i e =>
    have hok := hw.assert i
    by_cases hretire : ∃ found purchaseId eventTime seen now,
      (w.task i).stage = .superseding found purchaseId eventTime seen ∧ e = .retire now
    · obtain ⟨found, purchaseId, eventTime, seen, now, hstage, rfl⟩ := hretire
      have hseen : seen.productId = old.productId := by
        simpa [ofProducts, hstage, PlanStage.OfProduct] using hok
      refine .inl ⟨i, found, purchaseId, eventTime, seen, now, rfl, hstage, hseen, ?_⟩
      show (planStep r w.shared (w.task i) (.retire now)).1 = _
      simp only [planStep, hstage]
    · have hother : ∀ found purchaseId eventTime seen now,
          (w.task i).stage = .superseding found purchaseId eventTime seen → e ≠ .retire now :=
        fun found purchaseId eventTime seen now hstage he =>
          hretire ⟨found, purchaseId, eventTime, seen, now, hstage, he⟩
      obtain ⟨hold, houtbox⟩ := planStep_keeps (r := r) (s := w.shared) hok hother
      have hnone : retiring w (.act i e) = none := by
        cases e with
        | retire now =>
          cases hstage : (w.task i).stage with
          | superseding => exact absurd rfl (hother _ _ _ _ _ hstage)
          | _ => simp only [retiring, hstage]
        | _ => rfl
      refine .inr ⟨hold, houtbox, ?_, ?_⟩
      · exact fun hsilent => by simp [Silent, hnone] at hsilent
      · exact fun hintime => by simp [InTime, hnone] at hintime

theorem announced_next (hmoved : old.productId ≠ r.productId) (hw : (ofProducts r old).Holds w)
    (hP : AnnouncedWithRetirement r old w.shared) :
    AnnouncedWithRetirement r old ((planSystem r).next w ev).shared ↔ ¬Silent r w ev := by
  obtain hretire | ⟨hold, houtbox, hsilent, -⟩ := planEvent_cases ev hw
  swap
  · rw [announced_congr hold houtbox]
    exact iff_of_true hP hsilent
  obtain ⟨i, found, purchaseId, eventTime, seen, now, rfl, hstage, hseen, hnext⟩ := hretire
  obtain ⟨⟨row, hold, hrow⟩, -⟩ := hw.inv
  rw [hnext]
  simp only [Silent, retiring, hstage, Option.mem_some_iff, exists_eq_left']
  by_cases hadmits : (r.retireGuard now).admits w.shared.old = true
  · obtain ⟨hretired, hlength⟩ := retire_effect (w.task i).path found purchaseId eventTime hmoved
      hold hrow hseen hadmits
    rw [AnnouncedWithRetirement, hretired, hlength, hP]
    cases (w.task i).path.isNotification <;> cases w.shared.retired <;> simp [hadmits]
  · have hsame : r.retire w.shared (w.task i).path found purchaseId eventTime seen now =
        w.shared := if_neg hadmits
    rw [hsame]
    simp [hP, hadmits]

theorem retired_next (hmoved : old.productId ≠ r.productId) (hw : (ofProducts r old).Holds w)
    (hsilent : ¬Silent r w ev) :
    ((planSystem r).next w ev).shared.retired = true ↔ w.shared.retired = true ∨ InTime w ev := by
  obtain hretire | ⟨hold, -, -, hintime⟩ := planEvent_cases ev hw
  swap
  · rw [PlanState.retired, hold, ← PlanState.retired]
    exact ⟨.inl, fun h => h.resolve_right hintime⟩
  obtain ⟨i, found, purchaseId, eventTime, seen, now, rfl, hstage, hseen, hnext⟩ := hretire
  obtain ⟨⟨row, hold, hrow⟩, -⟩ := hw.inv
  rw [hnext]
  simp only [Silent, retiring, hstage, Option.mem_some_iff, exists_eq_left'] at hsilent
  simp only [InTime, retiring, hstage, Option.mem_some_iff, exists_eq_left']
  have hclock : (r.retireGuard now).admits (some row) = true ↔ staleFor (some now) row = false :=
    hrow.admits_iff now
  rw [← hold] at hclock
  have hstale : w.shared.old.any (staleFor (some now)) = staleFor (some now) row := by
    rw [hold]
    rfl
  rw [hstale, ← hclock]
  by_cases hadmits : (r.retireGuard now).admits w.shared.old = true
  · have hretired := (retire_effect (w.task i).path found purchaseId eventTime hmoved
      hold hrow hseen hadmits).1
    rw [hretired]
    refine iff_of_true rfl ?_
    -- a row that was not retired before is not retired by a verification
    cases hkind : (w.task i).path.isNotification
    · cases hbefore : w.shared.retired
      · exact absurd ⟨hkind, hbefore, hadmits⟩ hsilent
      · exact .inl rfl
    · exact .inr ⟨rfl, hadmits⟩
  · have hsame : r.retire w.shared (w.task i).path found purchaseId eventTime seen now =
        w.shared := if_neg hadmits
    rw [hsame]
    exact ⟨.inl, fun h => h.resolve_right fun hboth => hadmits hboth.2⟩

omit [DecidableEq ι] in
theorem planStart_ofProducts {row : Option Purchase} (path : ι → OrderPath)
    (hstatus : old.status ∈ accessGrantingStatuses) (hrow : ∀ p ∈ row, p.productId = r.productId) :
    (ofProducts r old).Holds (planStart row old path) where
  inv := by
    have hgrants : old.status.grantsAccess = true := mem_statusesWhere.1 hstatus
    exact ⟨⟨old, rfl, rfl, .inl hgrants⟩, hrow⟩
  assert _ := trivial
  apart _ _ _ := trivial

/-- The change is announced once, with the retirement, exactly in the runs where no verification
retires the old row and a notification comes to it in time. -/
theorem announcedOnce_iff {row : Option Purchase} {path : ι → OrderPath}
    {evs : List (Event ι PlanEvent Empty)} (hstatus : old.status ∈ accessGrantingStatuses)
    (hmoved : old.productId ≠ r.productId) (hrow : ∀ p ∈ row, p.productId = r.productId) :
    ((∀ v ∈ (planSystem r).visited (planStart row old path) evs,
        AnnouncedWithRetirement r old v.shared) ∧
      (announcements r old ((planSystem r).runAll (planStart row old path) evs).shared).length
        = 1) ↔
      (∀ x ∈ (planSystem r).transitions (planStart row old path) evs, ¬Silent r x.1 x.2) ∧
        ∃ x ∈ (planSystem r).transitions (planStart row old path) evs, InTime x.1 x.2 := by
  have hinit := planStart_ofProducts path hstatus hrow
  have hopen : (planStart row old path).shared.retired = false := by
    have hgrants : old.status.grantsAccess = true := mem_statusesWhere.1 hstatus
    rw [retired_some rfl]
    refine decide_eq_false fun hexpired => ?_
    rw [hexpired] at hgrants
    cases hgrants
  have hnone : AnnouncedWithRetirement r old (planStart row old path).shared := by
    rw [AnnouncedWithRetirement, hopen]
    rfl
  have hrun : (∀ v ∈ (planSystem r).visited (planStart row old path) evs,
        AnnouncedWithRetirement r old v.shared) ↔
      ∀ x ∈ (planSystem r).transitions (planStart row old path) evs, ¬Silent r x.1 x.2 :=
    (planSystem r).visited_iff (P := fun w => AnnouncedWithRetirement r old w.shared)
      (fun w e h => ofProducts_next h) (fun w e h hP => announced_next hmoved h hP) hinit hnone
  rw [hrun]
  refine and_congr_right fun hsilent => ?_
  have hlast : AnnouncedWithRetirement r old
      ((planSystem r).runAll (planStart row old path) evs).shared :=
    hrun.2 hsilent _ System.last_mem_visited
  have hlatch : ((planSystem r).runAll (planStart row old path) evs).shared.retired = true ↔
      (planStart row old path).shared.retired = true ∨
        ∃ x ∈ (planSystem r).transitions (planStart row old path) evs, InTime x.1 x.2 :=
    (planSystem r).runAll_latch_iff (Q := fun w => w.shared.retired = true)
      (fun w e h _ => ofProducts_next h) (fun w e h hs => retired_next hmoved h hs) hinit hsilent
  have hone : (announcements r old
      ((planSystem r).runAll (planStart row old path) evs).shared).length = 1 ↔
      ((planSystem r).runAll (planStart row old path) evs).shared.retired = true := by
    rw [hlast]
    simp
  rw [hone, hlatch, hopen]
  exact ⟨fun h => h.resolve_left Bool.false_ne_true, .inr⟩

def proUpgrade : Replacement := ⟨"proj", "token-2", "token-1", "pro"⟩

def basicPurchase : Purchase where
  id := "pur-1"
  projectId := "proj"
  subscriberId := "sub"
  productId := "basic"
  originalTransactionId := "token-1"
  status := .active
  purchaseDate := 0
  createdAt := 0

def proAnswer : SubscriptionAnswer where
  lineItems := [{ productId := "pro", expiryTime := some 100 }]
  subscriptionState := .active

def planCallEvents (i : Fin 2) (now : ℤ) : List (Event (Fin 2) PlanEvent Empty) :=
  [.act i (.fetch proAnswer), .act i (.openTx "sub" none now now),
    .act i (.save now now now "pur-2"), .act i .findOld, .act i (.retire now)]

def proPaths : Fin 2 → OrderPath
  | 0 => .receipt "pro"
  | 1 => .notification .purchased "pro"

/-- The verification comes first, and the notification after it completes. -/
theorem verification_first_silences :
    let final := (planSystem proUpgrade).runAll (planStart none basicPurchase proPaths)
      (planCallEvents 0 10 ++ planCallEvents 1 20)
    (final.task 1).stage = .finished ∧ final.shared.retired = true ∧
      announcements proUpgrade basicPurchase final.shared = [] := by
  refine ⟨rfl, ?_, ?_⟩
  · decide
  · decide

theorem announcedOnce_notification_first :
    (announcements proUpgrade basicPurchase
      ((planSystem proUpgrade).runAll (planStart none basicPurchase proPaths)
        (planCallEvents 1 10 ++ planCallEvents 0 20)).shared).length = 1 := by
  refine ((announcedOnce_iff (by decide) (by decide) (by simp)).2 ⟨?_, ?_⟩).2
  · decide
  · decide

end Rovenue.Google
