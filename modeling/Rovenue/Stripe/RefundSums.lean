import Rovenue.Revenue.CallRows
import Rovenue.Stripe.ChargeRefunds

/-! When the refunds of a charge add up: an event records its own refund, unless it carries only
what has been refunded in all. -/

namespace Rovenue.Stripe
open Revenue Text Threads
variable {ι M : Type} {lookups : RefundLookups M}

def RefundDelivery.call (t : RefundDelivery M) : Option (Call M) :=
  match t.stage with
  | .recording call => some call
  | _ => none

/-- The purchase is known, and is not a family member's. -/
def Recordable (lookups : RefundLookups M) (s : RevenueDb M) (charge : RefundedCharge) : Prop :=
  ∃ purchase, lookups.purchase charge = some purchase ∧ s.familyShared purchase.id = false

structure Found (lookups : RefundLookups M) (s : RevenueDb M) (event : ChargeRefunded)
    (call : Call M) : Prop where
  input : ∃ purchase now amountUsd, lookups.purchase event.charge = some purchase ∧
    call.input = refundInput lookups event purchase now amountUsd
  quiet : s.familyShared call.input.purchaseId → call.Quiet
  shared : call.stage = .returned none → s.familyShared call.input.purchaseId

def RefundDelivery.Sound (lookups : RefundLookups M) (s : RevenueDb M) (t : RefundDelivery M) :
    Prop :=
  match t.stage with
  | .ignored => lookups.purchase t.event.charge = none
  | .recording call => Found lookups s t.event call
  | _ => True

def OfEvent (lookups : RefundLookups M) (s : RevenueDb M) (event : ChargeRefunded)
    (row : RevenueEvent) : Prop :=
  Recordable lookups s event.charge ∧ ∃ purchase now amountUsd,
    row = revenueRow (refundInput lookups event purchase now amountUsd) row.id

section Step
variable {s : RevenueDb M} {t : RefundDelivery M}

theorem carries_refundDeliveries :
    Carries (refundDeliveries lookups) id (RefundDelivery.call : RefundDelivery M → _) where
  step s t e := by
    rcases t with ⟨event, stage⟩
    cases stage with
    | received =>
      cases e with
      | lookUp now amountUsd =>
        show CallStep s none (refundStep lookups s ⟨event, .received⟩ (.lookUp now amountUsd)).1
          (refundStep lookups s ⟨event, .received⟩ (.lookUp now amountUsd)).2.call
        unfold refundStep
        cases hpurchase : lookups.purchase event.charge with
        | none => exact .stay none
        | some purchase => exact .start _
      | _ => exact .stay none
    | recording call =>
      cases e with
      | record fault => exact .move call fault
      | _ => exact .stay (some call)
    | ignored => cases e <;> exact .stay none
    | lost => cases e <;> exact .stay none
  env s range := ⟨.dropPartition range.1 range.2, rfl⟩
  reset _ _ := rfl

theorem familyShared_congr {s s' : RevenueDb M} (h : s.purchases = s'.purchases) (id : String) :
    s.familyShared id = s'.familyShared id := by
  unfold RevenueDb.familyShared
  rw [h]

variable {s₀ : RevenueDb M}

theorem Found.createRevenueEvent {event : ChargeRefunded} {call : Call M} {fault : Bool}
    (h : Found lookups s₀ event call) (hsame : s.purchases = s₀.purchases) :
    Found lookups s₀ event (createRevenueEvent s call fault).2 where
  input := by
    rw [createRevenueEvent_input]
    exact h.input
  quiet := by
    rw [createRevenueEvent_input]
    intro hshared
    apply (h.quiet hshared).createRevenueEvent
    rw [familyShared_congr hsame]
    exact hshared
  shared := by
    rw [createRevenueEvent_input]
    intro hreturned
    rcases returned_none_createRevenueEvent hreturned with hbefore | hshared
    · exact h.shared hbefore
    · rw [← familyShared_congr hsame]
      exact hshared

theorem RefundDelivery.Sound.refundStep (h : t.Sound lookups s₀) (hsame : s.purchases = s₀.purchases)
    (e : RefundStep) : (refundStep lookups s t e).2.event = t.event ∧
      (refundStep lookups s t e).2.Sound lookups s₀ := by
  rcases t with ⟨event, stage⟩
  cases stage with
  | received =>
    cases e with
    | lookUp now amountUsd =>
      unfold Stripe.refundStep
      cases hpurchase : lookups.purchase event.charge with
      | none => exact ⟨rfl, hpurchase⟩
      | some purchase =>
        exact ⟨rfl, ⟨purchase, now, amountUsd, hpurchase, rfl⟩, fun _ => Or.inl rfl, nofun⟩
    | _ => exact ⟨rfl, trivial⟩
  | recording call =>
    cases e with
    | record fault =>
      have hfound : Found lookups s₀ event call := h
      exact ⟨rfl, hfound.createRevenueEvent hsame⟩
    | _ => exact ⟨rfl, h⟩
  | ignored => cases e <;> exact ⟨rfl, h⟩
  | lost => cases e <;> exact ⟨rfl, trivial⟩

theorem ofEvent_of_emitted (h : t.Sound lookups s₀) {call : Call M} {row : RevenueEvent}
    {message : OutboxRow M} (hcall : t.call = some call) (hdrafted : call.Drafted)
    (hstage : call.stage = .emitted row message) : OfEvent lookups s₀ t.event row := by
  rcases t with ⟨event, stage⟩
  cases stage with
  | recording call' =>
    obtain rfl := Option.some.inj hcall
    have hfound : Found lookups s₀ event call' := h
    obtain ⟨purchase, now, amountUsd, hpurchase, hinput⟩ := hfound.input
    have hrow : row = revenueRow call'.input row.id := by
      simpa only [Call.Drafted, hstage] using hdrafted
    have hunshared : s₀.familyShared purchase.id = false := by
      rw [← Bool.not_eq_true]
      intro hshared
      have hquiet : call'.Quiet := by
        apply hfound.quiet
        rw [hinput]
        exact hshared
      rcases hquiet with hother | hother | hother <;> cases hstage.symm.trans hother
    rw [hinput] at hrow
    exact ⟨⟨purchase, hpurchase, hunshared⟩, purchase, now, amountUsd, hrow⟩
  | _ => cases hcall

end Step

section Run
variable [DecidableEq ι] {w : World ι (RevenueDb M) (RefundDelivery M)}
  {evs : List (Event ι RefundStep (ℤ × ℤ))} {s₀ : RevenueDb M} {events : ι → ChargeRefunded}

structure Underway (lookups : RefundLookups M) (s₀ : RevenueDb M) (events : ι → ChargeRefunded)
    (w : World ι (RevenueDb M) (RefundDelivery M)) : Prop where
  carried : (carried id RefundDelivery.call).Holds w
  purchases : w.shared.purchases = s₀.purchases
  recorded : ∀ row ∈ w.shared.recorded, row ∈ s₀.recorded ∨ ∃ i, OfEvent lookups s₀ (events i) row
  event : ∀ i, (w.task i).event = events i
  sound : ∀ i, (w.task i).Sound lookups s₀

theorem Underway.next (h : Underway lookups s₀ events w) (e : Event ι RefundStep (ℤ × ℤ)) :
    Underway lookups s₀ events ((refundDeliveries lookups).next w e) where
  carried := carried_next carries_refundDeliveries h.carried e
  purchases := by
    rcases e with ⟨i, e⟩ | range
    · have hcarries : Carries (refundDeliveries lookups) id RefundDelivery.call :=
        carries_refundDeliveries
      exact (hcarries.step w.shared (w.task i) e).purchases.trans h.purchases
    · exact h.purchases
  recorded := by
    intro row hrow
    rcases mem_recorded_next carries_refundDeliveries hrow with hrow | ⟨i, call, message, hcall, hstage⟩
    · exact h.recorded row hrow
    · have hdrafted := (h.carried.assert i call hcall).2
      have hof := ofEvent_of_emitted (h.sound i) hcall hdrafted hstage
      rw [h.event i] at hof
      exact Or.inr ⟨i, hof⟩
  event := by
    intro j
    rcases e with ⟨i, e⟩ | range
    · have hstep := (h.sound i).refundStep h.purchases e
      show (Function.update w.task i _ j).event = _
      by_cases hj : j = i
      · subst hj
        rw [Function.update_self]
        exact hstep.1.trans (h.event j)
      · rw [Function.update_of_ne hj]
        exact h.event j
    · exact h.event j
  sound := by
    intro j
    rcases e with ⟨i, e⟩ | range
    · have hstep := (h.sound i).refundStep h.purchases e
      show (Function.update w.task i _ j).Sound lookups s₀
      by_cases hj : j = i
      · subst hj
        rw [Function.update_self]
        exact hstep.2
      · rw [Function.update_of_ne hj]
        exact h.sound j
    · exact h.sound j

theorem Underway.runAll (h : Underway lookups s₀ events w) :
    Underway lookups s₀ events ((refundDeliveries lookups).runAll w evs) := by
  have hstep : ∀ v e, Underway lookups s₀ events v →
      Underway lookups s₀ events ((refundDeliveries lookups).next v e) := fun _ e hv => hv.next e
  exact System.visited_invariant hstep h _ System.last_mem_visited

end Run

namespace RefundHistory
variable (h : RefundHistory) (k : Fin h.refunds.length)

theorem upTo_eq : h.upTo k = (h.refunds.map Refund.amount).take k ++ [(h.refunds.get k).amount] := by
  have hlength : k.val < (h.refunds.map Refund.amount).length := by
    rw [List.length_map]
    exact k.isLt
  unfold upTo
  rw [List.take_succ_eq_append_getElem hlength, List.getElem_map]
  rfl

theorem refunded_charge : (h.charge k).refunded =
    if (h.refunds.get k).listed then (h.refunds.get k).amount else (h.upTo k).sum := by
  unfold RefundedCharge.refunded charge
  split_ifs with hlisted
  · have hhead : (h.upTo k).reverse.head? = some (h.refunds.get k).amount := by
      rw [h.upTo_eq, List.reverse_append]
      rfl
    show ((h.upTo k).reverse.head?.or _).getD 0 = _
    rw [hhead]
    rfl
  · rfl

theorem sum_take_eq_zero_iff : ((h.refunds.map Refund.amount).take k).sum = 0 ↔ k.val = 0 := by
  constructor
  · intro hzero
    by_contra hne
    have hpos : 0 < h.refunds.length := (Nat.zero_le _).trans_lt k.isLt
    have hfirst : h.refunds[0].amount ∈ (h.refunds.map Refund.amount).take k := by
      apply List.mem_take_iff_getElem.mpr
      refine ⟨0, ?_, List.getElem_map _⟩
      rw [List.length_map]
      omega
    have hamount := List.sum_eq_zero_iff.mp hzero _ hfirst
    exact (h.positive _ (List.getElem_mem hpos)).ne' hamount
  · intro hk
    rw [hk]
    rfl

theorem refunded_charge_spec : (h.refunds.get k).amount ≤ (h.charge k).refunded ∧
    ((h.charge k).refunded = (h.refunds.get k).amount ↔ (h.refunds.get k).listed = true ∨ k.val = 0) := by
  rw [h.refunded_charge, ← h.sum_take_eq_zero_iff]
  split_ifs with hlisted
  · exact ⟨le_rfl, iff_of_true rfl (Or.inl hlisted)⟩
  · rw [or_iff_right hlisted, h.upTo_eq, List.sum_append, List.sum_singleton]
    omega

theorem total_eq : h.total = ∑ k : Fin h.refunds.length, (h.refunds.get k).amount :=
  (Fin.sum_univ_fun_getElem h.refunds Refund.amount).symm

end RefundHistory

theorem refundKey_injective : Function.Injective refundKey := by
  intro a b h
  have hlist : a.toList = b.toList := by
    simpa [refundKey, String.toList_append] using congrArg String.toList h
  exact String.toList_inj.mp hlist

theorem refundKey_ne_empty (eventId : String) : refundKey eventId ≠ "" := by
  intro h
  have hlist := congrArg String.toList h
  simp [refundKey, String.toList_append] at hlist

theorem dedupeKeyOf_refundKey (projectId eventId : String) :
    dedupeKeyOf projectId (some (refundKey eventId)) = some (projectId, refundKey eventId) := by
  simp [dedupeKeyOf, Option.filter, refundKey_ne_empty]

section Sums
variable {h : RefundHistory} {which : ι → Fin h.refunds.length}
  {v : World ι (RevenueDb M) (RefundDelivery M)} {s₀ : RevenueDb M}

def rowsOf (lookups : RefundLookups M) (h : RefundHistory) (s : RevenueDb M)
    (k : Fin h.refunds.length) : List RevenueEvent :=
  s.rowsFor (lookups.projectId, refundKey (h.refunds.get k).eventId)

theorem underway_start (hs : s₀.Ledgered) :
    Underway lookups s₀ (fun i => h.event (which i)) (h.start s₀ which) where
  carried := by
    refine ⟨hs, fun i call hcall => ?_, fun i j _ id hid => ?_⟩
    · cases hcall
    · cases hid
  purchases := rfl
  recorded := fun _ => Or.inl
  event := fun _ => rfl
  sound := fun _ => trivial

theorem ofEvent_of_mem (hv : Underway lookups s₀ (fun i => h.event (which i)) v)
    {k : Fin h.refunds.length} (hnew : rowsOf lookups h s₀ k = []) {row : RevenueEvent}
    (hrow : row ∈ rowsOf lookups h v.shared k) : OfEvent lookups s₀ (h.event k) row := by
  obtain ⟨hrecorded, hkey⟩ := List.mem_filter.mp hrow
  have hkey := of_decide_eq_true hkey
  rcases hv.recorded row hrecorded with hold | ⟨i, hof⟩
  · have hmem : row ∈ rowsOf lookups h s₀ k := List.mem_filter.mpr ⟨hold, decide_eq_true hkey⟩
    rw [hnew] at hmem
    cases hmem
  · obtain ⟨-, purchase, now, amountUsd, hinput⟩ := id hof
    have hown : row.key = some (lookups.projectId, refundKey (h.refunds.get (which i)).eventId) := by
      rw [hinput]
      exact dedupeKeyOf_refundKey _ _
    have hid : (h.refunds.get (which i)).eventId = (h.refunds.get k).eventId :=
      refundKey_injective (congrArg Prod.snd (Option.some.inj (hown.symm.trans hkey)))
    have hrefund : h.refunds.get (which i) = h.refunds.get k := List.inj_on_of_nodup_map h.distinct
      (List.getElem_mem (which i).isLt) (List.getElem_mem k.isLt) hid
    have hsame : which i = k := (h.distinct.of_map _).get_inj_iff.mp hrefund
    rw [← hsame]
    exact hof

theorem rowsOf_eq_nil (hv : Underway lookups s₀ (fun i => h.event (which i)) v)
    {k : Fin h.refunds.length} (hnew : rowsOf lookups h s₀ k = [])
    (hnot : ¬Recordable lookups s₀ (h.charge k)) : rowsOf lookups h v.shared k = [] := by
  rw [List.eq_nil_iff_forall_not_mem]
  intro row hrow
  exact hnot (ofEvent_of_mem hv hnew hrow).1

theorem rowsOf_of_done (hv : Underway lookups s₀ (fun i => h.event (which i)) v) {i : ι}
    (hdone : (v.task i).Done) (hrecordable : Recordable lookups s₀ (h.charge (which i))) :
    ∃ row, rowsOf lookups h v.shared (which i) = [row] := by
  obtain ⟨purchase, hpurchase, hunshared⟩ := hrecordable
  have hevent := hv.event i
  have hsound := hv.sound i
  have hcalls := hv.carried.assert i
  rcases hdelivery : v.task i with ⟨event, stage⟩
  rw [hdelivery] at hdone hevent hsound hcalls
  have hevent : event = h.event (which i) := hevent
  subst hevent
  cases stage with
  | received => cases hdone
  | lost => cases hdone
  | ignored =>
    have hnone : lookups.purchase (h.charge (which i)) = none := hsound
    cases hnone.symm.trans hpurchase
  | recording call =>
    have hfound : Found lookups s₀ (h.event (which i)) call := hsound
    obtain ⟨purchase', now, amountUsd, hpurchase', hinput⟩ := hfound.input
    obtain rfl : purchase = purchase' := Option.some.inj (hpurchase.symm.trans hpurchase')
    obtain ⟨answer, hanswer⟩ : ∃ row, call.stage = .returned row := hdone
    cases answer with
    | none =>
      have hshared := hfound.shared hanswer
      rw [hinput] at hshared
      cases hunshared.symm.trans hshared
    | some row =>
      have hcall := (hcalls call rfl).1
      simp only [Call.Sound, hanswer] at hcall
      refine ⟨row, hcall _ ?_⟩
      rw [hinput]
      exact dedupeKeyOf_refundKey _ _

def amountOf (rows : List RevenueEvent) : ℚ :=
  ((rows.filter fun row => row.type = .refund).map fun row => pointValue row.amount.toList).sum

theorem amountOf_row {event : ChargeRefunded} {row : RevenueEvent}
    (hrow : OfEvent lookups s₀ event row) : amountOf [row] = event.charge.refunded / 100 := by
  obtain ⟨-, purchase, now, amountUsd, hinput⟩ := hrow
  have htype : row.type = .refund := by
    rw [hinput]
    rfl
  have hamount : row.amount = String.ofList (hundredthsText event.charge.refunded) := by
    rw [hinput]
    rfl
  unfold amountOf
  rw [List.filter_singleton, htype]
  show pointValue row.amount.toList + 0 = _
  rw [hamount, String.toList_ofList, pointValue_hundredthsText, add_zero]

theorem recordedAmount_eq (s : RevenueDb M) : h.recordedAmount lookups.projectId s =
    ∑ k : Fin h.refunds.length, amountOf (rowsOf lookups h s k) :=
  (Fin.sum_univ_fun_getElem h.refunds fun r =>
    amountOf (s.rowsFor (lookups.projectId, refundKey r.eventId))).symm

theorem recordable_charge_iff (j k : Fin h.refunds.length) :
    Recordable lookups s₀ (h.charge j) ↔ Recordable lookups s₀ (h.charge k) := Iff.rfl

theorem sum_refunded_eq_total_iff : (∑ k : Fin h.refunds.length, ((h.charge k).refunded : ℚ) / 100) =
    h.total / 100 ↔ ∀ k : Fin h.refunds.length, (h.refunds.get k).listed = true ∨ k.val = 0 := by
  have hsum : (∑ k : Fin h.refunds.length, ((h.charge k).refunded : ℚ) / 100) = h.total / 100 ↔
      ∑ k : Fin h.refunds.length, (h.refunds.get k).amount =
        ∑ k : Fin h.refunds.length, (h.charge k).refunded := by
    rw [← Finset.sum_div, div_left_inj' (by norm_num), ← Nat.cast_sum, Nat.cast_inj, h.total_eq,
      eq_comm]
  rw [hsum, Finset.sum_eq_sum_iff_of_le fun k _ => (h.refunded_charge_spec k).1]
  constructor
  · intro hall k
    exact (h.refunded_charge_spec k).2.mp (hall k (Finset.mem_univ k)).symm
  · intro hall k _
    exact ((h.refunded_charge_spec k).2.mpr (hall k)).symm

/-- Whatever the order of the deliveries and however often each event is delivered: once every
event is dealt with, the refunds add up just when the purchase is one that revenue is recorded of
and only the first refund's event may come without the refunds. -/
theorem addsUp_iff [DecidableEq ι] (lookups : RefundLookups M) (h : RefundHistory)
    (which : ι → Fin h.refunds.length) (s₀ : RevenueDb M) (hs : s₀.Ledgered)
    (hnew : ∀ r ∈ h.refunds, s₀.rowsFor (lookups.projectId, refundKey r.eventId) = [])
    (evs : List (Event ι RefundStep (ℤ × ℤ)))
    (hdone : ∀ k, ∃ i, which i = k ∧
      (((refundDeliveries lookups).runAll (h.start s₀ which) evs).task i).Done) :
    h.AddsUp lookups.projectId ((refundDeliveries lookups).runAll (h.start s₀ which) evs).shared ↔
      ∀ k : Fin h.refunds.length, Recordable lookups s₀ (h.charge k) ∧
        ((h.refunds.get k).listed = true ∨ k.val = 0) := by
  have hstart : Underway lookups s₀ (fun i => h.event (which i)) (h.start s₀ which) :=
    underway_start hs
  have hv : Underway lookups s₀ (fun i => h.event (which i))
    ((refundDeliveries lookups).runAll (h.start s₀ which) evs) := hstart.runAll
  generalize (refundDeliveries lookups).runAll (h.start s₀ which) evs = v at hdone hv ⊢
  have hempty : ∀ k : Fin h.refunds.length, rowsOf lookups h s₀ k = [] := fun k =>
    hnew _ (List.getElem_mem k.isLt)
  unfold RefundHistory.AddsUp
  rw [recordedAmount_eq]
  by_cases hrecordable : ∀ k, Recordable lookups s₀ (h.charge k)
  · have hamount : ∀ k, amountOf (rowsOf lookups h v.shared k) =
        ((h.charge k).refunded : ℚ) / 100 := by
      intro k
      obtain ⟨i, rfl, hi⟩ := hdone k
      obtain ⟨row, hrow⟩ := rowsOf_of_done hv hi (hrecordable _)
      have hmem : row ∈ rowsOf lookups h v.shared (which i) := by
        rw [hrow]
        exact List.mem_singleton_self row
      rw [hrow]
      exact amountOf_row (ofEvent_of_mem hv (hempty _) hmem)
    rw [Finset.sum_congr rfl fun k _ => hamount k, sum_refunded_eq_total_iff]
    constructor
    · exact fun hall k => ⟨hrecordable k, hall k⟩
    · exact fun hall k => (hall k).2
  · -- nothing is recorded, though there is a refund
    obtain ⟨k, hk⟩ := not_forall.mp hrecordable
    have hnone : ∀ j, amountOf (rowsOf lookups h v.shared j) = 0 := by
      intro j
      rw [rowsOf_eq_nil hv (hempty j) fun hj => hk ((recordable_charge_iff j k).mp hj)]
      rfl
    have htotal : (0 : ℚ) < h.total := by
      rw [Nat.cast_pos, h.total_eq]
      apply Finset.sum_pos
      · exact fun j _ => h.positive _ (List.getElem_mem j.isLt)
      · exact ⟨k, Finset.mem_univ k⟩
    rw [Finset.sum_congr rfl fun j _ => hnone j, Finset.sum_const_zero]
    refine iff_of_false ?_ fun hall => hk (hall k).1
    intro hzero
    linarith

end Sums

def threeThenFour (listed : Bool) : RefundHistory where
  invoice := some "in_1"
  refunds := [⟨300, "evt_1", 1, listed⟩, ⟨400, "evt_2", 2, listed⟩]
  positive := by
    revert listed
    decide
  distinct := by
    revert listed
    decide

def monthlyLookups : RefundLookups Unit where
  projectId := "project"
  invoiceSubscription _ := some "sub_1"
  findPurchaseByStoreTransaction _ := some { id := "purchase", subscriberId := "s", productId := "p" }
  normalizeAlpha2Country _ := none

def deliveredEvent : Fin 3 → Fin 2 :=
  ![⟨1, Nat.one_lt_two⟩, ⟨0, Nat.two_pos⟩, ⟨0, Nat.two_pos⟩]

def deliverAll : List (Event (Fin 3) RefundStep (ℤ × ℤ)) :=
  (List.finRange 3).flatMap fun i =>
    Event.act i (.lookUp 5 "1") :: List.replicate 5 (.act i (.record false))

theorem cumulative_refunds_over_count :
    ¬(threeThenFour false).AddsUp "project" ((refundDeliveries monthlyLookups).runAll
      ((threeThenFour false).start {} deliveredEvent) deliverAll).shared := by
  have hten : (threeThenFour false).recordedAmount "project" ((refundDeliveries monthlyLookups).runAll
      ((threeThenFour false).start {} deliveredEvent) deliverAll).shared = 10 := by
    decide +kernel
  have hseven : (threeThenFour false).total = 700 := rfl
  unfold RefundHistory.AddsUp
  rw [hten, hseven]
  norm_num

theorem listed_refunds_add_up :
    (threeThenFour true).AddsUp "project" ((refundDeliveries monthlyLookups).runAll
      ((threeThenFour true).start {} deliveredEvent) deliverAll).shared := by
  apply (addsUp_iff monthlyLookups (threeThenFour true) deliveredEvent {} ?_ ?_ deliverAll ?_).mpr
  · intro k
    refine ⟨⟨_, rfl, rfl⟩, Or.inl ?_⟩
    revert k
    decide
  · constructor <;> simp [RevenueDb.rowsFor, RevenueDb.recorded]
  · intro r _
    rfl
  · intro k
    obtain rfl | rfl := Fin.exists_fin_two.mp ⟨k, rfl⟩
    · exact ⟨1, rfl, ⟨_, rfl⟩⟩
    · exact ⟨0, rfl, ⟨_, rfl⟩⟩

end Rovenue.Stripe
