import Rovenue.Google.OrderRevenue
import Rovenue.Revenue.CallRows

/-! One money-in row an order. The two paths agree on the dedupe key of a purchase; a recovery
or a restart has a key of its own. -/

namespace Rovenue.Google
open Threads
open Revenue
variable {ι M : Type} {projectId purchaseToken : String}

def moneyInTypes : List RevenueEventType := [.initial, .renewal, .trialConversion, .reactivation]

def moneyInFor (s : RevenueDb M) (orderId : String) : List RevenueEvent :=
  s.recorded.filter fun row =>
    row.type ∈ moneyInTypes ∧ row.dedupeKey = some (googleDedupeKey orderId row.type)

def OnePerOrder (w : OrderWorld ι M) : Prop :=
  ∀ orderId, (moneyInFor w.shared.revenue orderId).length ≤ 1

def OrderPath.moneyIn : OrderPath → Bool
  | .notification type _ => type ∈ [.purchased, .renewed, .recovered, .restarted]
  | .receipt _ => true

def OrderPath.reactivates : OrderPath → Bool
  | .notification type _ => type ∈ [.recovered, .restarted]
  | .receipt _ => false

/-- A delivery that commits its row meets, for its order, only rows of its own side: reports of
a reactivation, or reports of a purchase. -/
def SameSide (w : OrderWorld ι M) : Event ι (OrderEvent M) OrderEnv → Prop
  | .act i (.record false) =>
    match (w.task i).stage with
    | .recording name ⟨_, .emitted _ _⟩ =>
      (w.task i).path.moneyIn → ∀ row ∈ moneyInFor w.shared.revenue name,
        (row.type = .reactivation ↔ (w.task i).path.reactivates)
    | _ => True
  | _ => True

theorem googleDedupeKey_ne_empty (name : String) (type : RevenueEventType) :
    googleDedupeKey name type ≠ "" := by
  intro h
  have hlist := congrArg String.toList h
  simp [googleDedupeKey, String.toList_append] at hlist

theorem googleDedupeKey_injective (type : RevenueEventType) :
    Function.Injective fun name => googleDedupeKey name type := by
  intro a b h
  have hlist : a.toList = b.toList := by
    simpa [googleDedupeKey, String.toList_append] using congrArg String.toList h
  exact String.toList_inj.1 hlist

theorem dedupeKeyOf_googleDedupeKey (name : String) (type : RevenueEventType) :
    dedupeKeyOf projectId (some (googleDedupeKey name type)) =
      some (projectId, googleDedupeKey name type) := by
  simp [dedupeKeyOf, Option.filter, googleDedupeKey_ne_empty]

theorem revenueDedupeKind_moneyIn {a : RevenueEventType} (h : a ∈ moneyInTypes) :
    revenueDedupeKind a = if a = .reactivation then "reactivation" else "purchase" := by
  simp only [moneyInTypes, List.mem_cons, List.not_mem_nil, or_false] at h
  obtain rfl | rfl | rfl | rfl := h <;> rfl

theorem revenueDedupeKind_eq {a b : RevenueEventType} (ha : a ∈ moneyInTypes)
    (hb : b ∈ moneyInTypes) (h : a = .reactivation ↔ b = .reactivation) :
    revenueDedupeKind a = revenueDedupeKind b := by
  rw [revenueDedupeKind_moneyIn ha, revenueDedupeKind_moneyIn hb, if_congr h rfl rfl]

theorem mapRevenueEventType_side {notice : GoogleSubscriptionNotificationType}
    {subscriptionId : String} {type : RevenueEventType} (h : mapRevenueEventType notice = some type) :
    (type ∈ moneyInTypes ↔ (OrderPath.notification notice subscriptionId).moneyIn) ∧
      (type = .reactivation ↔ (OrderPath.notification notice subscriptionId).reactivates) := by
  cases notice <;> simp only [mapRevenueEventType, Option.some.injEq, reduceCtorEq] at h <;>
    subst h <;> simp [moneyInTypes, OrderPath.moneyIn, OrderPath.reactivates]

theorem receiptRevenueEventType_side (orderId : Option String) (productId : String) :
    (receiptRevenueEventType orderId ∈ moneyInTypes ↔ (OrderPath.receipt productId).moneyIn) ∧
      (receiptRevenueEventType orderId = .reactivation ↔
        (OrderPath.receipt productId).reactivates) := by
  rw [receiptRevenueEventType]
  split_ifs <;> simp [moneyInTypes, OrderPath.moneyIn, OrderPath.reactivates]

theorem revenueEventType_side {path : OrderPath} {applied : Bool} {answer : SubscriptionAnswer}
    {type : RevenueEventType} (h : path.revenueEventType applied answer = some type) :
    (type ∈ moneyInTypes ↔ path.moneyIn) ∧ (type = .reactivation ↔ path.reactivates) := by
  rcases path with ⟨notice, subscriptionId⟩ | productId
  · simp only [OrderPath.revenueEventType] at h
    split_ifs at h
    exact mapRevenueEventType_side h
  · simp only [OrderPath.revenueEventType] at h
    split_ifs at h
    obtain rfl := Option.some.inj h
    exact receiptRevenueEventType_side _ productId

structure Recording (projectId : String) (s : RevenueDb M) (path : OrderPath) (name : String)
    (call : Call M) : Prop where
  sound : call.Sound s
  drafted : call.Drafted
  project : call.input.projectId = projectId
  key : call.input.dedupeKey = some (googleDedupeKey name call.input.type)
  moneyIn : call.input.type ∈ moneyInTypes ↔ path.moneyIn
  reactivates : call.input.type = .reactivation ↔ path.reactivates

namespace Delivery

def Sound (projectId : String) (s : RevenueDb M) (t : Delivery M) : Prop :=
  match t.stage with
  | .recording name call => Recording projectId s t.path name call
  | _ => True

def drawn (t : Delivery M) : Option ℕ :=
  match t.stage with
  | .recording _ call => call.stage.drawn
  | _ => none

def commits (t : Delivery M) : OrderEvent M → List RevenueEvent
  | .record fault =>
    match t.stage with
    | .recording _ call => call.commits fault
    | _ => []
  | _ => []

end Delivery

section Step
variable {s : OrderState M} {t : Delivery M} {e : OrderEvent M}

structure Settles (projectId : String) (s : OrderState M) (t : Delivery M) (rows : List RevenueEvent)
    (s' : OrderState M) (t' : Delivery M) : Prop where
  path : t'.path = t.path
  ledgered : s'.revenue.Ledgered
  sound : t'.Sound projectId s'.revenue
  frame : s.revenue.Frame s'.revenue t.drawn
  drawn : ∀ id, t'.drawn = some id → t.drawn = some id ∨ s.revenue.nextId ≤ id
  recorded : s'.revenue.recorded = s.revenue.recorded ++ rows

theorem Settles.move {s' : OrderState M} {stage : OrderStage M} (hs : s.revenue.Ledgered)
    (hrevenue : s'.revenue = s.revenue) (hsound : (t.go stage).Sound projectId s.revenue)
    (hdrawn : (t.go stage).drawn = none) : Settles projectId s t [] s' (t.go stage) := by
  refine ⟨rfl, ?_, ?_, ?_, ?_, ?_⟩
  · rw [hrevenue]
    exact hs
  · rw [hrevenue]
    exact hsound
  · rw [hrevenue]
    exact .refl _ _
  · intro id hid
    cases hdrawn.symm.trans hid
  · rw [hrevenue, List.append_nil]

theorem Settles.stay (hs : s.revenue.Ledgered) (ht : t.Sound projectId s.revenue) :
    Settles projectId s t [] s t :=
  ⟨rfl, hs, ht, .refl _ _, fun _ => .inl, (List.append_nil _).symm⟩

theorem settles_orderStep (hs : s.revenue.Ledgered) (ht : t.Sound projectId s.revenue)
    (purchaseToken : String) (e : OrderEvent M) :
    Settles projectId s t (t.commits e) (orderStep projectId purchaseToken s t e).1
      (orderStep projectId purchaseToken s t e).2 := by
  rcases t with ⟨path, stage⟩
  cases stage with
  | waiting =>
    cases e with
    | fetch answer =>
      simp only [orderStep]
      split
      · exact .move hs rfl trivial rfl
      · exact .move hs rfl trivial rfl
    | abandon => exact .move hs rfl trivial rfl
    | _ => exact .stay hs ht
  | fetched answer =>
    cases e with
    | openTx found eventTime =>
      simp only [orderStep]
      split
      · exact .move hs rfl trivial rfl
      · split_ifs
        · exact .stay hs ht
        · exact .move hs rfl trivial rfl
    | abandon => exact .move hs rfl trivial rfl
    | _ => exact .stay hs ht
  | opened answer found w seen =>
    cases e with
    | save startedAt insertedAt updatedAt id =>
      simp only [orderStep]
      split_ifs
      · exact .move hs rfl trivial rfl
      · exact .stay hs ht
    | abandon => exact .move hs rfl trivial rfl
    | _ => exact .stay hs ht
  | saved answer found purchaseId applied =>
    cases e with
    | price facts =>
      simp only [orderStep]
      split
      · rename_i type facts htype
        obtain ⟨hmoneyIn, hreactivates⟩ := revenueEventType_side htype
        exact .move hs rfl ⟨trivial, trivial, rfl, rfl, hmoneyIn, hreactivates⟩ rfl
      · exact .move hs rfl trivial rfl
    | abandon => exact .move hs rfl trivial rfl
    | _ => exact .stay hs ht
  | recording name call =>
    cases e with
    | record fault =>
      have hcall : Recording projectId s.revenue path name call := ht
      have howes := owes_createRevenueEvent hs hcall.sound fault
      have hinput : (createRevenueEvent s.revenue call fault).2.input = call.input :=
        createRevenueEvent_input
      refine ⟨rfl, howes.ledgered, ⟨howes.sound, hcall.drafted.createRevenueEvent, ?_, ?_, ?_, ?_⟩,
        howes.frame, howes.drawn, recorded_createRevenueEvent⟩
      · rw [hinput]
        exact hcall.project
      · rw [hinput]
        exact hcall.key
      · rw [hinput]
        exact hcall.moneyIn
      · rw [hinput]
        exact hcall.reactivates
    | _ => exact .stay hs ht
  | finished => cases e <;> exact .stay hs ht
  | refused msg => cases e <;> exact .stay hs ht
  | lost => cases e <;> exact .stay hs ht

theorem Delivery.Sound.frame {d d' : RevenueDb M} {mine : Option ℕ} (h : t.Sound projectId d)
    (hframe : d.Frame d' mine) (hmine : ∀ id, t.drawn = some id → mine ≠ some id) :
    t.Sound projectId d' := by
  rcases t with ⟨path, stage⟩
  cases stage with
  | recording name call =>
    have hcall : Recording projectId d path name call := h
    exact ⟨hcall.sound.frame hframe hmine, hcall.drafted, hcall.project, hcall.key, hcall.moneyIn,
      hcall.reactivates⟩
  | _ => trivial

theorem Delivery.Sound.unused {d : RevenueDb M} (h : t.Sound projectId d) {id : ℕ}
    (hid : t.drawn = some id) : d.Unused id := by
  rcases t with ⟨path, stage⟩
  cases stage with
  | recording name call =>
    have hcall : Recording projectId d path name call := h
    exact hcall.sound.unused hid
  | _ => cases hid

/-- A row about to be committed for the order `name`. -/
structure Commits (projectId : String) (s : RevenueDb M) (t : Delivery M) (e : OrderEvent M)
    (name : String) (row : RevenueEvent) : Prop where
  record : e = .record false
  stage : ∃ input message, t.stage = .recording name ⟨input, .emitted row message⟩
  project : row.projectId = projectId
  key : row.dedupeKey = some (googleDedupeKey name row.type)
  moneyIn : row.type ∈ moneyInTypes ↔ t.path.moneyIn
  reactivates : row.type = .reactivation ↔ t.path.reactivates
  free : s.rowsFor (projectId, googleDedupeKey name row.type) = []

theorem Delivery.Sound.commits_cases {d : RevenueDb M} (h : t.Sound projectId d) (hd : d.Ledgered)
    (e : OrderEvent M) :
    t.commits e = [] ∨ ∃ name row, t.commits e = [row] ∧ Commits projectId d t e name row := by
  rcases hrows : t.commits e with _ | ⟨row, rows⟩
  · exact .inl rfl
  rcases t with ⟨path, stage⟩
  cases e with
  | record fault =>
    cases stage with
    | recording name call =>
      have hcall : Recording projectId d path name call := h
      have hmem : row ∈ call.commits fault := by
        have hrows' : call.commits fault = row :: rows := hrows
        simp [hrows']
      obtain ⟨rfl, message, hstage⟩ := mem_commits hmem
      have hrow : row = revenueRow call.input row.id := by
        simpa only [Call.Drafted, hstage] using hcall.drafted
      have htype : row.type = call.input.type := by rw [hrow]; rfl
      have hproject : row.projectId = projectId := by rw [hrow]; exact hcall.project
      have hkey : row.dedupeKey = some (googleDedupeKey name row.type) := by
        rw [htype, hrow]
        exact hcall.key
      have hcalled : call.input.key = some (projectId, googleDedupeKey name row.type) := by
        rw [CreateRevenueEventInput.key, hcall.project, hcall.key, htype,
          dedupeKeyOf_googleDedupeKey]
      refine .inr ⟨name, row, ?_, rfl, ⟨call.input, message, ?_⟩, hproject, hkey, ?_, ?_, ?_⟩
      · have hnil : rows = [] := by simpa [commits, Call.commits, hstage] using hrows
        rw [hnil]
      · rw [← hstage]
      · rw [htype]
        exact hcall.moneyIn
      · rw [htype]
        exact hcall.reactivates
      · have hclaim : d.claims (projectId, googleDedupeKey name row.type) = some row.id := by
          rw [hcall.sound.claim (by rw [hstage]; rfl) hcalled, hstage]
          rfl
        have hmap := hd.rows (projectId, googleDedupeKey name row.type)
        rw [hd.claimed _ _ hclaim] at hmap
        exact List.map_eq_nil_iff.1 hmap
    | _ => cases hrows
  | _ => cases hrows

end Step

section Run
variable [DecidableEq ι] {w : OrderWorld ι M} {evs : List (Event ι (OrderEvent M) OrderEnv)}

def orders (projectId : String) : Annotation (OrderState M) (Delivery M) where
  inv s := s.revenue.Ledgered ∧ ∀ row ∈ s.revenue.recorded, row.projectId = projectId
  assert s t := t.Sound projectId s.revenue
  apart t t' := ∀ id, t.drawn = some id → t'.drawn ≠ some id

theorem orders_next (h : (orders projectId).Holds w) (e : Event ι (OrderEvent M) OrderEnv) :
    (orders projectId).Holds ((orderSystem M projectId purchaseToken).next w e) := by
  rcases e with ⟨i, e⟩ | d
  · have hstep := settles_orderStep h.inv.1 (h.assert i) purchaseToken e
    have hapart : ∀ j ≠ i, ∀ id, (w.task j).drawn = some id →
        (orderStep projectId purchaseToken w.shared (w.task i) e).2.drawn ≠ some id := by
      intro j hj id hid hmine
      rcases hstep.drawn id hmine with hbefore | hnew
      · exact h.apart j i hj id hid hbefore
      · exact absurd ((h.assert j).unused hid).1 (not_lt.2 hnew)
    have hproject : ∀ row ∈ w.shared.revenue.recorded ++ (w.task i).commits e,
        row.projectId = projectId := by
      intro row hrow
      rcases List.mem_append.1 hrow with hrow | hrow
      · exact h.inv.2 row hrow
      · obtain hnil | ⟨name, other, hone, hcommits⟩ := (h.assert i).commits_cases h.inv.1 e
        · rw [hnil] at hrow
          cases hrow
        · rw [hone] at hrow
          obtain rfl := List.mem_singleton.1 hrow
          exact hcommits.project
    refine h.update ⟨hstep.ledgered, ?_⟩ hstep.sound (fun j hj => ?_) fun j hj => ⟨?_, hapart j hj⟩
    · have hrecorded : (orderStep projectId purchaseToken w.shared (w.task i) e).1.revenue.recorded =
          w.shared.revenue.recorded ++ (w.task i).commits e := hstep.recorded
      show ∀ row ∈ (orderStep projectId purchaseToken w.shared (w.task i) e).1.revenue.recorded,
        row.projectId = projectId
      rw [hrecorded]
      exact hproject
    · exact (h.assert j).frame hstep.frame (h.apart j i hj)
    · exact fun id hmine hid => hapart j hj id hid hmine
  · rcases d with row | d
    · have hsame : (orderEnv w.shared (.rewrite row)).revenue = w.shared.revenue := by
        simp only [orderEnv]
        split_ifs <;> rfl
      refine ⟨?_, fun i => ?_, h.apart⟩
      · simp only [System.next, orderSystem, orders, hsame]
        exact h.inv
      · simp only [System.next, orderSystem, orders, hsame]
        exact h.assert i
    · have hframe : w.shared.revenue.Frame (w.shared.revenue.outside d) none := .outside _ d
      refine ⟨⟨h.inv.1.outside d, ?_⟩, fun i => ?_, h.apart⟩
      · show ∀ row ∈ (w.shared.revenue.outside d).recorded, row.projectId = projectId
        rw [RevenueDb.recorded_outside]
        exact h.inv.2
      · exact (h.assert i).frame hframe fun id _ hid => by cases hid

omit [DecidableEq ι] in
theorem sameSide_of_commits_nil {i : ι} {e : OrderEvent M} (h : (w.task i).commits e = []) :
    SameSide w (.act i e) := by
  rcases e with _ | _ | _ | _ | fault | _
  case record =>
    rcases fault with _ | _
    · simp only [SameSide]
      split
      · rename_i name input row message hstage
        simp [Delivery.commits, hstage, Call.commits] at h
      · trivial
    · trivial
  all_goals trivial

theorem moneyInFor_append {s s' : RevenueDb M} {row : RevenueEvent}
    (h : s'.recorded = s.recorded ++ [row]) (orderId : String) :
    moneyInFor s' orderId = moneyInFor s orderId ++ if row.type ∈ moneyInTypes ∧
      row.dedupeKey = some (googleDedupeKey orderId row.type) then [row] else [] := by
  rw [moneyInFor, h, List.filter_append, List.filter_singleton, Bool.cond_decide]
  rfl

theorem onePerOrder_next_iff (h : (orders projectId).Holds w) (hw : OnePerOrder w)
    (e : Event ι (OrderEvent M) OrderEnv) :
    OnePerOrder ((orderSystem M projectId purchaseToken).next w e) ↔ SameSide w e := by
  rcases e with ⟨i, e⟩ | d
  · have hrecorded : (orderStep projectId purchaseToken w.shared (w.task i) e).1.revenue.recorded =
        w.shared.revenue.recorded ++ (w.task i).commits e :=
      (settles_orderStep h.inv.1 (h.assert i) purchaseToken e).recorded
    show (∀ orderId, (moneyInFor (orderStep projectId purchaseToken w.shared (w.task i) e).1.revenue
      orderId).length ≤ 1) ↔ _
    obtain hnil | ⟨name, row, hone, hcommits⟩ := (h.assert i).commits_cases h.inv.1 e
    · rw [hnil, List.append_nil] at hrecorded
      simp only [moneyInFor, hrecorded]
      exact iff_of_true hw (sameSide_of_commits_nil hnil)
    rw [hone] at hrecorded
    obtain ⟨rfl, ⟨input, message, hstage⟩, -, hkey, hmoneyIn, hreactivates, hfree⟩ := hcommits
    have hside : SameSide w (.act i (.record false)) ↔ ((w.task i).path.moneyIn →
        ∀ other ∈ moneyInFor w.shared.revenue name,
          (other.type = .reactivation ↔ (w.task i).path.reactivates)) := by
      simp only [SameSide, hstage]
    rw [hside]
    constructor
    · -- one row in all, and that is the new one
      intro hall hpath other hother
      have hlength := hall name
      rw [moneyInFor_append hrecorded, if_pos ⟨hmoneyIn.2 hpath, hkey⟩, List.length_append,
        List.length_singleton] at hlength
      have hnone : moneyInFor w.shared.revenue name = [] := List.length_eq_zero_iff.1 (by omega)
      rw [hnone] at hother
      cases hother
    · intro hsides orderId
      rw [moneyInFor_append hrecorded]
      split_ifs with hnew
      swap
      · rw [List.append_nil]
        exact hw orderId
      have hname : orderId = name :=
        googleDedupeKey_injective row.type (Option.some.inj (hnew.2.symm.trans hkey))
      have hnone : moneyInFor w.shared.revenue name = [] := by
        rw [List.eq_nil_iff_forall_not_mem]
        intro other hother
        have hother' := List.mem_filter.1 hother
        obtain ⟨hotherIn, hotherKey⟩ := of_decide_eq_true hother'.2
        have hkind : revenueDedupeKind other.type = revenueDedupeKind row.type := by
          refine revenueDedupeKind_eq hotherIn hnew.1 ?_
          rw [hreactivates]
          exact hsides (hmoneyIn.1 hnew.1) other hother
        -- one kind and one order: the key the new row has claimed
        have hmem : other ∈ w.shared.revenue.rowsFor (projectId, googleDedupeKey name row.type) := by
          refine List.mem_filter.2 ⟨hother'.1, decide_eq_true ?_⟩
          rw [RevenueEvent.key, h.inv.2 other hother'.1, hotherKey, dedupeKeyOf_googleDedupeKey,
            googleDedupeKey, googleDedupeKey, hkind]
        rw [hfree] at hmem
        cases hmem
      rw [hname, hnone]
      rfl
  · have hrecorded : (orderEnv w.shared d).revenue.recorded = w.shared.revenue.recorded := by
      rcases d with row | d
      · simp only [orderEnv]
        split_ifs <;> rfl
      · exact RevenueDb.recorded_outside _ d
    show (∀ orderId, (moneyInFor (orderEnv w.shared d).revenue orderId).length ≤ 1) ↔ _
    simp only [moneyInFor, hrecorded]
    exact iff_of_true hw trivial

/-- Whichever notifications and verifications arrive, in whatever order: an order has one
money-in row just when no delivery records it from the other side. -/
theorem onePerOrder_iff_sameSide (row : Option Purchase)
    (purchases : Txn.Table String (Option String)) (path : ι → OrderPath) :
    (∀ v ∈ (orderSystem M projectId purchaseToken).visited (orderStart row purchases path) evs,
        OnePerOrder v) ↔
      ∀ x ∈ (orderSystem M projectId purchaseToken).transitions (orderStart row purchases path) evs,
        SameSide x.1 x.2 := by
  have hstart : (orders projectId).Holds (orderStart row purchases path : OrderWorld ι M) := by
    refine ⟨⟨?_, ?_⟩, fun _ => trivial, fun i j _ id hid => ?_⟩
    · constructor <;> simp [orderStart, RevenueDb.rowsFor, RevenueDb.recorded]
    · simp [orderStart, RevenueDb.recorded]
    · cases hid
  have hone : OnePerOrder (orderStart row purchases path : OrderWorld ι M) :=
    fun _ => Nat.zero_le 1
  have hnext : ∀ (v : OrderWorld ι M) e, (orders projectId).Holds v →
      (orders projectId).Holds ((orderSystem M projectId purchaseToken).next v e) :=
    fun v e hv => orders_next hv e
  exact System.visited_iff hnext (fun v e hv hw => onePerOrder_next_iff hv hw e) hstart hone

end Run

def recoveredAnswer : SubscriptionAnswer where
  lineItems := [{ productId := "pro_monthly", latestSuccessfulOrderId := some "GPA.1234..3" }]
  subscriptionState := .active

def recoveredLookups : OrderLookups where
  subscriberId := "subscriber"
  productId := "product"
  readAt := 10

def monthlyPrice : RevenueFacts Unit where
  amount := "9.99"
  currency := "USD"
  amountUsd := "9.99"
  eventDate := 10

def heldPurchase : Purchase where
  id := "purchase"
  projectId := "project"
  subscriberId := "subscriber"
  productId := "product"
  originalTransactionId := "token"
  status := .billingIssue

def recordedBy (i : Bool) : List (Event Bool (OrderEvent Unit) OrderEnv) :=
  [.act i (.fetch recoveredAnswer), .act i (.openTx recoveredLookups 10),
    .act i (.save 10 10 10 "purchase"), .act i (.price (some monthlyPrice))] ++
    List.replicate 5 (.act i (.record false))

def recoveryPaths : Bool → OrderPath
  | false => .notification .recovered "pro_monthly"
  | true => .receipt "pro_monthly"

theorem recovery_recorded_twice :
    ¬∀ v ∈ (orderSystem Unit "project" "token").visited (orderStart heldPurchase .empty recoveryPaths)
        (recordedBy false ++ recordedBy true), OnePerOrder v := by
  intro hall
  have htwo : (moneyInFor ((orderSystem Unit "project" "token").runAll
      (orderStart heldPurchase .empty recoveryPaths)
      (recordedBy false ++ recordedBy true)).shared.revenue "GPA.1234..3").length = 2 := by
    decide
  have hone := hall _ System.last_mem_visited "GPA.1234..3"
  omega

end Rovenue.Google
