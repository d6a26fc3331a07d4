import Rovenue.Webhooks.OutgoingWebhooks
import Rovenue.Txn.InsertUnless

/-! How many outgoing rows an inbound event gets, over any sequence of events and
retries. A purchase event is told apart by its purchase and type alone. -/

namespace Rovenue.Webhooks
open Txn Prog

def rowsFor (webhookEventId : String) (s : OutgoingDb) : List OutgoingWebhook :=
  s.outgoingWebhooks.filter fun r => r.payload.webhookEventId = some webhookEventId

def EnqueueOutgoingWebhookArgs.SameEvent (a b : EnqueueOutgoingWebhookArgs) : Prop :=
  a.subscriberId = b.subscriberId ∧ a.eventType = b.eventType ∧ a.purchaseId = b.purchaseId

/-- No row that was there, and no other event, has the event's subscriber, type and purchase. -/
def OnlyOfItsKind (rows : List OutgoingWebhook) (events : List EnqueueOutgoingWebhookArgs)
    (e : EnqueueOutgoingWebhookArgs) : Prop :=
  ∀ purchaseId, truthy e.purchaseId = some purchaseId →
    (∀ r ∈ rows, ¬(r.projectId = e.projectId ∧ r.subscriberId = e.subscriberId ∧
      r.eventType = e.eventType ∧ r.purchaseId = some purchaseId)) ∧
    ∀ e' ∈ events, e'.subscriberId = e.subscriberId → e'.eventType = e.eventType →
      e'.purchaseId = some purchaseId → e'.webhookEventId = e.webhookEventId

theorem truthy_eq_some {o : Option String} {p : String} :
    truthy o = some p ↔ o = some p ∧ p ≠ "" := by
  simp [truthy, Option.filter_eq_some_iff]

def outgoingCovers (r c : OutgoingWebhook) : Bool :=
  r.projectId = c.projectId && r.subscriberId = c.subscriberId && r.eventType = c.eventType &&
    match truthy c.purchaseId with
    | some purchaseId => decide (r.purchaseId = some purchaseId)
    | none => decide (r.payload.webhookEventId = c.payload.webhookEventId)

theorem outgoingCovers_iff {r c : OutgoingWebhook} : outgoingCovers r c = true ↔
    r.projectId = c.projectId ∧ r.subscriberId = c.subscriberId ∧ r.eventType = c.eventType ∧
      match truthy c.purchaseId with
      | some purchaseId => r.purchaseId = some purchaseId
      | none => r.payload.webhookEventId = c.payload.webhookEventId := by
  rw [outgoingCovers]
  cases truthy c.purchaseId <;> simp [and_assoc]

theorem findExistingOutgoing_isSome (args : EnqueueOutgoingWebhookArgs) (url id : String)
    (time createdAt : ℤ) (s : OutgoingDb) :
    (findExistingOutgoing args s).isSome =
      s.outgoingWebhooks.any fun r => outgoingCovers r (outgoingRow args url id time createdAt) := by
  rw [Bool.eq_iff_iff, findExistingOutgoing, List.any_eq_true]
  simp only [outgoingCovers_iff]
  simp only [outgoingRow]
  cases truthy args.purchaseId <;>
    simp [findRecentOutgoingByPurchaseAndType, findOutgoingByWebhookEvent, List.find?_isSome]

theorem bridgeToOutbox_keeps {args : EnqueueOutgoingWebhookArgs} {key : String}
    {c c' : Session OutgoingDb OutgoingWrite String}
    (h : (bridgeToOutbox args key).Returns c () c') :
    c'.view.outgoingWebhooks = c.view.outgoingWebhooks ∧ c'.view.projects = c.view.projects := by
  simp only [bridgeToOutbox, bind_eq, pure_eq, returns_bind, returns_query] at h
  obtain ⟨found, _, ⟨rfl, rfl⟩, h⟩ := h
  split_ifs at h
  · obtain ⟨-, rfl⟩ := returns_done.1 h
    exact ⟨rfl, rfl⟩
  · simp only [returns_bind, returns_now, returns_exec] at h
    obtain ⟨time, _, ⟨-, rfl⟩, -, rfl⟩ := h
    exact ⟨rfl, rfl⟩

theorem enqueueForUrl_returns {args : EnqueueOutgoingWebhookArgs} {url : String} {createdAt : ℤ}
    {c c' : Session OutgoingDb OutgoingWrite String} :
    (enqueueForUrl args { url := some url } url createdAt).Returns c () c' →
      (∃ id time, c'.view.outgoingWebhooks = insertUnless outgoingCovers c.view.outgoingWebhooks
        (outgoingRow args url id time createdAt)) ∧ c'.view.projects = c.view.projects := by
  intro h
  have hpass : passesCategoryFilter { url := some url } args.eventType = true := by
    simp [passesCategoryFilter]
  rw [enqueueForUrl, hpass] at h
  simp only [Bool.not_true, Bool.false_eq_true, if_false, bind_eq, pure_eq, returns_bind,
    returns_query] at h
  obtain ⟨found, _, ⟨rfl, rfl⟩, h⟩ := h
  have hany := findExistingOutgoing_isSome args url
  split_ifs at h with hfound
  · obtain ⟨-, rfl⟩ := returns_done.1 h
    refine ⟨⟨"", 0, ?_⟩, rfl⟩
    rw [hany "" 0 createdAt, List.any_eq_true] at hfound
    rw [insertUnless_of_covered hfound]
  · simp only [returns_bind, returns_now, returns_fresh, returns_exec] at h
    obtain ⟨time, _, ⟨-, rfl⟩, id, _, ⟨-, rfl⟩, -, rfl⟩ := h
    refine ⟨⟨id, time, ?_⟩, rfl⟩
    rw [hany id time createdAt] at hfound
    rw [insertUnless, if_neg hfound]
    rfl

theorem enqueueOutgoingWebhook_returns {args : EnqueueOutgoingWebhookArgs} {url : String}
    (hurl : url ≠ "") {c c' : Session OutgoingDb OutgoingWrite String}
    (hconfig : c.view.projects.get? args.projectId = some { url := some url })
    (h : (enqueueOutgoingWebhook args).Returns c () c') :
    (∃ id time createdAt, c'.view.outgoingWebhooks = insertUnless outgoingCovers
      c.view.outgoingWebhooks (outgoingRow args url id time createdAt)) ∧
      c'.view.projects = c.view.projects := by
  have htruthy : truthy (some url) = some url := truthy_eq_some.2 ⟨rfl, hurl⟩
  simp only [enqueueOutgoingWebhook, bind_eq, pure_eq, returns_bind, returns_query,
    findProjectWebhookConfig, hconfig, returns_transaction] at h
  obtain ⟨_, _, ⟨rfl, rfl⟩, u, c₁, hbridge, h⟩ := h
  have hkeep : c₁.view.outgoingWebhooks = c.view.outgoingWebhooks ∧
      c₁.view.projects = c.view.projects := by
    cases hkey : publicKey args with
    | none =>
      rw [hkey] at hbridge
      obtain ⟨-, rfl⟩ := returns_done.1 hbridge
      exact ⟨rfl, rfl⟩
    | some key =>
      rw [hkey] at hbridge
      cases u
      have hkeep := bridgeToOutbox_keeps hbridge
      exact hkeep
  simp only [Option.bind_some, htruthy, Option.map_some] at h
  obtain ⟨⟨id, time, hrows⟩, hprojects⟩ := enqueueForUrl_returns h
  rw [hkeep.1] at hrows
  exact ⟨⟨id, time, _, hrows⟩, hprojects.trans hkeep.2⟩

abbrev EnqueueTurn := Turn EnqueueOutgoingWebhookArgs OutgoingDb OutgoingWrite String

theorem turns_insertAll {s s' : OutgoingDb} {ts : List EnqueueTurn} {projectId url : String}
    (hurl : url ≠ "") (run : Turns enqueueOutgoingWebhook s ts s')
    (hproject : ∀ t ∈ ts, t.label.projectId = projectId)
    (hconfig : s.projects.get? projectId = some { url := some url }) :
    ∃ cs, List.Forall₂ (fun (t : EnqueueTurn) c => ∃ id time createdAt,
        c = outgoingRow t.label url id time createdAt) ts cs ∧
      s'.outgoingWebhooks = insertAll outgoingCovers s.outgoingWebhooks cs := by
  induction run with
  | nil s => exact ⟨[], .nil, rfl⟩
  | @cons t ts s' h rest ih =>
    obtain ⟨c', hreturns, -, hview⟩ := h
    have hlabel : t.label.projectId = projectId := hproject t (by simp)
    obtain ⟨⟨id, time, createdAt, hrows⟩, hprojects⟩ :=
      enqueueOutgoingWebhook_returns hurl (by rw [hlabel]; exact hconfig) hreturns
    rw [hview] at hrows hprojects
    obtain ⟨cs, hcs, hrest⟩ := ih (fun u hu => hproject u (by simp [hu]))
      (by rw [hprojects]; exact hconfig)
    refine ⟨outgoingRow t.label url id time createdAt :: cs, .cons ⟨id, time, createdAt, rfl⟩ hcs, ?_⟩
    rw [hrest, hrows, insertAll_cons]
    rfl

/-- A run of a project's calls, with what the statement below asks of it. -/
structure EventRun (projectId url : String) (s : OutgoingDb) (ts : List EnqueueTurn)
    (s' : OutgoingDb) : Prop where
  run : Turns enqueueOutgoingWebhook s ts s'
  project : ∀ t ∈ ts, t.label.projectId = projectId
  config : s.projects.get? projectId = some { url := some url }
  hasUrl : url ≠ ""
  -- one inbound event is one subscriber, type and purchase, however often it is retried
  retries : ∀ t ∈ ts, ∀ u ∈ ts, t.label.webhookEventId = u.label.webhookEventId →
    t.label.SameEvent u.label
  -- the events are new
  fresh : ∀ t ∈ ts, rowsFor t.label.webhookEventId s = []

section Run
variable {projectId url : String} {s s' : OutgoingDb} {ts : List EnqueueTurn}

theorem mem_candidates {cs : List OutgoingWebhook} (hcs : List.Forall₂ (fun (t : EnqueueTurn) c =>
    ∃ id time createdAt, c = outgoingRow t.label url id time createdAt) ts cs) :
    (∀ t ∈ ts, ∃ c ∈ cs, ∃ id time createdAt, c = outgoingRow t.label url id time createdAt) ∧
      ∀ c ∈ cs, ∃ t ∈ ts, ∃ id time createdAt, c = outgoingRow t.label url id time createdAt := by
  induction hcs with
  | nil => simp
  | cons h _ ih =>
    refine ⟨fun t ht => ?_, fun c hc => ?_⟩
    · rcases List.mem_cons.1 ht with rfl | ht
      · exact ⟨_, by simp, h⟩
      · obtain ⟨c, hc, hrow⟩ := ih.1 t ht
        exact ⟨c, by simp [hc], hrow⟩
    · rcases List.mem_cons.1 hc with rfl | hc
      · exact ⟨_, by simp, h⟩
      · obtain ⟨t, ht, hrow⟩ := ih.2 c hc
        exact ⟨t, by simp [ht], hrow⟩

theorem EventRun.candidates_retry (h : EventRun projectId url s ts s') {cs : List OutgoingWebhook}
    (hcs : ∀ c ∈ cs, ∃ t ∈ ts, ∃ id time createdAt,
      c = outgoingRow t.label url id time createdAt) :
    Retries (fun r : OutgoingWebhook => r.payload.webhookEventId) outgoingCovers cs := by
  have hsame : ∀ a ∈ cs, ∀ b ∈ cs, a.payload.webhookEventId = b.payload.webhookEventId →
      a.projectId = b.projectId ∧ a.subscriberId = b.subscriberId ∧ a.eventType = b.eventType ∧
        a.purchaseId = b.purchaseId := by
    intro a ha b hb hab
    obtain ⟨t, ht, _, _, _, rfl⟩ := hcs a ha
    obtain ⟨u, hu, _, _, _, rfl⟩ := hcs b hb
    obtain ⟨hsub, htype, hpurchase⟩ := h.retries t ht u hu (Option.some.inj hab)
    exact ⟨(h.project t ht).trans (h.project u hu).symm, hsub, htype, hpurchase⟩
  refine ⟨fun c => ?_, fun a ha b hb hab => ?_, fun a ha b hb hab c => ?_,
    fun a ha b hb hab c => ?_⟩
  · rw [outgoingCovers_iff]
    cases hp : truthy c.purchaseId with
    | none => simp
    | some p => simpa using (truthy_eq_some.1 hp).1
  · rw [outgoingCovers_iff] at hab ⊢
    obtain ⟨hproj, hsub, htype, hkey⟩ := hab
    refine ⟨hproj.symm, hsub.symm, htype.symm, ?_⟩
    cases hb' : truthy b.purchaseId with
    | none =>
      rw [hb'] at hkey
      have hpurchase := (hsame a ha b hb hkey).2.2.2
      rw [hpurchase, hb']
      exact hkey.symm
    | some p =>
      rw [hb'] at hkey
      have ha' : truthy a.purchaseId = some p := by
        rw [hkey]
        exact truthy_eq_some.2 ⟨rfl, (truthy_eq_some.1 hb').2⟩
      rw [ha']
      exact (truthy_eq_some.1 hb').1
  · obtain ⟨hproj, hsub, htype, hpurchase⟩ := hsame a ha b hb hab
    simp only [outgoingCovers, hproj, hsub, htype, hpurchase, hab]
  · obtain ⟨hproj, hsub, htype, hpurchase⟩ := hsame a ha b hb hab
    simp only [outgoingCovers, hproj, hsub, htype, hpurchase, hab]

/-- Every inbound event leaves exactly one outgoing row precisely when the
purchase events among them are each the only one of their kind. -/
theorem one_row_per_event_iff (h : EventRun projectId url s ts s') :
    (∀ t ∈ ts, (rowsFor t.label.webhookEventId s').length = 1) ↔
      ∀ t ∈ ts, OnlyOfItsKind s.outgoingWebhooks (ts.map Turn.label) t.label := by
  obtain ⟨cs, hforall, hrows⟩ := turns_insertAll h.hasUrl h.run h.project h.config
  obtain ⟨hto, hfrom⟩ := mem_candidates hforall
  have hlabelled : ∀ id, rowsFor id s' =
      labelled (fun r : OutgoingWebhook => r.payload.webhookEventId) (some id)
        (insertAll outgoingCovers s.outgoingWebhooks cs) := by
    intro id
    rw [rowsFor, hrows, labelled]
  have hnew : ∀ r ∈ s.outgoingWebhooks, ∀ c ∈ cs,
      r.payload.webhookEventId ≠ c.payload.webhookEventId := by
    intro r hr c hc hrc
    obtain ⟨t, ht, _, _, _, rfl⟩ := hfrom c hc
    have hmem : r ∈ rowsFor t.label.webhookEventId s :=
      List.mem_filter.2 ⟨hr, by simpa [outgoingRow] using hrc⟩
    simp [h.fresh t ht] at hmem
  have hcount := one_row_iff _ (h.candidates_retry hfrom) hnew
  constructor
  · intro hone t ht p hp
    have hall : ∀ c ∈ cs, (labelled (fun r : OutgoingWebhook => r.payload.webhookEventId)
        c.payload.webhookEventId (insertAll outgoingCovers s.outgoingWebhooks cs)).length = 1 := by
      intro c hc
      obtain ⟨u, hu, _, _, _, rfl⟩ := hfrom c hc
      have hu' := hone u hu
      rw [hlabelled] at hu'
      exact hu'
    have hkey := hcount.1 hall
    obtain ⟨c, hc, id, time, createdAt, rfl⟩ := hto t ht
    refine ⟨fun r hr hmatch => ?_, fun e' he' hsub htype hpurchase => ?_⟩
    · refine hnew r hr _ hc (hkey _ hc r (by simp [hr]) ?_)
      rw [outgoingCovers_iff]
      simpa [outgoingRow, hp] using hmatch
    · obtain ⟨u, hu, rfl⟩ := List.mem_map.1 he'
      obtain ⟨d, hd, id', time', createdAt', rfl⟩ := hto u hu
      have hcov : outgoingCovers (outgoingRow u.label url id' time' createdAt')
          (outgoingRow t.label url id time createdAt) = true := by
        rw [outgoingCovers_iff]
        simpa [outgoingRow, hp, hsub, htype, hpurchase] using
          (h.project u hu).trans (h.project t ht).symm
      exact Option.some.inj (hkey _ hc _ (by simp [hd]) hcov)
  · intro honly t ht
    obtain ⟨c, hc, id, time, createdAt, rfl⟩ := hto t ht
    rw [hlabelled]
    refine hcount.2 (fun c hc r hr hcov => ?_) _ hc
    obtain ⟨u, hu, _, _, _, rfl⟩ := hfrom c hc
    rw [outgoingCovers_iff] at hcov
    obtain ⟨hproj, hsub, htype, hkey⟩ := hcov
    cases hp : truthy u.label.purchaseId with
    | none => simpa [outgoingRow, hp] using hkey
    | some p =>
      have hpurchase : r.purchaseId = some p := by simpa [outgoingRow, hp] using hkey
      obtain ⟨hold, hother⟩ := honly u hu p hp
      rcases List.mem_append.1 hr with hr | hr
      · exact (hold r hr ⟨hproj, hsub, htype, hpurchase⟩).elim
      · obtain ⟨v, hv, _, _, _, rfl⟩ := hfrom r hr
        exact congrArg some (hother v.label (List.mem_map_of_mem hv) hsub htype hpurchase)

end Run

def webhookProject : OutgoingDb where
  projects := .insert .empty "p1" { url := some "https://example.test/hook" }

def renewal (webhookEventId : String) : EnqueueOutgoingWebhookArgs where
  projectId := "p1"
  subscriberId := "s1"
  purchaseId := some "pu1"
  eventType := "SUBSCRIPTION_RENEWED"
  webhookEventId := webhookEventId

theorem two_renewals (id₁ id₂ : String) : ∃ ts s', Turns enqueueOutgoingWebhook webhookProject ts s' ∧
    ts.map Turn.label = [renewal id₁, renewal id₂] ∧
      s'.outgoingWebhooks.map (fun r => r.payload.webhookEventId) = [some id₁] := by
  have hfirst : ∃ c, (enqueueOutgoingWebhook (renewal id₁)).Returns
      (.start webhookProject (fun _ => 1) fun _ => "o1") () c ∧
      c.view = { webhookProject with outgoingWebhooks := [outgoingRow (renewal id₁)
        "https://example.test/hook" "o1" 1 1] } := ⟨_, rfl, rfl⟩
  obtain ⟨c, hc, hview⟩ := hfirst
  have hsecond : ∃ c', (enqueueOutgoingWebhook (renewal id₂)).Returns
      (.start c.view (fun _ => 2) fun _ => "o2") () c' ∧
      c'.view.outgoingWebhooks.map (fun r => r.payload.webhookEventId) = [some id₁] := by
    rw [hview]
    exact ⟨_, rfl, rfl⟩
  obtain ⟨c', hc', hrows⟩ := hsecond
  exact ⟨_, _, .turn hc (.turn hc' (.nil _)), rfl, hrows⟩

theorem renewals_eventRun {id₁ id₂ : String} {ts : List EnqueueTurn} {s' : OutgoingDb}
    (run : Turns enqueueOutgoingWebhook webhookProject ts s')
    (hlabel : ts.map Turn.label = [renewal id₁, renewal id₂]) :
    EventRun "p1" "https://example.test/hook" webhookProject ts s' := by
  have hrenewal : ∀ t ∈ ts, ∃ id, t.label = renewal id := by
    intro t ht
    have hmem : t.label ∈ [renewal id₁, renewal id₂] := hlabel ▸ List.mem_map_of_mem ht
    rcases List.mem_cons.1 hmem with h | hmem
    · exact ⟨id₁, h⟩
    · exact ⟨id₂, List.mem_singleton.1 hmem⟩
  refine ⟨run, fun t ht => ?_, rfl, by decide, fun t ht u hu _ => ?_, fun t ht => rfl⟩
  · obtain ⟨id, h⟩ := hrenewal t ht
    rw [h]
    rfl
  · obtain ⟨id, h⟩ := hrenewal t ht
    obtain ⟨id', h'⟩ := hrenewal u hu
    rw [h, h']
    exact ⟨rfl, rfl, rfl⟩

theorem one_row_per_event_retried : ∃ ts s',
    EventRun "p1" "https://example.test/hook" webhookProject ts s' ∧
      ((∀ t ∈ ts, (rowsFor t.label.webhookEventId s').length = 1) ↔
        ∀ t ∈ ts, OnlyOfItsKind webhookProject.outgoingWebhooks (ts.map Turn.label) t.label) := by
  obtain ⟨ts, s', run, hlabel, -⟩ := two_renewals "w1" "w1"
  exact ⟨ts, s', renewals_eventRun run hlabel, one_row_per_event_iff (renewals_eventRun run hlabel)⟩

theorem second_renewal_lost :
    ¬∀ (projectId url : String) (s s' : OutgoingDb) (ts : List EnqueueTurn),
      EventRun projectId url s ts s' →
        ∀ t ∈ ts, (rowsFor t.label.webhookEventId s').length = 1 := by
  intro claim
  obtain ⟨ts, s', run, hlabel, hrows⟩ := two_renewals "w1" "w2"
  have hmem : renewal "w2" ∈ ts.map Turn.label := by simp [hlabel]
  obtain ⟨t, ht, htlabel⟩ := List.mem_map.1 hmem
  have hone := claim _ _ _ _ _ (renewals_eventRun run hlabel) t ht
  have hnone : rowsFor t.label.webhookEventId s' = [] := by
    refine List.filter_eq_nil_iff.2 fun r hr => ?_
    have hr' : r.payload.webhookEventId ∈ [some "w1"] := hrows ▸ List.mem_map_of_mem hr
    rw [List.mem_singleton.1 hr', htlabel]
    decide
  simp [hnone] at hone

end Rovenue.Webhooks
