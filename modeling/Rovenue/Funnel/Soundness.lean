import Rovenue.Funnel.Validator

/-! A validated funnel at runtime. The validator follows no literal goto, while the evaluator
takes the literal `paywall` to a page. -/

namespace Rovenue.Funnel
open Relation

structure Given where
  answers : AnswerMap
  today : Option String

namespace PagesArray

def next (funnel : PagesArray) (id : String) (given : Given) : Option EvalResult :=
  (funnel.byId id).map fun page => evaluateNext funnel page given.answers given.today

def visited (funnel : PagesArray) : String → List Given → List String
  | id, [] => [id]
  | id, given :: rest =>
    match funnel.next id given with
    | some (.page pageId) => id :: funnel.visited pageId rest
    | _ => [id]

def finished (funnel : PagesArray) : String → List Given → Bool
  | _, [] => false
  | id, given :: rest =>
    match funnel.next id given with
    | some (.page pageId) => funnel.finished pageId rest
    | some _ => true
    | none => false

structure SoundAtRuntime (funnel : PagesArray) : Prop where
  listed : ∀ start ∈ funnel.order, ∀ steps, ∀ id ∈ funnel.visited start steps, id ∈ funnel.order
  once : ∀ start ∈ funnel.order, ∀ steps, (funnel.visited start steps).Nodup
  ends : ∀ start ∈ funnel.order, ∀ steps, funnel.pages.length ≤ steps.length →
    funnel.finished start steps

/-- Some answers take the one page to the other. -/
def Leads (funnel : PagesArray) (id pageId : String) : Prop :=
  ∃ given, funnel.next id given = some (.page pageId)

def Jumps (funnel : PagesArray) (id pageId : String) : Prop :=
  funnel.Leads id pageId ∧ pageId ∉ funnel.followed id

/-- No answers lead back from where such a step lands to where it left. -/
def NoJumpBack (funnel : PagesArray) : Prop :=
  ∀ id pageId, funnel.Jumps id pageId → ¬ReflTransGen funnel.Leads pageId id

variable {funnel : PagesArray} {id pageId start : String} {page : Page} {given : Given}

theorem byId_mem (h : funnel.byId id = some page) : page ∈ funnel.pages ∧ page.id = id := by
  refine ⟨List.mem_of_find?_eq_some h, ?_⟩
  simpa using List.find?_some h

theorem mem_order_of_byId (h : (funnel.byId id).isSome) : id ∈ funnel.order := by
  obtain ⟨page, hpage⟩ := Option.isSome_iff_exists.1 h
  obtain ⟨hmem, rfl⟩ := byId_mem hpage
  exact List.mem_map_of_mem hmem

theorem byId_isSome (h : id ∈ funnel.order) : (funnel.byId id).isSome := by
  obtain ⟨page, hpage, hid⟩ := List.mem_map.1 h
  rw [byId, List.find?_isSome]
  exact ⟨page, hpage, by simpa using hid⟩

def gotos (page : Page) : List String :=
  (page.nextRules.getD []).map NextRule.goto ++ page.defaultNext.toList

theorem chosenGoto_cases (page : Page) (answers : AnswerMap) (today : Option String) :
    chosenGoto page answers today ∈ gotos page ∨
      chosenGoto page answers today = "sequential" ∧ page.defaultNext = none := by
  rw [chosenGoto, gotos, List.mem_append, Option.mem_toList]
  split
  · rename_i rule hrule
    exact .inl (.inl (List.mem_map_of_mem (List.mem_of_find?_eq_some hrule)))
  · rcases page.defaultNext with _ | goto
    · exact .inr ⟨rfl, rfl⟩
    · exact .inl (.inr rfl)

theorem byId_of_ok (hok : (validateFunnelGraph funnel).ok) (hpage : page ∈ funnel.pages)
    {goto : String} (hgoto : goto ∈ gotos page) (hpaywall : goto ≠ "paywall")
    (hend : goto ≠ "end") : (funnel.byId goto).isSome := by
  have hissues : funnel.pageIssues page = [] := by
    have hnil : (validateFunnelGraph funnel).issues = [] := List.isEmpty_iff.1 hok
    simp only [validateFunnelGraph, List.append_eq_nil_iff, List.flatMap_eq_nil_iff] at hnil
    exact hnil.1.2 page hpage
  rw [pageIssues, List.append_eq_nil_iff, List.flatMap_eq_nil_iff] at hissues
  have hknown : funnel.unknown goto = false := by
    rw [gotos, List.mem_append, Option.mem_toList] at hgoto
    rcases hgoto with hrule | hdefault
    · obtain ⟨rule, hmem, rfl⟩ := List.mem_map.1 hrule
      have hnone := (List.append_eq_nil_iff.1 (hissues.1 rule hmem)).2
      by_contra hunknown
      simp [hunknown] at hnone
    · have hnone := hissues.2
      by_contra hunknown
      simp [hdefault, hunknown] at hnone
  by_contra hnone
  simp [unknown, hpaywall, hend, hnone] at hknown

theorem mem_order_of_leads (hok : (validateFunnelGraph funnel).ok)
    (h : funnel.Leads id pageId) : pageId ∈ funnel.order := by
  obtain ⟨given, hnext⟩ := h
  obtain ⟨page, hpage, heval⟩ := Option.map_eq_some_iff.1 hnext
  have hgoto := chosenGoto_cases page given.answers given.today
  rw [evaluateNext, resolveGoto] at heval
  split_ifs at heval with hpaywall hend hsequential
  · rcases hfirst : funnel.firstPaywallId.filter (· ≠ "") with _ | first
    · simp only [hfirst, reduceCtorEq] at heval
    · simp only [hfirst, EvalResult.page.injEq] at heval
      subst heval
      exact List.mem_of_find?_eq_some (Option.filter_eq_some_iff.1 hfirst).1
  · rcases hafter : (funnel.order.idxOf? page.id).bind fun i => funnel.order[i + 1]? with _ | after
    · simp only [hafter, reduceCtorEq] at heval
    · simp only [hafter, EvalResult.page.injEq] at heval
      subst heval
      obtain ⟨i, -, hi⟩ := Option.bind_eq_some_iff.1 hafter
      exact List.mem_of_getElem? hi
  · obtain rfl := EvalResult.page.inj heval
    have hwritten := hgoto.resolve_right fun h => hsequential h.1
    exact mem_order_of_byId (byId_of_ok hok (byId_mem hpage).1 hwritten hpaywall hend)

theorem exists_rank (hok : (validateFunnelGraph funnel).ok) :
    ∃ rank : String → ℕ, ∀ id pageId, funnel.Leads id pageId → pageId ∈ funnel.followed id →
      rank pageId < rank id := by
  have hfound : (Graph.search funnel.followed funnel.order).found = [] := by
    have hnil : (validateFunnelGraph funnel).issues = [] := List.isEmpty_iff.1 hok
    simp only [validateFunnelGraph, List.append_eq_nil_iff] at hnil
    exact List.map_eq_nil_iff.1 hnil.2
  obtain ⟨rank, hrank⟩ := Graph.exists_rank funnel.order hfound
  refine ⟨rank, fun id pageId hleads hfollowed => ?_⟩
  have hid : id ∈ funnel.order := by
    by_contra hnot
    rw [followed_eq_nil hnot] at hfollowed
    cases hfollowed
  exact hrank id hid pageId hfollowed (mem_order_of_leads hok hleads)

theorem NoJumpBack.acyclic (h : funnel.NoJumpBack) (hok : (validateFunnelGraph funnel).ok)
    (id : String) : ¬TransGen funnel.Leads id id := by
  obtain ⟨rank, hrank⟩ := exists_rank hok
  have hstep : ∀ a b, funnel.Leads a b → ReflTransGen funnel.Leads b a → rank b < rank a := by
    intro a b hleads hback
    refine hrank a b hleads ?_
    by_contra hfollowed
    exact h a b ⟨hleads, hfollowed⟩ hback
  -- along a cycle every step leads back, so that the rank falls all the way round
  have hfalls : ∀ b, TransGen funnel.Leads id b → ReflTransGen funnel.Leads b id →
      rank b < rank id := by
    intro b hto
    induction hto with
    | single hleads => exact hstep id _ hleads
    | tail hto hleads ih =>
      intro hback
      have hlast := hstep _ _ hleads (hback.trans hto.to_reflTransGen)
      exact hlast.trans (ih (hback.head hleads))
  exact fun hcycle => (hfalls id hcycle .refl).false

theorem Jumps.literal (h : funnel.Jumps id pageId) :
    pageId = "paywall" ∨ pageId = "end" ∨
      ∃ page ∈ funnel.pages, page.id = id ∧ ("paywall" ∈ gotos page ∨ "sequential" ∈ gotos page) := by
  -- where the steps that the validator leaves out come from: a page that is named like a literal,
  -- and a goto that is one
  obtain ⟨⟨given, hnext⟩, hfollowed⟩ := h
  obtain ⟨page, hpage, heval⟩ := Option.map_eq_some_iff.1 hnext
  obtain ⟨hmem, hid⟩ := byId_mem hpage
  have hgoto := chosenGoto_cases page given.answers given.today
  have hskipped : pageId ∈ funnel.nextTargets page → pageId = "paywall" ∨ pageId = "end" := by
    intro htarget
    by_contra hnot
    refine hfollowed ?_
    rw [followed, hpage]
    refine List.mem_filter.2 ⟨htarget, ?_⟩
    simpa [not_or] using hnot
  rw [evaluateNext, resolveGoto] at heval
  split_ifs at heval with hpaywall hend hsequential
  · rw [hpaywall] at hgoto
    exact .inr (.inr ⟨page, hmem, hid, .inl (hgoto.resolve_right fun h => by simp at h)⟩)
  · rcases hgoto with hwritten | ⟨-, hdefault⟩
    · exact .inr (.inr ⟨page, hmem, hid, .inr (hsequential ▸ hwritten)⟩)
    · rcases hafter : (funnel.order.idxOf? page.id).bind fun i => funnel.order[i + 1]? with _ | after
      · simp only [hafter, reduceCtorEq] at heval
      · simp only [hafter, EvalResult.page.injEq] at heval
        subst heval
        have htarget : after ∈ funnel.nextTargets page := by simp [nextTargets, hdefault, hafter]
        exact (hskipped htarget).imp_right .inl
  · obtain rfl := EvalResult.page.inj heval
    have hwritten := hgoto.resolve_right fun h => hsequential h.1
    have htarget : chosenGoto page given.answers given.today ∈ funnel.nextTargets page := by
      rw [gotos, List.mem_append, Option.mem_toList] at hwritten
      rw [nextTargets, List.mem_append]
      rcases hwritten with hrule | hdefault
      · exact .inl hrule
      · rw [hdefault]
        exact .inr (List.mem_singleton_self _)
    exact (hskipped htarget).imp_right .inl

theorem visited_page (h : funnel.next id given = some (.page pageId)) (steps : List Given) :
    funnel.visited id (given :: steps) = id :: funnel.visited pageId steps := by
  simp only [visited, h]

theorem visited_chain (steps : List Given) :
    (funnel.visited id steps).head? = some id ∧ (funnel.visited id steps).IsChain funnel.Leads := by
  induction steps generalizing id with
  | nil => exact ⟨rfl, .singleton _⟩
  | cons given steps ih =>
    rw [visited]
    split
    · rename_i pageId hnext
      obtain ⟨hhead, hchain⟩ := @ih pageId
      refine ⟨rfl, List.isChain_cons.2 ⟨?_, hchain⟩⟩
      rw [hhead]
      intro other hother
      obtain rfl := Option.mem_some_iff.1 hother
      exact ⟨given, hnext⟩
    · exact ⟨rfl, .singleton _⟩

theorem visited_listed (hok : (validateFunnelGraph funnel).ok) (steps : List Given)
    (hid : id ∈ funnel.order) : ∀ other ∈ funnel.visited id steps, other ∈ funnel.order := by
  induction steps generalizing id with
  | nil => simpa [visited] using hid
  | cons given steps ih =>
    rw [visited]
    split
    · rename_i pageId hnext
      intro other hother
      rcases List.mem_cons.1 hother with rfl | hother
      · exact hid
      · exact ih (mem_order_of_leads hok ⟨given, hnext⟩) other hother
    · simpa using hid

theorem visited_length (hok : (validateFunnelGraph funnel).ok) (steps : List Given)
    (hid : id ∈ funnel.order) (hunfinished : funnel.finished id steps = false) :
    (funnel.visited id steps).length = steps.length + 1 := by
  induction steps generalizing id with
  | nil => rfl
  | cons given steps ih =>
    rw [finished] at hunfinished
    rw [visited]
    obtain ⟨page, hpage⟩ := Option.isSome_iff_exists.1 (byId_isSome hid)
    rcases hnext : funnel.next id given with _ | (pageId | _ | _)
    · simp [next, hpage] at hnext
    · simp only [hnext] at hunfinished ⊢
      rw [List.length_cons, ih (mem_order_of_leads hok ⟨given, hnext⟩) hunfinished,
        List.length_cons]
    · simp [hnext] at hunfinished
    · simp [hnext] at hunfinished

theorem exists_visited (h : ReflTransGen funnel.Leads start id) :
    ∃ steps, id ∈ funnel.visited start steps := by
  induction h using ReflTransGen.head_induction_on with
  | refl => exact ⟨[], by simp [visited]⟩
  | head hleads _ ih =>
    obtain ⟨given, hnext⟩ := hleads
    obtain ⟨steps, hmem⟩ := ih
    refine ⟨given :: steps, ?_⟩
    rw [visited_page hnext]
    exact List.mem_cons_of_mem _ hmem

/-- A funnel that validates is sound at runtime just when no step that the validator leaves out
can be led back from. -/
theorem soundAtRuntime_iff_noJumpBack (hok : (validateFunnelGraph funnel).ok) :
    funnel.SoundAtRuntime ↔ funnel.NoJumpBack := by
  constructor
  · rintro hsound id pageId ⟨⟨given, hnext⟩, -⟩ hback
    obtain ⟨steps, hmem⟩ := exists_visited hback
    have hid : id ∈ funnel.order := by
      refine mem_order_of_byId ?_
      rw [next, Option.map_eq_some_iff] at hnext
      obtain ⟨page, hpage, -⟩ := hnext
      rw [hpage]
      rfl
    have honce := hsound.once id hid (given :: steps)
    rw [visited_page hnext, List.nodup_cons] at honce
    exact honce.1 hmem
  · intro hback
    have hacyclic := hback.acyclic hok
    have honce : ∀ start steps, (funnel.visited start steps).Nodup := by
      intro start steps
      have hchain : (funnel.visited start steps).IsChain (TransGen funnel.Leads) :=
        (visited_chain steps).2.imp fun _ _ hleads => .single hleads
      refine hchain.pairwise.imp ?_
      rintro a _ hleads rfl
      exact hacyclic a hleads
    refine ⟨fun start hstart steps => visited_listed hok steps hstart,
      fun start _ => honce start, fun start hstart steps hlong => ?_⟩
    by_contra hunfinished
    have hlength := visited_length hok steps hstart (Bool.eq_false_iff.2 hunfinished)
    have hsub : funnel.visited start steps ⊆ funnel.order := visited_listed hok steps hstart
    have hle := ((honce start steps).subperm hsub).length_le
    rw [order, List.length_map] at hle
    omega

def backToPaywall : PagesArray where
  pages := [⟨"pw", .paywall, none, none, none⟩, ⟨"q", .success, none, none, some "paywall"⟩]
  distinct := by decide

def straight : PagesArray where
  pages := [⟨"pw", .paywall, none, none, none⟩, ⟨"q", .success, none, none, some "end"⟩]
  distinct := by decide

theorem paywall_twice :
    ¬∀ funnel : PagesArray, (validateFunnelGraph funnel).ok → funnel.SoundAtRuntime := by
  intro claim
  have hok : (validateFunnelGraph backToPaywall).ok := by decide
  have honce := (claim backToPaywall hok).once "pw" (by decide)
    [⟨.empty, none⟩, ⟨.empty, none⟩]
  have hvisited : backToPaywall.visited "pw" [⟨.empty, none⟩, ⟨.empty, none⟩] =
      ["pw", "q", "pw"] := by decide
  rw [hvisited] at honce
  exact absurd honce (by decide)

theorem soundAtRuntime_iff_noJumpBack_straight : straight.SoundAtRuntime := by
  have hok : (validateFunnelGraph straight).ok := by decide
  refine (soundAtRuntime_iff_noJumpBack hok).2 fun id pageId hjumps => ?_
  have hlisted := mem_order_of_leads hok hjumps.1
  have hplain : ∀ page ∈ straight.pages, "paywall" ∉ gotos page ∧ "sequential" ∉ gotos page := by
    decide
  have hnames : "paywall" ∉ straight.order ∧ "end" ∉ straight.order := by decide
  rcases hjumps.literal with rfl | rfl | ⟨page, hpage, -, hgoto⟩
  · exact absurd hlisted hnames.1
  · exact absurd hlisted hnames.2
  · exact absurd hgoto (not_or.2 (hplain page hpage))

end PagesArray
end Rovenue.Funnel
