import Rovenue.Funnel.Soundness

/-! The validator's word on references and on reachability against what the evaluator does: it
knows no field of a contact answer, and it follows no literal goto. -/

namespace Rovenue.Funnel
open Relation
open Txn (Table)

namespace PagesArray
variable (funnel : PagesArray)

/-- `pagesArraySchema`: the dot is kept for the fields of a contact answer. -/
def Dotless : Prop := ∀ p ∈ funnel.pages, ∀ q, p.questionId = some q → '.' ∉ q.toList

def Answered (answers : AnswerMap) : Prop :=
  ∀ q value, answers.get? q = some value → ∃ p ∈ funnel.pages, p.questionId = some q ∧
    ∀ name email phone, value = .contact name email phone → p.type = .contactInfo

def Resolvable (q : String) : Prop :=
  ∃ answers, funnel.Answered answers ∧ (resolveAnswer q answers).isSome

def ReportedUnknown (p : Page) (q : String) : Prop :=
  ∃ message, .unknownQuestionRef message p.id q ∈ (validateFunnelGraph funnel).issues

def HasClause (p : Page) (q : String) : Prop :=
  p ∈ funnel.pages ∧ ∃ rule ∈ p.nextRules.getD [], ∃ c ∈ rule.condition.clauses, c.questionId = q

/-- A clause is reported just when no answers resolve it. -/
def ReferencesJudged : Prop :=
  ∀ p q, funnel.HasClause p q → (funnel.ReportedUnknown p q ↔ ¬funnel.Resolvable q)

def contactFields : List String := ["name", "email", "phone"]

/-- `<question_id>.<field>` of a contact page. -/
def SubField (q : String) : Prop :=
  ∃ p ∈ funnel.pages, p.type = .contactInfo ∧ ∃ base, p.questionId = some base ∧
    ∃ field ∈ contactFields, q = base ++ "." ++ field

def ReportedUnreachable (id : String) : Prop :=
  ∃ message, .unreachable message id ∈ (validateFunnelGraph funnel).warnings

/-- No page that a session from the first page visits is reported. -/
def ReachabilityJudged : Prop :=
  ∀ start, funnel.order.head? = some start → ∀ steps, ∀ id ∈ funnel.visited start steps,
    ¬funnel.ReportedUnreachable id

def Follows (id pageId : String) : Prop := pageId ∈ funnel.followed id

/-- Where a session takes a step that the validator does not follow, other steps that it follows
lead to the same page. -/
def LandingsFollowed : Prop :=
  ∀ start, funnel.order.head? = some start → ∀ id pageId, ReflTransGen funnel.Leads start id →
    funnel.Jumps id pageId → pageId ∈ funnel.order → ReflTransGen funnel.Follows start pageId

variable {funnel} {start id pageId q : String} {answers : AnswerMap} {stack reachable : List String}

theorem resolveAnswer_plain (h : '.' ∉ q.toList) : resolveAnswer q answers = answers.get? q := by
  have hall : q.toList.takeWhile (· ≠ '.') = q.toList := by
    rw [List.takeWhile_eq_self_iff]
    intro c hc
    exact decide_eq_true fun heq => h (heq ▸ hc)
  unfold resolveAnswer
  exact if_pos hall

theorem takeWhile_subField {base field : String} (h : '.' ∉ base.toList) :
    (base ++ "." ++ field).toList.takeWhile (· ≠ '.') = base.toList := by
  have hchars : (base ++ "." ++ field).toList = base.toList ++ '.' :: field.toList := by simp
  rw [hchars, List.takeWhile_append_of_pos]
  · simp
  · intro c hc
    exact decide_eq_true fun heq => h (heq ▸ hc)

theorem resolveAnswer_subField {base field : String} {name email phone : String}
    (hbase : '.' ∉ base.toList) (hfield : field ∈ contactFields)
    (hget : answers.get? base = some (.contact (some name) (some email) (some phone))) :
    (resolveAnswer (base ++ "." ++ field) answers).isSome := by
  have hchars : (base ++ "." ++ field).toList = base.toList ++ '.' :: field.toList := by simp
  have hdrop : (base ++ "." ++ field).toList.drop (base.toList.length + 1) = field.toList := by
    rw [hchars, List.drop_append, List.drop_eq_nil_of_le (Nat.le_succ _), Nat.add_sub_cancel_left]
    rfl
  have hne : base.toList ≠ (base ++ "." ++ field).toList := by
    intro heq
    have hlength := congrArg List.length heq
    rw [hchars, List.length_append, List.length_cons] at hlength
    omega
  unfold resolveAnswer
  simp only [takeWhile_subField hbase, if_neg hne, hdrop, String.ofList_toList, hget]
  unfold contactFields at hfield
  fin_cases hfield <;> rfl

theorem resolveAnswer_cases (h : (resolveAnswer q answers).isSome) :
    (answers.get? q).isSome ∨ ∃ base, ∃ field ∈ contactFields, q = base ++ "." ++ field ∧
      ∃ name email phone, answers.get? base = some (.contact name email phone) := by
  by_cases hall : q.toList.takeWhile (· ≠ '.') = q.toList
  · have hplain : resolveAnswer q answers = answers.get? q := if_pos hall
    exact .inl (hplain ▸ h)
  · unfold resolveAnswer at h
    simp only [if_neg hall] at h
    set base := q.toList.takeWhile (· ≠ '.') with hbase
    have hsplit := List.takeWhile_append_dropWhile (p := (· ≠ '.')) (l := q.toList)
    cases hrest : q.toList.dropWhile (· ≠ '.') with
    | nil =>
      rw [hrest, List.append_nil] at hsplit
      exact absurd hsplit hall
    | cons c rest =>
      have hdot : c = '.' := by
        have hhead := List.head?_dropWhile_not (fun c => decide (c ≠ '.')) q.toList
        rw [hrest] at hhead
        simpa using hhead
      subst hdot
      rw [hrest, ← hbase] at hsplit
      have hdrop : q.toList.drop (base.length + 1) = rest := by
        rw [← hsplit, List.drop_append, List.drop_eq_nil_of_le (Nat.le_succ _),
          Nat.add_sub_cancel_left]
        rfl
      have hq : q = String.ofList base ++ "." ++ String.ofList rest := by
        apply String.toList_injective
        rw [← hsplit]
        simp
      refine .inr ⟨String.ofList base, String.ofList rest, ?_, hq, ?_⟩
      · rw [hdrop] at h
        unfold contactFields
        by_contra hnot
        simp only [List.mem_cons, List.not_mem_nil, or_false, not_or] at hnot
        split at h
        · simp [hnot] at h
        · cases h
      · split at h
        · rename_i name email phone hget
          exact ⟨name, email, phone, hget⟩
        · cases h

theorem mem_questionIds : q ∈ funnel.pages.filterMap Page.questionId ↔
    ∃ p ∈ funnel.pages, p.questionId = some q := List.mem_filterMap

theorem SubField.not_mem (h : funnel.SubField q) (hdotless : funnel.Dotless) :
    q ∉ funnel.pages.filterMap Page.questionId := by
  obtain ⟨p, -, -, base, -, field, -, rfl⟩ := h
  intro hmem
  obtain ⟨p', hp', hq⟩ := mem_questionIds.1 hmem
  exact hdotless p' hp' _ hq (by simp)

theorem answered_single {p : Page} (value : AnswerValue) (hp : p ∈ funnel.pages)
    (hq : p.questionId = some q)
    (hcontact : ∀ name email phone, value = .contact name email phone → p.type = .contactInfo) :
    funnel.Answered (Table.empty.set q value) := by
  intro q' value' hget
  rw [Table.get?_set] at hget
  split_ifs at hget with heq
  · cases hget
    exact ⟨p, hp, heq ▸ hq, hcontact⟩
  · cases hget

theorem resolvable_iff (hdotless : funnel.Dotless) : funnel.Resolvable q ↔
    q ∈ funnel.pages.filterMap Page.questionId ∨ funnel.SubField q := by
  constructor
  · rintro ⟨answers, hanswered, hsome⟩
    obtain hget | ⟨base, field, hfield, rfl, name, email, phone, hget⟩ := resolveAnswer_cases hsome
    · obtain ⟨value, hvalue⟩ := Option.isSome_iff_exists.1 hget
      obtain ⟨p, hp, hq, -⟩ := hanswered q value hvalue
      exact .inl (mem_questionIds.2 ⟨p, hp, hq⟩)
    · obtain ⟨p, hp, hq, hcontact⟩ := hanswered base _ hget
      exact .inr ⟨p, hp, hcontact _ _ _ rfl, base, hq, field, hfield, rfl⟩
  · rintro (hmem | ⟨p, hp, htype, base, hq, field, hfield, rfl⟩)
    · obtain ⟨p, hp, hq⟩ := mem_questionIds.1 hmem
      refine ⟨_, answered_single (.scalar .null) hp hq nofun, ?_⟩
      rw [resolveAnswer_plain (hdotless p hp q hq), Table.get?_set, if_pos rfl]
      rfl
    · have hanswered := answered_single (.contact (some "x") (some "x") (some "x")) hp hq
        fun _ _ _ _ => htype
      have hget : ((Table.empty : AnswerMap).set base
          (.contact (some "x") (some "x") (some "x"))).get? base =
            some (.contact (some "x") (some "x") (some "x")) := by
        rw [Table.get?_set, if_pos rfl]
      exact ⟨_, hanswered, resolveAnswer_subField (hdotless p hp base hq) hfield hget⟩

theorem unknownQuestionRef_mem {p : Page} {rule : NextRule} {message pageId : String}
    (h : .unknownQuestionRef message pageId q ∈ funnel.ruleIssues p rule) :
    q ∉ funnel.pages.filterMap Page.questionId := by
  unfold ruleIssues at h
  obtain h | h := List.mem_append.1 h
  · obtain ⟨c, hc, heq⟩ := List.mem_map.1 h
    cases heq
    simpa using (List.mem_filter.1 hc).2
  · split_ifs at h <;> simp at h

theorem duplicates_only {message pageId : String} (seen : List String) (pages : List Page) :
    .unknownQuestionRef message pageId q ∉ duplicateQuestionIds seen pages := by
  induction pages generalizing seen with
  | nil => exact List.not_mem_nil
  | cons p pages ih =>
    rw [duplicateQuestionIds]
    cases p.questionId with
    | none => exact ih seen
    | some q' =>
      show _ ∉ if q' ∈ seen then _ else _
      split_ifs
      · intro h
        exact (List.mem_cons.1 h).elim nofun (ih seen)
      · exact ih _

theorem reportedUnknown_iff {p : Page} (hclause : funnel.HasClause p q) :
    funnel.ReportedUnknown p q ↔ q ∉ funnel.pages.filterMap Page.questionId := by
  constructor
  · rintro ⟨message, h⟩
    simp only [validateFunnelGraph, List.mem_append] at h
    obtain (((h | h) | h) | h) | h := h
    · split_ifs at h <;> simp at h
    · split_ifs at h <;> simp at h
    · exact absurd h (duplicates_only [] funnel.pages)
    · obtain ⟨p', -, hp'⟩ := List.mem_flatMap.1 h
      obtain hrules | hdefault := List.mem_append.1 hp'
      · obtain ⟨rule, -, hrule⟩ := List.mem_flatMap.1 hrules
        exact unknownQuestionRef_mem hrule
      · simp at hdefault
    · simp [detectCycles] at h
  · intro hunknown
    obtain ⟨hp, rule, hrule, c, hc, rfl⟩ := hclause
    refine ⟨s!"Rule on page {p.id} references unknown question_id '{c.questionId}'", ?_⟩
    have hissue : .unknownQuestionRef
        s!"Rule on page {p.id} references unknown question_id '{c.questionId}'" p.id c.questionId ∈
        funnel.ruleIssues p rule := by
      refine List.mem_append_left _ (List.mem_map_of_mem (List.mem_filter.2 ⟨hc, ?_⟩))
      exact decide_eq_true hunknown
    have hpage := List.mem_append_left
      (((p.defaultNext.filter fun goto => funnel.unknown goto).map fun goto =>
        ValidatorIssue.unknownGoto s!"default_next on {p.id} -> unknown {goto}" p.id goto).toList)
      (List.mem_flatMap.2 ⟨rule, hrule, hissue⟩)
    exact List.mem_append_left _ (List.mem_append_right _ (List.mem_flatMap.2 ⟨p, hp, hpage⟩))

theorem referencesJudged_iff (hdotless : funnel.Dotless) :
    funnel.ReferencesJudged ↔ ∀ p q, funnel.HasClause p q → ¬funnel.SubField q := by
  refine forall₃_congr fun p q hclause => ?_
  rw [reportedUnknown_iff hclause, resolvable_iff hdotless]
  constructor
  · intro h hsub
    exact h.1 (hsub.not_mem hdotless) (.inr hsub)
  · intro hsub
    rw [not_or]
    exact ⟨fun h => ⟨h, hsub⟩, fun h => h.1⟩

theorem loop_sound (stack reachable : List String)
    (h : ∀ x, x ∈ stack ∨ x ∈ reachable → ReflTransGen funnel.Follows start x) :
    ∀ x ∈ computeReachable.loop funnel stack reachable, ReflTransGen funnel.Follows start x := by
  induction stack, reachable using computeReachable.loop.induct funnel with
  | case1 reachable =>
    rw [computeReachable.loop]
    exact fun x hx => h x (.inr hx)
  | case2 reachable id stack hseen ih =>
    rw [computeReachable.loop, if_pos hseen]
    exact ih fun x hx => h x (hx.imp_left (List.mem_cons_of_mem id))
  | case3 reachable id stack hnew targets ih =>
    rw [computeReachable.loop, if_neg hnew]
    have hid : ReflTransGen funnel.Follows start id := h id (.inl List.mem_cons_self)
    refine ih fun x hx => ?_
    rw [List.mem_append, List.mem_reverse, List.mem_cons] at hx
    obtain (hx | hx) | rfl | hx := hx
    · exact hid.tail (List.mem_filter.1 hx).1
    · exact h x (.inl (List.mem_cons_of_mem id hx))
    · exact hid
    · exact h x (.inr hx)

theorem loop_closed (stack reachable : List String)
    (h : ∀ a ∈ reachable, ∀ b, funnel.Follows a b → b ∈ reachable ∨ b ∈ stack) :
    (∀ x, x ∈ stack ∨ x ∈ reachable → x ∈ computeReachable.loop funnel stack reachable) ∧
    ∀ a ∈ computeReachable.loop funnel stack reachable, ∀ b, funnel.Follows a b →
      b ∈ computeReachable.loop funnel stack reachable := by
  induction stack, reachable using computeReachable.loop.induct funnel with
  | case1 reachable =>
    rw [computeReachable.loop]
    refine ⟨fun x hx => hx.resolve_left List.not_mem_nil, fun a ha b hb => ?_⟩
    exact (h a ha b hb).resolve_right List.not_mem_nil
  | case2 reachable id stack hseen ih =>
    rw [computeReachable.loop, if_pos hseen]
    obtain ⟨hkeeps, hclosed⟩ := ih fun a ha b hb => by
      obtain hb | hb := h a ha b hb
      · exact .inl hb
      · obtain rfl | hb := List.mem_cons.1 hb
        · exact .inl hseen
        · exact .inr hb
    refine ⟨fun x hx => ?_, hclosed⟩
    rw [List.mem_cons] at hx
    obtain (rfl | hx) | hx := hx
    · exact hkeeps x (.inr hseen)
    · exact hkeeps x (.inl hx)
    · exact hkeeps x (.inr hx)
  | case3 reachable id stack hnew targets ih =>
    rw [computeReachable.loop, if_neg hnew]
    obtain ⟨hkeeps, hclosed⟩ := ih fun a ha b hb => by
      rw [List.mem_append, List.mem_reverse, List.mem_cons]
      obtain rfl | ha := List.mem_cons.1 ha
      · by_cases hmem : b ∈ a :: reachable
        · exact .inl (List.mem_cons.1 hmem)
        · exact .inr (.inl (List.mem_filter.2 ⟨hb, decide_eq_true hmem⟩))
      · obtain hb | hb := h a ha b hb
        · exact .inl (.inr hb)
        · obtain rfl | hb := List.mem_cons.1 hb
          · exact .inl (.inl rfl)
          · exact .inr (.inr hb)
    refine ⟨fun x hx => ?_, hclosed⟩
    rw [List.mem_cons] at hx
    obtain (rfl | hx) | hx := hx
    · exact hkeeps x (.inr List.mem_cons_self)
    · exact hkeeps x (.inl (List.mem_append_right _ hx))
    · exact hkeeps x (.inr (List.mem_cons_of_mem id hx))

theorem mem_computeReachable_iff (hstart : funnel.order.head? = some start) :
    id ∈ funnel.computeReachable ↔ ReflTransGen funnel.Follows start id := by
  obtain ⟨rest, horder⟩ : ∃ rest, funnel.order = start :: rest := List.head?_eq_some_iff.1 hstart
  have hloop : funnel.computeReachable = computeReachable.loop funnel [start] [] := by
    rw [computeReachable, horder]
  rw [hloop]
  constructor
  · refine loop_sound [start] [] (fun x hx => ?_) id
    obtain hx | hx := hx
    · rw [List.mem_singleton.1 hx]
    · cases hx
  · have hempty : ∀ a ∈ ([] : List String), ∀ b, funnel.Follows a b →
        b ∈ ([] : List String) ∨ b ∈ [start] := nofun
    obtain ⟨hkeeps, hclosed⟩ := loop_closed [start] [] hempty
    intro h
    induction h with
    | refl => exact hkeeps start (.inl (List.mem_singleton_self start))
    | tail _ hstep ih => exact hclosed _ ih _ hstep

theorem reportedUnreachable_iff (hstart : funnel.order.head? = some start) :
    funnel.ReportedUnreachable id ↔ id ∈ funnel.order ∧ ¬ReflTransGen funnel.Follows start id := by
  rw [← mem_computeReachable_iff hstart]
  constructor
  · rintro ⟨message, h⟩
    obtain ⟨id', hid', heq⟩ := List.mem_map.1 h
    cases heq
    obtain ⟨horder, hnew⟩ := List.mem_filter.1 hid'
    exact ⟨horder, by simpa using hnew⟩
  · rintro ⟨horder, hnew⟩
    exact ⟨_, List.mem_map_of_mem (List.mem_filter.2 ⟨horder, decide_eq_true hnew⟩)⟩

theorem leads_of_visited (steps : List Given) (h : pageId ∈ funnel.visited id steps) :
    ReflTransGen funnel.Leads id pageId := by
  induction steps generalizing id with
  | nil => rw [List.mem_singleton.1 h]
  | cons given steps ih =>
    rw [visited] at h
    split at h
    · rename_i next hnext
      obtain rfl | h := List.mem_cons.1 h
      · exact .refl
      · exact .head ⟨given, hnext⟩ (ih h)
    · rw [List.mem_singleton.1 h]

theorem Leads.mem_order (h : funnel.Leads id pageId) : id ∈ funnel.order := by
  obtain ⟨given, hnext⟩ := h
  obtain ⟨page, hpage, -⟩ := Option.map_eq_some_iff.1 hnext
  exact mem_order_of_byId (by rw [hpage]; rfl)

theorem LandingsFollowed.reached (h : funnel.LandingsFollowed)
    (hstart : funnel.order.head? = some start) (hleads : ReflTransGen funnel.Leads start id)
    (hid : id ∈ funnel.order) : ReflTransGen funnel.Follows start id := by
  induction hleads with
  | refl => exact .refl
  | @tail a b ha hstep ih =>
    have hreached := ih hstep.mem_order
    by_cases hfollowed : b ∈ funnel.followed a
    · exact hreached.tail hfollowed
    · exact h start hstart a b ha ⟨hstep, hfollowed⟩ hid

theorem reachabilityJudged_iff : funnel.ReachabilityJudged ↔ funnel.LandingsFollowed := by
  constructor
  · intro h start hstart id pageId hleads hjumps horder
    obtain ⟨steps, hvisited⟩ := exists_visited (hleads.tail hjumps.1)
    have hnot := h start hstart steps pageId hvisited
    rw [reportedUnreachable_iff hstart] at hnot
    exact not_not.1 fun hunreached => hnot ⟨horder, hunreached⟩
  · intro h start hstart steps id hvisited hreported
    obtain ⟨horder, hunreached⟩ := (reportedUnreachable_iff hstart).1 hreported
    exact hunreached (h.reached hstart (leads_of_visited steps hvisited) horder)

/-- The validator judges as the evaluator behaves just where no clause names a field of a contact
and no unfollowed step lands on a page that it does not come to otherwise. -/
theorem judged_iff (hdotless : funnel.Dotless) :
    funnel.ReferencesJudged ∧ funnel.ReachabilityJudged ↔
      (∀ p q, funnel.HasClause p q → ¬funnel.SubField q) ∧ funnel.LandingsFollowed :=
  and_congr (referencesJudged_iff hdotless) reachabilityJudged_iff

def mailFirst : PagesArray where
  pages := [⟨"contact", .contactInfo, some "q", some [⟨"r", ⟨.all, [⟨"q.email", .isAnswered, none⟩]⟩,
      "paywall"⟩], some "done"⟩,
    ⟨"pw", .paywall, none, none, none⟩, ⟨"done", .success, none, none, some "end"⟩]
  distinct := by decide

theorem mailFirst_dotless : mailFirst.Dotless := by
  intro p hp q hq
  have hquestions : ∀ p ∈ mailFirst.pages, ∀ q ∈ p.questionId, q = "q" := by decide
  rw [hquestions p hp q hq]
  decide

def mailGiven : Given := ⟨Table.empty.set "q" (.contact none (some "a@b.c") none), none⟩

theorem mailFirst_follows (h : ReflTransGen mailFirst.Follows "contact" id) :
    id = "contact" ∨ id = "done" := by
  have hcontact : ∀ b ∈ mailFirst.followed "contact", b = "done" := by decide
  have hdone : mailFirst.followed "done" = [] := by decide
  induction h with
  | refl => exact .inl rfl
  | tail _ hstep ih =>
    obtain rfl | rfl := ih
    · exact .inr (hcontact _ hstep)
    · rw [Follows, hdone] at hstep
      cases hstep

/-- The mail resolves and is reported, and the paywall is visited and reported. -/
theorem mailFirst_misjudged :
    mailFirst.Dotless ∧ ¬mailFirst.ReferencesJudged ∧ ¬mailFirst.ReachabilityJudged := by
  refine ⟨mailFirst_dotless, fun hreferences => ?_, fun hreachability => ?_⟩
  · have hsub : mailFirst.SubField "q.email" :=
      ⟨_, List.mem_cons_self, rfl, "q", rfl, "email", by decide, by decide⟩
    have hclause : mailFirst.HasClause _ "q.email" :=
      ⟨List.mem_cons_self, _, List.mem_singleton_self _, _, List.mem_singleton_self _, rfl⟩
    exact (referencesJudged_iff mailFirst_dotless).1 hreferences _ _ hclause hsub
  · have hvisited : mailFirst.visited "contact" [mailGiven] = ["contact", "pw"] := by
      decide
    have hreported : mailFirst.ReportedUnreachable "pw" := by
      refine (reportedUnreachable_iff (rfl : mailFirst.order.head? = some "contact")).2
        ⟨by decide, fun hfollows => ?_⟩
      exact absurd (mailFirst_follows hfollows) (by decide)
    exact hreachability "contact" rfl [mailGiven] "pw" (by rw [hvisited]; decide) hreported

theorem judged_iff_mailFirst :
    mailFirst.ReferencesJudged ∧ mailFirst.ReachabilityJudged ↔
      (∀ p q, mailFirst.HasClause p q → ¬mailFirst.SubField q) ∧ mailFirst.LandingsFollowed :=
  judged_iff mailFirst_dotless

end PagesArray
end Rovenue.Funnel
