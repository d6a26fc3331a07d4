import Rovenue.Funnel.Evaluator
import Rovenue.Graph.DepthFirst

/-! `validateFunnelGraph`: the issues that keep a funnel from being published, and the pages it
warns about. -/

namespace Rovenue.Funnel

inductive ValidatorIssue where
  | missingPaywall (message : String)
  | missingSuccess (message : String)
  | cycle (message : String) (path : List String)
  | duplicateQuestionId (message questionId : String)
  | unknownQuestionRef (message pageId questionId : String)
  | unknownGoto (message pageId goto : String)
  | unreachable (message pageId : String)
  deriving DecidableEq

/-- `ok` is that there are no issues. -/
structure ValidationResult where
  issues : List ValidatorIssue
  warnings : List ValidatorIssue

def ValidationResult.ok (r : ValidationResult) : Bool := r.issues.isEmpty

def duplicateQuestionIds : List String → List Page → List ValidatorIssue
  | _, [] => []
  | seen, p :: pages =>
    match p.questionId with
    | none => duplicateQuestionIds seen pages
    | some q =>
      if q ∈ seen then
        .duplicateQuestionId s!"question_id '{q}' used on multiple pages" q ::
          duplicateQuestionIds seen pages
      else duplicateQuestionIds (q :: seen) pages

namespace PagesArray
variable (funnel : PagesArray)

def unknown (goto : String) : Bool :=
  goto ≠ "paywall" && goto ≠ "end" && (funnel.byId goto).isNone

def ruleIssues (p : Page) (rule : NextRule) : List ValidatorIssue :=
  let questionIds := funnel.pages.filterMap Page.questionId
  (rule.condition.clauses.filter fun c => c.questionId ∉ questionIds).map (fun c =>
      .unknownQuestionRef
        s!"Rule on page {p.id} references unknown question_id '{c.questionId}'" p.id c.questionId) ++
    if funnel.unknown rule.goto then
      [.unknownGoto s!"Rule {rule.id} on page {p.id} goes to unknown page {rule.goto}" p.id rule.goto]
    else []

def pageIssues (p : Page) : List ValidatorIssue :=
  (p.nextRules.getD []).flatMap (funnel.ruleIssues p) ++
    ((p.defaultNext.filter fun goto => funnel.unknown goto).map fun goto =>
      .unknownGoto s!"default_next on {p.id} -> unknown {goto}" p.id goto).toList

def nextTargets (p : Page) : List String :=
  (p.nextRules.getD []).map NextRule.goto ++
    match p.defaultNext with
    | some goto => [goto]
    | none => ((funnel.order.idxOf? p.id).bind fun i => funnel.order[i + 1]?).toList

def followed (id : String) : List String :=
  match funnel.byId id with
  | none => []
  | some p => (funnel.nextTargets p).filter fun target => target ≠ "paywall" && target ≠ "end"

def detectCycles : List ValidatorIssue :=
  (Graph.search funnel.followed funnel.order).found.map fun (stack, target) =>
    let path := stack.drop (stack.idxOf target) ++ [target]
    .cycle ("Cycle: " ++ " -> ".intercalate path) path

def unreached (reachable : List String) : List String :=
  funnel.order.filter fun id => id ∉ reachable

variable {funnel} {id : String} {reachable : List String}

theorem unreached_lt (hpage : id ∈ funnel.order) (hnew : id ∉ reachable) :
    (funnel.unreached (id :: reachable)).length < (funnel.unreached reachable).length := by
  have hsub : funnel.unreached (id :: reachable) =
      (funnel.unreached reachable).filter fun other => other ≠ id := by
    rw [unreached, unreached, List.filter_filter]
    refine List.filter_congr fun other _ => ?_
    simp [not_or]
  rw [hsub]
  refine List.length_filter_lt_length_iff_exists.2 ⟨id, ?_, by simp⟩
  exact List.mem_filter.2 ⟨hpage, by simpa using hnew⟩

theorem unreached_eq (hpage : id ∉ funnel.order) :
    funnel.unreached (id :: reachable) = funnel.unreached reachable := by
  refine List.filter_congr fun other hother => ?_
  have hne : other ≠ id := by
    rintro rfl
    exact hpage hother
  simp [hne]

theorem byId_eq_none (hpage : id ∉ funnel.order) : funnel.byId id = none := by
  rw [byId, List.find?_eq_none]
  intro p hp hid
  exact hpage (List.mem_map.2 ⟨p, hp, by simpa using hid⟩)

theorem followed_eq_nil (hpage : id ∉ funnel.order) : funnel.followed id = [] := by
  rw [followed, byId_eq_none hpage]

variable (funnel)

def computeReachable.loop (stack reachable : List String) : List String :=
  match stack with
  | [] => reachable
  | id :: stack =>
    if id ∈ reachable then computeReachable.loop stack reachable
    else
      let targets := (funnel.followed id).filter fun target => target ∉ id :: reachable
      computeReachable.loop (targets.reverse ++ stack) (id :: reachable)
termination_by ((funnel.unreached reachable).length, stack.length)
decreasing_by
  · exact .right _ (Nat.lt_succ_self _)
  · rename_i hnew
    by_cases hpage : id ∈ funnel.order
    · exact .left _ _ (unreached_lt hpage hnew)
    · rw [unreached_eq hpage, followed_eq_nil hpage]
      exact .right _ (Nat.lt_succ_self _)

def computeReachable : List String :=
  match funnel.order with
  | [] => []
  | start :: _ => computeReachable.loop funnel [start] []

end PagesArray

def validateFunnelGraph (funnel : PagesArray) : ValidationResult where
  issues :=
    (if funnel.pages.any fun p => p.type = .paywall then []
      else [.missingPaywall "Funnel needs at least one paywall page"]) ++
    (if funnel.pages.any fun p => p.type = .success then []
      else [.missingSuccess "Funnel needs at least one success page"]) ++
    duplicateQuestionIds [] funnel.pages ++ funnel.pages.flatMap funnel.pageIssues ++
    funnel.detectCycles
  warnings := (funnel.unreached funnel.computeReachable).map fun id =>
    .unreachable s!"Page {id} is unreachable from start" id

end Rovenue.Funnel
