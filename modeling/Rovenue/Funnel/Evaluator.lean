import Rovenue.Txn.Table

/-! The branching rules of a funnel and `evaluateNext`, which picks the page after a page.
Numbers are exact, and a date is its text. -/

namespace Rovenue.Funnel
open Txn (Table)

inductive PageType where
  | singleChoice | multiChoice | textInput | numberInput | dateInput | slider | rating | info
  | loading | result | paywall | success | contactInfo | email | phone | pictureChoice | yesNo
  | legal | checkbox | opinionScale | longText | shortText | welcome | statement | feature
  | endScreen
  deriving DecidableEq, Repr

inductive ClauseOp where
  | eq | neq | gt | gte | lt | lte | between | isIn | notIn | contains | notContains | before
  | after | onOrBefore | onOrAfter | withinLastDays | moreThanDaysAgo | isAnswered | isNotAnswered
  deriving DecidableEq, Repr

inductive Scalar where
  | null
  | bool (b : Bool)
  | num (x : ℚ)
  | str (s : String)
  deriving DecidableEq

inductive Operand where
  | scalar (v : Scalar)
  | list (vs : List (Option Scalar))
  | object

structure Clause where
  questionId : String
  op : ClauseOp
  value : Option Operand := none

inductive ConditionOp where
  | all | any
  deriving DecidableEq, Repr

structure Condition where
  op : ConditionOp
  clauses : List Clause

structure NextRule where
  id : String
  condition : Condition
  goto : String

structure Page where
  id : String
  type : PageType
  questionId : Option String := none
  nextRules : Option (List NextRule) := none
  defaultNext : Option String := none

/-- `pagesArraySchema`: page ids are distinct. -/
structure PagesArray where
  pages : List Page
  distinct : (pages.map Page.id).Nodup

def PagesArray.order (funnel : PagesArray) : List String := funnel.pages.map Page.id

def PagesArray.byId (funnel : PagesArray) (id : String) : Option Page :=
  funnel.pages.find? fun p => p.id = id

inductive AnswerValue where
  | scalar (v : Scalar)
  | strings (vs : List String)
  | contact (name email phone : Option String)

abbrev AnswerMap := Table String AnswerValue

def isTrimmed (c : Char) : Bool :=
  c.toNat ∈ [0x09, 0x0a, 0x0b, 0x0c, 0x0d, 0x20, 0xa0, 0x1680, 0x2028, 0x2029, 0x202f, 0x205f,
    0x3000, 0xfeff] || (0x2000 ≤ c.toNat && c.toNat ≤ 0x200a)

def isAnswered : Option AnswerValue → Bool
  | none => false
  | some (.scalar .null) => false
  | some (.scalar (.str s)) => s ≠ ""
  | some (.scalar _) => true
  | some (.strings vs) => vs ≠ []
  | some (.contact name email phone) =>
    let entries := [name, email, phone].filterMap id
    entries ≠ [] && entries.all fun v => v.toList.any fun c => !isTrimmed c

def resolveAnswer (questionId : String) (answers : AnswerMap) : Option AnswerValue :=
  -- `<question_id>.<field>` names a field of a contact answer
  let chars := questionId.toList
  let base := chars.takeWhile (· ≠ '.')
  if base = chars then answers.get? questionId
  else
    let field := String.ofList (chars.drop (base.length + 1))
    match answers.get? (String.ofList base) with
    | some (.contact name email phone) =>
      if field = "name" then name.map fun s => .scalar (.str s)
      else if field = "email" then email.map fun s => .scalar (.str s)
      else if field = "phone" then phone.map fun s => .scalar (.str s)
      else none
    | _ => none

def isIsoDate (s : String) : Bool :=
  match s.toList with
  | [y₁, y₂, y₃, y₄, '-', m₁, m₂, '-', d₁, d₂] =>
    [y₁, y₂, y₃, y₄, m₁, m₂, d₁, d₂].all Char.isDigit
  | _ => false

def numberOfDigits (digits : List Char) : ℤ :=
  digits.foldl (fun n c => 10 * n + (c.toNat - '0'.toNat : ℕ)) 0

def makeDay (year month day : ℤ) : ℤ :=
  -- days since 1970-01-01 of a date of the proleptic Gregorian calendar; a month outside the year
  -- moves the year
  let year := year + month / 12
  let month := month % 12
  -- March is the first month of the year here
  let shifted := if month < 2 then year - 1 else year
  let monthOfYear := if month < 2 then month + 10 else month - 2
  let dayOfYear := (153 * monthOfYear + 2) / 5 + day - 1
  365 * shifted + shifted / 4 - shifted / 100 + shifted / 400 + dayOfYear - 719468

def dateOfDay (n : ℤ) : ℤ × ℤ × ℤ :=
  let z := n + 719468
  let era := z / 146097
  let dayOfEra := z % 146097
  let yearOfEra := (dayOfEra - dayOfEra / 1460 + dayOfEra / 36524 - dayOfEra / 146096) / 365
  let dayOfYear := dayOfEra - (365 * yearOfEra + yearOfEra / 4 - yearOfEra / 100)
  let monthOfYear := (5 * dayOfYear + 2) / 153
  let day := dayOfYear - (153 * monthOfYear + 2) / 5 + 1
  let month := if monthOfYear < 10 then monthOfYear + 3 else monthOfYear - 9
  (yearOfEra + era * 400 + (if month ≤ 2 then 1 else 0), month, day)

def padStart (width : ℕ) (s : String) : String :=
  String.ofList (List.replicate (width - s.length) '0') ++ s

def maxDay : ℤ := 100000000

def shiftIsoDays (iso : String) (days : ℤ) : Option String :=
  match isIsoDate iso, iso.toList with
  | true, [y₁, y₂, y₃, y₄, _, m₁, m₂, _, d₁, d₂] =>
    let y := numberOfDigits [y₁, y₂, y₃, y₄]
    -- `Date.UTC` takes a year below 100 for one of the twentieth century
    let year := if y ≤ 99 then 1900 + y else y
    let shifted := makeDay year (numberOfDigits [m₁, m₂] - 1) (numberOfDigits [d₁, d₂]) + days
    if shifted.natAbs ≤ maxDay then
      let (yy, mm, dd) := dateOfDay shifted
      some (padStart 4 (toString yy) ++ "-" ++ padStart 2 (toString mm) ++ "-" ++
        padStart 2 (toString dd))
    else some "0NaN-NaN-NaN"
  | _, _ => none

section Comparisons
variable (a : Option AnswerValue) (value : Option Operand)

def isArray : Bool :=
  match a with
  | some (.strings _) => true
  | _ => false

def strictEquals : Bool :=
  match a, value with
  | none, none => true
  | some (.scalar x), some (.scalar y) => x = y
  | _, _ => false

def includes (vs : List (Option Scalar)) : Bool :=
  match a with
  | some (.scalar x) => some x ∈ vs
  | _ => false

def compareNumbers (r : ℚ → ℚ → Bool) : Bool :=
  match a, value with
  | some (.scalar (.num x)), some (.scalar (.num y)) => r x y
  | _, _ => false

def compareDates (r : String → String → Bool) : Bool :=
  match a, value with
  | some (.scalar (.str x)), some (.scalar (.str y)) => isIsoDate x && isIsoDate y && r x y
  | _, _ => false

def compareToday (today : Option String) (r : String → String → String → Bool) : Bool :=
  match a, value, today with
  | some (.scalar (.str x)), some (.scalar (.num days)), some today =>
    if isIsoDate x && days.den = 1 && 0 ≤ days then
      match shiftIsoDays today (-days.num) with
      | some cutoff => isIsoDate today && r x cutoff today
      | none => false
    else false
  | _, _, _ => false

end Comparisons

def evalClause (clause : Clause) (answers : AnswerMap) (today : Option String) : Bool :=
  let a := resolveAnswer clause.questionId answers
  match clause.op with
  | .isAnswered => isAnswered a
  | .isNotAnswered => !isAnswered a
  | .eq => !isArray a && strictEquals a clause.value
  | .neq => !isArray a && !strictEquals a clause.value
  | .gt => compareNumbers a clause.value fun x y => x > y
  | .gte => compareNumbers a clause.value fun x y => x ≥ y
  | .lt => compareNumbers a clause.value fun x y => x < y
  | .lte => compareNumbers a clause.value fun x y => x ≤ y
  | .between =>
    -- the schema admits two numbers only
    match a, clause.value with
    | some (.scalar (.num x)), some (.list [some (.num min), some (.num max)]) => min ≤ x && x ≤ max
    | _, _ => false
  | .isIn =>
    match clause.value with
    | some (.list vs) => !isArray a && includes a vs
    | _ => false
  | .notIn =>
    match clause.value with
    | some (.list vs) => !isArray a && !includes a vs
    | _ => false
  | .contains =>
    match a, clause.value with
    | some (.strings vs), some (.scalar (.str v)) => v ∈ vs
    | _, _ => false
  | .notContains =>
    match a, clause.value with
    | some (.strings vs), some (.scalar (.str v)) => v ∉ vs
    | _, _ => false
  | .before => compareDates a clause.value fun x y => x < y
  | .after => compareDates a clause.value fun x y => y < x
  | .onOrBefore => compareDates a clause.value fun x y => x ≤ y
  | .onOrAfter => compareDates a clause.value fun x y => y ≤ x
  | .withinLastDays =>
    compareToday a clause.value today fun x cutoff today => cutoff ≤ x && x ≤ today
  | .moreThanDaysAgo => compareToday a clause.value today fun x cutoff _ => x < cutoff

def conditionMatches (condition : Condition) (answers : AnswerMap) (today : Option String) : Bool :=
  match condition.op with
  | .all => condition.clauses.all fun c => evalClause c answers today
  | .any => condition.clauses.any fun c => evalClause c answers today

inductive EvalResult where
  | page (pageId : String)
  | paywall
  | finish
  deriving DecidableEq

namespace PagesArray
variable (funnel : PagesArray)

def firstPaywallId : Option String :=
  funnel.order.find? fun id => (funnel.byId id).any fun p => p.type = .paywall

def resolveGoto (goto fromId : String) : EvalResult :=
  if goto = "paywall" then
    -- the empty id is falsy
    match funnel.firstPaywallId.filter (· ≠ "") with
    | some paywallId => .page paywallId
    | none => .paywall
  else if goto = "end" then .finish
  else if goto = "sequential" then
    match (funnel.order.idxOf? fromId).bind fun i => funnel.order[i + 1]? with
    | some pageId => .page pageId
    | none => .finish
  else .page goto

end PagesArray

def chosenGoto (page : Page) (answers : AnswerMap) (today : Option String) : String :=
  match (page.nextRules.getD []).find? fun rule =>
    conditionMatches rule.condition answers today with
  | some rule => rule.goto
  | none => page.defaultNext.getD "sequential"

def evaluateNext (funnel : PagesArray) (page : Page) (answers : AnswerMap)
    (today : Option String) : EvalResult :=
  funnel.resolveGoto (chosenGoto page answers today) page.id

end Rovenue.Funnel
