import Rovenue.Paywall.Validate

/-! What a renderer shows: a node with its active overrides applied, and the text of a key in
the locale asked for. -/

namespace Rovenue.Paywall
open Js
open Txn (Table)

def localeCandidates (locale : String) : List String :=
  let parts := locale.toList.splitOn '-'
  (List.range parts.length).reverse.map fun i =>
    "-".intercalate ((parts.take (i + 1)).map String.ofList)

section
variable (engine : Engine) (config : BuilderConfig)

def localeTable (locale : String) : Option TextRecord :=
  match recordAt config.localizations locale with
  | some direct => some direct
  | none =>
    let wanted := engine.toLowerCase locale
    (config.localizations.entries.find? fun e => engine.toLowerCase e.1 = wanted).map fun e =>
      .own e.2

def readOptional (record : Option TextRecord) (key : Value) : Found :=
  record.elim .undefined fun r => r.read key

def resolveText (locale : String) (key : Value) : Found :=
  -- The locale, its shorter prefixes, the default locale, null. The first value that is not
  -- undefined is the answer, whatever it holds.
  let direct := readOptional (recordAt config.localizations locale) key
  if direct ≠ .undefined then direct else
  let values := (localeCandidates locale).map fun candidate =>
    readOptional (localeTable engine config candidate) key
  match values.find? (· ≠ .undefined) with
  | some value => value
  | none =>
    let fallback := readOptional (localeTable engine config config.defaultLocale) key
    if fallback ≠ .undefined then fallback else .null

end

structure ActiveConditions where
  introEligible : Bool
  selected : Bool
  deriving DecidableEq

def ActiveConditions.includes (active : ActiveConditions) : OverrideCondition → Bool
  | .introEligible => active.introEligible
  | .selected => active.selected

def spread (fields props : Table String Json) : Table String Json :=
  props.entries.foldl (fun merged prop => merged.set prop.1 prop.2) fields

def mergeOverride (active : ActiveConditions) (merged : PaywallNode) (override : NodeOverride) :
    PaywallNode :=
  if active.includes override.when then merged.withFields (spread merged.own.fields override.props)
  else merged

def applyOverrides (node : PaywallNode) (active : ActiveConditions) : PaywallNode :=
  -- The props of the active overrides, a later one over an earlier one. The properties that make
  -- the tree are not overridable.
  node.overrides.foldl (mergeOverride active) node

theorem get?_spread (fields props : Table String Json) (name : String) :
    (spread fields props).get? name = (props.get? name).or (fields.get? name) := by
  obtain ⟨entries, hnodup⟩ := props
  simp only [spread, Table.get?]
  induction entries generalizing fields with
  | nil => rfl
  | cons e entries ih =>
    rw [List.map_cons, List.nodup_cons] at hnodup
    rw [List.foldl_cons, ih _ hnodup.2]
    by_cases hname : e.1 = name
    · have hnone : entries.find? (fun e => e.1 = name) = none := by
        rw [List.find?_eq_none]
        intro f hf hfname
        exact hnodup.1 (List.mem_map.2 ⟨f, hf, by simpa [hname] using hfname⟩)
      have hset : (fields.set e.1 e.2).get? name = some e.2 := by
        rw [Table.get?_set, if_pos hname.symm]
      rw [List.find?_cons_of_pos (by simpa using hname), hnone]
      exact hset
    · have hset : (fields.set e.1 e.2).get? name = fields.get? name := by
        rw [Table.get?_set, if_neg (Ne.symm hname)]
      rw [List.find?_cons_of_neg (by simpa using hname)]
      exact congrArg (Option.or _) hset

def lastProp (overrides : List NodeOverride) (name : String) : Value :=
  overrides.reverse.findSome? fun override => override.props.get? name

@[simp] theorem lastProp_nil (name : String) : lastProp [] name = none := rfl

theorem lastProp_append (first second : List NodeOverride) (name : String) :
    lastProp (first ++ second) name = (lastProp second name).or (lastProp first name) := by
  simp [lastProp, List.findSome?_append]

theorem lastProp_singleton (override : NodeOverride) (name : String) :
    lastProp [override] name = override.props.get? name := by
  simp [lastProp]

section
variable (node : PaywallNode) (active : ActiveConditions)

theorem field_mergeAll (overrides : List NodeOverride) (name : String) :
    (overrides.foldl (mergeOverride active) node).field name
      = (lastProp (overrides.filter fun o => active.includes o.when) name).or (node.field name) := by
  induction overrides using List.reverseRecOn with
  | nil => simp
  | append_singleton overrides last ih =>
    rw [List.foldl_concat, List.filter_append]
    by_cases hactive : active.includes last.when
    · have hfilter : [last].filter (fun o => active.includes o.when) = [last] := by simp [hactive]
      rw [mergeOverride, if_pos hactive, hfilter, lastProp_append, lastProp_singleton,
        PaywallNode.field_withFields, get?_spread, Option.or_assoc, ← ih]
      rfl
    · have hfilter : [last].filter (fun o => active.includes o.when) = [] := by simp [hactive]
      rw [mergeOverride, if_neg hactive, hfilter, List.append_nil, ih]

theorem type_mergeAll (overrides : List NodeOverride) :
    (overrides.foldl (mergeOverride active) node).type = node.type := by
  induction overrides using List.reverseRecOn with
  | nil => rfl
  | append_singleton overrides last ih =>
    rw [List.foldl_concat, mergeOverride]
    split
    · rw [PaywallNode.type_withFields, ih]
    · exact ih

@[simp] theorem type_applyOverrides : (applyOverrides node active).type = node.type :=
  type_mergeAll node active node.overrides

theorem field_applyOverrides (name : String) :
    (applyOverrides node active).field name
      = (lastProp (node.overrides.filter fun o => active.includes o.when) name).or
        (node.field name) :=
  field_mergeAll node active node.overrides name

end

end Rovenue.Paywall
