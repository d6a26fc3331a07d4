import Rovenue.Paywall.Localization

/-! Which texts a published paywall can show, and when none of them is missing. -/

namespace Rovenue.Paywall
open Js
open Txn (Table)

def overriddenProp (node : PaywallNode) (condition : OverrideCondition) (name : String) : Value :=
  lastProp (node.overrides.filter fun override => override.when = condition) name

def liveValues (node : PaywallNode) (name : String) : List Value :=
  node.field name :: ([.introEligible, .selected].filterMap fun condition =>
    (overriddenProp node condition name).map some)

def liveKeys (node : PaywallNode) : List Value :=
  match node.type with
  | .leaf .text => liveValues node "key"
  | .leaf .button => liveValues node "labelKey"
  | .leaf .purchaseButton =>
    liveValues node "labelKey" ++ (liveValues node "trialLabelKey").filter Json.truthy
  | _ => localizedKeysOf node

def uncheckedKeys (node : PaywallNode) : List Value :=
  -- those that `validateBuilderConfig` does not look up: the keys that an override of
  -- `trialLabelKey` brings in, and overriding values that are no texts
  (liveKeys node).filter fun key => Json.propertyKey key ∉ checkedKeys node

section
variable (node : PaywallNode) (name : String)

theorem lastProp_inactive :
    lastProp (node.overrides.filter fun o => ActiveConditions.includes ⟨false, false⟩ o.when) name
      = none := by
  have hnone : node.overrides.filter
      (fun o => ActiveConditions.includes ⟨false, false⟩ o.when) = [] := by
    rw [List.filter_eq_nil_iff]
    intro o _
    cases o.when <;> exact Bool.false_ne_true
  rw [hnone, lastProp_nil]

theorem lastProp_only {active : ActiveConditions} {condition : OverrideCondition}
    (h : ∀ c, active.includes c = decide (c = condition)) :
    lastProp (node.overrides.filter fun o => active.includes o.when) name
      = overriddenProp node condition name := by
  simp only [overriddenProp, h]

theorem lastProp_both (overrides : List NodeOverride) :
    lastProp overrides name = lastProp (overrides.filter fun o => o.when = .introEligible) name
      ∨ lastProp overrides name = lastProp (overrides.filter fun o => o.when = .selected) name := by
  induction overrides using List.reverseRecOn with
  | nil => exact .inl rfl
  | append_singleton overrides last ih =>
    simp only [List.filter_append, lastProp_append]
    cases hlast : last.when <;> cases hprop : last.props.get? name <;>
      simp [hlast, lastProp_singleton, hprop] <;> exact ih

theorem lastProp_active (active : ActiveConditions) :
    lastProp (node.overrides.filter fun o => active.includes o.when) name = none
      ∨ ∃ condition, lastProp (node.overrides.filter fun o => active.includes o.when) name
        = overriddenProp node condition name := by
  obtain ⟨intro, selected⟩ := active
  cases intro <;> cases selected
  · exact .inl (lastProp_inactive node name)
  · exact .inr ⟨.selected, lastProp_only node name fun c => by cases c <;> rfl⟩
  · exact .inr ⟨.introEligible, lastProp_only node name fun c => by cases c <;> rfl⟩
  · right
    have hall : node.overrides.filter
        (fun o => ActiveConditions.includes ⟨true, true⟩ o.when) = node.overrides := by
      rw [List.filter_eq_self]
      intro o _
      cases o.when <;> rfl
    rw [hall]
    rcases lastProp_both name node.overrides with h | h
    · exact ⟨.introEligible, h⟩
    · exact ⟨.selected, h⟩

theorem exists_lastProp (condition : OverrideCondition) :
    ∃ active : ActiveConditions,
      lastProp (node.overrides.filter fun o => active.includes o.when) name
        = overriddenProp node condition name := by
  cases condition with
  | introEligible => exact ⟨⟨true, false⟩, lastProp_only node name fun c => by cases c <;> rfl⟩
  | selected => exact ⟨⟨false, true⟩, lastProp_only node name fun c => by cases c <;> rfl⟩

end

theorem mem_liveValues {node : PaywallNode} {name : String} {value : Value} :
    value ∈ liveValues node name
      ↔ ∃ active, value = (applyOverrides node active).field name := by
  simp only [field_applyOverrides]
  constructor
  · intro h
    rcases List.mem_cons.1 h with rfl | h
    · refine ⟨⟨false, false⟩, ?_⟩
      rw [lastProp_inactive, Option.none_or]
    · obtain ⟨condition, -, hvalue⟩ := List.mem_filterMap.1 h
      obtain ⟨prop, hprop, rfl⟩ := Option.map_eq_some_iff.1 hvalue
      obtain ⟨active, hactive⟩ := exists_lastProp node name condition
      refine ⟨active, ?_⟩
      rw [hactive, hprop, Option.some_or]
  · rintro ⟨active, rfl⟩
    rcases lastProp_active node name active with hnone | ⟨condition, hcondition⟩
    · rw [hnone, Option.none_or]
      exact List.mem_cons_self
    · rw [hcondition]
      cases hprop : overriddenProp node condition name with
      | none =>
        rw [Option.none_or]
        exact List.mem_cons_self
      | some prop =>
        apply List.mem_cons_of_mem
        refine List.mem_filterMap.2 ⟨condition, by cases condition <;> simp, ?_⟩
        rw [hprop, Option.some_or]
        rfl

def Overridable (node : PaywallNode) : Prop :=
  ∀ override ∈ node.overrides, ∀ prop ∈ override.props.entries,
    prop.1 ∈ overridablePropKeys node.type

theorem lastProp_eq_none {overrides : List NodeOverride} {name : String}
    (h : ∀ override ∈ overrides, override.props.get? name = none) :
    lastProp overrides name = none := by
  rw [lastProp, List.findSome?_eq_none_iff]
  intro override hoverride
  exact h override (List.mem_reverse.1 hoverride)

theorem Overridable.field_applyOverrides {node : PaywallNode} (h : Overridable node)
    (active : ActiveConditions) {name : String} (hname : name ∉ overridablePropKeys node.type) :
    (applyOverrides node active).field name = node.field name := by
  have hnone : lastProp (node.overrides.filter fun o => active.includes o.when) name = none := by
    apply lastProp_eq_none
    intro override hoverride
    rw [Table.get?_eq_none]
    intro hmem
    obtain ⟨prop, hprop, rfl⟩ := List.mem_map.1 hmem
    exact hname (h override (List.mem_of_mem_filter hoverride) prop hprop)
  rw [Paywall.field_applyOverrides, hnone, Option.none_or]

theorem localizedKeysOf_congr {node other : PaywallNode} (htype : other.type = node.type)
    (hfield : ∀ name ∈ ["key", "labelKey", "trialLabelKey", "rows", "links"],
      other.field name = node.field name) :
    localizedKeysOf other = localizedKeysOf node := by
  simp only [List.mem_cons, List.not_mem_nil, or_false, forall_eq_or_imp, forall_eq] at hfield
  obtain ⟨hkey, hlabel, htrial, hrows, hlinks⟩ := hfield
  simp only [localizedKeysOf, htype, hkey, hlabel, htrial, hrows, hlinks]

theorem mem_liveKeys {node : PaywallNode} (h : Overridable node) {key : Value} :
    key ∈ liveKeys node ↔ ∃ active, key ∈ localizedKeysOf (applyOverrides node active) := by
  have hsame : (∀ name ∈ ["key", "labelKey", "trialLabelKey", "rows", "links"],
      name ∉ overridablePropKeys node.type) →
      (key ∈ localizedKeysOf node ↔ ∃ active, key ∈ localizedKeysOf (applyOverrides node active)) := by
    intro hnames
    have hkeys : ∀ active, localizedKeysOf (applyOverrides node active) = localizedKeysOf node :=
      fun active => localizedKeysOf_congr (type_applyOverrides node active) fun name hname =>
        h.field_applyOverrides active (hnames name hname)
    constructor
    · intro hkey
      exact ⟨⟨false, false⟩, by rwa [hkeys]⟩
    · rintro ⟨active, hkey⟩
      rwa [hkeys] at hkey
  match htype : node.type with
  | .leaf .text =>
    simp only [liveKeys, htype, localizedKeysOf, type_applyOverrides, List.mem_singleton]
    exact mem_liveValues
  | .leaf .button =>
    simp only [liveKeys, htype, localizedKeysOf, type_applyOverrides, List.mem_singleton]
    exact mem_liveValues
  | .leaf .purchaseButton =>
    simp only [liveKeys, htype, localizedKeysOf, type_applyOverrides, List.mem_append,
      List.mem_filter]
    constructor
    · rintro (hlabel | ⟨htrial, htruthy⟩)
      · obtain ⟨active, rfl⟩ := mem_liveValues.1 hlabel
        refine ⟨active, ?_⟩
        split <;> exact List.mem_cons_self
      · obtain ⟨active, rfl⟩ := mem_liveValues.1 htrial
        refine ⟨active, ?_⟩
        rw [if_pos htruthy]
        exact List.mem_cons_of_mem _ List.mem_cons_self
    · rintro ⟨active, hkey⟩
      split at hkey
      case isTrue htruthy =>
        rcases List.mem_cons.1 hkey with rfl | hkey
        · exact .inl (mem_liveValues.2 ⟨active, rfl⟩)
        · obtain rfl := List.mem_singleton.1 hkey
          exact .inr ⟨mem_liveValues.2 ⟨active, rfl⟩, htruthy⟩
      case isFalse =>
        obtain rfl := List.mem_singleton.1 hkey
        exact .inl (mem_liveValues.2 ⟨active, rfl⟩)
  | .container t =>
    simp only [liveKeys, htype]
    exact hsame (by rw [htype]; cases t <;> decide)
  | .packageList =>
    simp only [liveKeys, htype]
    exact hsame (by rw [htype]; decide)
  | .leaf .image | .leaf .spacer | .leaf .divider | .leaf .icon | .leaf .featureList
  | .leaf .timeline | .leaf .socialProof | .leaf .countdown | .leaf .video | .leaf .lottie
  | .leaf .footerLinks =>
    simp only [liveKeys, htype]
    exact hsame (by rw [htype]; decide)

section
variable (engine : Engine) (config : BuilderConfig) (opts : ValidateOptions)

/-- No issue keeps the config from being published. -/
def Publishable : Prop :=
  ∀ issue ∈ validateBuilderConfig engine config opts, isPublishBlockingIssue issue = false

variable {engine config opts}

theorem Publishable.node (h : Publishable engine config opts) {node : PaywallNode}
    (hnode : config.root.HasNode node) :
    locKeyIssues config node = [] ∧ overridePropIssues node = [] := by
  have hmem := mem_nodes_iff.2 hnode
  constructor
  · rw [List.eq_nil_iff_forall_not_mem]
    intro issue hissue
    have hcode : isPublishBlockingIssue issue = true := by
      obtain ⟨key, -, hissue⟩ := List.mem_flatMap.1 hissue
      dsimp only at hissue
      split at hissue
      · obtain rfl := List.mem_singleton.1 hissue
        rfl
      · split at hissue
        · obtain rfl := List.mem_singleton.1 hissue
          rfl
        · exact absurd hissue List.not_mem_nil
    have hpublish := h issue (by
      simp only [validateBuilderConfig, List.mem_append]
      exact .inl (.inl (.inl (.inl (.inl (.inr (List.mem_flatMap.2 ⟨node, hmem, hissue⟩)))))))
    rw [hcode] at hpublish
    exact Bool.false_ne_true hpublish.symm
  · rw [List.eq_nil_iff_forall_not_mem]
    intro issue hissue
    have hcode : isPublishBlockingIssue issue = true := by
      obtain ⟨override, -, hissue⟩ := List.mem_flatMap.1 hissue
      obtain ⟨prop, -, hissue⟩ := List.mem_flatMap.1 hissue
      split at hissue
      · exact absurd hissue List.not_mem_nil
      · obtain rfl := List.mem_singleton.1 hissue
        rfl
    have hpublish := h issue (by
      simp only [validateBuilderConfig, List.mem_append]
      exact .inl (.inr (List.mem_flatMap.2 ⟨node, hmem, hissue⟩)))
    rw [hcode] at hpublish
    exact Bool.false_ne_true hpublish.symm

theorem Publishable.overridable (h : Publishable engine config opts) {node : PaywallNode}
    (hnode : config.root.HasNode node) : Overridable node := by
  intro override hoverride prop hprop
  by_contra hkey
  have hnil := (h.node hnode).2
  simp only [overridePropIssues, List.flatMap_eq_nil_iff] at hnil
  have hissue := hnil override hoverride prop hprop
  rw [if_neg hkey] at hissue
  exact List.cons_ne_nil _ _ hissue

theorem Publishable.checked (h : Publishable engine config opts) {node : PaywallNode}
    (hnode : config.root.HasNode node) {key : Option String} (hkey : key ∈ checkedKeys node) :
    (∃ name, key = some name ∧ config.defaultLocaleTable.hasOwn name)
      ∧ (config.defaultLocaleTable.readName key).isWritten := by
  have hnil := (h.node hnode).1
  simp only [locKeyIssues, List.flatMap_eq_nil_iff] at hnil
  have hissue := hnil key hkey
  split at hissue
  · exact absurd hissue (List.cons_ne_nil _ _)
  · rename_i hown
    split at hissue
    · exact absurd hissue (List.cons_ne_nil _ _)
    · rename_i hwritten
      rw [not_not] at hown
      obtain ⟨name, hname, hown⟩ := hown
      refine ⟨⟨name, hname, hown⟩, ?_⟩
      simpa [isMissingLocaleValue] using hwritten

end

section
variable {engine : Engine} {config : BuilderConfig} {locale : String} {record : TextRecord}

theorem recordAt_of_localeTable (h : localeTable engine config locale = some record) :
    ∃ code, recordAt config.localizations code = some record := by
  rw [localeTable] at h
  split at h
  case h_1 direct hdirect =>
    cases h
    exact ⟨locale, hdirect⟩
  case h_2 =>
    obtain ⟨entry, hentry, rfl⟩ := Option.map_eq_some_iff.1 h
    refine ⟨entry.1, ?_⟩
    have hget := (Table.mem_entries _).1 (List.mem_of_find?_eq_some hentry)
    rw [recordAt, hget]

theorem localeTable_of_recordAt (h : recordAt config.localizations locale = some record) :
    localeTable engine config locale = some record := by
  rw [localeTable, h]

theorem exists_unknown_locale (engine : Engine) (config : BuilderConfig) :
    ∃ locale, recordAt config.localizations locale = none
      ∧ ∀ candidate ∈ localeCandidates locale, localeTable engine config candidate = none := by
  obtain ⟨bound, hbound⟩ : ∃ bound, ∀ code ∈ config.localizations.entries.map Prod.fst,
      code.toList.length ≤ bound := by
    refine ⟨((config.localizations.entries.map Prod.fst).map fun c => c.toList.length).sum, ?_⟩
    intro code hcode
    exact List.single_le_sum (fun _ _ => Nat.zero_le _) _ (List.mem_map_of_mem hcode)
  let digits := List.replicate (bound + 1) '0'
  have hdigits : (String.ofList digits).toList = digits := String.toList_ofList
  have hnew : String.ofList digits ∉ config.localizations.entries.map Prod.fst := by
    intro hmem
    have hlength := hbound _ hmem
    rw [hdigits, List.length_replicate] at hlength
    omega
  have hrecord : recordAt config.localizations (String.ofList digits) = none := by
    have hname : String.ofList digits ∉ objectPrototypeKeys := by
      intro hmem
      have hfirst : ∀ name ∈ objectPrototypeKeys, name.toList.head? ≠ some '0' := by decide
      apply hfirst _ hmem
      rw [hdigits]
      rfl
    rw [recordAt, (Table.get?_eq_none _).2 hnew]
    exact if_neg hname
  have hall : (String.ofList digits).toList.all Char.isDigit = true := by
    rw [hdigits, List.all_eq_true]
    intro c hc
    rw [List.eq_of_mem_replicate hc]
    decide
  refine ⟨String.ofList digits, hrecord, ?_⟩
  have hcandidates : localeCandidates (String.ofList digits) = [String.ofList digits] := by
    have hsplit : digits.splitOn '-' = [digits] := by
      apply List.splitOn_eq_singleton
      intro hmem
      exact absurd (List.eq_of_mem_replicate hmem) (by decide)
    rw [localeCandidates, hdigits, hsplit]
    simp
  intro candidate hcandidate
  rw [hcandidates, List.mem_singleton] at hcandidate
  rw [hcandidate, localeTable, hrecord]
  -- the engine gives the digits back, and no other code has them for its lower case
  have hlower := (engine.toLowerCase_eq_digits (String.ofList digits) _ hall).2 rfl
  simp only [hlower, Option.map_eq_none_iff, List.find?_eq_none, decide_eq_true_eq]
  intro entry hentry hcode
  have hsame := (engine.toLowerCase_eq_digits entry.1 _ hall).1 hcode
  exact hnew (hsame ▸ List.mem_map_of_mem hentry)

end

theorem readOptional_ne {config : BuilderConfig} {locale : String} {key : Value}
    (h : readOptional (recordAt config.localizations locale) key ≠ .undefined) :
    ∃ record, recordAt config.localizations locale = some record
      ∧ readOptional (recordAt config.localizations locale) key = record.read key := by
  cases hrecord : recordAt config.localizations locale with
  | none =>
    rw [hrecord] at h
    exact absurd rfl h
  | some record => exact ⟨record, rfl, rfl⟩

theorem resolveText_written {engine : Engine} {config : BuilderConfig} {key : Value}
    (hreads : ∀ code record, recordAt config.localizations code = some record →
      record.read key = .undefined ∨ (record.read key).isWritten)
    {fallback : TextRecord} (hdefault : recordAt config.localizations config.defaultLocale = some fallback)
    (hwritten : (fallback.read key).isWritten) (locale : String) :
    (resolveText engine config locale key).isWritten := by
  have htables : ∀ candidate, readOptional (localeTable engine config candidate) key ≠ .undefined →
      (readOptional (localeTable engine config candidate) key).isWritten := by
    intro candidate hvalue
    cases htable : localeTable engine config candidate with
    | none =>
      rw [htable] at hvalue
      exact absurd rfl hvalue
    | some record =>
      obtain ⟨code, hcode⟩ := recordAt_of_localeTable htable
      rw [htable] at hvalue
      exact (hreads code record hcode).resolve_left hvalue
  have hfallback : readOptional (localeTable engine config config.defaultLocale) key
      = fallback.read key := by
    rw [localeTable_of_recordAt hdefault]
    rfl
  simp only [resolveText]
  split
  · rename_i hdirect
    obtain ⟨record, hrecord, hread⟩ := readOptional_ne hdirect
    rw [hread] at hdirect ⊢
    exact (hreads locale record hrecord).resolve_left hdirect
  · split
    · rename_i value hvalue
      have hne := List.find?_some hvalue
      obtain ⟨candidate, -, rfl⟩ := List.mem_map.1 (List.mem_of_find?_eq_some hvalue)
      exact htables candidate (by simpa using hne)
    · rw [hfallback]
      split
      · exact hwritten
      · rename_i hundefined
        rw [not_not] at hundefined
        rw [hundefined] at hwritten
        exact absurd hwritten Bool.false_ne_true

theorem resolveText_direct {engine : Engine} {config : BuilderConfig} {locale : String}
    {record : TextRecord} {key : Value} (hrecord : recordAt config.localizations locale = some record)
    (hread : record.read key ≠ .undefined) :
    resolveText engine config locale key = record.read key := by
  have hdirect : readOptional (recordAt config.localizations locale) key = record.read key := by
    rw [hrecord]
    rfl
  rw [resolveText]
  simp only [hdirect, ne_eq, hread, not_false_eq_true, if_true]

theorem resolveText_unknown {engine : Engine} {config : BuilderConfig} {locale : String}
    (hrecord : recordAt config.localizations locale = none)
    (hcandidates : ∀ candidate ∈ localeCandidates locale, localeTable engine config candidate = none)
    {fallback : TextRecord} (hdefault : recordAt config.localizations config.defaultLocale = some fallback)
    (key : Value) :
    resolveText engine config locale key
      = if fallback.read key ≠ .undefined then fallback.read key else .null := by
  have hnone : ((localeCandidates locale).map fun candidate =>
      readOptional (localeTable engine config candidate) key).find? (· ≠ .undefined) = none := by
    rw [List.find?_eq_none]
    intro value hvalue
    obtain ⟨candidate, hcandidate, rfl⟩ := List.mem_map.1 hvalue
    rw [hcandidates candidate hcandidate]
    simp [readOptional]
  have hdirect : readOptional (none : Option TextRecord) key = .undefined := rfl
  have hfallback : readOptional (some fallback) key = fallback.read key := rfl
  simp only [resolveText, hrecord, hdirect, hnone, localeTable_of_recordAt hdefault, hfallback,
    ne_eq, not_true_eq_false, if_false]

/-- Every text a renderer can ask for, in whatever locale, is there and not blank. -/
def ShowsText (engine : Engine) (config : BuilderConfig) : Prop :=
  ∀ node, config.root.HasNode node → ∀ active, ∀ key ∈ localizedKeysOf (applyOverrides node active),
    ∀ locale, (resolveText engine config locale key).isWritten

structure TextsWritten (config : BuilderConfig) : Prop where
  -- the keys that are not looked up have a written text in the default locale
  unchecked : ∀ node, config.root.HasNode node → ∀ key ∈ uncheckedKeys node,
    (config.defaultLocaleTable.read key).isWritten
  -- no locale has an entry without text under a key that can be shown
  notBlank : ∀ node, config.root.HasNode node → ∀ key ∈ liveKeys node,
    ∀ name, Json.propertyKey key = some name → ∀ locale table text,
      config.localizations.get? locale = some table → table.get? name = some text →
      isBlank text = false
  -- no such key is inherited by a locale's record that has no entry under it
  notInherited : ∀ node, config.root.HasNode node → ∀ key ∈ liveKeys node,
    ∀ name, Json.propertyKey key = some name → ∀ locale table,
      config.localizations.get? locale = some table → table.get? name = none →
      name ∉ objectPrototypeKeys
  -- nor does a locale that is itself the name of an inherited property lead to one
  notBuiltin : ∀ node, config.root.HasNode node → ∀ key ∈ liveKeys node,
    ∀ name, Json.propertyKey key = some name → ∀ locale ∈ objectPrototypeKeys,
      config.localizations.get? locale = none →
      builtinProperty locale name = .undefined ∨ (builtinProperty locale name).isWritten

section
variable {engine : Engine} {config : BuilderConfig} {opts : ValidateOptions}

theorem exists_checkedKey {node : PaywallNode} {key : Value} (h : key ∈ liveKeys node) :
    ∃ name, name ∈ checkedKeys node := by
  have hkeys : ∃ base, base ∈ localizedKeysOf node := by
    match htype : node.type with
    | .leaf .text => exact ⟨node.field "key", by simp [localizedKeysOf, htype]⟩
    | .leaf .button => exact ⟨node.field "labelKey", by simp [localizedKeysOf, htype]⟩
    | .leaf .purchaseButton =>
      refine ⟨node.field "labelKey", ?_⟩
      simp only [localizedKeysOf, htype]
      split <;> exact List.mem_cons_self
    | .container _ | .packageList | .leaf .image | .leaf .spacer | .leaf .divider | .leaf .icon
    | .leaf .featureList | .leaf .timeline | .leaf .socialProof | .leaf .countdown | .leaf .video
    | .leaf .lottie | .leaf .footerLinks =>
      simp only [liveKeys, htype] at h
      exact ⟨key, h⟩
  obtain ⟨base, hbase⟩ := hkeys
  refine ⟨Json.propertyKey base, ?_⟩
  rw [checkedKeys, List.mem_eraseDups]
  exact List.mem_append_left _ (List.mem_map_of_mem hbase)

theorem Publishable.default (h : Publishable engine config opts) {node : PaywallNode}
    (hnode : config.root.HasNode node) {key : Value} (hkey : key ∈ liveKeys node) :
    recordAt config.localizations config.defaultLocale = some config.defaultLocaleTable := by
  obtain ⟨name, hname⟩ := exists_checkedKey hkey
  obtain ⟨⟨own, -, hown⟩, -⟩ := h.checked hnode hname
  rw [BuilderConfig.defaultLocaleTable] at hown ⊢
  cases hrecord : recordAt config.localizations config.defaultLocale with
  | some record => rfl
  | none =>
    rw [hrecord] at hown
    simp [TextRecord.empty, TextRecord.hasOwn] at hown

theorem TextsWritten.default (h : TextsWritten config) (hpublish : Publishable engine config opts)
    {node : PaywallNode} (hnode : config.root.HasNode node) {key : Value}
    (hkey : key ∈ liveKeys node) : (config.defaultLocaleTable.read key).isWritten := by
  by_cases hchecked : Json.propertyKey key ∈ checkedKeys node
  · exact (hpublish.checked hnode hchecked).2
  · exact h.unchecked node hnode key (List.mem_filter.2 ⟨hkey, by simpa using hchecked⟩)

theorem TextsWritten.reads (h : TextsWritten config) (hpublish : Publishable engine config opts)
    {node : PaywallNode} (hnode : config.root.HasNode node) {key : Value}
    (hkey : key ∈ liveKeys node) (code : String) (record : TextRecord)
    (hrecord : recordAt config.localizations code = some record) :
    record.read key = .undefined ∨ (record.read key).isWritten := by
  have hdefault := h.default hpublish hnode hkey
  cases hname : Json.propertyKey key with
  | none =>
    rw [TextRecord.read, hname, TextRecord.readName] at hdefault
    exact absurd hdefault Bool.false_ne_true
  | some name =>
    rw [TextRecord.read, hname]
    rw [recordAt] at hrecord
    split at hrecord
    · rename_i table htable
      cases hrecord
      cases htext : table.get? name with
      | some text =>
        right
        have hblank := h.notBlank node hnode key hkey name hname code table text htable htext
        simp [TextRecord.readName, htext, Found.isWritten, hblank]
      | none =>
        left
        have hnot := h.notInherited node hnode key hkey name hname code table htable htext
        simp [TextRecord.readName, htext, inheritedProperty, hnot]
    · rename_i htable
      split at hrecord
      · rename_i hcode
        cases hrecord
        exact h.notBuiltin node hnode key hkey name hname code hcode htable
      · cases hrecord

theorem TextsWritten.showsText (h : TextsWritten config)
    (hpublish : Publishable engine config opts) : ShowsText engine config := by
  intro node hnode active key hkey locale
  have hlive := (mem_liveKeys (hpublish.overridable hnode)).2 ⟨active, hkey⟩
  exact resolveText_written (h.reads hpublish hnode hlive) (hpublish.default hnode hlive)
    (h.default hpublish hnode hlive) locale

theorem ShowsText.textsWritten (h : ShowsText engine config)
    (hpublish : Publishable engine config opts) : TextsWritten config := by
  have hlive : ∀ node, config.root.HasNode node → ∀ key ∈ liveKeys node, ∀ locale,
      (resolveText engine config locale key).isWritten := by
    intro node hnode key hkey locale
    obtain ⟨active, hactive⟩ := (mem_liveKeys (hpublish.overridable hnode)).1 hkey
    exact h node hnode active key hactive locale
  -- ask in the very locale of a record: what it holds is shown
  have hreads : ∀ node, config.root.HasNode node → ∀ key ∈ liveKeys node, ∀ code record,
      recordAt config.localizations code = some record → record.read key ≠ .undefined →
      (record.read key).isWritten := by
    intro node hnode key hkey code record hrecord hread
    have hdirect : resolveText engine config code key = record.read key :=
      resolveText_direct hrecord hread
    rw [← hdirect]
    exact hlive node hnode key hkey code
  constructor
  · intro node hnode key hkey
    have hkey := List.mem_of_mem_filter hkey
    obtain ⟨locale, hunknown, hcandidates⟩ := exists_unknown_locale engine config
    have hshown := hlive node hnode key hkey locale
    rw [resolveText_unknown hunknown hcandidates (hpublish.default hnode hkey)] at hshown
    split at hshown
    · exact hshown
    · exact absurd hshown Bool.false_ne_true
  · intro node hnode key hkey name hname locale table text htable htext
    have hread : (TextRecord.own table).read key = .text text := by
      rw [TextRecord.read, hname]
      simp [TextRecord.readName, htext]
    have hwritten := hreads node hnode key hkey locale (.own table) (by rw [recordAt, htable])
      (by rw [hread]; exact Found.noConfusion)
    rw [hread] at hwritten
    simpa [Found.isWritten] using hwritten
  · intro node hnode key hkey name hname locale table htable htext hinherited
    have hread : (TextRecord.own table).read key = .builtin := by
      rw [TextRecord.read, hname]
      simp [TextRecord.readName, htext, inheritedProperty, hinherited]
    have hwritten := hreads node hnode key hkey locale (.own table) (by rw [recordAt, htable])
      (by rw [hread]; exact Found.noConfusion)
    rw [hread] at hwritten
    exact absurd hwritten Bool.false_ne_true
  · intro node hnode key hkey name hname locale hlocale htable
    have hread : (TextRecord.builtin locale).read key = builtinProperty locale name := by
      rw [TextRecord.read, hname]
      rfl
    have hrecord : recordAt config.localizations locale = some (.builtin locale) := by
      rw [recordAt, htable]
      exact if_pos hlocale
    rw [← hread]
    by_cases hundefined : (TextRecord.builtin locale).read key = .undefined
    · exact .inl hundefined
    · exact .inr (hreads node hnode key hkey locale _ hrecord hundefined)

end

/-- Of the configs that can be published, exactly those with their texts written show no missing
text. -/
theorem showsText_iff_textsWritten (engine : Engine) (config : BuilderConfig)
    (opts : ValidateOptions) (h : Publishable engine config opts) :
    ShowsText engine config ↔ TextsWritten config := by
  constructor
  · intro hshows
    exact hshows.textsWritten h
  · intro hwritten
    exact hwritten.showsText h

theorem toLower_eq_digit {c d : Char} (hd : d.isDigit) : c.toLower = d ↔ c = d := by
  have hd' : 48 ≤ d.toNat ∧ d.toNat ≤ 57 := by
    simpa [Char.isDigit, UInt32.le_iff_toNat_le] using hd
  by_cases hc : c.isUpper
  · have hc' : 65 ≤ c.toNat ∧ c.toNat ≤ 90 := by
      simpa [Char.isUpper, UInt32.le_iff_toNat_le] using hc
    have hlower : c.toLower.toNat = c.toNat + 32 := by
      rw [Char.toLower_eq_of_isUpper hc, Char.toNat_ofNat, if_pos]
      exact .inl (by omega)
    constructor
    · intro h
      rw [h] at hlower
      omega
    · intro h
      rw [h] at hc'
      omega
  · rw [Char.toLower_eq_of_not_isUpper hc]

theorem map_toLower_eq_digits {cs ds : List Char} (hds : ds.all Char.isDigit) :
    cs.map Char.toLower = ds ↔ cs = ds := by
  induction cs generalizing ds with
  | nil => rfl
  | cons c cs ih =>
    cases ds with
    | nil => simp
    | cons d ds =>
      rw [List.all_cons, Bool.and_eq_true] at hds
      rw [List.map_cons, List.cons_eq_cons, List.cons_eq_cons, toLower_eq_digit hds.1, ih hds.2]

def asciiEngine : Engine where
  toLowerCase s := String.ofList (s.toList.map Char.toLower)
  getTime _ := none
  toLowerCase_eq_digits s digits hdigits := by
    have htext : ∀ cs : List Char, String.ofList cs = digits ↔ cs = digits.toList := by
      intro cs
      rw [← String.toList_inj, String.toList_ofList]
    rw [htext, map_toLower_eq_digits hdigits, String.toList_inj]

def titled (english german : String) : BuilderConfig where
  defaultLocale := "en"
  localizations :=
    ⟨[("en", ⟨[("title", english)], List.nodup_singleton _⟩),
      ("de", ⟨[("title", german)], List.nodup_singleton _⟩)], by simp⟩
  rootOwn := { id := "root" }
  rootChildren := [.leaf .text
    { id := "headline",
      fields := ⟨[("key", .str "title"), ("role", .str "title")], by decide⟩ } none]

/-- The German title is still blank, which is a warning; a German reader is shown the blank. -/
theorem blank_title_shown :
    ¬ ∀ engine config opts, Publishable engine config opts → ShowsText engine config := by
  intro h
  have hpublish : Publishable asciiEngine (titled "Go Pro" "")
      { offeringPackageIds := [], now := 0 } := by
    rw [Publishable]
    decide
  have hnode : (titled "Go Pro" "").root.HasNode (titled "Go Pro" "").rootChildren[0] :=
    .child List.mem_cons_self (.self _)
  have hshown := h _ _ _ hpublish _ hnode ⟨false, false⟩ (some (.str "title"))
    (by simp [titled, applyOverrides, PaywallNode.overrides, PaywallNode.own, localizedKeysOf,
      PaywallNode.type, PaywallNode.field, Table.get?]) "de"
  revert hshown
  decide

theorem showsText_iff_textsWritten_titled :
    Publishable asciiEngine (titled "Go Pro" "Hol dir Pro") { offeringPackageIds := [], now := 0 }
      ∧ (ShowsText asciiEngine (titled "Go Pro" "Hol dir Pro")
        ↔ TextsWritten (titled "Go Pro" "Hol dir Pro")) := by
  have hpublish : Publishable asciiEngine (titled "Go Pro" "Hol dir Pro")
      { offeringPackageIds := [], now := 0 } := by
    rw [Publishable]
    decide
  exact ⟨hpublish, showsText_iff_textsWritten _ _ _ hpublish⟩

end Rovenue.Paywall
