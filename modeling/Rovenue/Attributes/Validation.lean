import Rovenue.Txn.Table
import Rovenue.Sdk.AttributeMap

/-! The attributes whose keys start with `$`, each with a check of its own. A `$` key
that is not among them is reserved as well, so that it is rejected and not stored. -/

namespace Rovenue.Attributes

def utf16Length (value : String) : ℕ :=
  (value.toList.map fun c => if c.val < 0x10000 then 1 else 2).sum

def isSpace (c : Char) : Bool :=
  let n := c.toNat
  (9 ≤ n && n ≤ 13) || n = 0x20 || n = 0xa0 || n = 0x1680 || (0x2000 ≤ n && n ≤ 0x200a) ||
    n = 0x2028 || n = 0x2029 || n = 0x202f || n = 0x205f || n = 0x3000 || n = 0xfeff

def valueMax : ℕ := 500

def isEmail (value : String) : Bool :=
  -- `^[^\s@]+@[^\s@]+\.[^\s@]+$`: one `@`, and a dot inside what follows it
  match value.toList.splitOn '@' with
  | [user, host] =>
    user ≠ [] && !user.any isSpace && !host.any isSpace && host.tail.dropLast.contains '.'
  | _ => false

def isPhone (value : String) : Bool :=
  let digits := match value.toList with
    | '+' :: rest => rest
    | all => all
  7 ≤ digits.length && digits.length ≤ 15 && digits.all Char.isDigit

def attConsent : List String := ["notDetermined", "restricted", "denied", "authorized"]

structure ReservedAttributeDef where
  key : String
  -- the error message of a value that is not valid
  validate : String → Option String

def maxLen (value : String) : Option String :=
  if utf16Length value > valueMax then some s!"must be ≤ {valueMax} characters" else none

def reserved (key : String) (validate : String → Option String) : ReservedAttributeDef :=
  ⟨key, fun v => maxLen v <|> validate v⟩

def ok : String → Option String := fun _ => none

def reservedAttributes : List ReservedAttributeDef := [
  -- identity
  reserved "$email" fun v => if isEmail v then none else some "must be a valid email address",
  reserved "$displayName" ok,
  reserved "$phoneNumber" fun v =>
    if isPhone v then none else some "must be a phone number (7-15 digits, optional +)",
  -- push tokens
  reserved "$fcmTokens" ok,
  reserved "$apnsTokens" ok,
  -- attribution and campaign
  reserved "$mediaSource" ok,
  reserved "$campaign" ok,
  reserved "$adGroup" ok,
  reserved "$keyword" ok,
  reserved "$creative" ok,
  reserved "$ad" ok,
  -- device and consent
  reserved "$idfa" ok,
  reserved "$idfv" ok,
  reserved "$gpsAdId" ok,
  reserved "$attConsentStatus" fun v =>
    if v ∈ attConsent then none
    else some ("must be one of: " ++ ", ".intercalate attConsent),
  -- vendor ids
  reserved "$appsflyerId" ok,
  reserved "$adjustId" ok,
  reserved "$firebaseAppInstanceId" ok,
  reserved "$mixpanelDistinctId" ok,
  reserved "$amplitudeDeviceId" ok,
  reserved "$amplitudeUserId" ok,
  reserved "$onesignalId" ok,
  reserved "$brazeAliasName" ok,
  reserved "$iterableUserId" ok,
  reserved "$airbridgeDeviceId" ok,
  reserved "$singularDeviceId" ok]

def isReservedKey (key : String) : Bool := key.toList.head? = some '$'

def validateReservedValue (key value : String) : Option String :=
  match reservedAttributes.find? fun d => d.key = key with
  | none => some ("unknown reserved attribute \"" ++ key ++ "\"")
  | some d => d.validate value

/-- Every key of the catalog is reserved, and none is in it twice. -/
theorem reserved_catalog : (∀ d ∈ reservedAttributes, isReservedKey d.key = true) ∧
    (reservedAttributes.map ReservedAttributeDef.key).Nodup := by decide

end Rovenue.Attributes

/-! What the server accepts: a map of mutations, checked as a whole against the attributes
the subscriber has. -/

namespace Rovenue.Attributes
open Sdk (AttributeMutation AttributeMutationMap applyInOrder applyMutations
  applyMutations_attributesBody attributesBody coalesce get?_attributesBody get?_coalesce lastValue
  protoKey)
open Txn (Table)

def keyMax : ℕ := 40
def customMax : ℕ := 50

/-- A subscriber's attributes as `normalizeStored` reads them into an object literal, with the
finite set of keys that have one. -/
@[ext] structure SubscriberAttributes where
  values : Sdk.Attributes
  keys : Finset String
  mem_keys : ∀ key, key ∈ keys ↔ (values key).isSome
  noProto : values protoKey = none

namespace SubscriberAttributes

def empty : SubscriberAttributes := ⟨fun _ => none, ∅, by simp, rfl⟩

variable (s s' : SubscriberAttributes)

def apply (mutations : AttributeMutationMap) : SubscriberAttributes where
  values := applyMutations s.values mutations
  keys := (s.keys ∪ (mutations.entries.map Prod.fst).toFinset).filter fun key =>
    (applyMutations s.values mutations key).isSome
  mem_keys key := by
    rw [Finset.mem_filter, Finset.mem_union, List.mem_toFinset]
    refine ⟨fun h => h.2, fun h => ⟨?_, h⟩⟩
    by_cases hmem : key ∈ mutations.entries.map Prod.fst
    · exact .inr hmem
    · left
      rw [s.mem_keys]
      rwa [applyMutations, mutations.get?_eq_none.2 hmem] at h
  noProto := by
    rw [applyMutations]
    rcases mutations.get? protoKey with _ | _ | value
    · exact s.noProto
    · rfl
    · simpa using s.noProto

variable {s s'}

theorem values_apply_attributesBody (body : AttributeMutationMap) (key : String) :
    (s.apply (attributesBody body)).values key =
      ((attributesBody body).get? key).getD (s.values key) :=
  congrFun (applyMutations_attributesBody s.values body) key

theorem ext_values (h : s.values = s'.values) : s = s' := by
  apply SubscriberAttributes.ext h
  ext key
  rw [s.mem_keys, s'.mem_keys, h]

end SubscriberAttributes

structure AttributeValidationError where
  key : String
  reason : String
deriving DecidableEq

def customKeyRe : String := "^[A-Za-z0-9_.-]\x7b1,40\x7d$"

def isCustomKey (key : String) : Bool :=
  let cs := key.toList
  1 ≤ cs.length && cs.length ≤ keyMax &&
    cs.all fun c => c.isAlphanum || c = '_' || c = '.' || c = '-'

variable (e : String × Option String) (input : AttributeMutationMap)
  (current : SubscriberAttributes)

def entryError : Option AttributeValidationError :=
  if isReservedKey e.1 then
    (e.2.bind (validateReservedValue e.1)).map fun reason => ⟨e.1, reason⟩
  else if !isCustomKey e.1 then some ⟨e.1, "custom key must match " ++ customKeyRe⟩
  else match e.2 with
    | none => none
    | some value =>
      if utf16Length value > valueMax then
        some ⟨e.1, s!"value must be ≤ {valueMax} characters"⟩
      else none

def entryKeys (customAfter : Finset String) : Finset String :=
  if isReservedKey e.1 ∨ (entryError e).isSome then customAfter
  else match e.2 with
    | none => customAfter.erase e.1
    | some _ => insert e.1 customAfter

def customKeys (keys : Finset String) : Finset String := keys.filter fun key => !isReservedKey key

def validateAttributeInput : List AttributeValidationError :=
  let (errors, customAfter) := input.entries.foldl
    (fun (acc : List AttributeValidationError × Finset String) e =>
      (acc.1 ++ (entryError e).toList, entryKeys e acc.2))
    ([], customKeys current.keys)
  if customAfter.card > customMax then
    errors ++ [⟨"*", s!"too many custom attributes (max {customMax})"⟩]
  else errors

variable {e input current}

theorem mem_customKeys {key : String} {keys : Finset String} :
    key ∈ customKeys keys ↔ key ∈ keys ∧ isReservedKey key = false := by
  rw [customKeys, Finset.mem_filter, Bool.not_eq_true']

theorem foldl_entries (es : List (String × Option String))
    (acc : List AttributeValidationError × Finset String) :
    es.foldl (fun acc e => (acc.1 ++ (entryError e).toList, entryKeys e acc.2)) acc =
      (acc.1 ++ es.filterMap entryError, es.foldl (fun keys e => entryKeys e keys) acc.2) := by
  induction es generalizing acc with
  | nil => simp
  | cons e es ih =>
    rw [List.foldl_cons, ih, List.filterMap_cons, List.foldl_cons]
    cases entryError e <;> simp

theorem mem_entryKeys {key : String} (hkey : isReservedKey key = false) (hvalid : entryError e = none)
    (keys : Finset String) :
    key ∈ entryKeys e keys ↔ if e.1 = key then e.2.isSome else key ∈ keys := by
  obtain ⟨k, value⟩ := e
  rw [entryKeys, hvalid]
  by_cases hk : k = key
  · subst hk
    cases value <;> simp [hkey]
  · by_cases hreserved : isReservedKey k = true
    · simp [hreserved, hk]
    · cases value <;> simp [hreserved, hk, Ne.symm hk]

theorem reserved_notMem_entryKeys {key : String} (hkey : isReservedKey key = true)
    {keys : Finset String} (hmem : key ∉ keys) : key ∉ entryKeys e keys := by
  rw [entryKeys]
  split_ifs with h
  · exact hmem
  · have hne : key ≠ e.1 := by
      rintro rfl
      exact h (.inl hkey)
    cases e.2 <;> simp [hmem, hne]

theorem mem_foldl_entryKeys {key : String} (hkey : isReservedKey key = false)
    (es : List (String × Option String)) (hnodup : (es.map Prod.fst).Nodup)
    (hvalid : ∀ e ∈ es, entryError e = none) (keys : Finset String) :
    key ∈ es.foldl (fun keys e => entryKeys e keys) keys ↔
      ((es.find? fun e => e.1 = key).elim (decide (key ∈ keys)) fun e => e.2.isSome) = true := by
  induction es generalizing keys with
  | nil => simp
  | cons e es ih =>
    rw [List.map_cons, List.nodup_cons] at hnodup
    have hhead := mem_entryKeys hkey (hvalid e (List.mem_cons_self ..)) keys
    rw [List.foldl_cons, ih hnodup.2 fun e he => hvalid e (List.mem_cons_of_mem _ he)]
    by_cases hek : e.1 = key
    · have hnone : es.find? (fun e => e.1 = key) = none := by
        rw [List.find?_eq_none]
        intro f hf hfk
        exact hnodup.1 (List.mem_map.2 ⟨f, hf, (of_decide_eq_true hfk).trans hek.symm⟩)
      rw [hnone, List.find?_cons_of_pos (by simpa using hek)]
      simpa [hek] using hhead
    · rw [List.find?_cons_of_neg (by simpa using hek)]
      rw [if_neg hek, decide_eq_true_eq] at hhead
      simp only [hhead]

theorem foldl_entryKeys (hvalid : ∀ e ∈ (attributesBody input).entries, entryError e = none) :
    (attributesBody input).entries.foldl (fun keys e => entryKeys e keys)
        (customKeys current.keys) =
      customKeys (current.apply (attributesBody input)).keys := by
  ext key
  rw [mem_customKeys, (current.apply (attributesBody input)).mem_keys]
  by_cases hkey : isReservedKey key = true
  · have hnot : ∀ (es : List (String × Option String)) (keys : Finset String), key ∉ keys →
        key ∉ es.foldl (fun keys e => entryKeys e keys) keys := by
      intro es
      induction es with
      | nil => exact fun keys h => h
      | cons e es ih => exact fun keys h => ih _ (reserved_notMem_entryKeys hkey h)
    have hmem : key ∉ customKeys current.keys := by simp [mem_customKeys, hkey]
    simp [hnot _ _ hmem, hkey]
  · have hcustom : isReservedKey key = false := by simpa using hkey
    rw [mem_foldl_entryKeys hcustom _ (attributesBody input).nodup hvalid,
      SubscriberAttributes.values_apply_attributesBody, Table.get?]
    cases (attributesBody input).entries.find? fun e => e.1 = key with
    | none => simp [mem_customKeys, hcustom, current.mem_keys]
    | some e => simp [hcustom]

theorem validateAttributeInput_eq_nil :
    validateAttributeInput (attributesBody input) current = [] ↔
      (∀ e ∈ (attributesBody input).entries, entryError e = none) ∧
        (customKeys (current.apply (attributesBody input)).keys).card ≤ customMax := by
  unfold validateAttributeInput
  rw [foldl_entries]
  simp only [List.nil_append]
  constructor
  · intro h
    split_ifs at h with hcount
    · simp at h
    · have hvalid : ∀ e ∈ (attributesBody input).entries, entryError e = none :=
        List.filterMap_eq_nil_iff.1 h
      rw [foldl_entryKeys hvalid] at hcount
      exact ⟨hvalid, Nat.le_of_not_lt hcount⟩
  · rintro ⟨hvalid, hcount⟩
    rw [foldl_entryKeys hvalid, if_neg hcount.not_gt]
    exact List.filterMap_eq_nil_iff.2 hvalid

end Rovenue.Attributes
