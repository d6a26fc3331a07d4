import Rovenue.Js.Values

/-! The canonical text of an audit row, its hash, and the proof bundles that carry rows out of the
service to be verified without it. -/

namespace Rovenue.Audit
open Js (Json JsValue Value)

def AUDIT_CHAIN_FORMAT_V1 : String := "rovenue.audit-chain.v1"

def AUDIT_PROOF_MAX_ENTRIES : ℕ := 5000

mutual

def canonicalJSON : JsValue → List Char
  | .undefined => "null".toList
  | .null => "null".toList
  | .nonFinite => "null".toList
  | .bool b => (Js.stringify (.bool b)).toList
  | .num x => (Js.stringify (.num x)).toList
  | .str s => (Js.stringify (.str s)).toList
  | .date _ => ['\x7b', '\x7d']
  | .arr es => '[' :: ([','].intercalate (canonicalElements es) ++ [']'])
  | .obj fields =>
    '\x7b' :: ([','].intercalate ((Js.sortFields (canonicalFields fields)).map fun f =>
      (Js.quote f.1).toList ++ ':' :: f.2) ++ ['\x7d'])

def canonicalElements : List JsValue → List (List Char)
  | [] => []
  | e :: es => canonicalJSON e :: canonicalElements es

def canonicalFields : List (String × JsValue) → List (String × List Char)
  | [] => []
  | (name, v) :: fields => (name, canonicalJSON v) :: canonicalFields fields

end

structure Sha256 where
  hex : List Char → String
  nonempty : ∀ text, hex text ≠ ""

structure AuditChainPayload where
  projectId : String
  userId : Option String
  action : String
  resource : String
  resourceId : String
  before : JsValue
  after : JsValue
  ipAddress : Option String
  userAgent : Option String
  createdAt : String
  prevHash : Option String

def textOrNull : Option String → Json
  | none => .null
  | some s => .str s

def AuditChainPayload.toValue (p : AuditChainPayload) : JsValue :=
  .obj [("projectId", .str p.projectId), ("userId", .ofJson (textOrNull p.userId)),
    ("action", .str p.action), ("resource", .str p.resource), ("resourceId", .str p.resourceId),
    ("before", p.before), ("after", p.after), ("ipAddress", .ofJson (textOrNull p.ipAddress)),
    ("userAgent", .ofJson (textOrNull p.userAgent)), ("createdAt", .str p.createdAt),
    ("prevHash", .ofJson (textOrNull p.prevHash))]

def hashAuditRow (sha : Sha256) (payload : JsValue) : String := sha.hex (canonicalJSON payload)

structure AuditProofBundleEntry where
  id : String
  projectId : String
  userId : Option String
  action : String
  resource : String
  resourceId : String
  before : Json
  after : Json
  ipAddress : Option String
  userAgent : Option String
  createdAt : String
  prevHash : Option String
  rowHash : Option String

def AuditProofBundleEntry.toJson (e : AuditProofBundleEntry) : Json :=
  .obj [("id", .str e.id), ("projectId", .str e.projectId), ("userId", textOrNull e.userId),
    ("action", .str e.action), ("resource", .str e.resource), ("resourceId", .str e.resourceId),
    ("before", e.before), ("after", e.after), ("ipAddress", textOrNull e.ipAddress),
    ("userAgent", textOrNull e.userAgent), ("createdAt", .str e.createdAt),
    ("prevHash", textOrNull e.prevHash), ("rowHash", textOrNull e.rowHash)]

def AuditProofBundleEntry.payload (e : AuditProofBundleEntry) : AuditChainPayload where
  projectId := e.projectId
  userId := e.userId
  action := e.action
  resource := e.resource
  resourceId := e.resourceId
  before := .ofJson e.before
  after := .ofJson e.after
  ipAddress := e.ipAddress
  userAgent := e.userAgent
  createdAt := e.createdAt
  prevHash := e.prevHash

structure AuditProofBundle where
  formatVersion : String
  projectId : String
  exportedAt : String
  «from» : Option String
  «to» : Option String
  origin : Option String
  tip : Option (Option String × String)
  truncated : Bool
  entries : List AuditProofBundleEntry

def AuditProofBundle.toJson (b : AuditProofBundle) : Json :=
  .obj [("formatVersion", .str b.formatVersion), ("projectId", .str b.projectId),
    ("exportedAt", .str b.exportedAt),
    ("range", .obj [("from", textOrNull b.«from»), ("to", textOrNull b.«to»)]),
    ("origin", b.origin.elim .null fun rowHash => .obj [("rowHash", .str rowHash)]),
    ("tip", b.tip.elim .null fun tip =>
      .obj [("rowHash", textOrNull tip.1), ("createdAt", .str tip.2)]),
    ("truncated", .bool b.truncated), ("entries", .arr (b.entries.map (·.toJson)))]

def assembleAuditProofBundle (projectId exportedAt : String)
    (entries : List AuditProofBundleEntry) («from» «to» : Option String) (maxEntries : ℕ) :
    AuditProofBundle where
  formatVersion := AUDIT_CHAIN_FORMAT_V1
  projectId := projectId
  exportedAt := exportedAt
  «from» := «from»
  «to» := «to»
  origin := entries.head?.bind (·.prevHash)
  tip := entries.getLast?.map fun e => (e.rowHash, e.createdAt)
  truncated := entries.length = maxEntries
  entries := entries

inductive VerifyFailureReason where
  | rowHashMismatch
  | prevHashMismatch
  | unhashedRow
  | tipMismatch
  | malformedBundle
  | unsupportedFormatVersion
  deriving DecidableEq

structure VerifyFailure where
  index : Option ℕ
  entryId : Option String
  reason : VerifyFailureReason
  deriving DecidableEq

structure VerifyResult where
  ok : Bool
  entriesChecked : ℕ
  truncated : Bool
  range : Value
  failure : Option VerifyFailure

def isRecord : Json → Bool
  | .arr _ => true
  | .obj _ => true
  | _ => false

def payloadOf : Json → Json
  | .obj fields => .obj (fields.filter fun f => f.1 ≠ "id" && f.1 ≠ "rowHash")
  | _ => .obj []

def entryIdOf (entry : Json) (index : ℕ) : String :=
  (Json.text? (entry.get "id")).getD ("<index " ++ toString index ++ ">")

def wholeBundleFailure (entriesChecked : ℕ) (truncated : Bool) (reason : VerifyFailureReason)
    (range : Value) : VerifyResult :=
  ⟨false, entriesChecked, truncated, range, some ⟨none, none, reason⟩⟩

def entryFailure (entriesChecked : ℕ) (truncated : Bool) (index : ℕ) (entryId : String)
    (reason : VerifyFailureReason) (range : Value) : VerifyResult :=
  ⟨false, entriesChecked, truncated, range, some ⟨some index, some entryId, reason⟩⟩

def sameText : Option String → Value → Bool
  | none, some .null => true
  | some s, some (.str t) => s = t
  | _, _ => false

def originOf : Value → Option (Option String)
  -- the `rowHash` an `origin` declares; nothing where it has the wrong shape
  | none => some none
  | some .null => some none
  | some origin => (Json.text? (origin.get "rowHash")).map some

def tipOf : Value → Option (Option (Option String × Option String))
  | none => some none
  | some .null => some none
  | some tip =>
    match tip.get "rowHash" with
    | some (.str rowHash) => some (some (some rowHash, Json.text? (tip.get "createdAt")))
    | some .null => some (some (none, Json.text? (tip.get "createdAt")))
    | _ => none

def checkEntries (sha : Sha256) (truncated : Bool) (range : Value) (expectedPrevHash : Option String)
    (index : ℕ) : List Json → Option VerifyResult
  | [] => none
  | entry :: entries =>
    if !isRecord entry then some (wholeBundleFailure index truncated .malformedBundle range)
    else
      let fails := fun reason =>
        some (entryFailure index truncated index (entryIdOf entry index) reason range)
      match Json.text? (entry.get "rowHash") with
      | none => fails .unhashedRow
      | some rowHash =>
        if rowHash = "" then fails .unhashedRow
        else if !sameText expectedPrevHash (entry.get "prevHash") then fails .prevHashMismatch
        else if hashAuditRow sha (.ofJson (payloadOf entry)) ≠ rowHash then fails .rowHashMismatch
        else checkEntries sha truncated range (some rowHash) (index + 1) entries

def tipAgrees (tip : Option (Option String × Option String)) (lastEntry : Option Json) : Bool :=
  -- `tip` names the last entry, and is null exactly when there is none
  match tip, lastEntry with
  | none, none => true
  | some (rowHash, createdAt), some entry =>
    rowHash = Json.text? (entry.get "rowHash") && sameText createdAt (entry.get "createdAt")
  | _, _ => false

def verifyAuditBundle (sha : Sha256) (bundle : Json) : VerifyResult :=
  if !isRecord bundle then wholeBundleFailure 0 true .malformedBundle none
  else
    -- only a literal `false` counts as complete
    let truncated := (Json.bool? (bundle.get "truncated")).getD true
    let range := bundle.get "range"
    if Json.text? (bundle.get "formatVersion") ≠ some AUDIT_CHAIN_FORMAT_V1 then
      wholeBundleFailure 0 truncated .unsupportedFormatVersion range
    else
      match bundle.get "entries", originOf (bundle.get "origin"), tipOf (bundle.get "tip") with
      | some (.arr entries), some origin, some tip =>
        match checkEntries sha truncated range origin 0 entries with
        | some failed => failed
        | none =>
          if tipAgrees tip entries.getLast? then ⟨true, entries.length, truncated, range, none⟩
          else wholeBundleFailure entries.length truncated .tipMismatch range
      | _, _, _ => wholeBundleFailure 0 truncated .malformedBundle range

theorem canonicalFields_eq (fields : List (String × JsValue)) :
    canonicalFields fields = fields.map fun f => (f.1, canonicalJSON f.2) := by
  induction fields with
  | nil => rfl
  | cons f fields ih => rw [canonicalFields, ih, List.map_cons]

mutual

theorem canonicalJSON_eq : (v : JsValue) → canonicalJSON v = Js.jsonText v.canonical
  | .undefined => by rw [canonicalJSON, JsValue.canonical, Js.jsonText]; rfl
  | .null => by rw [canonicalJSON, JsValue.canonical, Js.jsonText]; rfl
  | .nonFinite => by rw [canonicalJSON, JsValue.canonical, Js.jsonText]; rfl
  | .bool b => by rw [canonicalJSON, JsValue.canonical, Js.jsonText]
  | .num x => by rw [canonicalJSON, JsValue.canonical, Js.jsonText]
  | .str s => by rw [canonicalJSON, JsValue.canonical, Js.jsonText]
  | .date _ => by rw [canonicalJSON, JsValue.canonical, Js.jsonText]
  | .arr es => by
    rw [canonicalJSON, JsValue.canonical, Js.jsonText_arr, canonicalElements_eq es]
  | .obj fields => by
    rw [canonicalJSON, JsValue.canonical, Js.jsonText_obj, JsValue.canonicalFields_eq,
      canonicalFields_eq, Js.sortFields_map, Js.sortFields_map, List.map_map, List.map_map]
    refine congrArg (fun texts => '\x7b' :: ([','].intercalate texts ++ ['\x7d'])) ?_
    refine List.map_congr_left fun f hf => ?_
    have htext := fieldTexts_eq fields f (Js.mem_sortFields.1 hf)
    exact congrArg (fun text => (Js.quote f.1).toList ++ ':' :: text) htext

theorem canonicalElements_eq : (es : List JsValue) →
    canonicalElements es = (JsValue.canonicalElements es).map Js.jsonText
  | [] => rfl
  | e :: es => by
    rw [canonicalElements, JsValue.canonicalElements, List.map_cons, canonicalJSON_eq e,
      canonicalElements_eq es]

theorem fieldTexts_eq : (fields : List (String × JsValue)) →
    ∀ f ∈ fields, canonicalJSON f.2 = Js.jsonText f.2.canonical
  | [] => by simp
  | (_, v) :: fields => List.forall_mem_cons.2 ⟨canonicalJSON_eq v, fieldTexts_eq fields⟩

end

theorem hashAuditRow_congr (sha : Sha256) {v w : JsValue} (h : v.canonical = w.canonical) :
    hashAuditRow sha v = hashAuditRow sha w := by
  rw [hashAuditRow, hashAuditRow, canonicalJSON_eq, canonicalJSON_eq, h]

theorem hashAuditRow_eq_iff {sha : Sha256} (hsha : Function.Injective sha.hex) {v w : JsValue} :
    hashAuditRow sha v = hashAuditRow sha w ↔ v.canonical = w.canonical := by
  refine ⟨fun h => ?_, hashAuditRow_congr sha⟩
  have htext := hsha h
  rw [canonicalJSON_eq, canonicalJSON_eq] at htext
  exact Js.jsonText_injective htext

theorem canonical_payloadOf (e : AuditProofBundleEntry) :
    (JsValue.ofJson (payloadOf e.toJson)).canonical = e.payload.toValue.canonical := by
  -- stripping the `id` and the `rowHash` off an entry's JSON gives back what its hash covers
  have htext : ∀ o : Option String, (textOrNull o).sorted = textOrNull o := by
    intro o
    cases o <;> rfl
  simp [payloadOf, AuditProofBundleEntry.toJson, AuditProofBundleEntry.payload,
    AuditChainPayload.toValue, JsValue.canonical, JsValue.canonicalFields, Json.sorted,
    Json.sortedFields, htext]

end Rovenue.Audit
