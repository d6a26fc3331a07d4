import Rovenue.Audit.AuditChain

/-! What the offline verifier's word is worth: two bundles that it accepts and that end in the same
row tell one history, up to where the shorter begins. -/

namespace Rovenue.Audit
open Js (Json JsValue Value)

variable {sha : Sha256} {expected expected' last last' : Option String} {entry entry' b b' : Json}
  {entries entries' : List Json} {rowHash : String} {truncated : Bool} {range : Value}

/-- The entry holds its own hash and follows the row of hash `expected`. -/
structure Passes (sha : Sha256) (expected : Option String) (entry : Json) (rowHash : String) :
    Prop where
  stated : Json.text? (entry.get "rowHash") = some rowHash
  nonempty : rowHash ≠ ""
  linked : sameText expected (entry.get "prevHash") = true
  reproduced : hashAuditRow sha (.ofJson (payloadOf entry)) = rowHash

/-- Every entry passes, each after the one before; `last` is the hash the walk ends at. -/
inductive Walks (sha : Sha256) : Option String → List Json → Option String → Prop where
  | nil (expected : Option String) : Walks sha expected [] expected
  | cons {expected last : Option String} {entry : Json} {entries : List Json} {rowHash : String}
      (first : Passes sha expected entry rowHash) (rest : Walks sha (some rowHash) entries last) :
      Walks sha expected (entry :: entries) last

theorem isRecord_of_get {name : String} {v : Json} (h : entry.get name = some v) :
    isRecord entry = true := by
  cases entry <;> first | rfl | cases h

theorem get_of_text? {name s : String} (h : Json.text? (entry.get name) = some s) :
    entry.get name = some (.str s) := by
  cases hv : entry.get name with
  | none =>
    rw [hv] at h
    cases h
  | some v =>
    rw [hv] at h
    cases v with
    | str t =>
      rw [Json.text?, Option.some_inj] at h
      rw [h]
    | _ => cases h

theorem checkEntries_cons (h : Passes sha expected entry rowHash) (index : ℕ) :
    checkEntries sha truncated range expected index (entry :: entries) =
      checkEntries sha truncated range (some rowHash) (index + 1) entries := by
  have hrecord := isRecord_of_get (get_of_text? h.stated)
  simp [checkEntries, hrecord, h.stated, h.nonempty, h.linked, h.reproduced]

theorem checkEntries_cases (sha : Sha256) (truncated : Bool) (range : Value)
    (expected : Option String) (entry : Json) (entries : List Json) (index : ℕ) :
    (∃ rowHash, Passes sha expected entry rowHash) ∨
    ∃ failed, checkEntries sha truncated range expected index (entry :: entries) = some failed ∧
      failed.ok = false := by
  by_cases hrecord : isRecord entry = true
  · cases hstated : Json.text? (entry.get "rowHash") with
    | none => exact .inr ⟨_, by simp only [checkEntries, hrecord, hstated]; rfl, rfl⟩
    | some rowHash =>
      by_cases hempty : rowHash = ""
      · exact .inr ⟨_, by simp only [checkEntries, hrecord, hstated, hempty]; rfl, rfl⟩
      by_cases hlink : sameText expected (entry.get "prevHash") = true
      · by_cases hsame : hashAuditRow sha (.ofJson (payloadOf entry)) = rowHash
        · exact .inl ⟨rowHash, hstated, hempty, hlink, hsame⟩
        · refine .inr ⟨entryFailure index truncated index (entryIdOf entry index) .rowHashMismatch
            range, ?_, rfl⟩
          simp [checkEntries, hrecord, hstated, hempty, hlink, hsame]
      · refine .inr ⟨entryFailure index truncated index (entryIdOf entry index) .prevHashMismatch
          range, ?_, rfl⟩
        simp [checkEntries, hrecord, hstated, hempty, hlink]
  · exact .inr ⟨wholeBundleFailure index truncated .malformedBundle range,
      by simp [checkEntries, hrecord], rfl⟩

theorem checkEntries_not_ok {failed : VerifyResult} (index : ℕ)
    (h : checkEntries sha truncated range expected index entries = some failed) :
    failed.ok = false := by
  induction entries generalizing expected index with
  | nil => cases h
  | cons entry entries ih =>
    obtain ⟨rowHash, hfirst⟩ | ⟨failed', hfailed, hok⟩ := checkEntries_cases sha truncated
      range expected entry entries index
    · rw [checkEntries_cons hfirst] at h
      exact ih (index + 1) h
    · rw [hfailed, Option.some_inj] at h
      rwa [← h]

theorem checkEntries_eq_none (index : ℕ) :
    checkEntries sha truncated range expected index entries = none ↔
      ∃ last, Walks sha expected entries last := by
  induction entries generalizing expected index with
  | nil => exact ⟨fun _ => ⟨expected, .nil expected⟩, fun _ => rfl⟩
  | cons entry entries ih =>
    constructor
    · intro h
      obtain ⟨rowHash, hfirst⟩ | ⟨failed, hfailed, -⟩ := checkEntries_cases sha truncated
        range expected entry entries index
      swap
      · rw [hfailed] at h
        cases h
      rw [checkEntries_cons hfirst] at h
      obtain ⟨last, hrest⟩ := (ih (index + 1)).1 h
      exact ⟨last, .cons hfirst hrest⟩
    · rintro ⟨last, hwalk⟩
      cases hwalk with
      | cons hfirst hrest =>
        rw [checkEntries_cons hfirst]
        exact (ih (index + 1)).2 ⟨last, hrest⟩

theorem Walks.snoc_inv (h : Walks sha expected (entries ++ [entry]) last) :
    ∃ mid rowHash, Walks sha expected entries mid ∧ Passes sha mid entry rowHash ∧
      last = some rowHash := by
  induction entries generalizing expected with
  | nil =>
    cases h with
    | cons hfirst hrest =>
      cases hrest
      exact ⟨expected, _, .nil expected, hfirst, rfl⟩
  | cons e entries ih =>
    cases h with
    | cons hfirst hrest =>
      obtain ⟨mid, rowHash, hwalk, hpass, hlast⟩ := ih hrest
      exact ⟨mid, rowHash, .cons hfirst hwalk, hpass, hlast⟩

theorem Walks.eq_nil (h : Walks sha expected entries none) : entries = [] := by
  cases entries using List.reverseRecOn with
  | nil => rfl
  | append_singleton entries entry =>
    obtain ⟨mid, rowHash, -, -, hlast⟩ := h.snoc_inv
    cases hlast

def content (entry : Json) : Json := (payloadOf entry).sorted

theorem get_payloadOf {name : String} (h : name ≠ "id") (h' : name ≠ "rowHash") (entry : Json) :
    (payloadOf entry).get name = entry.get name := by
  cases entry with
  | obj fields =>
    rw [payloadOf, Json.get, Json.get]
    induction fields with
    | nil => rfl
    | cons f fields ih =>
      obtain ⟨n, v⟩ := f
      rw [List.filter_cons, List.lookup_cons]
      by_cases hname : name = n
      · subst hname
        simp [h, h']
      · have hbeq : (name == n) = false := by simpa using hname
        rw [hbeq]
        split
        · rw [List.lookup_cons, hbeq]
          exact ih
        · exact ih
  | _ => rfl

theorem sameText_unique {s t : Option String} {v w : Value} (hv : sameText s v = true)
    (hw : sameText t w = true) (h : v.map Json.sorted = w.map Json.sorted) : s = t := by
  cases v with
  | none => cases s <;> cases hv
  | some x =>
    cases w with
    | none => cases h
    | some y =>
      rw [Option.map_some, Option.map_some, Option.some_inj] at h
      cases x <;> cases s <;> simp only [sameText, decide_eq_true_eq, reduceCtorEq] at hv <;>
        cases y <;> cases t <;> simp only [sameText, decide_eq_true_eq, reduceCtorEq] at hw <;>
        simp_all [Json.sorted]

theorem Passes.unique (hsha : Function.Injective sha.hex) (h : Passes sha expected entry rowHash)
    (h' : Passes sha expected' entry' rowHash) :
    content entry = content entry' ∧ expected = expected' := by
  have hhash := h.reproduced.trans h'.reproduced.symm
  have hcontent : content entry = content entry' := by
    have hcanonical := (hashAuditRow_eq_iff hsha).1 hhash
    rwa [JsValue.canonical_ofJson, JsValue.canonical_ofJson] at hcanonical
  refine ⟨hcontent, sameText_unique h.linked h'.linked ?_⟩
  have hget := congrArg (Json.get · "prevHash") hcontent
  simp only [content, Json.get_sorted] at hget
  rwa [get_payloadOf (by decide) (by decide), get_payloadOf (by decide) (by decide)] at hget

def Extends (sha : Sha256) (expected : Option String) (entries : List Json)
    (expected' : Option String) (entries' : List Json) : Prop :=
  ∃ front back, entries = front ++ back ∧ back.map content = entries'.map content ∧
    Walks sha expected front expected'

theorem Extends.snoc (h : Extends sha expected entries expected' entries')
    (hcontent : content entry = content entry') :
    Extends sha expected (entries ++ [entry]) expected' (entries' ++ [entry']) := by
  obtain ⟨front, back, rfl, hback, hfront⟩ := h
  refine ⟨front, back ++ [entry], by rw [List.append_assoc], ?_, hfront⟩
  simp [hback, hcontent]

theorem Walks.agree (hsha : Function.Injective sha.hex) (h : Walks sha expected entries last)
    (h' : Walks sha expected' entries' last) :
    Extends sha expected entries expected' entries' ∨
      Extends sha expected' entries' expected entries := by
  induction entries using List.reverseRecOn generalizing entries' last with
  | nil =>
    cases h
    exact .inr ⟨entries', [], by simp, rfl, h'⟩
  | append_singleton entries entry ih =>
    cases entries' using List.reverseRecOn with
    | nil =>
      cases h'
      exact .inl ⟨entries ++ [entry], [], by simp, rfl, h⟩
    | append_singleton entries' entry' =>
      obtain ⟨mid, rowHash, hwalk, hpass, rfl⟩ := h.snoc_inv
      obtain ⟨mid', rowHash', hwalk', hpass', heq⟩ := h'.snoc_inv
      obtain rfl := Option.some_inj.1 heq
      obtain ⟨hcontent, rfl⟩ := hpass.unique hsha hpass'
      obtain hext | hext := ih hwalk hwalk'
      · exact .inl (hext.snoc hcontent)
      · exact .inr (hext.snoc hcontent.symm)

theorem Extends.suffix (h : Extends sha expected entries expected' entries') :
    entries'.map content <:+ entries.map content := by
  obtain ⟨front, back, rfl, hback, -⟩ := h
  rw [List.map_append, hback]
  exact List.suffix_append _ _

def contents (b : Json) : List Json := (Json.elements (b.get "entries")).map content

def tipHash (b : Json) : Option String := (tipOf (b.get "tip")).join.bind Prod.fst

theorem tipAgrees_nil {tip : Option (Option String × Option String)}
    (h : tipAgrees tip none = true) : tip = none := by
  cases tip with
  | none => rfl
  | some tip => cases h

theorem tipAgrees_snoc {tip : Option (Option String × Option String)}
    (h : tipAgrees tip (some entry) = true) (hstated : Json.text? (entry.get "rowHash") = some rowHash) :
    tip.bind Prod.fst = some rowHash := by
  cases tip with
  | none => cases h
  | some tip =>
    rw [tipAgrees, Bool.and_eq_true, decide_eq_true_eq] at h
    exact h.1.trans hstated

structure Accepts (sha : Sha256) (b : Json) (entries : List Json) (origin last : Option String) :
    Prop where
  listed : b.get "entries" = some (.arr entries)
  begins : originOf (b.get "origin") = some origin
  walk : Walks sha origin entries last
  tip : tipHash b = if entries = [] then none else last

theorem verifyAuditBundle_ok (h : (verifyAuditBundle sha b).ok = true) :
    ∃ entries origin last, Accepts sha b entries origin last := by
  rw [verifyAuditBundle] at h
  by_cases hrecord : isRecord b = true
  swap
  · simp [hrecord, wholeBundleFailure] at h
  by_cases hversion : Json.text? (b.get "formatVersion") = some AUDIT_CHAIN_FORMAT_V1
  swap
  · simp [hrecord, hversion, wholeBundleFailure] at h
  simp only [hrecord, hversion, Bool.not_true, Bool.false_eq_true, if_false, ne_eq,
    not_true_eq_false] at h
  split at h
  · rename_i entries origin tip hentries horigin htip
    split at h
    · rename_i failed hfailed
      rw [checkEntries_not_ok 0 hfailed] at h
      cases h
    · rename_i hnone
      obtain ⟨last, hwalk⟩ := (checkEntries_eq_none 0).1 hnone
      by_cases hagrees : tipAgrees tip entries.getLast? = true
      swap
      · simp [hagrees, wholeBundleFailure] at h
      refine ⟨entries, origin, last, hentries, horigin, hwalk, ?_⟩
      rw [tipHash, htip, Option.join_some]
      cases entries using List.reverseRecOn with
      | nil =>
        rw [tipAgrees_nil hagrees]
        rfl
      | append_singleton entries entry =>
        obtain ⟨mid, rowHash, -, hpass, rfl⟩ := hwalk.snoc_inv
        rw [List.getLast?_concat] at hagrees
        rw [tipAgrees_snoc hagrees hpass.stated, if_neg (by simp)]
  · cases h

theorem verifyAuditBundle_of_walks {origin : Option String}
    {tip : Option (Option String × Option String)} (hrecord : isRecord b = true)
    (hversion : Json.text? (b.get "formatVersion") = some AUDIT_CHAIN_FORMAT_V1)
    (hlisted : b.get "entries" = some (.arr entries)) (hbegins : originOf (b.get "origin") = some origin)
    (htip : tipOf (b.get "tip") = some tip) (hwalk : Walks sha origin entries last)
    (hagrees : tipAgrees tip entries.getLast? = true) : (verifyAuditBundle sha b).ok = true := by
  have hnone : checkEntries sha ((Json.bool? (b.get "truncated")).getD true) (b.get "range") origin 0
      entries = none := (checkEntries_eq_none 0).2 ⟨last, hwalk⟩
  rw [verifyAuditBundle]
  simp [hrecord, hversion, hlisted, hbegins, htip, hnone, hagrees]

theorem Accepts.contents {origin : Option String} (h : Accepts sha b entries origin last) :
    contents b = entries.map content := by
  rw [Audit.contents, h.listed, Json.elements]

theorem Accepts.eq_nil_iff {origin : Option String} (h : Accepts sha b entries origin last) :
    entries = [] ↔ tipHash b = none := by
  rw [h.tip]
  constructor
  · intro hempty
    rw [if_pos hempty]
  · intro hnone
    by_contra hne
    rw [if_neg hne] at hnone
    subst hnone
    exact hne h.walk.eq_nil

/-- Two accepted bundles that end in the same row hold the same rows, as far back as the shorter
goes; one that begins where the chain does leaves the other nothing to add. -/
theorem accepted_bundles_agree (hsha : Function.Injective sha.hex)
    (h : (verifyAuditBundle sha b).ok = true) (h' : (verifyAuditBundle sha b').ok = true)
    (htip : tipHash b = tipHash b') :
    (contents b' <:+ contents b ∨ contents b <:+ contents b') ∧
      (originOf (b.get "origin") = some none → contents b' <:+ contents b) := by
  obtain ⟨entries, origin, last, hacc⟩ := verifyAuditBundle_ok h
  obtain ⟨entries', origin', last', hacc'⟩ := verifyAuditBundle_ok h'
  rw [hacc.contents, hacc'.contents, hacc.begins, Option.some_inj]
  have hnil : entries = [] ↔ entries' = [] := by rw [hacc.eq_nil_iff, hacc'.eq_nil_iff, htip]
  by_cases hempty : entries = []
  · rw [hnil.1 hempty]
    exact ⟨.inl (List.nil_suffix), fun _ => List.nil_suffix⟩
  · have hlast : last = last' := by
      rw [hacc.tip, hacc'.tip, if_neg hempty, if_neg (hnil.not.1 hempty)] at htip
      exact htip
    subst hlast
    obtain hext | hext := hacc.walk.agree hsha hacc'.walk
    · exact ⟨.inl hext.suffix, fun _ => hext.suffix⟩
    · refine ⟨.inr hext.suffix, ?_⟩
      rintro rfl
      obtain ⟨front, back, rfl, hback, hfront⟩ := hext
      obtain rfl := hfront.eq_nil
      rw [List.nil_append, hback]

def tabled (table : List (List Char × String)) (text : List Char) : String :=
  (table.lookup text).getD (String.ofList ('h' :: text))

theorem mem_of_lookup {table : List (List Char × String)} {text : List Char} {digest : String}
    (h : table.lookup text = some digest) : (text, digest) ∈ table := by
  induction table with
  | nil => cases h
  | cons e table ih =>
    obtain ⟨key, value⟩ := e
    rw [List.lookup_cons] at h
    split at h
    · rename_i heq
      rw [beq_iff_eq] at heq
      rw [Option.some_inj] at h
      subst heq h
      exact List.mem_cons_self
    · exact List.mem_cons_of_mem _ (ih h)

theorem tabled_injective {table : List (List Char × String)} (hdigests : (table.map Prod.snd).Nodup)
    (hhex : ∀ e ∈ table, e.2.toList.head? ≠ some 'h') : Function.Injective (tabled table) := by
  have hother : ∀ {s t : List Char} {digest : String}, table.lookup s = some digest →
      digest ≠ String.ofList ('h' :: t) := by
    rintro s t digest hs rfl
    refine hhex _ (mem_of_lookup hs) ?_
    rw [String.toList_ofList]
    rfl
  intro s t h
  rw [tabled, tabled] at h
  cases hs : table.lookup s with
  | some digest =>
    cases ht : table.lookup t with
    | some digest' =>
      rw [hs, ht, Option.getD_some, Option.getD_some] at h
      subst h
      have heq := List.inj_on_of_nodup_map hdigests (mem_of_lookup hs) (mem_of_lookup ht) rfl
      exact congrArg Prod.fst heq
    | none =>
      rw [hs, ht] at h
      exact absurd h (hother hs)
  | none =>
    cases ht : table.lookup t with
    | some digest' =>
      rw [hs, ht] at h
      exact absurd h.symm (hother ht)
    | none =>
      rw [hs, ht] at h
      have hlist := congrArg String.toList h
      rw [Option.getD_none, Option.getD_none, String.toList_ofList, String.toList_ofList] at hlist
      exact (List.cons.inj hlist).2

theorem tipAgrees_toJson (e : AuditProofBundleEntry) {hash : String} (h : e.rowHash = some hash) :
    tipAgrees (some (some hash, some e.createdAt)) (some e.toJson) = true := by
  have hrow : Json.text? (e.toJson.get "rowHash") = some hash := by
    have hget : e.toJson.get "rowHash" = some (textOrNull e.rowHash) := rfl
    rw [hget, h]
    rfl
  have hcreated : e.toJson.get "createdAt" = some (.str e.createdAt) := rfl
  simp [tipAgrees, hrow, hcreated, sameText]

def samplePayload (action : String) (after : JsValue) (createdAt : String)
    (prevHash : Option String) : AuditChainPayload where
  projectId := "p"
  userId := none
  action := action
  resource := "project"
  resourceId := "p"
  before := .null
  after := after
  ipAddress := none
  userAgent := none
  createdAt := createdAt
  prevHash := prevHash

def firstDigest : String := "98be4bf5637d764c072775c02ab9fb51c145f9023487ed5561ac5fdfba2ce6c4"

def secondDigest : String := "6b6a92100c727f061e074b54646e84b871e425da637a20ad7b81b6c1ba369bb2"

def checkpointPayload : AuditChainPayload where
  projectId := "p"
  userId := some "system"
  action := "retention.audit_checkpointed"
  resource := "retention_checkpoint"
  resourceId := "c"
  before := .null
  after := .obj [("table", .str "audit_logs"), ("cutoff", .str "1970-01-01T00:00:00.007Z"),
    ("deletedCount", .num (.ofNat 1)), ("lastDeletedRowId", .str "a"),
    ("lastDeletedRowHash", .str firstDigest), ("truncated", .bool false),
    ("bundleKey", .str "audit-checkpoints/p/c.json")]
  ipAddress := none
  userAgent := none
  createdAt := "1970-01-01T00:00:00.009Z"
  prevHash := some secondDigest

def sampleDigests : List (AuditChainPayload × String) :=
  [(samplePayload "project.created" (.obj [("name", .str "x")]) "1970-01-01T00:00:00.007Z" none,
      firstDigest),
    (samplePayload "project.updated" (.obj [("name", .undefined)]) "1970-01-01T00:00:00.008Z"
      (some firstDigest), secondDigest),
    (samplePayload "project.updated" (.obj []) "1970-01-01T00:00:00.008Z" (some firstDigest),
      "82fdd58d01877398506450e6e6280c6ec3c853a7c70d49dbc34d2c15af00f2ee"),
    (samplePayload "project.updated" (.obj [("name", .str "y"), ("seats", .num (.ofNat 3))])
      "1970-01-01T00:00:00.008Z" (some firstDigest),
      "f8e552b258428b936052e1a95e39237cb8c1896ff8fcb47ffc409a4f4b26ced6"),
    (checkpointPayload, "a534c0b65d4ba6d3386245e368dce09b913a8371a4f4b6b729b862d248a8f4de")]

theorem sampleDigests_spec : ∀ e ∈ sampleDigests, e.2 ≠ "" ∧ e.2.toList.head? ≠ some 'h' := by
  decide +kernel

def sampleTable : List (List Char × String) :=
  sampleDigests.map fun e => (canonicalJSON e.1.toValue, e.2)

theorem sampleTable_spec {e : List Char × String} (he : e ∈ sampleTable) :
    e.2 ≠ "" ∧ e.2.toList.head? ≠ some 'h' := by
  obtain ⟨x, hx, rfl⟩ := List.mem_map.1 he
  exact sampleDigests_spec x hx

def sampleSha : Sha256 where
  hex := tabled sampleTable
  nonempty text h := by
    rw [tabled] at h
    cases ht : sampleTable.lookup text with
    | none =>
      rw [ht, Option.getD_none] at h
      have hlist := congrArg String.toList h
      rw [String.toList_ofList] at hlist
      cases hlist
    | some digest =>
      rw [ht, Option.getD_some] at h
      exact (sampleTable_spec (mem_of_lookup ht)).1 h

theorem sampleSha_injective : Function.Injective sampleSha.hex := by
  refine tabled_injective ?_ fun e he => (sampleTable_spec he).2
  rw [sampleTable, List.map_map]
  decide +kernel

def sealedEntry (id action : String) (after : Json) (createdAt : String)
    (prevHash : Option String) : AuditProofBundleEntry where
  id := id
  projectId := "p"
  userId := none
  action := action
  resource := "project"
  resourceId := "p"
  before := .null
  after := after
  ipAddress := none
  userAgent := none
  createdAt := createdAt
  prevHash := prevHash
  rowHash := some (hashAuditRow sampleSha
    (samplePayload action (.ofJson after) createdAt prevHash).toValue)

def sealedBundle (after : Json) : AuditProofBundle :=
  assembleAuditProofBundle "p" "2026-02-01T00:00:00.000Z"
    [sealedEntry "a" "project.created" (.obj [("name", .str "x")]) "1970-01-01T00:00:00.007Z" none,
      sealedEntry "b" "project.updated" after "1970-01-01T00:00:00.008Z" (some firstDigest)]
    none none 5000

theorem sealedEntry_passes (id action : String) (after : Json) (createdAt : String)
    (prevHash : Option String) :
    Passes sampleSha prevHash (sealedEntry id action after createdAt prevHash).toJson
      (hashAuditRow sampleSha
        (samplePayload action (.ofJson after) createdAt prevHash).toValue) := by
  refine ⟨rfl, sampleSha.nonempty _, ?_, hashAuditRow_congr sampleSha (canonical_payloadOf _)⟩
  have hget : (sealedEntry id action after createdAt prevHash).toJson.get "prevHash" =
      some (textOrNull prevHash) := rfl
  rw [hget]
  cases prevHash <;> simp [sameText, textOrNull]

theorem sealedBundle_ok (after : Json) :
    (verifyAuditBundle sampleSha (sealedBundle after).toJson).ok = true := by
  have hfirst := sealedEntry_passes "a" "project.created" (.obj [("name", .str "x")])
    "1970-01-01T00:00:00.007Z" none
  have hdigest : hashAuditRow sampleSha (samplePayload "project.created"
      (.ofJson (.obj [("name", .str "x")])) "1970-01-01T00:00:00.007Z" none).toValue =
        firstDigest := by
    decide +kernel
  rw [hdigest] at hfirst
  have hsecond := sealedEntry_passes "b" "project.updated" after "1970-01-01T00:00:00.008Z"
    (some firstDigest)
  refine verifyAuditBundle_of_walks rfl rfl rfl rfl rfl
    (.cons hfirst (.cons hsecond (.nil _))) ?_
  exact tipAgrees_toJson (sealedEntry "b" "project.updated" after "1970-01-01T00:00:00.008Z"
    (some firstDigest)) rfl

theorem accepted_bundles_agree_reordered :
    let b := (sealedBundle (.obj [("seats", .num (.ofNat 3)), ("name", .str "y")])).toJson
    let b' := (sealedBundle (.obj [("name", .str "y"), ("seats", .num (.ofNat 3))])).toJson
    (contents b' <:+ contents b ∨ contents b <:+ contents b') ∧
      (originOf (b.get "origin") = some none → contents b' <:+ contents b) := by
  intro b b'
  have htip : tipHash b = tipHash b' := by decide +kernel
  exact accepted_bundles_agree sampleSha_injective (sealedBundle_ok _) (sealedBundle_ok _) htip

end Rovenue.Audit
