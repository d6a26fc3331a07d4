import Rovenue.Audit.BundleVerifier
import Rovenue.Audit.ChainedWrites

/-! What the audit log proves, whatever ran on it: the walk along a chain finds fault with exactly
the rows whose snapshots JSON does not keep, the bundles verify by the same rule, and truncation
loses no row. -/

namespace Rovenue.Audit
open Txn
open Js (Json JsValue)

variable {ι : Type} {S : Server} {h : History ι AuditDb Write} {p : String} {s : AuditDb}
  {v u : AuditLogValues} {rows : List AuditLogValues} {expected : Option String}

def AuditEntry.isPlain (e : AuditEntry) : Bool :=
  (orNull e.before).isPlain && (orNull e.after).isPlain

theorem orNull_ofJson (j : Json) : orNull (.ofJson j) = .ofJson j := by
  cases j <;> rfl

theorem distinct_orNull {v : JsValue} (hv : v.Distinct) : (orNull v).Distinct := by
  cases v <;> exact hv

theorem canonical_snapshotColumn (jsonb : Jsonb) {v : JsValue} (hv : v.Distinct) :
    (JsValue.ofJson (snapshotColumn jsonb v)).canonical = (orNull v).canonical ↔
      (orNull v).isPlain = true := by
  have hdistinct := distinct_orNull hv
  rw [snapshotColumn, JsValue.canonical_ofJson]
  generalize orNull v = w at hdistinct ⊢
  cases w with
  | null => simp [Json.sorted, JsValue.canonical, JsValue.isPlain]
  | _ =>
    rw [jsonb.keeps _ (JsValue.distinct_toJson _ hdistinct), eq_comm]
    exact JsValue.canonical_eq_iff _

theorem canonical_payload_inj {q q' : AuditChainPayload}
    (heq : q.toValue.canonical = q'.toValue.canonical) :
    q.before.canonical = q'.before.canonical ∧ q.after.canonical = q'.after.canonical := by
  have hget : ∀ (r : AuditChainPayload), r.toValue.canonical.get "before" = some r.before.canonical ∧
      r.toValue.canonical.get "after" = some r.after.canonical := by
    intro r
    rw [AuditChainPayload.toValue, JsValue.canonical, Json.get, Json.get, Js.lookup_sortFields,
      Js.lookup_sortFields]
    exact ⟨rfl, rfl⟩
  obtain ⟨hbefore, hafter⟩ := hget q
  obtain ⟨hbefore', hafter'⟩ := hget q'
  rw [heq, hbefore', Option.some_inj] at hbefore
  rw [heq, hafter', Option.some_inj] at hafter
  exact ⟨hbefore.symm, hafter.symm⟩

theorem canonical_payload_congr {e : AuditEntry} {b b' a a' : JsValue} (t : ℤ)
    (prev : Option String) (hb : (orNull b).canonical = (orNull b').canonical)
    (ha : (orNull a).canonical = (orNull a').canonical) :
    (buildCanonicalPayload { e with before := b, after := a } t prev).toValue.canonical =
      (buildCanonicalPayload { e with before := b', after := a' } t prev).toValue.canonical := by
  simp only [buildCanonicalPayload, AuditChainPayload.toValue, JsValue.canonical,
    JsValue.canonicalFields, hb, ha]

theorem recompute_eq_iff (hsha : Function.Injective S.sha.hex) (hv : Written S v) :
    recompute S.sha (v.row S.jsonb) = v.rowHash ↔ v.entry.isPlain = true := by
  obtain ⟨hhash, hbefore, hafter⟩ := hv
  have hb := canonical_snapshotColumn S.jsonb hbefore
  have ha := canonical_snapshotColumn S.jsonb hafter
  rw [hhash, recompute, hashAuditRow_eq_iff hsha, AuditEntry.isPlain, Bool.and_eq_true, ← hb, ← ha]
  constructor
  · intro heq
    have hsame := canonical_payload_inj heq
    simp only [buildCanonicalPayload, AuditLog.entry, AuditLogValues.row, orNull_ofJson] at hsame
    exact hsame
  · rintro ⟨hb, ha⟩
    rw [← orNull_ofJson] at hb ha
    exact canonical_payload_congr (e := v.entry) v.createdAt v.prevHash hb ha

theorem rowHash_ne (hv : Written S v) : v.rowHash ≠ "" := by
  rw [hv.1]
  exact S.sha.nonempty _

def startErrors (jsonb : Jsonb) (expected : Option String) (first : Option AuditLogValues) :
    List ChainVerificationError :=
  (first.filter fun v => v.prevHash ≠ expected).toList.map fun v => brokenLink expected (v.row jsonb)

def hashErrors (S : Server) (rows : List AuditLogValues) : List ChainVerificationError :=
  (rows.filter fun v => !v.entry.isPlain).map fun v => badHash S.sha (v.row S.jsonb)

theorem walkChain_eq (hsha : Function.Injective S.sha.hex) (hlinked : rows.IsChain Linked)
    (hwritten : ∀ v ∈ rows, Written S v) :
    walkChain S.sha expected (rows.map (·.row S.jsonb)) =
      startErrors S.jsonb expected rows.head? ++ hashErrors S rows := by
  induction rows generalizing expected with
  | nil => rfl
  | cons v rows ih =>
    obtain ⟨hv, hrest⟩ := List.forall_mem_cons.1 hwritten
    rw [List.isChain_cons] at hlinked
    have hnext : startErrors S.jsonb (some v.rowHash) rows.head? = [] := by
      cases hfirst : rows.head? with
      | none => rfl
      | some w =>
        have hlink := hlinked.1 w hfirst
        simp [startErrors, Option.filter, hlink.1]
    have hrow : (v.row S.jsonb).rowHash = some v.rowHash := rfl
    have hprev : (v.row S.jsonb).prevHash = v.prevHash := rfl
    have hhash : some (recompute S.sha (v.row S.jsonb)) = some v.rowHash ↔ v.entry.isPlain = true := by
      rw [Option.some_inj]
      exact recompute_eq_iff hsha hv
    rw [List.map_cons, walkChain, hrow, Option.getD_some, if_neg (rowHash_ne hv),
      ih hlinked.2 hrest, hnext, List.nil_append, hprev, List.head?_cons]
    by_cases hplain : v.entry.isPlain = true <;> by_cases hlink : v.prevHash = expected <;>
      simp [startErrors, hashErrors, Option.filter, hplain, hlink, hhash]

/-- Whatever ran on the log, and however it was truncated, the errors of a project's chain are the
link of its first row, where that names a row no longer there, and one for each row whose snapshots
JSON does not keep. A chain that was never truncated has no error of the first kind. -/
theorem verifyAuditChain_errors [DecidableEq ι] (hsha : Function.Injective S.sha.hex)
    {calls : ι → Call} (hcalls : ∀ i, (calls i).Distinct) (evs : List (Event ι Drawn))
    (hfresh : ∀ c ∈ (auditWorld S calls).commits evs, Fresh c.writes c.before) :
    ∀ h ∈ (auditWorld S calls).visited evs, ∀ p,
      (verifyAuditChain S p h.db).errors =
        startErrors S.jsonb none (surviving p h.db).head? ++ hashErrors S (surviving p h.db) ∧
      (surviving p h.db = committed p h →
        (verifyAuditChain S p h.db).errors = hashErrors S (committed p h)) := by
  intro h hh p
  have hs := visited_sound hcalls evs hfresh h hh
  have hwritten : ∀ v ∈ surviving p h.db, Written S v := by
    intro v hv
    rw [hs.rows p] at hv
    exact (hs.written p v (List.mem_of_mem_drop hv)).2
  have herrors : (verifyAuditChain S p h.db).errors =
      startErrors S.jsonb none (surviving p h.db).head? ++ hashErrors S (surviving p h.db) := by
    rw [verifyAuditChain]
    simp only [findProjectChain_eq S.jsonb (hs.linked p)]
    exact walkChain_eq hsha (hs.linked p) hwritten
  refine ⟨herrors, fun hall => ?_⟩
  have hstart : startErrors S.jsonb none (committed p h).head? = [] := by
    cases hfirst : (committed p h).head? with
    | none => rfl
    | some v => simp [startErrors, Option.filter, hs.first p v hfirst]
  rw [herrors, hall, hstart, List.nil_append]

def trailServer : Server where
  sha := sampleSha
  jsonb := ⟨id, fun _ _ => rfl⟩

def trailEntry (action : String) (after : JsValue) : AuditEntry where
  projectId := "p"
  userId := none
  action := action
  resource := "project"
  resourceId := "p"
  after := after

inductive TrailCaller where
  | creating
  | updating
  | truncating
  deriving DecidableEq

def trailCalls : TrailCaller → Call
  | .creating => .audit (trailEntry "project.created" (.obj [("name", .str "x")]))
  | .updating => .auditWithin [trailEntry "project.updated" (.obj [("name", .undefined)])] true
  | .truncating => .checkpointAndTruncate "p" 7

def trailEvents : List (Event TrailCaller Drawn) :=
  [.run .creating, .run .updating, .run .creating, .run .updating, .run .creating,
    .draw .creating ⟨"a", 7⟩, .run .creating, .run .creating, .run .updating, .run .truncating,
    .run .truncating, .run .updating, .draw .updating ⟨"b", 7⟩, .draw .truncating ⟨"c", 9⟩,
    .run .updating, .run .updating] ++ List.replicate 7 (.run .truncating) ++
      [.draw .truncating ⟨"d", 3⟩, .run .truncating, .run .truncating]

theorem trailCalls_distinct (i : TrailCaller) : (trailCalls i).Distinct := by
  have hsnapshot : ∀ v : JsValue, v.Distinct → (JsValue.obj [("name", v)]).Distinct := by
    intro v hv
    simp [JsValue.Distinct, JsValue.DistinctFields, hv]
  cases i with
  | creating => exact ⟨trivial, hsnapshot _ trivial⟩
  | updating =>
    intro entry hentry
    obtain rfl := List.mem_singleton.1 hentry
    exact ⟨trivial, hsnapshot _ trivial⟩
  | truncating => trivial

theorem trail_fresh :
    ∀ c ∈ (auditWorld trailServer trailCalls).commits trailEvents, Fresh c.writes c.before := by
  decide +kernel

def trailEnd : History TrailCaller AuditDb Write :=
  ((auditWorld trailServer trailCalls).runAll trailEvents).hist

theorem trailEnd_mem : trailEnd ∈ (auditWorld trailServer trailCalls).visited trailEvents :=
  World.last_mem_visited _ _

theorem verifyAuditChain_errors_trail :
    (verifyAuditChain trailServer "p" trailEnd.db).errors =
      startErrors trailServer.jsonb none (surviving "p" trailEnd.db).head? ++
        hashErrors trailServer (surviving "p" trailEnd.db) :=
  (verifyAuditChain_errors (S := trailServer) sampleSha_injective trailCalls_distinct trailEvents
    trail_fresh trailEnd trailEnd_mem "p").1

theorem hashAuditRow_payloadOf (sha : Sha256) (r : AuditLog) :
    hashAuditRow sha (.ofJson (payloadOf (proofRow r).toJson)) = recompute sha r := by
  have hpayload : (proofRow r).payload = buildCanonicalPayload r.entry r.createdAt r.prevHash := by
    simp only [AuditProofBundleEntry.payload, proofRow, buildCanonicalPayload, AuditLog.entry,
      orNull_ofJson]
  rw [recompute, ← hpayload]
  exact hashAuditRow_congr sha (canonical_payloadOf _)

theorem sameText_textOrNull_iff {o o' : Option String} :
    sameText o (some (textOrNull o')) = true ↔ o = o' := by
  cases o <;> cases o' <;> simp [textOrNull, sameText]

theorem passes_bundled_iff (hsha : Function.Injective S.sha.hex) (hv : Written S v)
    {rowHash : String} : Passes S.sha expected (v.bundled S).toJson rowHash ↔
      rowHash = v.rowHash ∧ v.prevHash = expected ∧ v.entry.isPlain = true := by
  have hget : Json.text? ((v.bundled S).toJson.get "rowHash") = some v.rowHash := rfl
  have hprev : (v.bundled S).toJson.get "prevHash" = some (textOrNull v.prevHash) := rfl
  have hrepro : hashAuditRow S.sha (.ofJson (payloadOf (v.bundled S).toJson)) = v.rowHash ↔
      v.entry.isPlain = true := by
    rw [AuditLogValues.bundled, hashAuditRow_payloadOf]
    exact recompute_eq_iff hsha hv
  constructor
  · rintro ⟨hstated, -, hlinked, hreproduced⟩
    rw [hget, Option.some_inj] at hstated
    subst hstated
    rw [hprev, sameText_textOrNull_iff] at hlinked
    exact ⟨rfl, hlinked.symm, hrepro.1 hreproduced⟩
  · rintro ⟨rfl, rfl, hplain⟩
    refine ⟨hget, rowHash_ne hv, ?_, hrepro.2 hplain⟩
    rw [hprev]
    exact sameText_textOrNull_iff.2 rfl

theorem walks_bundled (hsha : Function.Injective S.sha.hex) (hlinked : rows.IsChain Linked)
    (hwritten : ∀ v ∈ rows, Written S v) (hplain : ∀ v ∈ rows, v.entry.isPlain = true)
    (hfirst : ∀ v ∈ rows.head?, v.prevHash = expected) :
    ∃ last, Walks S.sha expected (rows.map fun v => (v.bundled S).toJson) last := by
  induction rows generalizing expected with
  | nil => exact ⟨expected, .nil expected⟩
  | cons v rows ih =>
    obtain ⟨hv, hrest⟩ := List.forall_mem_cons.1 hwritten
    obtain ⟨hvp, hrestp⟩ := List.forall_mem_cons.1 hplain
    rw [List.isChain_cons] at hlinked
    obtain ⟨last, hwalk⟩ := ih hlinked.2 hrest hrestp fun w hw => (hlinked.1 w hw).1
    have hpass : Passes S.sha expected (v.bundled S).toJson v.rowHash :=
      (passes_bundled_iff hsha hv).2 ⟨rfl, hfirst v rfl, hvp⟩
    exact ⟨last, .cons hpass hwalk⟩

theorem plain_of_walks (hsha : Function.Injective S.sha.hex) (hwritten : ∀ v ∈ rows, Written S v)
    {last : Option String}
    (hwalk : Walks S.sha expected (rows.map fun v => (v.bundled S).toJson) last) :
    ∀ v ∈ rows, v.entry.isPlain = true := by
  induction rows generalizing expected with
  | nil => simp
  | cons v rows ih =>
    obtain ⟨hv, hrest⟩ := List.forall_mem_cons.1 hwritten
    cases hwalk with
    | cons hfirst hwalk =>
      exact List.forall_mem_cons.2 ⟨((passes_bundled_iff hsha hv).1 hfirst).2.2, ih hrest hwalk⟩

theorem verifyAuditBundle_assemble (hsha : Function.Injective S.sha.hex)
    (hlinked : rows.IsChain Linked) (hwritten : ∀ v ∈ rows, Written S v) (projectId exportedAt : String)
    («from» «to» : Option String) (maxEntries : ℕ) :
    (verifyAuditBundle S.sha (assembleAuditProofBundle projectId exportedAt
      (rows.map (·.bundled S)) «from» «to» maxEntries).toJson).ok = true ↔
        ∀ v ∈ rows, v.entry.isPlain = true := by
  set b := assembleAuditProofBundle projectId exportedAt (rows.map (·.bundled S)) «from» «to»
    maxEntries with hb
  have hentries : b.toJson.get "entries" =
      some (.arr (rows.map fun v => (v.bundled S).toJson)) := by
    rw [hb]
    change some (Json.arr ((rows.map (·.bundled S)).map (·.toJson))) = _
    rw [List.map_map]
    rfl
  constructor
  · intro hok
    obtain ⟨entries, origin, last, hacc⟩ := verifyAuditBundle_ok hok
    have hlisted := hacc.listed
    rw [hentries, Option.some_inj, Json.arr.injEq] at hlisted
    subst hlisted
    exact plain_of_walks hsha hwritten hacc.walk
  · intro hplain
    have horigin : originOf (b.toJson.get "origin") = some (rows.head?.bind (·.prevHash)) := by
      have hget : b.toJson.get "origin" = some ((rows.head?.bind (·.prevHash)).elim .null
          fun rowHash => .obj [("rowHash", .str rowHash)]) := by
        cases rows <;> rfl
      rw [hget]
      cases rows.head?.bind (·.prevHash) <;> rfl
    have htip : tipOf (b.toJson.get "tip") = some (rows.getLast?.map fun v =>
        (some v.rowHash, some (toISOString v.createdAt))) := by
      have hget : b.toJson.get "tip" = some ((rows.getLast?.map fun v =>
          (some v.rowHash, toISOString v.createdAt)).elim .null fun tip =>
            .obj [("rowHash", textOrNull tip.1), ("createdAt", .str tip.2)]) := by
        change some (((rows.map (·.bundled S)).getLast?.map fun e => (e.rowHash, e.createdAt)).elim
          Json.null _) = _
        rw [List.getLast?_map, Option.map_map]
        rfl
      rw [hget]
      cases rows.getLast? <;> rfl
    obtain ⟨last, hwalk⟩ : ∃ last, Walks S.sha (rows.head?.bind (·.prevHash))
        (rows.map fun v => (v.bundled S).toJson) last :=
      walks_bundled hsha hlinked hwritten hplain fun v hv => by rw [Option.mem_def.1 hv]; rfl
    refine verifyAuditBundle_of_walks rfl rfl hentries horigin htip hwalk ?_
    rw [List.getLast?_map]
    cases rows.getLast? with
    | none => rfl
    | some v =>
      have hhash : Json.text? ((v.bundled S).toJson.get "rowHash") = some v.rowHash := rfl
      have htime : (v.bundled S).toJson.get "createdAt" = some (.str (toISOString v.createdAt)) := rfl
      simp [tipAgrees, hhash, htime, sameText]

section Runs
variable [DecidableEq ι] {calls : ι → Call}

/-- Every bundle of the bucket, and every bundle that the proof route gives out at any moment, holds
rows that were committed, and verifies exactly if JSON keeps the snapshots of all of them. -/
theorem bundles_verify (hsha : Function.Injective S.sha.hex) (hcalls : ∀ i, (calls i).Distinct)
    (evs : List (Event ι Drawn))
    (hfresh : ∀ c ∈ (auditWorld S calls).commits evs, Fresh c.writes c.before) :
    ∀ h ∈ (auditWorld S calls).visited evs,
      (∀ key b, h.db.bundles.get? key = some b → ∃ p, ∃ rows : List AuditLogValues,
        b.entries = rows.map (·.bundled S) ∧ (∀ v ∈ rows, v ∈ committed p h) ∧
        ((verifyAuditBundle S.sha b.toJson).ok = true ↔ ∀ v ∈ rows, v.entry.isPlain = true)) ∧
      ∀ (newDate : String → ℤ) p exportedAt «from» «to»,
        ((verifyAuditBundle S.sha
            (proofRoute S.jsonb newDate p exportedAt «from» «to» h.db).toJson).ok = true ↔
          ∀ v ∈ (ranged p («from».map newDate) («to».map newDate) h.db).take AUDIT_PROOF_MAX_ENTRIES,
            v.entry.isPlain = true) := by
  intro h hh
  have hs := visited_sound hcalls evs hfresh h hh
  constructor
  · intro key b hb
    obtain ⟨p, rows, exportedAt, «to», hexports, rfl⟩ := hs.exports key b hb
    refine ⟨p, rows, rfl, hexports.committed, ?_⟩
    exact verifyAuditBundle_assemble hsha hexports.linked
      (fun v hv => (hs.written p v (hexports.committed v hv)).2) _ _ _ _ _
  · intro newDate p exportedAt «from» «to»
    have hinfix := ranged_isInfix («from».map newDate) («to».map newDate) (hs.linked p)
    have hranged : (ranged p («from».map newDate) («to».map newDate) h.db).take
        AUDIT_PROOF_MAX_ENTRIES <:+: surviving p h.db :=
      (List.take_prefix _ _).isInfix.trans hinfix
    rw [proofRoute, listAuditProofRows_eq («from».map newDate) («to».map newDate) _ (hs.linked p)]
    have hchain := List.IsChain.infix (hs.linked p) hranged
    refine verifyAuditBundle_assemble hsha hchain (fun v hv => ?_) _ _ _ _ _
    have hmem := hranged.subset hv
    rw [hs.rows p] at hmem
    exact (hs.written p v (List.mem_of_mem_drop hmem)).2

theorem bundles_verify_trail :
    (∀ key b, trailEnd.db.bundles.get? key = some b → ∃ p, ∃ rows : List AuditLogValues,
      b.entries = rows.map (·.bundled trailServer) ∧ (∀ v ∈ rows, v ∈ committed p trailEnd) ∧
      ((verifyAuditBundle trailServer.sha b.toJson).ok = true ↔
        ∀ v ∈ rows, v.entry.isPlain = true)) ∧
    ∀ (newDate : String → ℤ) p exportedAt «from» «to»,
      ((verifyAuditBundle trailServer.sha
          (proofRoute trailServer.jsonb newDate p exportedAt «from» «to» trailEnd.db).toJson).ok =
            true ↔
        ∀ v ∈ (ranged p («from».map newDate) («to».map newDate) trailEnd.db).take
            AUDIT_PROOF_MAX_ENTRIES, v.entry.isPlain = true) :=
  bundles_verify (S := trailServer) sampleSha_injective trailCalls_distinct trailEvents
    trail_fresh trailEnd trailEnd_mem

omit [DecidableEq ι] in
theorem stored_of_prevHash (hs : Sound S h) {x : String} (hv : v ∈ (surviving p h.db).head?)
    (hprev : v.prevHash = some x) : ∃ u ∈ committed p h, u.rowHash = x ∧ Stored S h.db u := by
  rw [hs.rows p] at hv
  cases hgone : gone p h with
  | zero =>
    rw [hgone, List.drop_zero] at hv
    have hnone := hs.first p v hv
    rw [hnone] at hprev
    cases hprev
  | succ n =>
    rw [hgone, List.head?_drop] at hv
    have hlt : n + 1 < (committed p h).length := by
      by_contra hle
      rw [List.getElem?_eq_none (by omega)] at hv
      cases hv
    have hlt' : n < (committed p h).length := by omega
    have hsplit : committed p h = (committed p h).take n ++
        (committed p h)[n] :: (committed p h)[n + 1] :: (committed p h).drop (n + 2) := by
      rw [← List.drop_eq_getElem_cons hlt, ← List.drop_eq_getElem_cons hlt', List.take_append_drop]
    rw [Option.mem_def, List.getElem?_eq_getElem hlt, Option.some_inj] at hv
    have hchain := hs.follows p
    rw [hsplit, hv, List.isChain_append_cons_cons] at hchain
    have hmem : (committed p h)[n] ∈ committed p h := List.getElem_mem hlt'
    refine ⟨_, hmem, ?_, ?_⟩
    · obtain hlink | hlink := hchain.2.1
      · rw [hprev, Option.some_inj] at hlink
        exact hlink.symm
      · rw [hprev] at hlink
        cases hlink
    · refine (hs.kept p _ hmem).resolve_left fun hleft => ?_
      rw [hs.rows p, hgone] at hleft
      have hids := hs.ids p
      rw [← List.take_append_drop (n + 1) (committed p h), List.map_append,
        List.nodup_append] at hids
      refine hids.2.2 _ (List.mem_map_of_mem ?_) _ (List.mem_map_of_mem hleft) rfl
      rw [List.take_succ_eq_append_getElem hlt']
      exact List.mem_append_right _ List.mem_cons_self

/-- No row that was ever committed is lost: it is in the table or in a bundle of the bucket, and the
row that the table's first row names is in a bundle. -/
theorem truncation_keeps_rows (hcalls : ∀ i, (calls i).Distinct) (evs : List (Event ι Drawn))
    (hfresh : ∀ c ∈ (auditWorld S calls).commits evs, Fresh c.writes c.before) :
    ∀ h ∈ (auditWorld S calls).visited evs, ∀ p,
      (∃ n, surviving p h.db = (committed p h).drop n) ∧
      (∀ v ∈ committed p h, v ∈ surviving p h.db ∨ Stored S h.db v) ∧
      ∀ v ∈ (surviving p h.db).head?, ∀ x, v.prevHash = some x →
        ∃ u ∈ committed p h, u.rowHash = x ∧ Stored S h.db u := by
  intro h hh p
  have hs := visited_sound hcalls evs hfresh h hh
  exact ⟨⟨gone p h, hs.rows p⟩, hs.kept p, fun v hv x hx => stored_of_prevHash hs hv hx⟩

theorem truncation_keeps_rows_trail :
    (∃ n, surviving "p" trailEnd.db = (committed "p" trailEnd).drop n) ∧
    (∀ v ∈ committed "p" trailEnd,
      v ∈ surviving "p" trailEnd.db ∨ Stored trailServer trailEnd.db v) ∧
    ∀ v ∈ (surviving "p" trailEnd.db).head?, ∀ x, v.prevHash = some x →
      ∃ u ∈ committed "p" trailEnd, u.rowHash = x ∧ Stored trailServer trailEnd.db u :=
  truncation_keeps_rows trailCalls_distinct trailEvents trail_fresh trailEnd trailEnd_mem "p"

end Runs

end Rovenue.Audit
