import Rovenue.Audit.AuditLog
import Rovenue.Txn.Guarantee
import Rovenue.Txn.Journal

/-! What the writers and the retention runs of the audit log owe one another. Each project has a
journal of the rows ever committed; the table holds the end of it, linked row to row. -/

namespace Rovenue.Audit
open Txn
open Js (Json JsValue)

variable {ι : Type} {S : Server} {h h' : History ι AuditDb Write} {i : ι} {ws : List Write}
  {p : String} {s : AuditDb} {v u : AuditLogValues}

def insertsOf (p : String) (ws : List Write) : List AuditLogValues :=
  ws.filterMap fun w =>
    match w with
    | .insertAuditLog v => if v.entry.projectId = p then some v else none
    | _ => none

def committed (p : String) (h : History ι AuditDb Write) : List AuditLogValues :=
  h.log.flatMap fun c => insertsOf p c.2

def surviving (p : String) (s : AuditDb) : List AuditLogValues :=
  s.logs.filter fun v => v.entry.projectId = p

def gone (p : String) (h : History ι AuditDb Write) : ℕ :=
  (committed p h).length - (surviving p h.db).length

@[simp] theorem insertsOf_append (ws vs : List Write) :
    insertsOf p (ws ++ vs) = insertsOf p ws ++ insertsOf p vs := List.filterMap_append

@[simp] theorem committed_commit :
    committed p (h.commit i ws) = committed p h ++ insertsOf p ws := by
  simp [committed]

theorem mem_insertsOf : v ∈ insertsOf p ws ↔ .insertAuditLog v ∈ ws ∧ v.entry.projectId = p := by
  rw [insertsOf, List.mem_filterMap]
  constructor
  · rintro ⟨w, hw, heq⟩
    split at heq
    · split_ifs at heq with hp
      obtain rfl := Option.some_inj.1 heq
      exact ⟨hw, hp⟩
    · cases heq
  · rintro ⟨hw, rfl⟩
    exact ⟨_, hw, by simp⟩

def Inserts (ws : List Write) : Prop := ∀ w ∈ ws, ∃ v, w = .insertAuditLog v

theorem surviving_applyAll (hws : Inserts ws) (s : AuditDb) :
    surviving p (applyAll s ws) = surviving p s ++ insertsOf p ws := by
  induction ws generalizing s with
  | nil => simp [insertsOf]
  | cons w ws ih =>
    obtain ⟨v, rfl⟩ := hws w List.mem_cons_self
    rw [applyAll_cons, ih fun w hw => hws w (List.mem_cons_of_mem _ hw)]
    change surviving p (s.write (.insertAuditLog v)) ++ _ = _
    by_cases hp : v.entry.projectId = p
    · simp [surviving, AuditDb.write, insertsOf, hp]
    · simp [surviving, AuditDb.write, insertsOf, hp]

theorem bundles_applyAll (hws : Inserts ws) (s : AuditDb) : (applyAll s ws).bundles = s.bundles := by
  refine applyAll_congr AuditDb.bundles (fun w hw s => ?_) s
  obtain ⟨v, rfl⟩ := hws w hw
  rfl

def Written (S : Server) (v : AuditLogValues) : Prop :=
  v.rowHash = hashAuditRow S.sha (buildCanonicalPayload v.entry v.createdAt v.prevHash).toValue ∧
    v.entry.before.Distinct ∧ v.entry.after.Distinct

def Linked (a b : AuditLogValues) : Prop := b.prevHash = some a.rowHash ∧ a.createdAt < b.createdAt

def Follows (a b : AuditLogValues) : Prop := b.prevHash = some a.rowHash ∨ b.prevHash = none

theorem Linked.follows {a b : AuditLogValues} (h : Linked a b) : Follows a b := .inl h.1

structure Continues (p : String) (h : History ι AuditDb Write) (new : List AuditLogValues) :
    Prop where
  linked : ((surviving p h.db).getLast?.toList ++ new).IsChain Linked
  follows : ((committed p h).getLast?.toList ++ new).IsChain Follows
  first : committed p h = [] → ∀ v ∈ new.head?, v.prevHash = none

theorem continues_nil : Continues p h [] where
  linked := by cases (surviving p h.db).getLast? <;> simp
  follows := by cases (committed p h).getLast? <;> simp
  first := fun _ v hv => by cases hv

structure Appends (S : Server) (held : Set String) (ws : List Write) (h : History ι AuditDb Write) :
    Prop where
  row : ∀ w ∈ ws, ∃ v, w = .insertAuditLog v ∧ lockKey v.entry.projectId ∈ held ∧ Written S v
  continues : ∀ p, Continues p h (insertsOf p ws)

theorem Appends.inserts {held : Set String} (hws : Appends S held ws h) : Inserts ws :=
  fun w hw => let ⟨v, heq, _⟩ := hws.row w hw; ⟨v, heq⟩

def AuditLogValues.bundled (S : Server) (v : AuditLogValues) : AuditProofBundleEntry :=
  proofRow (v.row S.jsonb)

structure Exports (S : Server) (h : History ι AuditDb Write) (p : String)
    (rows : List AuditLogValues) : Prop where
  linked : rows.IsChain Linked
  committed : ∀ v ∈ rows, v ∈ committed p h

def IsExport (S : Server) (h : History ι AuditDb Write) (b : AuditProofBundle) : Prop :=
  ∃ p rows exportedAt «to», Exports S h p rows ∧
    b = assembleAuditProofBundle p exportedAt (rows.map (·.bundled S)) none (some «to»)
      AUDIT_PROOF_MAX_ENTRIES

/-- Some stored bundle has the row. -/
def Stored (S : Server) (s : AuditDb) (v : AuditLogValues) : Prop :=
  ∃ key b, s.bundles.get? key = some b ∧ v.bundled S ∈ b.entries

/-- A `DELETE` that cuts rows at the front of the project's table, all of them stored. -/
structure Truncates (S : Server) (p : String) (ids : List String) (s : AuditDb) : Prop where
  cut : ∃ n, surviving p (s.write (.deleteAuditLogs p ids)) = (surviving p s).drop n
  stored : ∀ v ∈ surviving p s, v.id ∈ ids → Stored S s v

def insertedIds (ws : List Write) : List String :=
  ws.filterMap fun w =>
    match w with
    | .insertAuditLog v => some v.id
    | _ => none

def Write.Unused (s : AuditDb) : Write → Prop
  | .putObject key _ => s.bundles.get? key = none
  | _ => True

instance (s : AuditDb) (w : Write) : Decidable (w.Unused s) :=
  match w with
  | .putObject key _ =>
    decidable_of_iff ((s.bundles.get? key).isNone = true) Option.isNone_iff_eq_none
  | .insertAuditLog _ => .isTrue trivial
  | .deleteAuditLogs _ _ => .isTrue trivial

/-- What `createId` promises: no row and no bundle takes an id that was given before. -/
def Fresh (ws : List Write) (h : History ι AuditDb Write) : Prop :=
  (insertedIds (h.log.flatMap (·.2) ++ ws)).Nodup ∧ ∀ w ∈ ws, w.Unused h.db

instance (ws : List Write) (h : History ι AuditDb Write) : Decidable (Fresh ws h) :=
  inferInstanceAs (Decidable (_ ∧ _))

theorem ids_insertsOf (p : String) (ws : List Write) :
    ((insertsOf p ws).map (·.id)).Sublist (insertedIds ws) := by
  induction ws with
  | nil => exact List.Sublist.slnil
  | cons w ws ih =>
    cases w with
    | insertAuditLog v =>
      have hids : insertedIds (.insertAuditLog v :: ws) = v.id :: insertedIds ws := rfl
      rw [hids]
      by_cases hp : v.entry.projectId = p
      · have hrows : insertsOf p (.insertAuditLog v :: ws) = v :: insertsOf p ws := by
          simp [insertsOf, hp]
        rw [hrows, List.map_cons]
        exact ih.cons_cons _
      · have hrows : insertsOf p (.insertAuditLog v :: ws) = insertsOf p ws := by
          simp [insertsOf, hp]
        rw [hrows]
        exact ih.cons _
    | deleteAuditLogs q ids => exact ih
    | putObject key b => exact ih

theorem committed_eq (p : String) (h : History ι AuditDb Write) :
    committed p h = insertsOf p (h.log.flatMap (·.2)) := by
  rw [committed]
  induction h.log with
  | nil => rfl
  | cons c log ih => rw [List.flatMap_cons, List.flatMap_cons, insertsOf_append, ih]

theorem Fresh.ids (hfresh : Fresh ws h) (p : String) :
    ((committed p h ++ insertsOf p ws).map (·.id)).Nodup := by
  rw [committed_eq, ← insertsOf_append]
  exact hfresh.1.sublist (ids_insertsOf p _)

theorem Fresh.unused {key : String} {b : AuditProofBundle} (hfresh : Fresh [.putObject key b] h) :
    h.db.bundles.get? key = none := hfresh.2 _ List.mem_cons_self

structure Sound (S : Server) (h : History ι AuditDb Write) : Prop where
  rows : ∀ p, surviving p h.db = (committed p h).drop (gone p h)
  linked : ∀ p, (surviving p h.db).IsChain Linked
  follows : ∀ p, (committed p h).IsChain Follows
  first : ∀ p, ∀ v ∈ (committed p h).head?, v.prevHash = none
  ids : ∀ p, ((committed p h).map (·.id)).Nodup
  written : ∀ p, ∀ v ∈ committed p h, v.entry.projectId = p ∧ Written S v
  kept : ∀ p, ∀ v ∈ committed p h, v ∈ surviving p h.db ∨ Stored S h.db v
  exports : ∀ key b, h.db.bundles.get? key = some b → IsExport S h b

inductive Lawful (S : Server) (held : Set String) (h : History ι AuditDb Write) :
    List Write → Prop where
  | appends {ws : List Write} (hws : Appends S held ws h) : Lawful S held h ws
  | puts (key : String) {b : AuditProofBundle} (hb : IsExport S h b) :
      Lawful S held h [.putObject key b]
  | truncates {p : String} {ids : List String} (hcut : Truncates S p ids h.db) :
      Lawful S held h [.deleteAuditLogs p ids]

structure Spares (held : Set String) (h h' : History ι AuditDb Write) : Prop where
  grows : ∀ p, committed p h <+: committed p h'
  cut : ∀ p, gone p h ≤ gone p h'
  bundles : ∀ key b, h.db.bundles.get? key = some b → h'.db.bundles.get? key = some b
  locked : ∀ p, lockKey p ∈ held → committed p h' = committed p h

theorem Spares.refl (held : Set String) (h : History ι AuditDb Write) : Spares held h h :=
  ⟨fun _ => List.prefix_refl _, fun _ => le_rfl, fun _ _ hb => hb, fun _ _ => rfl⟩

theorem Spares.trans {held : Set String} {h'' : History ι AuditDb Write} (hs : Spares held h h')
    (hs' : Spares held h' h'') : Spares held h h'' :=
  ⟨fun p => (hs.grows p).trans (hs'.grows p), fun p => (hs.cut p).trans (hs'.cut p),
    fun key b hb => hs'.bundles key b (hs.bundles key b hb),
    fun p hp => (hs'.locked p hp).trans (hs.locked p hp)⟩

theorem length_surviving_le (hs : Sound S h) (p : String) :
    (surviving p h.db).length ≤ (committed p h).length := by
  rw [hs.rows p, List.length_drop]
  exact Nat.sub_le _ _

theorem gone_le (p : String) (h : History ι AuditDb Write) : gone p h ≤ (committed p h).length :=
  Nat.sub_le _ _

theorem rows_of_drop {n : ℕ} (heq : surviving p h.db = (committed p h).drop n) :
    surviving p h.db = (committed p h).drop (gone p h) := by
  rw [gone]
  by_cases hn : n ≤ (committed p h).length
  · have hlength := congrArg List.length heq
    rw [List.length_drop] at hlength
    rw [heq]
    congr 1
    rw [List.length_drop]
    omega
  · have hempty : surviving p h.db = [] := by
      rw [heq]
      exact List.drop_of_length_le (by omega)
    rw [hempty]
    simp

section Commit
variable (hs : Sound S h)
include hs

theorem gone_appends (hws : Inserts ws) (p : String) : gone p (h.commit i ws) = gone p h := by
  have hle := length_surviving_le hs p
  rw [gone, gone, committed_commit, History.commit_db, surviving_applyAll hws, List.length_append,
    List.length_append]
  omega

theorem Sound.appends {held : Set String} (hws : Appends S held ws h) (hfresh : Fresh ws h) :
    Sound S (h.commit i ws) := by
  have hins := hws.inserts
  have hsurviving : ∀ p, surviving p (h.commit i ws).db = surviving p h.db ++ insertsOf p ws :=
    fun p => surviving_applyAll hins h.db
  have hbundles : (h.commit i ws).db.bundles = h.db.bundles := bundles_applyAll hins h.db
  refine ⟨fun p => ?_, fun p => ?_, fun p => ?_, fun p => ?_, fun p => ?_, fun p => ?_, fun p => ?_,
    fun key b hb => ?_⟩
  · rw [hsurviving, committed_commit, gone_appends hs hins, List.drop_append_of_le_length
      (gone_le p h), ← hs.rows p]
  · rw [hsurviving]
    exact isChain_append_of_last (hs.linked p) (hws.continues p).linked
  · rw [committed_commit]
    exact isChain_append_of_last (hs.follows p) (hws.continues p).follows
  · rw [committed_commit]
    cases hempty : committed p h with
    | nil => exact (hws.continues p).first hempty
    | cons v vs =>
      have hfirst := hs.first p
      rw [hempty] at hfirst
      exact hfirst
  · rw [committed_commit]
    exact hfresh.ids p
  · rw [committed_commit]
    intro v hv
    obtain hv | hv := List.mem_append.1 hv
    · exact hs.written p v hv
    · obtain ⟨hmem, hp⟩ := mem_insertsOf.1 hv
      obtain ⟨v', heq, -, hwritten⟩ := hws.row _ hmem
      obtain rfl := Write.insertAuditLog.inj heq
      exact ⟨hp, hwritten⟩
  · rw [committed_commit, hsurviving]
    intro v hv
    obtain hv | hv := List.mem_append.1 hv
    · obtain hmem | ⟨key, b, hb, hentry⟩ := hs.kept p v hv
      · exact .inl (List.mem_append_left _ hmem)
      · exact .inr ⟨key, b, by rwa [hbundles], hentry⟩
    · exact .inl (List.mem_append_right _ hv)
  · rw [hbundles] at hb
    obtain ⟨p, rows, exportedAt, «to», hexports, rfl⟩ := hs.exports key b hb
    refine ⟨p, rows, exportedAt, «to», ⟨hexports.linked, fun v hv => ?_⟩, rfl⟩
    rw [committed_commit]
    exact List.mem_append_left _ (hexports.committed v hv)

theorem Sound.puts {key : String} {b : AuditProofBundle} (hb : IsExport S h b)
    (hfresh : Fresh [.putObject key b] h) : Sound S (h.commit i [.putObject key b]) := by
  have hcommitted : ∀ p, committed p (h.commit i [.putObject key b]) = committed p h :=
    fun p => (committed_commit).trans (List.append_nil _)
  have hexport : ∀ b', IsExport S h b' → IsExport S (h.commit i [.putObject key b]) b' := by
    rintro b' ⟨p, rows, exportedAt, «to», hexports, heq⟩
    exact ⟨p, rows, exportedAt, «to», ⟨hexports.linked, fun v hv => by
      rw [hcommitted]
      exact hexports.committed v hv⟩, heq⟩
  have hget : ∀ key', (h.commit i [.putObject key b]).db.bundles.get? key' =
      if key' = key then some b else h.db.bundles.get? key' := fun key' => Table.get?_set _
  have hnone := hfresh.unused
  refine ⟨fun p => ?_, hs.linked, fun p => ?_, fun p => ?_, fun p => ?_, fun p => ?_, fun p => ?_,
    fun key' b' hb' => ?_⟩
  · have hgone : gone p (h.commit i [.putObject key b]) = gone p h := by
      rw [gone, hcommitted]
      rfl
    rw [hcommitted, hgone]
    exact hs.rows p
  · rw [hcommitted]
    exact hs.follows p
  · rw [hcommitted]
    exact hs.first p
  · rw [hcommitted]
    exact hs.ids p
  · rw [hcommitted]
    exact hs.written p
  · rw [hcommitted]
    intro v hv
    obtain hmem | ⟨key', b', hb', hentry⟩ := hs.kept p v hv
    · exact .inl hmem
    · refine .inr ⟨key', b', ?_, hentry⟩
      rw [hget, if_neg, hb']
      rintro rfl
      rw [hnone] at hb'
      cases hb'
  · rw [hget] at hb'
    split_ifs at hb' with hkey
    · obtain rfl := Option.some_inj.1 hb'
      exact hexport b hb
    · exact hexport b' (hs.exports key' b' hb')

omit hs in
theorem surviving_delete_of_ne {ids : List String} {q : String} (hq : q ≠ p) (s : AuditDb) :
    surviving q (s.write (.deleteAuditLogs p ids)) = surviving q s := by
  rw [surviving, AuditDb.write, List.filter_filter, surviving]
  refine List.filter_congr fun v _ => ?_
  by_cases hv : v.entry.projectId = q
  · simp [hv, hq]
  · simp [hv]

omit hs in
theorem Truncates.cut_all {ids : List String} (hcut : Truncates S p ids h.db) (q : String) :
    ∃ n, surviving q (h.db.write (.deleteAuditLogs p ids)) = (surviving q h.db).drop n := by
  by_cases hq : q = p
  · subst hq
    exact hcut.cut
  · exact ⟨0, surviving_delete_of_ne hq h.db⟩

theorem Sound.truncates {ids : List String} (hcut : Truncates S p ids h.db) :
    Sound S (h.commit i [.deleteAuditLogs p ids]) := by
  have hcommitted : ∀ q, committed q (h.commit i [.deleteAuditLogs p ids]) = committed q h :=
    fun q => (committed_commit).trans (List.append_nil _)
  refine ⟨fun q => ?_, fun q => ?_, fun q => ?_, fun q => ?_, fun q => ?_, fun q => ?_,
    fun q => ?_, fun key b hb => ?_⟩
  · obtain ⟨n, hn⟩ := hcut.cut_all q
    refine rows_of_drop (n := gone q h + n) ?_
    rw [hcommitted, ← List.drop_drop, ← hs.rows q]
    exact hn
  · obtain ⟨n, hn⟩ := hcut.cut_all q
    have hlinked := (hs.linked q).drop n
    rwa [← hn] at hlinked
  · rw [hcommitted]
    exact hs.follows q
  · rw [hcommitted]
    exact hs.first q
  · rw [hcommitted]
    exact hs.ids q
  · rw [hcommitted]
    exact hs.written q
  · rw [hcommitted]
    intro v hv
    obtain hmem | hstored := hs.kept q v hv
    · obtain ⟨hlog, hproject⟩ := List.mem_filter.1 hmem
      by_cases hdel : v.entry.projectId = p ∧ v.id ∈ ids
      · exact .inr (hcut.stored v (List.mem_filter.2 ⟨hlog, by simpa using hdel.1⟩) hdel.2)
      · refine .inl (List.mem_filter.2 ⟨List.mem_filter.2 ⟨hlog, ?_⟩, hproject⟩)
        rw [not_and_or] at hdel
        simpa using hdel
    · exact .inr hstored
  · obtain ⟨q, rows, exportedAt, «to», hexports, heq⟩ := hs.exports key b hb
    exact ⟨q, rows, exportedAt, «to», ⟨hexports.linked, fun v hv => by
      rw [hcommitted]
      exact hexports.committed v hv⟩, heq⟩

theorem Sound.lawful {held : Set String} (hlaw : Lawful S held h ws) (hfresh : Fresh ws h) :
    Sound S (h.commit i ws) := by
  cases hlaw with
  | appends hws => exact hs.appends hws hfresh
  | puts key hb => exact hs.puts hb hfresh
  | truncates hcut => exact hs.truncates hcut

theorem Lawful.spares {held others : Set String} (hlaw : Lawful S held h ws) (hfresh : Fresh ws h)
    (hdisjoint : Disjoint others held) : Spares others h (h.commit i ws) := by
  refine ⟨fun p => ?_, fun p => ?_, fun key b hb => ?_, fun p hp => ?_⟩
  · rw [committed_commit]
    exact List.prefix_append _ _
  · cases hlaw with
    | appends hws => exact (gone_appends hs hws.inserts p).ge
    | puts key hb =>
      rw [gone, gone, committed_commit, List.length_append]
      exact Nat.sub_le_sub_right (Nat.le_add_right _ _) _
    | @truncates q ids hcut =>
      obtain ⟨n, hn⟩ := hcut.cut_all p
      have hlength : (surviving p (h.commit i [.deleteAuditLogs q ids]).db).length ≤
          (surviving p h.db).length := by
        have heq := congrArg List.length hn
        rw [List.length_drop] at heq
        exact heq.trans_le (Nat.sub_le _ _)
      rw [gone, gone, committed_commit, List.length_append]
      omega
  · cases hlaw with
    | appends hws =>
      rw [History.commit_db, bundles_applyAll hws.inserts]
      exact hb
    | @puts key' b' hb' =>
      refine (Table.get?_set _).trans ?_
      rw [if_neg, hb]
      rintro rfl
      have hnone := hfresh.unused
      rw [hb] at hnone
      cases hnone
    | truncates hcut => exact hb
  · rw [committed_commit]
    have hnil : insertsOf p ws = [] := by
      rw [List.eq_nil_iff_forall_not_mem]
      intro v hv
      obtain ⟨hmem, rfl⟩ := mem_insertsOf.1 hv
      cases hlaw with
      | appends hws =>
        obtain ⟨v', heq, hlock, -⟩ := hws.row _ hmem
        obtain rfl := Write.insertAuditLog.inj heq
        exact Set.disjoint_left.1 hdisjoint hp hlock
      | puts key hb => cases List.mem_singleton.1 hmem
      | truncates hcut => cases List.mem_singleton.1 hmem
    rw [hnil, List.append_nil]

end Commit

def auditDiscipline (S : Server) : Discipline ι AuditDb String Write where
  inv := Sound S
  rely _ held := Spares held
  law _ held ws h := Lawful S held h ws
  cond _ ws h := Fresh ws h
  rely_refl _ held h := Spares.refl held h
  rely_trans := Spares.trans
  keeps_inv hlaw hs hfresh := hs.lawful hlaw hfresh
  keeps_rely hlaw hs hfresh _ _ _ hdisjoint _ := hlaw.spares hs hfresh hdisjoint

end Rovenue.Audit
