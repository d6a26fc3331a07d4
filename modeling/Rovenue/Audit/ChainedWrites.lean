import Rovenue.Audit.ChainDiscipline

/-! Every call on the audit log keeps the discipline: `audit` under the project's lock, in whatever
transaction, and the retention run, wherever it stops. -/

namespace Rovenue.Audit
open Txn
open Js (Json JsValue)

variable {ι : Type} {S : Server} {h h' : History ι AuditDb Write} {i : ι} {ws pend : List Write}
  {p : String} {s : AuditDb} {v u : AuditLogValues} {held : Set String} {rows : List AuditLogValues}

theorem pairwise_of_linked (hrows : rows.IsChain Linked) :
    rows.Pairwise fun a b => a.createdAt < b.createdAt := by
  have htimes : rows.IsChain fun a b => a.createdAt < b.createdAt := hrows.imp fun _ _ hab => hab.2
  have htrans : IsTrans AuditLogValues fun a b => a.createdAt < b.createdAt :=
    ⟨fun _ _ _ => lt_trans⟩
  exact List.isChain_iff_pairwise.1 htimes

theorem insertionSort_rows (jsonb : Jsonb) (hrows : rows.IsChain Linked) :
    (rows.map (·.row jsonb)).insertionSort ChainOrder = rows.map (·.row jsonb) := by
  refine List.Pairwise.insertionSort_eq ?_
  rw [List.pairwise_map]
  exact (pairwise_of_linked hrows).imp fun hab => Or.inl hab

theorem rows_filter (jsonb : Jsonb) (s : AuditDb) {q : AuditLog → Bool}
    (hq : ∀ v : AuditLogValues, q (v.row jsonb) = decide (v.entry.projectId = p)) :
    (s.rows jsonb).filter q = (surviving p s).map (·.row jsonb) := by
  rw [AuditDb.rows, List.filter_map, surviving]
  congr 1
  exact List.filter_congr fun v _ => hq v

theorem findProjectChain_eq (jsonb : Jsonb) (hlinked : (surviving p s).IsChain Linked) :
    findProjectChain jsonb p s = (surviving p s).map (·.row jsonb) := by
  have hrows := rows_filter (p := p) jsonb s (q := fun r => r.projectId = p) fun v => rfl
  rw [findProjectChain, hrows, insertionSort_rows jsonb hlinked]

theorem latestRow_eq (jsonb : Jsonb) (hlinked : (surviving p s).IsChain Linked) :
    latestRow jsonb p s = (surviving p s).getLast?.map (·.row jsonb) := by
  have hrows := rows_filter (p := p) jsonb s (q := fun r => r.projectId = p && r.rowHash.isSome)
    fun v => Bool.and_true _
  rw [latestRow, hrows, insertionSort_rows jsonb hlinked, List.getLast?_map]

theorem prevHash_chainedRow (sha : Sha256) (jsonb : Jsonb) (entry : AuditEntry) (d : Drawn)
    (last : Option AuditLogValues) :
    (chainedRow sha entry (last.map (·.row jsonb)) d).prevHash = last.map (·.rowHash) := by
  cases last <;> rfl

theorem linked_chainedRow (sha : Sha256) (jsonb : Jsonb) (entry : AuditEntry) (d : Drawn)
    (u : AuditLogValues) : Linked u (chainedRow sha entry (some (u.row jsonb)) d) := by
  refine ⟨rfl, ?_⟩
  have hlt : u.createdAt < u.createdAt + 1 := lt_add_one _
  exact hlt.trans_le (le_max_right _ _)

theorem getLast?_toList {α : Type} (o : Option α) : o.toList.getLast? = o := by
  cases o <;> rfl

theorem getLast?_of_cut {l : List AuditLogValues} {m n : ℕ} (hmn : m ≤ n) :
    ∀ y ∈ (l.drop n).getLast?, y ∈ (l.drop m).getLast? := by
  intro y hy
  rw [List.getLast?_drop] at hy ⊢
  split_ifs at hy with hn
  · cases hy
  · rw [if_neg (by omega)]
    exact hy

theorem getLast?_surviving (hs : Sound S h) (hs' : Sound S h') (hspares : Spares held h h')
    (hlock : lockKey p ∈ held) :
    ∀ y ∈ (surviving p h'.db).getLast?, y ∈ (surviving p h.db).getLast? := by
  rw [hs'.rows p, hs.rows p, hspares.locked p hlock]
  exact getLast?_of_cut (hspares.cut p)

theorem Continues.stable {new : List AuditLogValues} (hnew : Continues p h new) (hs : Sound S h)
    (hs' : Sound S h') (hspares : Spares held h h') (hlock : lockKey p ∈ held) :
    Continues p h' new := by
  have hcommitted := hspares.locked p hlock
  have hlast := getLast?_surviving hs hs' hspares hlock
  have hlinked := List.isChain_append.1 hnew.linked
  refine ⟨?_, by rw [hcommitted]; exact hnew.follows, by rw [hcommitted]; exact hnew.first⟩
  cases hend : (surviving p h'.db).getLast? with
  | none => exact hlinked.2.1
  | some y =>
    have hy := hlast y hend
    have hlinked' := hnew.linked
    rw [Option.mem_def.1 hy] at hlinked'
    exact hlinked'

theorem Appends.stable (hws : Appends S held ws h) (hs : Sound S h) (hs' : Sound S h')
    (hspares : Spares held h h') : Appends S held ws h' := by
  refine ⟨hws.row, fun p => ?_⟩
  cases hnew : insertsOf p ws with
  | nil => exact continues_nil
  | cons v vs =>
    have hv : v ∈ insertsOf p ws := by
      rw [hnew]
      exact List.mem_cons_self
    obtain ⟨hwrite, rfl⟩ := mem_insertsOf.1 hv
    obtain ⟨v', heq, hlock, -⟩ := hws.row _ hwrite
    obtain rfl := Write.insertAuditLog.inj heq
    rw [← hnew]
    exact (hws.continues _).stable hs hs' hspares hlock

theorem Appends.mono {held' : Set String} (hws : Appends S held ws h) (hsub : held ⊆ held') :
    Appends S held' ws h :=
  ⟨fun w hw => let ⟨v, heq, hlock, hwritten⟩ := hws.row w hw; ⟨v, heq, hsub hlock, hwritten⟩,
    hws.continues⟩

theorem appends_nil : Appends S held [] h := by
  refine ⟨?_, fun p => continues_nil⟩
  intro w hw
  cases hw

theorem linked_view (hws : Appends S held ws h) (hs : Sound S h) (p : String) :
    (surviving p (applyAll h.db ws)).IsChain Linked := by
  rw [surviving_applyAll hws.inserts]
  exact isChain_append_of_last (hs.linked p) (hws.continues p).linked

theorem Appends.snoc {entry : AuditEntry} (hws : Appends S held ws h) (hs : Sound S h)
    (hs' : Sound S h') (hspares : Spares held h h') (hlock : lockKey entry.projectId ∈ held)
    (hdistinct : entry.before.Distinct ∧ entry.after.Distinct) (d : Drawn) :
    Appends S held (ws ++ [.insertAuditLog (chainedRow S.sha entry
      (latestRow S.jsonb entry.projectId (applyAll h.db ws)) d)]) h' := by
  have hws' := hws.stable hs hs' hspares
  have hview := linked_view hws hs entry.projectId
  rw [latestRow_eq S.jsonb hview]
  set last := (surviving entry.projectId (applyAll h.db ws)).getLast? with hlast
  set new := insertsOf entry.projectId ws with hnew
  have hsee : surviving entry.projectId (applyAll h.db ws) =
      surviving entry.projectId h.db ++ new := surviving_applyAll hws.inserts h.db
  have hcommitted := hspares.locked _ hlock
  set row := chainedRow S.sha entry (last.map (·.row S.jsonb)) d with hrow
  have hlink : ∀ y ∈ last, Linked y row := by
    intro y hy
    rw [hrow, Option.mem_def.1 hy]
    exact linked_chainedRow _ _ _ _ y
  have hprev : last = none → row.prevHash = none := by
    intro hnone
    rw [hrow, prevHash_chainedRow, hnone]
    rfl
  constructor
  · intro w hw
    obtain hw | hw := List.mem_append.1 hw
    · exact hws'.row w hw
    · obtain rfl := List.mem_singleton.1 hw
      exact ⟨row, rfl, hlock, rfl, hdistinct⟩
  · intro q
    by_cases hq : q = entry.projectId
    swap
    · have hsame : insertsOf q (ws ++ [.insertAuditLog row]) = insertsOf q ws := by
        have hproject : row.entry.projectId = entry.projectId := rfl
        rw [insertsOf_append]
        simp [insertsOf, hproject, Ne.symm hq]
      rw [hsame]
      exact hws'.continues q
    subst hq
    have hsnoc : insertsOf entry.projectId (ws ++ [.insertAuditLog row]) = new ++ [row] := by
      have hproject : row.entry.projectId = entry.projectId := rfl
      rw [insertsOf_append, ← hnew]
      simp [insertsOf, hproject]
    have hcont := hws'.continues entry.projectId
    rw [hsnoc]
    refine ⟨?_, ?_, fun hempty => ?_⟩
    · rw [← List.append_assoc]
      refine isChain_snoc hcont.linked fun y hy => hlink y ?_
      rw [hlast, hsee]
      rw [List.getLast?_append, getLast?_toList] at hy
      rw [List.getLast?_append]
      rw [Option.mem_def, Option.or_eq_some_iff] at hy ⊢
      obtain hy | ⟨hempty, hy⟩ := hy
      · exact .inl hy
      · exact .inr ⟨hempty, getLast?_surviving hs hs' hspares hlock y hy⟩
    · rw [← List.append_assoc]
      refine isChain_snoc hcont.follows fun y hy => ?_
      cases hend : last with
      | none => exact .inr (hprev hend)
      | some x =>
        have hx : y = x := by
          rw [hlast, hsee, List.getLast?_append] at hend
          rw [List.getLast?_append, getLast?_toList, Option.mem_def, Option.or_eq_some_iff] at hy
          obtain hy | ⟨hempty, hy⟩ := hy
          · rw [hy, Option.some_or, Option.some_inj] at hend
            exact hend
          · rw [hempty, Option.none_or, hs.rows, List.getLast?_drop] at hend
            split_ifs at hend
            rw [hcommitted] at hy
            rw [hy, Option.some_inj] at hend
            exact hend
        rw [hx]
        exact (hlink x hend).follows
    · cases hfirst : new with
      | cons v vs =>
        have hhead := hcont.first hempty
        rw [← hnew, hfirst] at hhead
        exact hhead
      | nil =>
        have hnone : last = none := by
          rw [hcommitted] at hempty
          rw [hlast, hsee, hfirst, hs.rows, hempty, List.drop_nil]
          rfl
        intro w hw
        obtain rfl : row = w := by simpa using hw
        exact hprev hnone

def Queued {α : Type} (S : Server) (_ : α) (held : Set String) (pend : List Write)
    (h : History ι AuditDb Write) : Prop := Sound S h ∧ Appends S held pend h

theorem Queued.law {α : Type} {a : α} (hq : Queued S a held pend h) (hs' : Sound S h')
    (hr : Spares held h h') : Lawful S held h' pend := .appends (hq.2.stable hq.1 hs' hr)

theorem writeChained_safe {entry : AuditEntry}
    (hdistinct : entry.before.Distinct ∧ entry.after.Distinct) (hq : Queued S () held pend h) :
    Safe (auditDiscipline S) i (writeChained S entry) held pend h (Queued S) := by
  rw [writeChained]
  simp only [Prog.bind_eq]
  refine Safe.bind (Safe.acquire (Q := fun _ held pend h =>
    Queued S () held pend h ∧ lockKey entry.projectId ∈ held) fun h₁ hs₁ hr₁ => ?_) ?_
  · exact ⟨⟨hs₁, (hq.2.stable hq.1 hs₁ hr₁).mono (Set.subset_insert _ _)⟩, Set.mem_insert _ _⟩
  rintro - held pend h₁ ⟨hq₁, hlock⟩
  refine Safe.bind (Safe.query (Q := fun tip held pend h => Queued S () held pend h ∧
    lockKey entry.projectId ∈ held ∧
      tip = latestRow S.jsonb entry.projectId (applyAll h.db pend)) fun h₂ hs₂ hr₂ => ?_) ?_
  · exact ⟨⟨hs₂, hq₁.2.stable hq₁.1 hs₂ hr₂⟩, hlock, rfl⟩
  rintro _ held pend h₂ ⟨⟨hs₂, happends⟩, hlock, rfl⟩
  refine Safe.bind (Safe.fresh (Q := fun _ held' pend' h' => held' = held ∧ pend' = pend ∧ h' = h₂)
    fun _ => ⟨rfl, rfl, rfl⟩) ?_
  rintro d _ _ _ ⟨rfl, rfl, rfl⟩
  refine Safe.exec fun h₃ hs₃ hr₃ => ⟨hs₃, ?_⟩
  exact (happends.snoc hs₂ hs₃ hr₃ hlock hdistinct d).mono Set.subset_union_right

theorem audit_safe {entry : AuditEntry}
    (hdistinct : entry.before.Distinct ∧ entry.after.Distinct) (hq : Queued S () held pend h) :
    Safe (auditDiscipline S) i (audit S entry) held pend h (Queued S) := by
  rw [audit]
  split_ifs
  · trivial
  · exact writeChained_safe hdistinct hq

def Between {α : Type} (S : Server) (R : α → History ι AuditDb Write → Prop) (a : α)
    (held : Set String) (pend : List Write) (h : History ι AuditDb Write) : Prop :=
  held = ∅ ∧ pend = [] ∧ Sound S h ∧ R a h

variable {R : History ι AuditDb Write → Prop}

theorem transaction_safe {body : ℤ → AuditService Unit}
    (hbody : ∀ t, Safe (auditDiscipline S) i (body t) ∅ [] h (Queued S)) :
    Safe (auditDiscipline S) i (Prog.transaction body) ∅ [] h (Between S fun _ _ => True) := by
  refine Safe.transaction fun t => (hbody t).mono fun _ held pend h₁ hq h₂ hs₂ hr₂ => ?_
  have hlaw := hq.law hs₂ hr₂
  exact ⟨hlaw, fun hfresh => ⟨rfl, rfl, hs₂.lawful hlaw hfresh, trivial⟩⟩

theorem auditWithin_safe {entries : List AuditEntry} (hs : Sound S h)
    (hdistinct : ∀ entry ∈ entries, entry.before.Distinct ∧ entry.after.Distinct) (commits : Bool) :
    Safe (auditDiscipline S) i ((Call.auditWithin entries commits).run S) ∅ [] h
      (Between S fun _ _ => True) := by
  refine transaction_safe fun _ => Safe.bind (Safe.forEach (I := Queued S ()) entries
    (fun entry hentry held pend h hq => (audit_safe (hdistinct entry hentry) hq).mono
      fun _ _ _ _ hq => hq) ⟨hs, appends_nil⟩) ?_
  rintro - held pend h₁ hq
  cases commits with
  | true => exact hq
  | false => trivial

def Slice (p : String) (g : ℕ) (rows : List AuditLogValues) (h : History ι AuditDb Write) : Prop :=
  -- the rows lie one after another in the journal, from place `g` on
  rows = ((committed p h).drop g).take rows.length

variable {g k : ℕ}

theorem Slice.mono (hrows : Slice p g rows h) (hgrows : committed p h <+: committed p h') :
    Slice p g rows h' := by
  obtain ⟨more, hmore⟩ := hgrows
  have hlength := congrArg List.length hrows
  rw [List.length_take, List.length_drop] at hlength
  rw [Slice, ← hmore]
  cases hempty : rows.length with
  | zero =>
    rw [List.length_eq_zero_iff.1 hempty]
    rfl
  | succ n =>
    rw [hempty] at hlength
    rw [List.drop_append_of_le_length (by omega), List.take_append_of_le_length (by
      rw [List.length_drop]
      omega), ← hempty]
    exact hrows

theorem Slice.subset (hrows : Slice p g rows h) : ∀ v ∈ rows, v ∈ committed p h := by
  intro v hv
  rw [hrows] at hv
  exact List.mem_of_mem_drop (List.mem_of_mem_take hv)

theorem Slice.le (hrows : Slice p g rows h) (hne : rows ≠ []) :
    g + rows.length ≤ (committed p h).length := by
  have hlength := congrArg List.length hrows
  have hpos := List.length_pos_iff.2 hne
  rw [List.length_take, List.length_drop] at hlength
  omega

def ranged (p : String) («from» «to» : Option ℤ) (s : AuditDb) : List AuditLogValues :=
  (surviving p s).filter fun v =>
    «from».all (fun t => decide (t ≤ v.createdAt)) && «to».all fun t => decide (v.createdAt ≤ t)

theorem ranged_isInfix («from» «to» : Option ℤ) (hlinked : (surviving p s).IsChain Linked) :
    ranged p «from» «to» s <:+: surviving p s := by
  have htimes := pairwise_of_linked hlinked
  refine filter_infix_of_pairwise (htimes.imp fun {a b} hab hin => ?_)
    (htimes.imp fun {a b} hab hin => ?_)
  · cases «from» with
    | none => rfl
    | some t =>
      simp only [Option.all_some, decide_eq_true_eq] at hin ⊢
      exact hin.trans hab.le
  · cases «to» with
    | none => rfl
    | some t =>
      simp only [Option.all_some, decide_eq_true_eq] at hin ⊢
      exact hab.le.trans hin

theorem listAuditProofRows_eq («from» «to» : Option ℤ) (limit : ℕ)
    (hlinked : (surviving p s).IsChain Linked) :
    listAuditProofRows S.jsonb p «from» «to» limit s =
      ((ranged p «from» «to» s).take limit).map (·.bundled S) := by
  have hrows : ((s.rows S.jsonb).filter fun r => r.projectId = p && inRange «from» «to» r) =
      (ranged p «from» «to» s).map (·.row S.jsonb) := by
    rw [AuditDb.rows, List.filter_map, ranged, surviving, List.filter_filter]
    congr 1
    exact List.filter_congr fun v _ => Bool.and_comm _ _
  have hranged := hlinked.infix (ranged_isInfix «from» «to» hlinked)
  rw [listAuditProofRows, hrows, insertionSort_rows S.jsonb hranged, ← List.map_take, List.map_map]
  rfl

theorem exists_slice (hs : Sound S h) (cutoff : ℤ) (limit : ℕ) :
    ∃ rows, listAuditProofRows S.jsonb p none (some cutoff) limit h.db =
      rows.map (·.bundled S) ∧ Slice p (gone p h) rows h ∧ rows.IsChain Linked := by
  have hlinked := hs.linked p
  have hprefix : (ranged p none (some cutoff) h.db).take limit <+: surviving p h.db := by
    refine (List.take_prefix _ _).trans (filter_prefix_of_pairwise ?_)
    refine (pairwise_of_linked hlinked).imp fun {a b} hab hin => ?_
    simp only [Option.all_none, Option.all_some, Bool.true_and, decide_eq_true_eq] at hin ⊢
    exact hab.le.trans hin
  refine ⟨_, listAuditProofRows_eq none (some cutoff) limit hlinked, ?_, hlinked.prefix hprefix⟩
  have heq := List.prefix_iff_eq_take.1 hprefix
  rw [hs.rows p] at heq
  exact heq

/-- What is known once the bundle is stored: its rows, and that the first `k` of them are gone. -/
structure Exported (S : Server) (p : String) (g : ℕ) (rows : List AuditLogValues) (k : ℕ)
    (h : History ι AuditDb Write) : Prop where
  slice : Slice p g rows h
  gone : g + k ≤ gone p h
  stored : ∃ key b, h.db.bundles.get? key = some b ∧ b.entries = rows.map (·.bundled S)

theorem Exported.mono (hexp : Exported S p g rows k h) (hr : Spares held h h') :
    Exported S p g rows k h' :=
  ⟨hexp.slice.mono (hr.grows p), hexp.gone.trans (hr.cut p),
    let ⟨key, b, hb, hentries⟩ := hexp.stored; ⟨key, b, hr.bundles key b hb, hentries⟩⟩

theorem surviving_delete (hs : Sound S h) (hexp : Exported S p g rows k h) {c : ℕ}
    (hc : k + c ≤ rows.length) :
    surviving p (h.db.write (.deleteAuditLogs p (((rows.drop k).take c).map (·.id)))) =
      (committed p h).drop (max (gone p h) (g + k + c)) := by
  -- what a `DELETE` of the next ids of the slice does to the table
  have hslice : (rows.drop k).take c = ((committed p h).drop (g + k)).take c := by
    conv_lhs => rw [hexp.slice]
    rw [List.drop_take, List.drop_drop, List.take_take, min_eq_left (by omega)]
  have hfilter : surviving p (h.db.write (.deleteAuditLogs p (((rows.drop k).take c).map (·.id)))) =
      (surviving p h.db).filter fun v => !decide (v.id ∈ ((rows.drop k).take c).map (·.id)) := by
    rw [surviving, AuditDb.write, surviving, List.filter_filter, List.filter_filter]
    refine List.filter_congr fun v _ => ?_
    by_cases hp : v.entry.projectId = p
    · simp [hp]
    · simp [hp]
  rw [hfilter, hs.rows p, hslice]
  exact filter_drop_slice (hs.ids p) hexp.gone

theorem truncates_batch (hs : Sound S h) (hexp : Exported S p g rows k h) {c : ℕ}
    (hc : k + c ≤ rows.length) :
    Truncates S p (((rows.drop k).take c).map (·.id)) h.db := by
  constructor
  · refine ⟨max (gone p h) (g + k + c) - gone p h, ?_⟩
    rw [surviving_delete hs hexp hc, hs.rows p, List.drop_drop,
      Nat.add_sub_of_le (le_max_left _ _)]
  · intro v hv hid
    obtain ⟨u, hu, heq⟩ := List.mem_map.1 hid
    have hrow : u ∈ rows := List.mem_of_mem_drop (List.mem_of_mem_take hu)
    have hcommitted : v ∈ committed p h := by
      rw [hs.rows p] at hv
      exact List.mem_of_mem_drop hv
    obtain rfl : u = v := List.inj_on_of_nodup_map (hs.ids p) (hexp.slice.subset u hrow) hcommitted heq
    obtain ⟨key, b, hb, hentries⟩ := hexp.stored
    refine ⟨key, b, hb, ?_⟩
    rw [hentries]
    exact List.mem_map_of_mem hrow

theorem gone_delete (hs : Sound S h) (hexp : Exported S p g rows k h) {c : ℕ}
    (hc : k + c ≤ rows.length) :
    g + (k + c) ≤ gone p (h.commit i [.deleteAuditLogs p (((rows.drop k).take c).map (·.id))]) := by
  have hrows : surviving p
      (h.commit i [.deleteAuditLogs p (((rows.drop k).take c).map (·.id))]).db = _ :=
    surviving_delete hs hexp hc
  have hcommitted : committed p
      (h.commit i [.deleteAuditLogs p (((rows.drop k).take c).map (·.id))]) = committed p h :=
    (committed_commit).trans (List.append_nil _)
  rw [gone, hcommitted, hrows, List.length_drop]
  have hgone := gone_le p h
  by_cases hempty : rows = []
  · have hexpgone := hexp.gone
    rw [hempty] at hc
    rw [List.length_nil] at hc
    omega
  · have hle := hexp.slice.le hempty
    omega

theorem deleteAuditLogRowsByIds_safe (batches : List (List String)) (deleted : ℕ)
    (hbatches : batches.flatten = (rows.drop k).map (·.id)) (hk : k ≤ rows.length)
    (hs : Sound S h) (hexp : Exported S p g rows k h) :
    Safe (auditDiscipline S) i (deleteAuditLogRowsByIds p batches deleted) ∅ [] h
      (Between S fun _ _ => True) := by
  induction batches generalizing k deleted h with
  | nil => exact ⟨rfl, rfl, hs, trivial⟩
  | cons batch batches ih =>
    rw [List.flatten_cons] at hbatches
    have hlength := congrArg List.length hbatches
    rw [List.length_append, List.length_map, List.length_drop] at hlength
    have hbatch : batch = ((rows.drop k).take batch.length).map (·.id) := by
      rw [List.map_take, ← hbatches, List.take_left]
    have hrest : batches.flatten = (rows.drop (k + batch.length)).map (·.id) := by
      rw [← List.drop_drop, List.map_drop, ← hbatches, List.drop_left]
    have hc : k + batch.length ≤ rows.length := by omega
    rw [deleteAuditLogRowsByIds]
    simp only [Prog.bind_eq]
    refine Safe.bind (Q := fun _ held pend h => held = ∅ ∧ pend = [] ∧ Sound S h ∧
      Exported S p g rows (k + batch.length) h) (Safe.autocommit (Safe.exec ?_)) ?_
    · intro h₁ hs₁ hr₁ h₂ hs₂ hr₂
      have hexp₂ := (hexp.mono hr₁).mono hr₂
      have hcut := truncates_batch hs₂ hexp₂ hc
      rw [← hbatch] at hcut
      refine ⟨.truncates hcut, fun hfresh => ⟨rfl, rfl, hs₂.truncates hcut, ?_⟩⟩
      have hlaw : Lawful S ∅ h₂ [.deleteAuditLogs p batch] := .truncates hcut
      have hspares : Spares ∅ h₂ (h₂.commit i [.deleteAuditLogs p batch]) :=
        hlaw.spares hs₂ hfresh (Set.disjoint_empty _)
      have hexp₃ := hexp₂.mono hspares
      have hgone := gone_delete (i := i) hs₂ hexp₂ hc
      rw [← hbatch] at hgone
      exact ⟨hexp₃.slice, hgone, hexp₃.stored⟩
    · rintro n _ _ h₁ ⟨rfl, rfl, hs₁, hexp₁⟩
      exact ih (deleted + n) hrest hc hs₁ hexp₁

theorem flatten_deleteBatches (ids : List String) : (deleteBatches ids).flatten = ids :=
  Txn.flatten_slices_all ids (by decide)

theorem distinct_checkpointEntry (checkpointId bundleKey : String) (cutoff : ℤ) (deleted : ℕ)
    (last : AuditProofBundleEntry) (truncated : Bool) :
    (checkpointEntry p checkpointId bundleKey cutoff deleted last truncated).before.Distinct ∧
      (checkpointEntry p checkpointId bundleKey cutoff deleted last truncated).after.Distinct := by
  have hhash : (JsValue.ofJson (textOrNull last.rowHash)).Distinct := by
    cases last.rowHash <;> simp [textOrNull, JsValue.ofJson, JsValue.Distinct]
  simp [checkpointEntry, JsValue.Distinct, JsValue.DistinctFields, hhash]

theorem checkpointAndTruncate_safe (hs : Sound S h) (cutoff : ℤ) :
    Safe (auditDiscipline S) i (checkpointAndTruncate S p cutoff) ∅ [] h
      (Between S fun _ _ => True) := by
  rw [checkpointAndTruncate]
  by_cases hconfigured : S.storageConfigured = true
  swap
  · simp only [hconfigured, Bool.not_false, if_true]
    exact ⟨rfl, rfl, hs, trivial⟩
  simp only [hconfigured, Bool.not_true, Bool.false_eq_true, if_false, Prog.bind_eq]
  refine Safe.bind (Q := Between S fun entries h => ∃ g rows, entries = rows.map (·.bundled S) ∧
    Slice p g rows h ∧ rows.IsChain Linked ∧ g ≤ gone p h) (Safe.autocommit (Safe.query ?_)) ?_
  · intro h₁ hs₁ hr₁ h₂ hs₂ hr₂
    obtain ⟨rows, heq, hslice, hlinked⟩ := exists_slice (p := p) hs₁ cutoff AUDIT_PROOF_MAX_ENTRIES
    have hlaw : Lawful S ∅ h₂ [] := .appends appends_nil
    refine ⟨hlaw, fun hfresh => ?_⟩
    have hspares : Spares ∅ h₂ (h₂.commit i []) := hlaw.spares hs₂ hfresh (Set.disjoint_empty _)
    refine ⟨rfl, rfl, hs₂.lawful hlaw hfresh, gone p h₁, rows, heq, ?_, hlinked, ?_⟩
    · exact (hslice.mono (hr₂.grows p)).mono (hspares.grows p)
    · exact (hr₂.cut p).trans (hspares.cut p)
  rintro _ _ _ h₁ ⟨rfl, rfl, hs₁, g, rows, rfl, hslice, hlinked, hgone⟩
  cases hlast : (rows.map (·.bundled S)).getLast? with
  | none => exact ⟨rfl, rfl, hs₁, trivial⟩
  | some lastEntry =>
    dsimp only
    refine Safe.bind (Safe.fresh (Q := fun _ held pend h => held = ∅ ∧ pend = [] ∧ h = h₁)
      fun _ => ⟨rfl, rfl, rfl⟩) ?_
    rintro d _ _ _ ⟨rfl, rfl, rfl⟩
    set bundle := assembleAuditProofBundle p (toISOString d.now) (rows.map (·.bundled S)) none
      (some (toISOString cutoff)) AUDIT_PROOF_MAX_ENTRIES with hbundle
    set key := buildAuditCheckpointStorageKey p d.id with hkey
    refine Safe.bind (Q := Between S fun _ h => Exported S p g rows 0 h)
      (Safe.autocommit (Safe.exec ?_)) ?_
    · intro h₂ hs₂ hr₂ h₃ hs₃ hr₃
      have hslice₃ := (hslice.mono (hr₂.grows p)).mono (hr₃.grows p)
      have hexport : IsExport S h₃ bundle :=
        ⟨p, rows, toISOString d.now, toISOString cutoff, ⟨hlinked, hslice₃.subset⟩, hbundle⟩
      have hlaw : Lawful S ∅ h₃ [.putObject key bundle] := .puts key hexport
      refine ⟨.puts key hexport, fun hfresh => ?_⟩
      have hspares : Spares ∅ h₃ (h₃.commit i [.putObject key bundle]) :=
        hlaw.spares hs₃ hfresh (Set.disjoint_empty _)
      refine ⟨rfl, rfl, hs₃.lawful hlaw hfresh, hslice₃.mono (hspares.grows p), ?_, key, bundle,
        ?_, rfl⟩
      · exact ((hgone.trans (hr₂.cut p)).trans (hr₃.cut p)).trans (hspares.cut p)
      · refine (Table.get?_set _).trans ?_
        rw [if_pos rfl]
    rintro _ _ _ h₂ ⟨rfl, rfl, hs₂, hexp⟩
    refine Safe.bind (deleteAuditLogRowsByIds_safe (deleteBatches _) 0 ?_ (Nat.zero_le _) hs₂ hexp) ?_
    · rw [flatten_deleteBatches, List.drop_zero, List.map_map]
      rfl
    rintro deleted _ _ h₃ ⟨rfl, rfl, hs₃, -⟩
    refine Safe.bind (transaction_safe fun _ =>
      audit_safe (distinct_checkpointEntry _ _ _ _ _ _) ⟨hs₃, appends_nil⟩) ?_
    rintro - _ _ h₄ ⟨rfl, rfl, hs₄, -⟩
    exact ⟨rfl, rfl, hs₄, trivial⟩

theorem call_safe {call : Call} (hcall : call.Distinct) (hs : Sound S h) :
    Safe (auditDiscipline S) i (call.run S) ∅ [] h fun _ _ _ _ => True := by
  cases call with
  | audit entry =>
    exact (transaction_safe fun _ => audit_safe hcall ⟨hs, appends_nil⟩).mono
      fun _ _ _ _ _ => trivial
  | auditWithin entries commits =>
    exact (auditWithin_safe hs hcall commits).mono fun _ _ _ _ _ => trivial
  | checkpointAndTruncate projectId cutoff =>
    exact Safe.bind (checkpointAndTruncate_safe hs cutoff) fun _ _ _ _ _ => trivial

def auditWorld (S : Server) (calls : ι → Call) : World ι AuditDb String Write Drawn :=
  World.init {} 0 fun i => (calls i).run S

theorem sound_empty : Sound S (⟨{}, []⟩ : History ι AuditDb Write) where
  rows := fun _ => rfl
  linked := fun _ => List.isChain_nil
  follows := fun _ => List.isChain_nil
  first := fun _ v hv => by cases hv
  ids := fun _ => List.nodup_nil
  written := fun _ v hv => by cases hv
  kept := fun _ v hv => by cases hv
  exports := fun _ b hb => by cases hb

theorem visited_sound [DecidableEq ι] {calls : ι → Call} (hcalls : ∀ i, (calls i).Distinct)
    (evs : List (Event ι Drawn))
    (hfresh : ∀ c ∈ (auditWorld S calls).commits evs, Fresh c.writes c.before) :
    ∀ h ∈ (auditWorld S calls).visited evs, Sound S h := by
  have hsafe : (auditWorld S calls).Safe (auditDiscipline S) :=
    World.Safe.init sound_empty fun i => call_safe (hcalls i) sound_empty
  exact hsafe.visited hfresh

end Rovenue.Audit
