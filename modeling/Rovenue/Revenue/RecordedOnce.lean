import Rovenue.Revenue.RevenueEvents

/-! Revenue is recorded once a key, and a replay finds its row unless retention dropped it. -/

namespace Rovenue.Revenue
open Threads
open Txn (Table)
variable {ι M : Type}

/-- One row and one message a key, and every call that answered with a row answered with that
one; none of them threw. -/
structure RecordedOnce (w : World ι (RevenueDb M) (Call M)) : Prop where
  rows : ∀ key, (w.shared.rowsFor key).length ≤ 1
  outbox : ∀ key, (w.shared.outboxFor key).length = (w.shared.rowsFor key).length
  returned : ∀ i row key, (w.task i).stage = .returned (some row) → (w.task i).input.key = some key →
    w.shared.rowsFor key = [row]
  replies : ∀ i msg, (w.task i).stage ≠ .threw msg

/-- A call that reads the row of its key back finds that no retention run has dropped it. -/
def FindsRow (w : World ι (RevenueDb M) (Call M)) : Event ι Bool Outside → Prop
  | .act i fault =>
    match (w.task i).stage with
    | .found id => fault = false → ∀ r ∈ w.shared.revenueEvents, r.row.id = id → r.dropped = false
    | _ => True
  | .env _ => True

theorem findsRow_of_kept {w : World ι (RevenueDb M) (Call M)}
    (h : ∀ r ∈ w.shared.revenueEvents, r.dropped = false) (e : Event ι Bool Outside) :
    FindsRow w e := by
  rcases e with ⟨i, fault⟩ | d
  · rw [FindsRow]
    split
    · exact fun _ r hr _ => h r hr
    · trivial
  · trivial

namespace RevenueDb

def Unused (s : RevenueDb M) (id : ℕ) : Prop := id < s.nextId ∧ ∀ row ∈ s.recorded, row.id ≠ id

structure Ledgered (s : RevenueDb M) : Prop where
  rows : ∀ key, (s.rowsFor key).map RevenueEvent.id = (s.revenueEventDedupe.get? key).toList
  ids : (s.recorded.map RevenueEvent.id).Nodup
  fresh : ∀ row ∈ s.recorded, row.id < s.nextId
  outbox : s.outbox.map OutboxRow.aggregateId = s.recorded.map RevenueEvent.id
  claimed : ∀ key id, s.claims key = some id → s.revenueEventDedupe.get? key = none

variable {s : RevenueDb M} {key : DedupeKey} {id : ℕ} {row : RevenueEvent} {message : OutboxRow M}

theorem Ledgered.eq_of_id (h : s.Ledgered) {a b : RevenueEvent} (ha : a ∈ s.recorded)
    (hb : b ∈ s.recorded) (hid : a.id = b.id) : a = b :=
  List.inj_on_of_nodup_map h.ids ha hb hid

theorem Ledgered.rows_length (h : s.Ledgered) (key : DedupeKey) : (s.rowsFor key).length ≤ 1 := by
  have hlength := congrArg List.length (h.rows key)
  rw [List.length_map] at hlength
  rw [hlength]
  exact Option.length_toList_le

theorem Ledgered.rowsFor_eq (h : s.Ledgered) (hid : s.revenueEventDedupe.get? key = some id) :
    ∃ row, s.rowsFor key = [row] ∧ row.id = id := by
  have hrows := h.rows key
  rw [hid, Option.toList_some, List.map_eq_singleton_iff] at hrows
  exact hrows

theorem Ledgered.rowsFor_find (h : s.Ledgered) (hid : s.revenueEventDedupe.get? key = some id)
    (hfind : s.findRevenueEventById id = some row) : s.rowsFor key = [row] := by
  obtain ⟨kept, hrows, hkept⟩ := h.rowsFor_eq hid
  have hrow : row.id = id := by simpa using List.find?_some hfind
  have hmem : row ∈ s.recorded := by
    obtain ⟨r, hr, rfl⟩ := List.mem_map.1 (List.mem_of_find?_eq_some hfind)
    exact List.mem_map_of_mem (List.mem_of_mem_filter hr)
  have hmem' : kept ∈ s.recorded := by
    have hself : kept ∈ s.rowsFor key := by simp [hrows]
    exact List.mem_of_mem_filter hself
  rw [hrows, h.eq_of_id hmem' hmem (hkept.trans hrow.symm)]

theorem Ledgered.isSome_find_iff (h : s.Ledgered) (hid : s.revenueEventDedupe.get? key = some id) :
    (s.findRevenueEventById id).isSome ↔
      ∀ r ∈ s.revenueEvents, r.row.id = id → r.dropped = false := by
  have hids : (s.revenueEvents.map fun r => r.row.id).Nodup := by
    have hnodup := h.ids
    rwa [recorded, List.map_map] at hnodup
  constructor
  · intro hfound r hr hrid
    obtain ⟨row, hfind⟩ := Option.isSome_iff_exists.1 hfound
    have hrow : row.id = id := by simpa using List.find?_some hfind
    obtain ⟨kept, hkept, rfl⟩ := List.mem_map.1 (List.mem_of_find?_eq_some hfind)
    obtain ⟨hmem, hlive⟩ := List.mem_filter.1 hkept
    obtain rfl : r = kept := List.inj_on_of_nodup_map hids hr hmem (hrid.trans hrow.symm)
    simpa using hlive
  · intro hlive
    obtain ⟨row, hrows, hrow⟩ := h.rowsFor_eq hid
    have hself : row ∈ s.rowsFor key := by simp [hrows]
    obtain ⟨r, hr, rfl⟩ := List.mem_map.1 (List.mem_of_mem_filter hself)
    rw [findRevenueEventById, List.find?_isSome]
    refine ⟨r.row, List.mem_map_of_mem (List.mem_filter.2 ⟨hr, ?_⟩), decide_eq_true hrow⟩
    rw [hlive r hr hrow]
    rfl

theorem Ledgered.outbox_length (h : s.Ledgered) (key : DedupeKey) :
    (s.outboxFor key).length = (s.rowsFor key).length := by
  have hmem : ∀ row ∈ s.recorded, row.id ∈ (s.rowsFor key).map RevenueEvent.id ↔
      row.key = some key := by
    intro row hrow
    constructor
    · intro hid
      obtain ⟨other, hother, heq⟩ := List.mem_map.1 hid
      obtain ⟨hrecorded, hkey⟩ := List.mem_filter.1 hother
      rw [← h.eq_of_id hrecorded hrow heq]
      exact of_decide_eq_true hkey
    · intro hkey
      exact List.mem_map.2 ⟨row, List.mem_filter.2 ⟨hrow, decide_eq_true hkey⟩, rfl⟩
  let ids := (s.rowsFor key).map RevenueEvent.id
  calc (s.outboxFor key).length
      = ((s.outbox.map OutboxRow.aggregateId).filter fun id => id ∈ ids).length := by
        rw [List.filter_map, List.length_map]
        rfl
    _ = ((s.recorded.map RevenueEvent.id).filter fun id => id ∈ ids).length := by rw [h.outbox]
    _ = (s.recorded.filter fun row => row.id ∈ ids).length := by
        rw [List.filter_map, List.length_map]
        rfl
    _ = (s.rowsFor key).length := by
        rw [rowsFor]
        congr 1
        exact List.filter_congr fun row hrow => decide_eq_decide.2 (hmem row hrow)

theorem recorded_commit (k : Option DedupeKey) :
    (s.commit k row message).recorded = s.recorded ++ [row] := by
  simp [commit, recorded]

theorem rowsFor_commit (k : Option DedupeKey) :
    (s.commit k row message).rowsFor key =
      s.rowsFor key ++ if row.key = some key then [row] else [] := by
  rw [rowsFor, recorded_commit, List.filter_append, List.filter_singleton, Bool.cond_decide]
  rfl

theorem get?_commit (k : Option DedupeKey)
    (hfree : ∀ key, k = some key → s.revenueEventDedupe.get? key = none) :
    (s.commit k row message).revenueEventDedupe.get? key =
      if k = some key then some row.id else s.revenueEventDedupe.get? key := by
  rcases k with _ | k
  · rfl
  · simp only [commit, Option.elim, Table.get?_insert, hfree k rfl, Option.getD_none,
      Option.some.injEq, eq_comm]

theorem Ledgered.commit (h : s.Ledgered) (hrow : s.Unused row.id)
    (hmessage : message.aggregateId = row.id)
    (hclaim : ∀ key, row.key = some key → s.claims key = some row.id) :
    (s.commit row.key row message).Ledgered := by
  have hfree : ∀ key, row.key = some key → s.revenueEventDedupe.get? key = none :=
    fun key hkey => h.claimed key _ (hclaim key hkey)
  constructor
  · intro key
    rw [rowsFor_commit, get?_commit row.key hfree, List.map_append, h.rows]
    split_ifs with hkey
    · rw [hfree key hkey]
      rfl
    · exact List.append_nil _
  · rw [recorded_commit, List.map_append, List.nodup_append]
    refine ⟨h.ids, List.nodup_singleton _, fun a ha b hb => ?_⟩
    obtain ⟨other, hother, rfl⟩ := List.mem_map.1 ha
    obtain rfl := List.mem_singleton.1 hb
    exact hrow.2 other hother
  · intro other hother
    rw [recorded_commit, List.mem_append, List.mem_singleton] at hother
    rcases hother with hother | rfl
    · exact h.fresh other hother
    · exact hrow.1
  · rw [recorded_commit, List.map_append, ← h.outbox]
    simp [RevenueDb.commit, hmessage]
  · intro key id hheld
    have hkey : row.key ≠ some key := by
      intro hkey
      simp [RevenueDb.commit, release, hkey] at hheld
    rw [get?_commit row.key hfree, if_neg hkey]
    refine h.claimed key id ?_
    simpa [RevenueDb.commit, release, hkey] using hheld

theorem Ledgered.rowsFor_commit_self (h : s.Ledgered) (hkey : row.key = some key)
    (hclaim : ∀ key, row.key = some key → s.claims key = some row.id) :
    (s.commit row.key row message).rowsFor key = [row] := by
  have hnone : s.rowsFor key = [] := by
    have hrows := h.rows key
    rw [h.claimed key _ (hclaim key hkey)] at hrows
    exact List.map_eq_nil_iff.1 hrows
  rw [rowsFor_commit, hnone, if_pos hkey, List.nil_append]

theorem Ledgered.release (h : s.Ledgered) (k : Option DedupeKey) : (s.release k).Ledgered where
  rows := h.rows
  ids := h.ids
  fresh := h.fresh
  outbox := h.outbox
  claimed key id hheld := by
    rw [RevenueDb.release] at hheld
    simp only at hheld
    split_ifs at hheld
    exact h.claimed key id hheld

theorem recorded_outside (s : RevenueDb M) (d : Outside) : (s.outside d).recorded = s.recorded := by
  rcases d with ⟨purchaseId, ownershipType⟩ | ⟨start, stop⟩
  · rfl
  · simp [outside, recorded, Function.comp_def]

theorem Ledgered.outside (h : s.Ledgered) (d : Outside) : (s.outside d).Ledgered := by
  have hdedupe : (s.outside d).revenueEventDedupe = s.revenueEventDedupe := by cases d <;> rfl
  have hclaims : (s.outside d).claims = s.claims := by cases d <;> rfl
  have hnext : (s.outside d).nextId = s.nextId := by cases d <;> rfl
  have houtbox : (s.outside d).outbox = s.outbox := by cases d <;> rfl
  constructor
  · intro key
    rw [rowsFor, recorded_outside, hdedupe]
    exact h.rows key
  · rw [recorded_outside]
    exact h.ids
  · rw [recorded_outside, hnext]
    exact h.fresh
  · rw [recorded_outside, houtbox]
    exact h.outbox
  · rw [hclaims, hdedupe]
    exact h.claimed

structure Frame (s s' : RevenueDb M) (mine : Option ℕ) : Prop where
  unused : ∀ id, mine ≠ some id → s.Unused id → s'.Unused id
  claims : ∀ key id, mine ≠ some id → s.claims key = some id → s'.claims key = some id
  dedupe : ∀ key id, s.revenueEventDedupe.get? key = some id →
    s'.revenueEventDedupe.get? key = some id
  rowsFor : ∀ key row, s.rowsFor key = [row] → s'.rowsFor key = [row]

variable {s' : RevenueDb M} {mine : Option ℕ}

theorem Frame.refl (s : RevenueDb M) (mine : Option ℕ) : Frame s s mine :=
  ⟨fun _ _ => id, fun _ _ _ => id, fun _ _ => id, fun _ _ => id⟩

theorem Frame.release (k : Option DedupeKey)
    (hclaim : ∀ key id, k = some key → s.claims key = some id → mine = some id) :
    Frame s (s.release k) mine where
  unused _ _ hunused := hunused
  claims key id hmine hheld := by
    have hkey : k ≠ some key := fun hkey => hmine (hclaim key id hkey hheld)
    rw [RevenueDb.release]
    simpa only [if_neg hkey] using hheld
  dedupe _ _ hid := hid
  rowsFor _ _ hrow := hrow

theorem Frame.commit (h : s.Ledgered) (hclaim : ∀ key, row.key = some key →
    s.claims key = some row.id) : Frame s (s.commit row.key row message) (some row.id) := by
  have hfree : ∀ key, row.key = some key → s.revenueEventDedupe.get? key = none :=
    fun key hkey => h.claimed key _ (hclaim key hkey)
  have hrelease : Frame s (s.release row.key) (some row.id) := by
    refine Frame.release row.key fun key id hkey hheld => ?_
    rw [← hheld, hclaim key hkey]
  constructor
  · intro id hid hunused
    refine ⟨hunused.1, fun other hother => ?_⟩
    rw [recorded_commit, List.mem_append, List.mem_singleton] at hother
    rcases hother with hother | rfl
    · exact hunused.2 other hother
    · exact fun heq => hid (congrArg some heq)
  · exact hrelease.claims
  · intro key id hid
    rw [get?_commit row.key hfree, if_neg]
    · exact hid
    · intro hkey
      rw [hfree key hkey] at hid
      cases hid
  · intro key other hother
    rw [rowsFor_commit, hother, if_neg]
    · rfl
    · intro hkey
      have hrows := h.rows key
      rw [hfree key hkey, hother] at hrows
      cases hrows

theorem Frame.outside (s : RevenueDb M) (d : Outside) : Frame s (s.outside d) mine := by
  constructor
  · intro id _ hunused
    refine ⟨?_, ?_⟩
    · cases d <;> exact hunused.1
    · rw [recorded_outside]
      exact hunused.2
  · intro key id _ hheld
    cases d <;> exact hheld
  · intro key id hid
    cases d <;> exact hid
  · intro key row hrow
    rw [RevenueDb.rowsFor, recorded_outside]
    exact hrow

end RevenueDb

/-- What a call in its stage may rely on. -/
def Call.Sound (s : RevenueDb M) (t : Call M) : Prop :=
  match t.stage with
  | .claiming id => s.Unused id
  | .conflict => ∃ key id, t.input.key = some key ∧ s.revenueEventDedupe.get? key = some id
  | .found id => ∃ key, t.input.key = some key ∧ s.revenueEventDedupe.get? key = some id
  | .claimed id => s.Unused id ∧ ∀ key, t.input.key = some key → s.claims key = some id
  | .inserted row => s.Unused row.id ∧ row.key = t.input.key ∧
      ∀ key, t.input.key = some key → s.claims key = some row.id
  | .emitted row message => s.Unused row.id ∧ row.key = t.input.key ∧
      message.aggregateId = row.id ∧ ∀ key, t.input.key = some key → s.claims key = some row.id
  | .returned (some row) => ∀ key, t.input.key = some key → s.rowsFor key = [row]
  | _ => True

section Step
variable {s s' : RevenueDb M} {t : Call M} {mine : Option ℕ}

theorem Call.Sound.unused (h : t.Sound s) {id : ℕ} (hid : t.stage.drawn = some id) :
    s.Unused id := by
  rcases hstage : t.stage with _ | id' | _ | _ | id' | row | ⟨row, message⟩ | _ | _ | _ <;>
    simp only [hstage, Stage.drawn, Option.some.injEq, reduceCtorEq] at hid <;>
    simp only [Call.Sound, hstage] at h <;> subst hid
  · exact h
  · exact h.1
  · exact h.1
  · exact h.1

theorem Call.Sound.claim (h : t.Sound s) (hholds : t.stage.holds) {key : DedupeKey}
    (hkey : t.input.key = some key) : s.claims key = t.stage.drawn := by
  rcases hstage : t.stage with _ | id | _ | _ | id | row | ⟨row, message⟩ | _ | _ | _ <;>
    simp only [hstage, Stage.holds, Bool.false_eq_true] at hholds <;>
    simp only [Call.Sound, hstage] at h
  · exact h.2 key hkey
  · exact h.2.2 key hkey
  · exact h.2.2.2 key hkey

theorem Call.Sound.frame (h : t.Sound s) (hframe : s.Frame s' mine)
    (hmine : ∀ id, t.stage.drawn = some id → mine ≠ some id) : t.Sound s' := by
  rcases hstage : t.stage with _ | id | _ | id | id | row | ⟨row, message⟩ | ⟨_ | row⟩ | _ | _ <;>
    simp only [hstage, Stage.drawn, Option.some.injEq, forall_eq', reduceCtorEq] at hmine <;>
    simp only [Call.Sound, hstage] at h ⊢
  · exact hframe.unused id hmine h
  · obtain ⟨key, id, hkey, hid⟩ := h
    exact ⟨key, id, hkey, hframe.dedupe key id hid⟩
  · obtain ⟨key, hkey, hid⟩ := h
    exact ⟨key, hkey, hframe.dedupe key id hid⟩
  · exact ⟨hframe.unused id hmine h.1,
      fun key hkey => hframe.claims key id hmine (h.2 key hkey)⟩
  · exact ⟨hframe.unused _ hmine h.1, h.2.1,
      fun key hkey => hframe.claims key _ hmine (h.2.2 key hkey)⟩
  · exact ⟨hframe.unused _ hmine h.1, h.2.1, h.2.2.1,
      fun key hkey => hframe.claims key _ hmine (h.2.2.2 key hkey)⟩
  · exact fun key hkey => hframe.rowsFor key row (h key hkey)

structure Owes (s : RevenueDb M) (t : Call M) (s' : RevenueDb M) (t' : Call M) : Prop where
  ledgered : s'.Ledgered
  sound : t'.Sound s'
  frame : s.Frame s' t.stage.drawn
  drawn : ∀ id, t'.stage.drawn = some id → t.stage.drawn = some id ∨ s.nextId ≤ id

theorem Owes.move (hs : s.Ledgered) {stage : Stage M} (ht : (t.go stage).Sound s)
    (hdrawn : ∀ id, stage.drawn = some id → t.stage.drawn = some id) :
    Owes s t s (t.go stage) :=
  ⟨hs, ht, .refl s _, fun id hid => .inl (hdrawn id hid)⟩

theorem Owes.claim (hs : s.Ledgered) {id : ℕ} (hunused : s.Unused id)
    (hstage : t.stage = .claiming id) {key : DedupeKey} (hkey : t.input.key = some key)
    (hrecorded : s.revenueEventDedupe.get? key = none) (hheld : s.claims key = none) :
    Owes s t { s with claims := Function.update s.claims key (some id) } (t.go (.claimed id)) := by
  refine ⟨⟨hs.rows, hs.ids, hs.fresh, hs.outbox, fun key' id' hclaim => ?_⟩, ⟨hunused, ?_⟩, ?_, ?_⟩
  · by_cases hsame : key' = key
    · rw [hsame]
      exact hrecorded
    · exact hs.claimed key' id' ((Function.update_of_ne hsame ..).symm.trans hclaim)
  · intro key' hkey'
    obtain rfl := Option.some.inj (hkey.symm.trans hkey')
    exact Function.update_self ..
  · refine ⟨fun _ _ h => h, fun key' id' _ hclaim => ?_, fun _ _ h => h, fun _ _ h => h⟩
    have hother : key' ≠ key := by
      rintro rfl
      cases hheld.symm.trans hclaim
    exact (Function.update_of_ne hother ..).trans hclaim
  · intro id' hid
    rw [hstage]
    exact .inl hid

theorem owes_createRevenueEvent (hs : s.Ledgered) (ht : t.Sound s) (fault : Bool) :
    Owes s t (createRevenueEvent s t fault).1 (createRevenueEvent s t fault).2 := by
  have hnone : ∀ id, (none : Option ℕ) = some id → t.stage.drawn = some id :=
    fun id hid => by cases hid
  rcases hover : t.stage.over with _ | _
  swap
  · simp only [createRevenueEvent, hover, if_true]
    exact ⟨hs, ht, .refl s _, fun id hid => .inl hid⟩
  rcases fault with _ | _
  swap
  · simp only [createRevenueEvent, hover, Bool.false_eq_true, if_false, if_true]
    split_ifs with hholds
    · refine ⟨hs.release _, trivial, .release _ fun key id hkey hheld => ?_, fun id hid => ?_⟩
      · rw [← ht.claim hholds hkey, hheld]
      · exact .inl (hnone id hid)
    · exact .move hs trivial hnone
  rcases hstage : t.stage with _ | id | _ | id | id | row | ⟨row, message⟩ | _ | _ | _ <;>
    simp only [hstage, Stage.over, Bool.true_eq_false] at hover <;>
    simp only [createRevenueEvent, hstage, Stage.over, Bool.false_eq_true, if_false] <;>
    simp only [Call.Sound, hstage] at ht
  · split_ifs with hfamily
    · exact .move hs trivial hnone
    · refine ⟨⟨hs.rows, hs.ids, fun row hrow => ?_, hs.outbox, hs.claimed⟩, ?_, ?_, fun id hid => ?_⟩
      · exact Nat.lt_succ_of_lt (hs.fresh row hrow)
      · exact ⟨Nat.lt_succ_self _, fun row hrow => (hs.fresh row hrow).ne⟩
      · exact ⟨fun _ _ h => ⟨Nat.lt_succ_of_lt h.1, h.2⟩, fun _ _ _ => id, fun _ _ => id,
          fun _ _ => id⟩
      · exact .inr (Option.some.inj hid).le
  · rcases hkey : t.input.key with _ | key
    · refine .move hs ⟨ht, fun key hkey' => ?_⟩ fun id' hid => by rw [hstage]; exact hid
      cases hkey.symm.trans hkey'
    · dsimp only
      split_ifs with hrecorded hheld
      · obtain ⟨id', hid⟩ := Option.isSome_iff_exists.1 hrecorded
        exact .move hs ⟨key, id', hkey, hid⟩ hnone
      · exact ⟨hs, by rw [Call.Sound, hstage]; exact ht, .refl s _, fun id' hid => .inl hid⟩
      · exact .claim hs ht hstage hkey (by simpa using hrecorded) (by simpa using hheld)
  · obtain ⟨key, id, hkey, hid⟩ := ht
    simp only [hkey, Option.bind_some, hid]
    exact .move hs ⟨key, hkey, hid⟩ hnone
  · obtain ⟨key, hkey, hid⟩ := ht
    rcases hfind : s.findRevenueEventById id with _ | row
    · exact .move hs trivial hnone
    · refine .move hs (fun key' hkey' => ?_) hnone
      obtain rfl := Option.some.inj (hkey.symm.trans hkey')
      exact hs.rowsFor_find hid hfind
  · exact .move hs ⟨ht.1, rfl, ht.2⟩ fun id' hid => by rw [hstage]; exact hid
  · exact .move hs ⟨ht.1, ht.2.1, rfl, ht.2.2⟩ fun id' hid => by rw [hstage]; exact hid
  · obtain ⟨hunused, hkey, hmessage, hclaim⟩ := ht
    rw [← hkey] at hclaim ⊢
    refine ⟨hs.commit hunused hmessage hclaim, fun key hkey' => ?_, ?_, fun id hid => .inl (hnone id hid)⟩
    · exact hs.rowsFor_commit_self (hkey.trans hkey') hclaim
    · rw [hstage]
      exact .commit hs hclaim

theorem threw_iff (hs : s.Ledgered) (ht : t.Sound s) (hnot : ∀ msg, t.stage ≠ .threw msg)
    (fault : Bool) :
    (∀ msg, (createRevenueEvent s t fault).2.stage ≠ .threw msg) ↔
      ∀ id, t.stage = .found id → fault = false →
        ∀ r ∈ s.revenueEvents, r.row.id = id → r.dropped = false := by
  rcases hover : t.stage.over with _ | _
  swap
  · have hfound : ∀ id, t.stage ≠ .found id := by
      intro id hstage
      simp [hstage, Stage.over] at hover
    simp only [createRevenueEvent, hover, if_true]
    exact iff_of_true hnot fun id hstage => absurd hstage (hfound id)
  rcases fault with _ | _
  swap
  · simp only [createRevenueEvent, hover, Bool.false_eq_true, if_false, if_true]
    exact iff_of_true (fun msg => by simp) fun _ _ hfault => by cases hfault
  rcases hstage : t.stage with _ | id | _ | id | id | row | ⟨row, message⟩ | _ | _ | _ <;>
    simp only [hstage, Stage.over, Bool.true_eq_false] at hover <;>
    simp only [createRevenueEvent, hstage, Stage.over, Bool.false_eq_true, if_false,
      Stage.found.injEq, forall_eq', reduceCtorEq, false_implies, implies_true, iff_true,
      forall_const] <;>
    simp only [Call.Sound, hstage] at ht
  · intro msg
    split_ifs <;> simp
  · intro msg
    rcases t.input.key with _ | key
    · simp
    · dsimp only
      split_ifs <;> simp [hstage]
  · obtain ⟨key, id, hkey, hid⟩ := ht
    intro msg
    simp [hkey, hid]
  · obtain ⟨key, -, hid⟩ := ht
    rw [← hs.isSome_find_iff hid]
    rcases s.findRevenueEventById id with _ | row <;> simp
  · simp
  · simp
  · simp

end Step

section Run
variable [DecidableEq ι] {w : World ι (RevenueDb M) (Call M)} {evs : List (Event ι Bool Outside)}

def ledger : Annotation (RevenueDb M) (Call M) where
  inv := RevenueDb.Ledgered
  assert s t := t.Sound s
  apart t t' := ∀ id, t.stage.drawn = some id → t'.stage.drawn ≠ some id

theorem ledger_next (h : ledger.Holds w) (e : Event ι Bool Outside) :
    ledger.Holds (revenueWrites.next w e) := by
  rcases e with ⟨i, fault⟩ | d
  · have howes := owes_createRevenueEvent h.inv (h.assert i) fault
    have hapart : ∀ j ≠ i, ∀ id, (w.task j).stage.drawn = some id →
        (createRevenueEvent w.shared (w.task i) fault).2.stage.drawn ≠ some id := by
      intro j hj id hid hmine
      rcases howes.drawn id hmine with hbefore | hnew
      · exact h.apart j i hj id hid hbefore
      · exact absurd ((h.assert j).unused hid).1 (not_lt.2 hnew)
    refine h.update howes.ledgered howes.sound (fun j hj => ?_) fun j hj => ⟨?_, hapart j hj⟩
    · exact (h.assert j).frame howes.frame (h.apart j i hj)
    · exact fun id hmine hid => hapart j hj id hid hmine
  · have hframe : w.shared.Frame (w.shared.outside d) none := .outside _ d
    refine ⟨h.inv.outside d, fun i => ?_, h.apart⟩
    exact (h.assert i).frame hframe fun id _ hid => by cases hid

omit [DecidableEq ι] in
theorem recordedOnce_iff_replies (h : ledger.Holds w) :
    RecordedOnce w ↔ ∀ i msg, (w.task i).stage ≠ .threw msg := by
  refine ⟨fun hw => hw.replies, fun hreplies => ⟨h.inv.rows_length, h.inv.outbox_length, ?_, hreplies⟩⟩
  intro i row key hstage hkey
  have hsound := h.assert i
  simp only [ledger, Call.Sound, hstage] at hsound
  exact hsound key hkey

theorem replies_next_iff (h : ledger.Holds w) (hw : ∀ i msg, (w.task i).stage ≠ .threw msg)
    (e : Event ι Bool Outside) :
    (∀ i msg, ((revenueWrites.next w e).task i).stage ≠ .threw msg) ↔ FindsRow w e := by
  rcases e with ⟨i, fault⟩ | d
  · have hstep := threw_iff h.inv (h.assert i) (hw i) fault
    have hfinds : FindsRow w (.act i fault) ↔ ∀ id, (w.task i).stage = .found id → fault = false →
        ∀ r ∈ w.shared.revenueEvents, r.row.id = id → r.dropped = false := by
      rw [FindsRow]
      split
      · rename_i id hstage
        simp [hstage]
      · rename_i hnone
        exact iff_of_true trivial fun id hid => absurd hid (hnone id)
    rw [hfinds, ← hstep]
    constructor
    · intro hall msg
      simpa [System.next, revenueWrites] using hall i msg
    · intro hself j msg
      by_cases hj : j = i
      · subst hj
        simpa [System.next, revenueWrites] using hself msg
      · simpa [System.next, hj] using hw j msg
  · exact iff_of_true hw trivial

/-- From tables that record nothing: revenue is recorded once a key and no call throws, just
when no replay looks for a row that retention dropped. -/
theorem recordedOnce_iff_findsRow {purchases : Table String (Option String)}
    (hempty : w.shared = { purchases := purchases })
    (hwaiting : ∀ i, (w.task i).stage = .waiting) :
    (∀ v ∈ revenueWrites.visited w evs, RecordedOnce v) ↔
      ∀ x ∈ revenueWrites.transitions w evs, FindsRow x.1 x.2 := by
  have hledger : ledger.Holds w := by
    constructor
    · rw [hempty]
      constructor <;> simp [RevenueDb.rowsFor, RevenueDb.recorded]
    · intro i
      simp [ledger, Call.Sound, hwaiting]
    · intro i j _ id hid
      rw [hwaiting] at hid
      cases hid
  have hnext : ∀ (v : World ι (RevenueDb M) (Call M)) e, ledger.Holds v →
      ledger.Holds (revenueWrites.next v e) := fun v e hv => ledger_next hv e
  have hstart : ∀ i msg, (w.task i).stage ≠ .threw msg := by
    intro i msg
    simp [hwaiting]
  rw [← System.visited_iff hnext (fun v e hv hw => replies_next_iff hv hw e) hledger hstart]
  have hall : ∀ v ∈ revenueWrites.visited w evs, ledger.Holds v :=
    System.visited_invariant hnext hledger
  exact forall₂_congr fun v hv => recordedOnce_iff_replies (hall v hv)

end Run

def renewal : CreateRevenueEventInput Unit where
  projectId := "project"
  subscriberId := "subscriber"
  purchaseId := "purchase"
  productId := "product"
  type := .renewal
  amount := "9.99"
  currency := "USD"
  amountUsd := "9.99"
  store := .appStore
  eventDate := 0
  dedupeKey := some "apple:1000:purchase"

def deliveredTwice : World Bool (RevenueDb Unit) (Call Unit) where
  shared := {}
  task _ := { input := renewal }

def delivery : List (Event Bool Bool Outside) := List.replicate 5 (.act false false)

def replay : List (Event Bool Bool Outside) := List.replicate 4 (.act true false)

theorem replay_throws_after_drop :
    ¬∀ v ∈ revenueWrites.visited deliveredTwice
        (delivery ++ .env (.dropPartition 0 1) :: replay), RecordedOnce v := by
  intro hall
  have hthrew : ((revenueWrites.runAll deliveredTwice
      (delivery ++ .env (.dropPartition 0 1) :: replay)).task true).stage =
        .threw dedupeConflict := rfl
  exact (hall _ System.last_mem_visited).replies true _ hthrew

theorem recordedOnce_iff_findsRow_replay :
    deliveredTwice.shared = { purchases := .empty } ∧
      ∀ v ∈ revenueWrites.visited deliveredTwice (delivery ++ replay), RecordedOnce v := by
  have hkept : ∀ x ∈ revenueWrites.transitions deliveredTwice (delivery ++ replay),
      ∀ r ∈ x.1.shared.revenueEvents, r.dropped = false := by
    decide
  have hempty : deliveredTwice.shared = { purchases := .empty } := rfl
  refine ⟨hempty, (recordedOnce_iff_findsRow hempty fun _ => rfl).2 fun x hx => ?_⟩
  exact findsRow_of_kept (hkept x hx) x.2

end Rovenue.Revenue
