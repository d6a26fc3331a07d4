import Rovenue.Leaderboards.SeasonScheduler

/-! The seasons in the tables: one ACTIVE season, the newest, and a closed one settled in one
transaction. A close extends the chain of its leaderboard by the window it was given. -/

namespace Rovenue.Leaderboards
open Txn (Table Database applyAll)

def LeaderboardDb.spans (s : LeaderboardDb) (leaderboardId : String) (n : ℕ) :
    Option SeasonWindow := (s.seasons.get? ⟨leaderboardId, n⟩).map Season.window

def Gapless (s : LeaderboardDb) : Prop := ∀ leaderboardId, Chained (s.spans leaderboardId)

def SeasonWrite.settles : SeasonWrite → Option SeasonKey
  | .closeSeason key _ => some key
  | .insertStandings key _ => some key
  | _ => none

def settlements (key : SeasonKey) (log : List (List SeasonWrite)) : List (List SeasonWrite) :=
  (log.map fun ws => ws.filter fun w => w.settles = some key).filter (· ≠ [])

def LeaderboardDb.standingsOf (s : LeaderboardDb) (key : SeasonKey) : List StandingInput :=
  (s.standings.filter fun e => e.1 = key).map Prod.snd

def ClosedOnce (key : SeasonKey) (s : SchedulerState) : Prop :=
  ∃ closedAt rows, settlements key s.log = [.closeSeason key closedAt :: insertStandings key rows] ∧
    s.db.standingsOf key = rows

structure OneActive (s : LeaderboardDb) : Prop where
  unique : ∀ key key' row row', s.seasons.get? key = some row → s.seasons.get? key' = some row' →
    row.status = .active → row'.status = .active → key.leaderboardId = key'.leaderboardId →
    key = key'
  newest : ∀ key row, s.seasons.get? key = some row → ∃ n row',
    s.seasons.get? ⟨key.leaderboardId, n⟩ = some row' ∧ row'.status = .active ∧
      key.seasonNumber ≤ n

structure SoundSeasons (s : SchedulerState) : Prop where
  oneActive : OneActive s.db
  closed : ∀ key row, s.db.seasons.get? key = some row → row.status = .closed → ClosedOnce key s
  unsettled : ∀ key, (∀ row, s.db.seasons.get? key = some row → row.status = .active) →
    settlements key s.log = [] ∧ s.db.standingsOf key = []

/-- Every committed state: one ACTIVE season at most, numbers distinct, a closed season settled in
one transaction, and no gap or overlap from one season to the next. -/
structure OneChain (s : SchedulerState) : Prop where
  oneActive : ∀ key key' row row', s.db.seasons.get? key = some row →
    s.db.seasons.get? key' = some row' → row.status = .active → row'.status = .active →
    key.leaderboardId = key'.leaderboardId → key = key'
  distinct : ∀ leaderboardId, ((s.db.seasons.entries.filter fun e =>
    e.1.leaderboardId = leaderboardId).map fun e => e.1.seasonNumber).Nodup
  closed : ∀ key row, s.db.seasons.get? key = some row → row.status = .closed → ClosedOnce key s
  gapless : Gapless s.db

section Statements
variable {s s' : LeaderboardDb} {key key' : SeasonKey} {row : Season} {window : SeasonWindow}

@[simp] theorem apply_eq (w : SeasonWrite) : Database.apply s w = s.write w := rfl

theorem not_conflicts (h : seasonConflicts key s = false) : s.seasons.get? key = none ∧
    ∀ key' row, s.seasons.get? key' = some row → key'.leaderboardId = key.leaderboardId →
      row.status ≠ .active := by
  rw [seasonConflicts, Bool.or_eq_false_iff, Option.isSome_eq_false_iff, Option.isNone_iff_eq_none,
    List.any_eq_false] at h
  refine ⟨h.1, fun key' row hrow hsame hactive => ?_⟩
  have hnone := h.2 (key', row) (s.seasons.mem_entries.2 hrow)
  simp [hsame, hactive] at hnone

theorem not_conflicts_iff : seasonConflicts key s = false ↔ s.seasons.get? key = none ∧
    ∀ key' row, s.seasons.get? key' = some row → key'.leaderboardId = key.leaderboardId →
      row.status ≠ .active := by
  refine ⟨not_conflicts, fun h => ?_⟩
  rw [seasonConflicts, h.1, Option.isSome_none, Bool.false_or, List.any_eq_false]
  intro e he
  have hne := h.2 e.1 e.2 (s.seasons.mem_entries.1 he)
  simp only [Bool.and_eq_true, decide_eq_true_eq, not_and]
  exact hne

theorem applyAll_insertStandings (rows : List StandingInput) :
    applyAll s (insertStandings key rows) =
      { s with standings := s.standings ++ rows.map fun row => (key, row) } := by
  unfold insertStandings
  split_ifs with hrows
  · rw [hrows, List.map_nil, List.append_nil]
    rfl
  · rfl

theorem get?_insertSeason (hfree : s.seasons.get? key = none) :
    (s.write (.insertSeason key window)).seasons.get? key' =
      if key' = key then some { window := window } else s.seasons.get? key' := by
  rw [LeaderboardDb.write, Table.get?_insert, hfree]
  rfl

end Statements

def SeasonClose.pending (c : SeasonClose) : CloseStatement → List SeasonWrite
  | .standings => [.closeSeason c.key c.now]
  | .audit => .closeSeason c.key c.now :: insertStandings c.key c.ranked
  | .successor => .closeSeason c.key c.now :: insertStandings c.key c.ranked ++
      [.insertAudit c.auditEntry]
  | .commit => .closeSeason c.key c.now :: insertStandings c.key c.ranked ++
      [.insertAudit c.auditEntry, .insertSeason c.successor c.next]

section Close
variable {s : LeaderboardDb} {c : SeasonClose} {key : SeasonKey}

theorem applyAll_closing : applyAll s (.closeSeason c.key c.now :: insertStandings c.key c.ranked) =
    { s with
      seasons := s.seasons.modify c.key (Season.close c.now)
      standings := s.standings ++ c.ranked.map fun row => (c.key, row) } := by
  rw [Txn.applyAll_cons, applyAll_insertStandings]
  rfl

theorem seasons_beforeSuccessor :
    (applyAll s (c.pending .successor)).seasons =
      s.seasons.modify c.key (Season.close c.now) := by
  rw [SeasonClose.pending, Txn.applyAll_append, applyAll_closing]
  rfl

theorem applyAll_pending : applyAll s (c.pending .commit) =
    (applyAll s (c.pending .successor)).write (.insertSeason c.successor c.next) := by
  have hsplit : c.pending .commit = c.pending .successor ++ [.insertSeason c.successor c.next] := by
    simp [SeasonClose.pending]
  rw [hsplit, Txn.applyAll_append]
  rfl

theorem standingsOf_pending : (applyAll s (c.pending .commit)).standingsOf key =
    s.standingsOf key ++ if key = c.key then c.ranked else [] := by
  have hstandings : (applyAll s (c.pending .commit)).standings =
      s.standings ++ c.ranked.map fun row => (c.key, row) := by
    rw [applyAll_pending, SeasonClose.pending, Txn.applyAll_append, applyAll_closing]
    rfl
  rw [LeaderboardDb.standingsOf, hstandings, List.filter_append, List.map_append,
    LeaderboardDb.standingsOf]
  by_cases hkey : key = c.key
  · simp [hkey, List.filter_map, Function.comp_def]
  · simp [hkey, List.filter_map, Function.comp_def, Ne.symm hkey]

theorem get?_settled (hfree : s.seasons.get? c.successor = none) :
    (applyAll s (c.pending .commit)).seasons.get? key =
      if key = c.successor then some { window := c.next }
      else if key = c.key then (s.seasons.get? key).map (Season.close c.now)
      else s.seasons.get? key := by
  have hfree' : (applyAll s (c.pending .successor)).seasons.get? c.successor = none := by
    rw [seasons_beforeSuccessor, Table.get?_modify, hfree]
    split_ifs <;> rfl
  rw [applyAll_pending, get?_insertSeason hfree', seasons_beforeSuccessor, Table.get?_modify]

theorem settles_pending : (c.pending .commit).filter (fun w => w.settles = some key) =
    if key = c.key then .closeSeason c.key c.now :: insertStandings c.key c.ranked else [] := by
  have hstandings : (insertStandings c.key c.ranked).filter (fun w => w.settles = some key) =
      if key = c.key then insertStandings c.key c.ranked else [] := by
    unfold insertStandings
    by_cases hrows : c.ranked = []
    · simp [hrows]
    · by_cases hkey : key = c.key
      · simp [hrows, SeasonWrite.settles, hkey]
      · simp [hrows, SeasonWrite.settles, hkey, Ne.symm hkey]
  rw [SeasonClose.pending, List.cons_append, List.filter_cons, List.filter_append, hstandings]
  by_cases hkey : key = c.key
  · simp [SeasonWrite.settles, hkey]
  · simp [SeasonWrite.settles, hkey, Ne.symm hkey]

end Close

theorem settlements_append (key : SeasonKey) (log : List (List SeasonWrite))
    (ws : List SeasonWrite) : settlements key (log ++ [ws]) =
      settlements key log ++ [ws.filter fun w => w.settles = some key].filter (· ≠ []) := by
  simp [settlements]

section OneActive
variable {s : LeaderboardDb} {c : SeasonClose} {leaderboardId : String}

theorem OneActive.le_active (h : OneActive s) {key key' : SeasonKey} {row row' : Season}
    (hactive : s.seasons.get? key = some row) (hstatus : row.status = .active)
    (hrow' : s.seasons.get? key' = some row') (hsame : key'.leaderboardId = key.leaderboardId) :
    key'.seasonNumber ≤ key.seasonNumber := by
  obtain ⟨n, newest, hnewest, hnewestActive, hle⟩ := h.newest key' row' hrow'
  have heq := h.unique _ _ _ _ hactive hnewest hstatus hnewestActive hsame.symm
  rw [heq]
  exact hle

theorem OneActive.successor_free (h : OneActive s)
    (hrow : s.seasons.get? c.key = some c.season.2) (hactive : c.season.2.status = .active) :
    s.seasons.get? c.successor = none := by
  cases hsucc : s.seasons.get? c.successor with
  | none => rfl
  | some row =>
    have hle := h.le_active hrow hactive hsucc rfl
    exact absurd hle (Nat.not_succ_le_self _)

theorem OneActive.none_of_not_active (h : OneActive s)
    (hnone : ∀ key row, s.seasons.get? key = some row → key.leaderboardId = leaderboardId →
      row.status ≠ .active) {key : SeasonKey} (hkey : key.leaderboardId = leaderboardId) :
    s.seasons.get? key = none := by
  cases hget : s.seasons.get? key with
  | none => rfl
  | some row =>
    obtain ⟨n, newest, hnewest, hactive, -⟩ := h.newest key row hget
    exact absurd hactive (hnone _ newest hnewest hkey)

theorem OneActive.successor_opens (h : OneActive s)
    (hrow : s.seasons.get? c.key = some c.season.2) (hactive : c.season.2.status = .active) :
    openSeason c.successor c.next (applyAll s (c.pending .successor)) =
      [.insertSeason c.successor c.next] := by
  have hfree := h.successor_free hrow hactive
  rw [openSeason, if_neg]
  rw [Bool.not_eq_true, not_conflicts_iff, seasons_beforeSuccessor]
  constructor
  · rw [Table.get?_modify, hfree]
    split_ifs <;> rfl
  · intro key row hget hsame hstill
    rw [Table.get?_modify] at hget
    split_ifs at hget with hkey
    · obtain ⟨old, -, rfl⟩ := Option.map_eq_some_iff.1 hget
      cases hstill
    · exact hkey (h.unique _ _ _ _ hget hrow hstill hactive hsame)

theorem OneActive.settled (h : OneActive s) (hrow : s.seasons.get? c.key = some c.season.2)
    (hactive : c.season.2.status = .active) : OneActive (applyAll s (c.pending .commit)) := by
  have hget : ∀ key, (applyAll s (c.pending .commit)).seasons.get? key = _ :=
    fun key => get?_settled (h.successor_free hrow hactive)
  have hsucc : c.successor ≠ c.key := by
    intro heq
    have hnumber := congrArg SeasonKey.seasonNumber heq
    exact absurd hnumber (Nat.succ_ne_self _)
  -- an ACTIVE row is the successor, or an old one of another leaderboard
  have hold : ∀ key row, (applyAll s (c.pending .commit)).seasons.get? key = some row →
      row.status = .active → key = c.successor ∨
        s.seasons.get? key = some row ∧ key.leaderboardId ≠ c.key.leaderboardId := by
    intro key row hkey hstatus
    rw [hget] at hkey
    split_ifs at hkey with hs hc
    · exact .inl hs
    · obtain ⟨old, -, rfl⟩ := Option.map_eq_some_iff.1 hkey
      cases hstatus
    · exact .inr ⟨hkey, fun hsame => hc (h.unique _ _ _ _ hkey hrow hstatus hactive hsame)⟩
  constructor
  · intro key key' row row' hkey hkey' hstatus hstatus' hsame
    obtain rfl | ⟨hkey, hne⟩ := hold key row hkey hstatus
    · obtain rfl | ⟨-, hne'⟩ := hold key' row' hkey' hstatus'
      · rfl
      · exact absurd hsame.symm hne'
    · obtain rfl | ⟨hkey', -⟩ := hold key' row' hkey' hstatus'
      · exact absurd hsame hne
      · exact h.unique _ _ _ _ hkey hkey' hstatus hstatus' hsame
  · intro key row hkey
    by_cases hmine : key.leaderboardId = c.key.leaderboardId
    · refine ⟨c.key.seasonNumber + 1, { window := c.next }, ?_, rfl, ?_⟩
      · rw [hget, if_pos (by rw [hmine]; rfl)]
      · rw [hget] at hkey
        split_ifs at hkey with hs hc
        · rw [hs]
          exact le_rfl
        · rw [hc]
          exact Nat.le_succ _
        · exact (h.le_active hrow hactive hkey hmine).trans (Nat.le_succ _)
    · rw [hget, if_neg fun hs => hmine (by rw [hs]; rfl), if_neg fun hc => hmine (by rw [hc])] at hkey
      obtain ⟨n, newest, hnewest, hstatus, hle⟩ := h.newest key row hkey
      refine ⟨n, newest, ?_, hstatus, hle⟩
      rw [hget, if_neg, if_neg, hnewest]
      · intro hc
        have hsame := congrArg SeasonKey.leaderboardId hc
        exact hmine hsame
      · intro hs
        have hsame := congrArg SeasonKey.leaderboardId hs
        exact hmine hsame

theorem OneActive.opened (h : OneActive s) {key : SeasonKey} {window : SeasonWindow}
    (hfree : seasonConflicts key s = false) : OneActive (s.write (.insertSeason key window)) := by
  obtain ⟨hnone, hinactive⟩ := not_conflicts hfree
  have hget : ∀ key', (s.write (.insertSeason key window)).seasons.get? key' = _ :=
    fun key' => get?_insertSeason hnone
  constructor
  · intro k k' row row' hk hk' hstatus hstatus' hsame
    rw [hget] at hk hk'
    split_ifs at hk hk' with hkey hkey' hkey'
    · rw [hkey, hkey']
    · exact absurd hstatus' (hinactive k' row' hk' (by rw [← hsame, hkey]))
    · exact absurd hstatus (hinactive k row hk (by rw [hsame, hkey']))
    · exact h.unique _ _ _ _ hk hk' hstatus hstatus' hsame
  · intro k row hk
    rw [hget] at hk
    split_ifs at hk with hkey
    · refine ⟨key.seasonNumber, { window := window }, ?_, rfl, by rw [hkey]⟩
      rw [hget, if_pos (by rw [hkey])]
    · obtain ⟨n, newest, hnewest, hstatus, hle⟩ := h.newest k row hk
      refine ⟨n, newest, ?_, hstatus, hle⟩
      rw [hget, if_neg, hnewest]
      intro heq
      rw [← heq, hnewest] at hnone
      cases hnone

end OneActive

section Chain
variable {s : LeaderboardDb} {c : SeasonClose} {key : SeasonKey} {window : SeasonWindow}
  {leaderboardId : String}

theorem spans_settled (hfree : s.seasons.get? c.successor = none) :
    (applyAll s (c.pending .commit)).spans leaderboardId =
      if leaderboardId = c.key.leaderboardId then
        Function.update (s.spans leaderboardId) (c.key.seasonNumber + 1) (some c.next)
      else s.spans leaderboardId := by
  funext n
  rw [LeaderboardDb.spans, get?_settled hfree]
  have hclosed : ∀ row : Option Season, (row.map (Season.close c.now)).map Season.window =
      row.map Season.window := by
    intro row
    cases row <;> rfl
  by_cases hmine : leaderboardId = c.key.leaderboardId
  · rw [if_pos hmine]
    by_cases hn : n = c.key.seasonNumber + 1
    · rw [hn, Function.update_self, if_pos (by rw [hmine]; rfl)]
      rfl
    · rw [Function.update_of_ne hn, if_neg fun hs => hn (congrArg SeasonKey.seasonNumber hs)]
      split_ifs
      · exact hclosed _
      · rfl
  · rw [if_neg hmine, if_neg fun hs => hmine (congrArg SeasonKey.leaderboardId hs),
      if_neg fun hc => hmine (congrArg SeasonKey.leaderboardId hc)]
    rfl

theorem spans_opened (hfree : s.seasons.get? key = none) :
    (s.write (.insertSeason key window)).spans leaderboardId =
      if leaderboardId = key.leaderboardId then
        Function.update (s.spans leaderboardId) key.seasonNumber (some window)
      else s.spans leaderboardId := by
  funext n
  rw [LeaderboardDb.spans, get?_insertSeason hfree]
  by_cases hmine : leaderboardId = key.leaderboardId
  · rw [if_pos hmine]
    by_cases hn : n = key.seasonNumber
    · rw [hn, Function.update_self, if_pos (by rw [hmine])]
      rfl
    · rw [Function.update_of_ne hn, if_neg fun hs => hn (congrArg SeasonKey.seasonNumber hs)]
      rfl
  · rw [if_neg hmine, if_neg fun hs => hmine (congrArg SeasonKey.leaderboardId hs)]
    rfl

theorem gapless_settled_iff (h : OneActive s) (hrow : s.seasons.get? c.key = some c.season.2)
    (hactive : c.season.2.status = .active) : Gapless (applyAll s (c.pending .commit)) ↔
      Gapless s ∧ c.next.startsAt = c.season.2.window.endsAt := by
  have hspans : ∀ leaderboardId, (applyAll s (c.pending .commit)).spans leaderboardId = _ :=
    fun leaderboardId => spans_settled (h.successor_free hrow hactive)
  have hlast : s.spans c.key.leaderboardId c.key.seasonNumber = some c.season.2.window :=
    congrArg (Option.map Season.window) hrow
  have hpast : ∀ k, c.key.seasonNumber < k → s.spans c.key.leaderboardId k = none := by
    intro k hk
    rw [LeaderboardDb.spans]
    cases hget : s.seasons.get? ⟨c.key.leaderboardId, k⟩ with
    | none => rfl
    | some row =>
      have hle := h.le_active hrow hactive hget rfl
      exact absurd hk (not_lt.2 hle)
  have hmine := chained_update_next (b := c.next) hlast hpast
  constructor
  · intro hall
    have hchain := hall c.key.leaderboardId
    rw [hspans, if_pos rfl, hmine] at hchain
    refine ⟨fun leaderboardId => ?_, hchain.2⟩
    by_cases heq : leaderboardId = c.key.leaderboardId
    · rw [heq]
      exact hchain.1
    · have hother := hall leaderboardId
      rwa [hspans, if_neg heq] at hother
  · rintro ⟨hall, hstarts⟩ leaderboardId
    rw [hspans]
    split_ifs with heq
    · rw [heq]
      exact hmine.2 ⟨hall _, hstarts⟩
    · exact hall leaderboardId

theorem gapless_opened_iff (h : OneActive s) (hfree : seasonConflicts key s = false) :
    Gapless (s.write (.insertSeason key window)) ↔ Gapless s := by
  obtain ⟨hnone, hinactive⟩ := not_conflicts hfree
  have hempty : ∀ n, s.spans key.leaderboardId n = none := by
    intro n
    have hget : s.seasons.get? ⟨key.leaderboardId, n⟩ = none :=
      h.none_of_not_active hinactive rfl
    rw [LeaderboardDb.spans, hget]
    rfl
  refine forall_congr' fun leaderboardId => ?_
  rw [spans_opened hnone]
  split_ifs with heq
  · rw [heq]
    refine iff_of_true (chained_update_first hempty _ _) fun m n a b _ hm _ _ => ?_
    rw [hempty] at hm
    cases hm
  · exact Iff.rfl

end Chain

section Sound
variable {s : SchedulerState} {c : SeasonClose} {key : SeasonKey} {window : SeasonWindow}

theorem SoundSeasons.settled (h : SoundSeasons s) (hrow : s.db.seasons.get? c.key = some c.season.2)
    (hactive : c.season.2.status = .active) : SoundSeasons (s.commit (c.pending .commit)) := by
  have hfree := h.oneActive.successor_free hrow hactive
  have hother : ∀ key, key ≠ c.key →
      settlements key (s.log ++ [c.pending .commit]) = settlements key s.log ∧
        (applyAll s.db (c.pending .commit)).standingsOf key = s.db.standingsOf key := by
    intro key hne
    rw [settlements_append, settles_pending, standingsOf_pending, if_neg hne, if_neg hne]
    simp
  constructor
  · exact h.oneActive.settled hrow hactive
  · intro key row hkey hclosed
    rw [SchedulerState.commit, get?_settled hfree] at hkey
    by_cases hc : key = c.key
    · subst hc
      obtain ⟨hlog, hstandings⟩ := h.unsettled c.key fun row hget => by
        rw [hrow, Option.some.injEq] at hget
        rw [← hget]
        exact hactive
      refine ⟨c.now, c.ranked, ?_, ?_⟩
      · rw [SchedulerState.commit, settlements_append, hlog, settles_pending, if_pos rfl]
        simp
      · rw [SchedulerState.commit, standingsOf_pending, hstandings, if_pos rfl, List.nil_append]
    · have hs : key ≠ c.successor := by
        intro heq
        rw [if_pos heq, Option.some.injEq] at hkey
        rw [← hkey] at hclosed
        cases hclosed
      rw [if_neg hs, if_neg hc] at hkey
      obtain ⟨closedAt, rows, hlog, hstandings⟩ := h.closed key row hkey hclosed
      obtain ⟨hsame, hsame'⟩ := hother key hc
      exact ⟨closedAt, rows, hsame.trans hlog, hsame'.trans hstandings⟩
  · intro key hopen
    have hc : key ≠ c.key := by
      intro heq
      have hsucc : c.key ≠ c.successor := by
        intro hs
        have hnumber := congrArg SeasonKey.seasonNumber hs
        exact absurd hnumber.symm (Nat.succ_ne_self _)
      have hstill := hopen (c.season.2.close c.now) (by
        rw [SchedulerState.commit, get?_settled hfree, heq, if_neg hsucc, if_pos rfl, hrow]
        rfl)
      cases hstill
    obtain ⟨hsame, hsame'⟩ := hother key hc
    obtain ⟨hlog, hstandings⟩ := h.unsettled key fun row hget => by
      refine hopen row ?_
      rw [SchedulerState.commit, get?_settled hfree, if_neg, if_neg hc, hget]
      intro hs
      rw [hs, hfree] at hget
      cases hget
    exact ⟨hsame.trans hlog, hsame'.trans hstandings⟩

theorem SoundSeasons.unsettling (h : SoundSeasons s) {ws : List SeasonWrite}
    (hone : OneActive (applyAll s.db ws)) (hsettles : ∀ w ∈ ws, w.settles = none)
    (hstandings : (applyAll s.db ws).standings = s.db.standings)
    (hclosed : ∀ key row, (applyAll s.db ws).seasons.get? key = some row →
      row.status = .closed → s.db.seasons.get? key = some row)
    (hkept : ∀ key row, s.db.seasons.get? key = some row →
      (applyAll s.db ws).seasons.get? key = some row) : SoundSeasons (s.commit ws) := by
  have hlog : ∀ key, settlements key (s.log ++ [ws]) = settlements key s.log := by
    intro key
    have hnone : ws.filter (fun w => w.settles = some key) = [] := by
      rw [List.filter_eq_nil_iff]
      intro w hw
      simp [hsettles w hw]
    rw [settlements_append, hnone]
    simp
  have hrows : ∀ key, (applyAll s.db ws).standingsOf key = s.db.standingsOf key := by
    intro key
    rw [LeaderboardDb.standingsOf, hstandings]
    rfl
  constructor
  · exact hone
  · intro key row hkey hstatus
    obtain ⟨closedAt, rows, hsettled, hranked⟩ := h.closed key row (hclosed key row hkey hstatus) hstatus
    exact ⟨closedAt, rows, (hlog key).trans hsettled, (hrows key).trans hranked⟩
  · intro key hopen
    obtain ⟨hsettled, hnone⟩ := h.unsettled key fun row hget => hopen row (hkept key row hget)
    exact ⟨(hlog key).trans hsettled, (hrows key).trans hnone⟩

theorem SoundSeasons.opened (h : SoundSeasons s) :
    SoundSeasons (s.commit (openSeason key window s.db)) := by
  rw [openSeason]
  split_ifs with hconflicts
  · refine h.unsettling h.oneActive ?_ rfl (fun _ _ hkey _ => hkey) fun _ _ hkey => hkey
    intro w hw
    cases hw
  · have hfree := Bool.eq_false_of_not_eq_true hconflicts
    obtain ⟨hnone, -⟩ := not_conflicts hfree
    have hget : ∀ key', (applyAll s.db [.insertSeason key window]).seasons.get? key' = _ :=
      fun key' => get?_insertSeason hnone
    refine h.unsettling (h.oneActive.opened hfree) ?_ rfl ?_ ?_
    · intro w hw
      rw [List.mem_singleton.1 hw]
      rfl
    · intro key' row hkey' hclosed
      rw [hget] at hkey'
      split_ifs at hkey'
      · rw [← Option.some.inj hkey'] at hclosed
        cases hclosed
      · exact hkey'
    · intro key' row hkey'
      rw [hget, if_neg, hkey']
      intro heq
      rw [heq, hnone] at hkey'
      cases hkey'

end Sound

end Rovenue.Leaderboards
