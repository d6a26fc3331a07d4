import Rovenue.Leaderboards.SeasonChain

/-! Seasons as one chain. The indexes and the claim keep one ACTIVE season, the newest, through
every race; where the next one starts is up to the time zone the closing sweep has read. -/

namespace Rovenue.Leaderboards
open Txn (Table Database applyAll)
open Threads

variable {ι : Type}

abbrev SeasonWorld (ι : Type) := World ι SchedulerState Sweep

/-- The commit of a close is made by a sweep whose time zone has no window around the end of the
season it closes. -/
def ClosesAtBoundary (calendar : SeasonCalendar) (w : SeasonWorld ι) :
    Event ι SweepEvent (String × UpdateLeaderboardInput) → Prop
  | .act i (.run _ _) =>
    match w.task i with
    | .inTransaction c .commit _ =>
      ¬calendar.Straddles c.leaderboard.settings c.season.2.window.endsAt
    | _ => True
  | _ => True

def ReadSeason (s : LeaderboardDb) (season : SeasonRow) : Prop :=
  season.2.status = .active ∧ ∃ row, s.seasons.get? season.1 = some row ∧
    row.window = season.2.window ∧ (row.status = .active → row = season.2)

structure Ready (calendar : SeasonCalendar) (s : LeaderboardDb) (c : SeasonClose) : Prop where
  season : ReadSeason s c.season
  rest : ∀ season ∈ c.rest, ReadSeason s season
  next : calendar.nextSeasonWindow c.season.2.window c.leaderboard.settings = .ok c.next

def Sweep.holds : Sweep → Option String
  | .inTransaction c _ _ => some c.key.leaderboardId
  | _ => none

structure Claimed (s : SchedulerState) (c : SeasonClose) : Prop where
  held : s.held c.key.leaderboardId = true
  row : s.db.seasons.get? c.key = some c.season.2

def Sweep.Grounded (calendar : SeasonCalendar) (s : SchedulerState) : Sweep → Prop
  | .closing _ due => ∀ season ∈ due, ReadSeason s.db season
  | .querying _ season _ rest => ReadSeason s.db season ∧ ∀ season ∈ rest, ReadSeason s.db season
  | .claiming c => Ready calendar s.db c
  | .inTransaction c upcoming pending =>
    Ready calendar s.db c ∧ Claimed s c ∧ pending = c.pending upcoming
  | _ => True

def seasonsHeld (calendar : SeasonCalendar) : Annotation SchedulerState Sweep where
  inv := SoundSeasons
  assert s t := t.Grounded calendar s
  apart t u := ∀ leaderboardId, t.holds = some leaderboardId → u.holds ≠ some leaderboardId

structure Spares (leaderboardId : String) (s s' : SchedulerState) : Prop where
  read : ∀ season, ReadSeason s.db season → ReadSeason s'.db season
  held : ∀ other, other ≠ leaderboardId → s'.held other = s.held other
  seasons : ∀ key row, key.leaderboardId ≠ leaderboardId → s.db.seasons.get? key = some row →
    s'.db.seasons.get? key = some row

section Steps
variable {calendar : SeasonCalendar} {s s' : SchedulerState} {c : SeasonClose} {t : Sweep}
  {leaderboardId : String} {w : SeasonWorld ι} {i : ι}

theorem Ready.mono (hread : ∀ season, ReadSeason s.db season → ReadSeason s'.db season)
    (h : Ready calendar s.db c) : Ready calendar s'.db c :=
  ⟨hread _ h.season, fun season hmem => hread _ (h.rest season hmem), h.next⟩

theorem Spares.grounded (h : Spares leaderboardId s s') (hnot : t.holds ≠ some leaderboardId)
    (hground : t.Grounded calendar s) : t.Grounded calendar s' := by
  cases t with
  | idle => trivial
  | opening now candidates => trivial
  | inserting now key window rest => trivial
  | looking now => trivial
  | closing now due => exact fun season hmem => h.read _ (hground season hmem)
  | querying now season leaderboard rest =>
    exact ⟨h.read _ hground.1, fun season hmem => h.read _ (hground.2 season hmem)⟩
  | claiming c => exact Ready.mono h.read hground
  | inTransaction c upcoming pending =>
    obtain ⟨hready, hclaimed, hpending⟩ := hground
    have hother : c.key.leaderboardId ≠ leaderboardId := fun heq => hnot (congrArg some heq)
    refine ⟨hready.mono h.read, ⟨?_, h.seasons _ _ hother hclaimed.row⟩, hpending⟩
    rw [h.held _ hother]
    exact hclaimed.held

theorem holds_stay [DecidableEq ι] (h : (seasonsHeld calendar).Holds w)
    (hself : t.Grounded calendar w.shared) (hholds : t.holds = none) :
    (seasonsHeld calendar).Holds ⟨w.shared, Function.update w.task i t⟩ := by
  refine h.update h.inv hself (fun j _ => h.assert j) fun j _ => ⟨?_, ?_⟩
  · intro leaderboardId hmine
    rw [hholds] at hmine
    cases hmine
  · intro leaderboardId _ hmine
    rw [hholds] at hmine
    cases hmine

theorem holds_step [DecidableEq ι] (h : (seasonsHeld calendar).Holds w) (hinv : SoundSeasons s')
    (hself : t.Grounded calendar s') (hspares : Spares leaderboardId w.shared s')
    (hothers : ∀ j ≠ i, (w.task j).holds ≠ some leaderboardId)
    (hholds : t.holds = none ∨ t.holds = some leaderboardId) :
    (seasonsHeld calendar).Holds ⟨s', Function.update w.task i t⟩ := by
  refine h.update hinv hself (fun j hj => hspares.grounded (hothers j hj) (h.assert j)) ?_
  intro j hj
  constructor
  · intro other hmine htheirs
    obtain hnone | hsome := hholds
    · rw [hnone] at hmine
      cases hmine
    · rw [hsome] at hmine
      exact hothers j hj (htheirs.trans hmine.symm)
  · intro other htheirs hmine
    obtain hnone | hsome := hholds
    · rw [hnone] at hmine
      cases hmine
    · rw [hsome] at hmine
      exact hothers j hj (htheirs.trans hmine.symm)

theorem spares_lock : Spares leaderboardId s (s.lock leaderboardId) where
  read _ hread := hread
  held _ hother := Function.update_of_ne hother _ _
  seasons _ _ _ hrow := hrow

theorem spares_unlock : Spares leaderboardId s (s.unlock leaderboardId) where
  read _ hread := hread
  held _ hother := Function.update_of_ne hother _ _
  seasons _ _ _ hrow := hrow

theorem Spares.trans {s'' : SchedulerState} (h : Spares leaderboardId s s')
    (h' : Spares leaderboardId s' s'') : Spares leaderboardId s s'' where
  read season hread := h'.read season (h.read season hread)
  held other hother := (h'.held other hother).trans (h.held other hother)
  seasons key row hkey hrow := h'.seasons key row hkey (h.seasons key row hkey hrow)

theorem spares_settled (h : SoundSeasons s) (hrow : s.db.seasons.get? c.key = some c.season.2)
    (hactive : c.season.2.status = .active) :
    Spares c.key.leaderboardId s (s.commit (c.pending .commit)) := by
  have hfree := h.oneActive.successor_free hrow hactive
  have hget : ∀ key row, s.db.seasons.get? key = some row →
      (s.commit (c.pending .commit)).db.seasons.get? key =
        if key = c.key then some (row.close c.now) else some row := by
    intro key row hkey
    rw [SchedulerState.commit, get?_settled hfree, if_neg, hkey]
    · rfl
    · intro hs
      rw [hs, hfree] at hkey
      cases hkey
  constructor
  · rintro season ⟨hread, row, hkey, hwindow, hsame⟩
    by_cases hc : season.1 = c.key
    · refine ⟨hread, row.close c.now, ?_, hwindow, fun hstill => by cases hstill⟩
      rw [hget _ _ hkey, if_pos hc]
    · refine ⟨hread, row, ?_, hwindow, hsame⟩
      rw [hget _ _ hkey, if_neg hc]
  · exact fun _ _ => rfl
  · intro key row hother hkey
    rw [hget _ _ hkey, if_neg]
    intro hc
    exact hother (congrArg SeasonKey.leaderboardId hc)

theorem spares_opened {key : SeasonKey} {window : SeasonWindow} :
    Spares key.leaderboardId s (s.commit (openSeason key window s.db)) := by
  have hget : ∀ key' row, s.db.seasons.get? key' = some row →
      (s.commit (openSeason key window s.db)).db.seasons.get? key' = some row := by
    intro key' row hkey'
    rw [SchedulerState.commit, openSeason]
    split_ifs with hconflicts
    · exact hkey'
    · obtain ⟨hnone, -⟩ := not_conflicts (Bool.eq_false_of_not_eq_true hconflicts)
      have hne : key' ≠ key := by
        intro heq
        rw [heq, hnone] at hkey'
        cases hkey'
      have hinserted : (s.db.write (.insertSeason key window)).seasons.get? key' = some row := by
        rw [get?_insertSeason hnone, if_neg hne, hkey']
      exact hinserted
  constructor
  · rintro season ⟨hread, row, hkey, hrest⟩
    exact ⟨hread, row, hget _ _ hkey, hrest⟩
  · exact fun _ _ => rfl
  · exact fun key' row _ hkey' => hget key' row hkey'

theorem spares_refl (leaderboardId : String) (s : SchedulerState) : Spares leaderboardId s s where
  read _ hread := hread
  held _ _ := rfl
  seasons _ _ _ hrow := hrow

theorem SoundSeasons.unlock (h : SoundSeasons s) (leaderboardId : String) :
    SoundSeasons (s.unlock leaderboardId) := ⟨h.oneActive, h.closed, h.unsettled⟩

theorem SoundSeasons.lock (h : SoundSeasons s) (leaderboardId : String) :
    SoundSeasons (s.lock leaderboardId) := ⟨h.oneActive, h.closed, h.unsettled⟩

theorem not_holds_of_free (h : (seasonsHeld calendar).Holds w)
    (hfree : w.shared.held leaderboardId ≠ true) (j : ι) :
    (w.task j).holds ≠ some leaderboardId := by
  intro hholds
  have hground := h.assert j
  cases ht : w.task j with
  | inTransaction c upcoming pending =>
    rw [ht] at hground hholds
    obtain ⟨-, hclaimed, -⟩ := hground
    rw [← Option.some.inj hholds] at hfree
    exact hfree hclaimed.held
  | _ =>
    rw [ht] at hholds
    cases hholds

variable [DecidableEq ι]

theorem claim_holds (h : (seasonsHeld calendar).Holds w) (hready : Ready calendar w.shared.db c) :
    (seasonsHeld calendar).Holds ⟨(Sweep.claim w.shared c).1,
      Function.update w.task i (Sweep.claim w.shared c).2⟩ := by
  rw [Sweep.claim]
  split_ifs with hactive hheld
  · exact holds_stay h hready rfl
  · have hspares : Spares c.key.leaderboardId w.shared (w.shared.lock c.key.leaderboardId) :=
      spares_lock
    refine holds_step h (h.inv.lock _) ?_ hspares (fun j _ => not_holds_of_free h hheld j)
      (.inr rfl)
    obtain ⟨-, row, hrow, -, hsame⟩ := hready.season
    have hrow' : w.shared.db.seasons.get? c.key = some row := hrow
    rw [hrow', Option.any_some, decide_eq_true_eq] at hactive
    rw [hsame hactive] at hrow'
    exact ⟨hready, ⟨Function.update_self .., hrow'⟩, rfl⟩
  · exact holds_stay h hready.rest rfl

theorem proceed_holds {upcoming : CloseStatement} {pending : List SeasonWrite}
    (h : (seasonsHeld calendar).Holds w) (ht : w.task i = .inTransaction c upcoming pending) :
    (seasonsHeld calendar).Holds ⟨(Sweep.proceed w.shared c upcoming pending).1,
      Function.update w.task i (Sweep.proceed w.shared c upcoming pending).2⟩ := by
  have hground := h.assert i
  rw [ht] at hground
  obtain ⟨hready, hclaimed, rfl⟩ := hground
  have hactive := hready.season.1
  have hothers : ∀ j ≠ i, (w.task j).holds ≠ some c.key.leaderboardId := by
    intro j hj
    refine h.apart i j hj.symm _ ?_
    rw [ht]
    rfl
  have hwrites : ∀ next ws, c.pending next = c.pending upcoming ++ ws →
      (seasonsHeld calendar).Holds ⟨w.shared,
        Function.update w.task i (.inTransaction c next (c.pending upcoming ++ ws))⟩ := by
    intro next ws hnext
    exact holds_step h h.inv ⟨hready, hclaimed, hnext.symm⟩ (spares_refl _ _) hothers (.inr rfl)
  cases upcoming with
  | standings => exact hwrites .audit _ rfl
  | audit => exact hwrites .successor _ rfl
  | successor =>
    refine hwrites .commit _ ?_
    rw [h.inv.oneActive.successor_opens hclaimed.row hactive]
    simp [SeasonClose.pending]
  | commit =>
    have hspares := (spares_settled h.inv hclaimed.row hactive).trans spares_unlock
    exact holds_step h ((h.inv.settled hclaimed.row hactive).unlock _)
      (fun season hmem => hspares.read season (hready.rest season hmem)) hspares hothers (.inl rfl)

theorem run_holds (h : (seasonsHeld calendar).Holds w) (now : ℤ)
    (queryStandings : StandingsQuery → Option (List StandingRow)) :
    (seasonsHeld calendar).Holds
      ⟨(Sweep.run calendar w.shared now queryStandings (w.task i)).1,
        Function.update w.task i (Sweep.run calendar w.shared now queryStandings (w.task i)).2⟩ := by
  have hground := h.assert i
  cases ht : w.task i with
  | idle => exact holds_stay h trivial rfl
  | opening startedAt candidates =>
    cases candidates with
    | nil => exact holds_stay h trivial rfl
    | cons candidate rest =>
      rw [Sweep.run, Sweep.openNext]
      split <;> exact holds_stay h trivial rfl
  | inserting startedAt key window rest =>
    rw [Sweep.run, Sweep.insertFirst]
    split_ifs with hheld
    · exact holds_stay h trivial rfl
    · exact holds_step h h.inv.opened trivial spares_opened
        (fun j _ => not_holds_of_free h hheld j) (.inl rfl)
  | looking startedAt =>
    refine holds_stay h (fun season hmem => ?_) rfl
    obtain ⟨hentry, hdue⟩ := List.mem_filter.1 hmem
    rw [Bool.and_eq_true, decide_eq_true_eq] at hdue
    exact ⟨hdue.1, season.2, w.shared.db.seasons.mem_entries.1 hentry, rfl, fun _ => rfl⟩
  | closing startedAt due =>
    rw [ht] at hground
    cases due with
    | nil => exact holds_stay h trivial rfl
    | cons season rest =>
      obtain ⟨hseason, hrest⟩ := List.forall_mem_cons.1 hground
      rw [Sweep.run]
      split
      · exact holds_stay h hrest rfl
      · exact holds_stay h ⟨hseason, hrest⟩ rfl
  | querying startedAt season leaderboard rest =>
    rw [ht] at hground
    obtain ⟨hseason, hrest⟩ := hground
    rw [Sweep.run, Sweep.query]
    split
    · exact holds_stay h hrest rfl
    · split
      · exact holds_stay h hrest rfl
      · exact holds_stay h ⟨hseason, hrest, ‹_›⟩ rfl
  | claiming c =>
    rw [ht] at hground
    exact claim_holds h hground
  | inTransaction c upcoming pending => exact proceed_holds h ht

theorem rollback_holds {upcoming : CloseStatement} {pending : List SeasonWrite} {t : Sweep}
    (h : (seasonsHeld calendar).Holds w) (ht : w.task i = .inTransaction c upcoming pending)
    (hself : t.Grounded calendar (w.shared.unlock c.key.leaderboardId)) (hholds : t.holds = none) :
    (seasonsHeld calendar).Holds
      ⟨w.shared.unlock c.key.leaderboardId, Function.update w.task i t⟩ := by
  refine holds_step h (h.inv.unlock _) hself spares_unlock (fun j hj => ?_) (.inl hholds)
  refine h.apart i j hj.symm _ ?_
  rw [ht]
  rfl

theorem fault_holds (h : (seasonsHeld calendar).Holds w) : (seasonsHeld calendar).Holds
    ⟨(Sweep.fault w.shared (w.task i)).1,
      Function.update w.task i (Sweep.fault w.shared (w.task i)).2⟩ := by
  have hground := h.assert i
  cases ht : w.task i with
  | closing startedAt due =>
    rw [ht] at hground
    exact holds_stay h (fun season hmem => hground season (List.mem_of_mem_tail hmem)) rfl
  | querying startedAt season leaderboard rest =>
    rw [ht] at hground
    exact holds_stay h hground.2 rfl
  | claiming c =>
    rw [ht] at hground
    exact holds_stay h hground.rest rfl
  | inTransaction c upcoming pending =>
    rw [ht] at hground
    exact rollback_holds h ht hground.1.rest rfl
  | _ => exact holds_stay h trivial rfl

theorem crash_holds (h : (seasonsHeld calendar).Holds w) : (seasonsHeld calendar).Holds
    ⟨Sweep.crash w.shared (w.task i), Function.update w.task i .idle⟩ := by
  cases ht : w.task i with
  | inTransaction c upcoming pending => exact rollback_holds h ht trivial rfl
  | _ => exact holds_stay h trivial rfl

omit [DecidableEq ι] in
theorem edit_holds (h : (seasonsHeld calendar).Holds w) (id : String)
    (patch : UpdateLeaderboardInput) : (seasonsHeld calendar).Holds
      ⟨{ w.shared with db := updateLeaderboard id patch w.shared.db }, w.task⟩ where
  inv := ⟨⟨h.inv.oneActive.unique, h.inv.oneActive.newest⟩, h.inv.closed, h.inv.unsettled⟩
  assert i := by
    have hground := h.assert i
    cases ht : w.task i with
    | inTransaction c upcoming pending =>
      rw [ht] at hground
      obtain ⟨⟨hseason, hrest, hnext⟩, ⟨hheld, hrow⟩, hpending⟩ := hground
      exact ⟨⟨hseason, hrest, hnext⟩, ⟨hheld, hrow⟩, hpending⟩
    | claiming c =>
      rw [ht] at hground
      exact ⟨hground.season, hground.rest, hground.next⟩
    | _ =>
      rw [ht] at hground
      exact hground
  apart := h.apart

theorem holds_next (h : (seasonsHeld calendar).Holds w)
    (e : Event ι SweepEvent (String × UpdateLeaderboardInput)) :
    (seasonsHeld calendar).Holds ((seasonScheduler calendar).next w e) := by
  cases e with
  | act i e =>
    cases e with
    | run now queryStandings => exact run_holds h now queryStandings
    | fault => exact fault_holds h
    | crash => exact crash_holds h
  | env edit => exact edit_holds h edit.1 edit.2

theorem run_db (now : ℤ) (queryStandings : StandingsQuery → Option (List StandingRow)) (t : Sweep)
    (hinsert : ∀ startedAt key window rest, t ≠ .inserting startedAt key window rest)
    (hcommit : ∀ c pending, t ≠ .inTransaction c .commit pending) :
    (Sweep.run calendar s now queryStandings t).1.db = s.db := by
  cases t with
  | inserting startedAt key window rest => exact absurd rfl (hinsert startedAt key window rest)
  | opening startedAt candidates => cases candidates <;> rfl
  | closing startedAt due =>
    cases due with
    | nil => rfl
    | cons season rest =>
      rw [Sweep.run]
      split <;> rfl
  | claiming c =>
    rw [Sweep.run, Sweep.claim]
    split_ifs <;> rfl
  | inTransaction c upcoming pending =>
    cases upcoming with
    | commit => exact absurd rfl (hcommit c pending)
    | _ => rfl
  | _ => rfl

omit [DecidableEq ι] in
theorem gapless_run_iff (h : (seasonsHeld calendar).Holds w) (hchain : Gapless w.shared.db)
    (now : ℤ) (queryStandings : StandingsQuery → Option (List StandingRow)) :
    Gapless (Sweep.run calendar w.shared now queryStandings (w.task i)).1.db ↔
      ClosesAtBoundary calendar w (.act i (.run now queryStandings)) := by
  by_cases hinsert : ∃ startedAt key window rest, w.task i = .inserting startedAt key window rest
  · obtain ⟨startedAt, key, window, rest, ht⟩ := hinsert
    simp only [ClosesAtBoundary, ht, iff_true]
    rw [Sweep.run, Sweep.insertFirst]
    split_ifs
    · exact hchain
    · show Gapless (applyAll w.shared.db (openSeason key window w.shared.db))
      rw [openSeason]
      split_ifs with hconflicts
      · exact hchain
      · have hfree := Bool.eq_false_of_not_eq_true hconflicts
        exact (gapless_opened_iff h.inv.oneActive hfree).2 hchain
  by_cases hcommit : ∃ c pending, w.task i = .inTransaction c .commit pending
  · obtain ⟨c, pending, ht⟩ := hcommit
    have hground := h.assert i
    rw [ht] at hground
    obtain ⟨hready, hclaimed, rfl⟩ := hground
    simp only [ClosesAtBoundary, ht]
    have hsettled := gapless_settled_iff h.inv.oneActive hclaimed.row hready.season.1
    rw [← SeasonCalendar.startsAt_eq_iff hready.next]
    exact hsettled.trans (and_iff_right hchain)
  · simp only [not_exists] at hinsert hcommit
    rw [run_db now queryStandings _ hinsert hcommit]
    refine iff_of_true hchain ?_
    rw [ClosesAtBoundary]
    split
    · exact absurd ‹_› (hcommit _ _)
    · trivial

theorem gapless_next_iff (h : (seasonsHeld calendar).Holds w) (hchain : Gapless w.shared.db)
    (e : Event ι SweepEvent (String × UpdateLeaderboardInput)) :
    Gapless ((seasonScheduler calendar).next w e).shared.db ↔ ClosesAtBoundary calendar w e := by
  cases e with
  | act i e =>
    cases e with
    | run now queryStandings => exact gapless_run_iff h hchain now queryStandings
    | fault =>
      refine iff_of_true ?_ trivial
      show Gapless (Sweep.fault w.shared (w.task i)).1.db
      cases w.task i <;> exact hchain
    | crash =>
      refine iff_of_true ?_ trivial
      show Gapless (Sweep.crash w.shared (w.task i)).db
      cases w.task i <;> exact hchain
  | env edit => exact iff_of_true hchain trivial

omit [DecidableEq ι] in
theorem seasonNumbers_nodup (s : LeaderboardDb) (leaderboardId : String) :
    ((s.seasons.entries.filter fun e => e.1.leaderboardId = leaderboardId).map fun e =>
      e.1.seasonNumber).Nodup := by
  have hkeys : ((s.seasons.entries.filter fun e => e.1.leaderboardId = leaderboardId).map
      Prod.fst).Nodup := (List.filter_sublist.map Prod.fst).nodup s.seasons.nodup
  have hnumbers := List.Nodup.map_on (f := SeasonKey.seasonNumber) (fun key hkey key' hkey' hn => ?_)
    hkeys
  · rwa [List.map_map] at hnumbers
  · obtain ⟨e, he, rfl⟩ := List.mem_map.1 hkey
    obtain ⟨e', he', rfl⟩ := List.mem_map.1 hkey'
    have hsame := of_decide_eq_true (List.mem_filter.1 he).2
    have hsame' := of_decide_eq_true (List.mem_filter.1 he').2
    cases hk : e.1
    cases hk' : e'.1
    simp_all

omit [DecidableEq ι] in
theorem SoundSeasons.oneChain_iff (h : SoundSeasons s) : OneChain s ↔ Gapless s.db :=
  ⟨OneChain.gapless, fun hchain =>
    ⟨h.oneActive.unique, seasonNumbers_nodup s.db, h.closed, hchain⟩⟩

/-- No season yet, and no sweep under way. -/
structure Starts (w : SeasonWorld ι) : Prop where
  seasons : w.shared.db.seasons = .empty
  standings : w.shared.db.standings = []
  log : w.shared.log = []
  idle : ∀ i, w.task i = .idle

omit [DecidableEq ι] in
theorem Starts.holds (h : Starts w) : (seasonsHeld calendar).Holds w := by
  have hnone : ∀ key, w.shared.db.seasons.get? key = none := fun key => by
    rw [h.seasons]
    rfl
  constructor
  · constructor
    · constructor
      · intro key key' row row' hrow
        rw [hnone] at hrow
        cases hrow
      · intro key row hrow
        rw [hnone] at hrow
        cases hrow
    · intro key row hrow
      rw [hnone] at hrow
      cases hrow
    · intro key _
      rw [h.log, LeaderboardDb.standingsOf, h.standings]
      exact ⟨rfl, rfl⟩
  · intro i
    rw [h.idle i]
    trivial
  · intro i j _ leaderboardId hholds
    rw [h.idle i] at hholds
    cases hholds

omit [DecidableEq ι] in
theorem Starts.gapless (h : Starts w) : Gapless w.shared.db := by
  intro leaderboardId m n a b _ hm
  rw [LeaderboardDb.spans, h.seasons] at hm
  cases hm

/-- In every state a run passes through the seasons are one chain, exactly when every close is
committed by a sweep that has read a time zone with no window around the closed season's end. -/
theorem one_chain_iff_closesAtBoundary (hstart : Starts w)
    (evs : List (Event ι SweepEvent (String × UpdateLeaderboardInput))) :
    (∀ v ∈ System.visited (seasonScheduler calendar) w evs, OneChain v.shared) ↔
      ∀ x ∈ System.transitions (seasonScheduler calendar) w evs,
        ClosesAtBoundary calendar x.1 x.2 := by
  have hholds : (seasonsHeld calendar).Holds w := hstart.holds
  have hchain := hholds.inv.oneChain_iff.2 hstart.gapless
  have hkeeps : ∀ v e, (seasonsHeld calendar).Holds v →
      (seasonsHeld calendar).Holds ((seasonScheduler calendar).next v e) :=
    fun v e (h : (seasonsHeld calendar).Holds (ι := ι) v) => holds_next h e
  refine System.visited_iff hkeeps (fun v e h hone => ?_) hholds hchain
  rw [(hkeeps v e h).inv.oneChain_iff]
  exact gapless_next_iff h hone.gapless e

end Steps

def utcOffsetMs (timezone : String) : ℤ := if timezone = "Europe/Istanbul" then 10800000 else 0

def mondayOf (timezone : String) (t : ℤ) : ℤ :=
  345600000 - utcOffsetMs timezone + 604800000 * ((t - 345600000 + utcOffsetMs timezone) / 604800000)

def weeklyCalendar : SeasonCalendar where
  localWindow settings t :=
    if settings.cadence = .weekly then
      .ok ⟨mondayOf settings.timezone t, mondayOf settings.timezone t + 604800000⟩
    else .error "not a weekly leaderboard"
  contains := by
    intro settings t w h
    split_ifs at h
    obtain rfl := Except.ok.inj h
    simp only [mondayOf]
    omega
  same := by
    intro settings t t' w h hstart hend
    split_ifs at h with hweekly
    obtain rfl := Except.ok.inj h
    simp only [mondayOf] at hstart hend ⊢
    have hsame : (t' - 345600000 + utcOffsetMs settings.timezone) / 604800000 =
        (t - 345600000 + utcOffsetMs settings.timezone) / 604800000 := by omega
    rw [if_pos hweekly, hsame]

def weeklySpenders : Leaderboard where
  projectId := "p1"
  settings := { cadence := .weekly, timezone := "UTC" }

def newBoard : SeasonWorld Unit where
  shared := { db := { leaderboards := ⟨[("lb", weeklySpenders)], by decide⟩ } }
  task _ := .idle

theorem newBoard_starts : Starts newBoard := ⟨rfl, rfl, rfl, fun _ => rfl⟩

def runAt (now : ℤ) : Event Unit SweepEvent (String × UpdateLeaderboardInput) :=
  .act () (.run now fun _ => some [])

def twoSweeps (edits : List (Event Unit SweepEvent (String × UpdateLeaderboardInput))) :
    List (Event Unit SweepEvent (String × UpdateLeaderboardInput)) :=
  List.replicate 6 (runAt 1791331200000) ++ edits ++ List.replicate 10 (runAt 1791763800000)

def toIstanbul : Event Unit SweepEvent (String × UpdateLeaderboardInput) :=
  .env ("lb", { timezone := some "Europe/Istanbul" })

/-- The second season starts three hours before the first one ends. -/
theorem timezone_edit_overlaps : Starts newBoard ∧
    let final := System.runAll (seasonScheduler weeklyCalendar) newBoard (twoSweeps [toIstanbul])
    final.shared.db.spans "lb" 1 = some ⟨1791158400000, 1791763200000⟩ ∧
      final.shared.db.spans "lb" 2 = some ⟨1791752400000, 1792357200000⟩ ∧
      ¬∀ v ∈ System.visited (seasonScheduler weeklyCalendar) newBoard (twoSweeps [toIstanbul]),
        OneChain v.shared := by
  refine ⟨newBoard_starts, by decide, by decide, fun hall => ?_⟩
  have hfirst : (System.runAll (seasonScheduler weeklyCalendar) newBoard
      (twoSweeps [toIstanbul])).shared.db.spans "lb" 1 = some ⟨1791158400000, 1791763200000⟩ := by
    decide
  have hsecond : (System.runAll (seasonScheduler weeklyCalendar) newBoard
      (twoSweeps [toIstanbul])).shared.db.spans "lb" 2 = some ⟨1791752400000, 1792357200000⟩ := by
    decide
  have hchain := (hall _ System.last_mem_visited).gapless "lb" 1 2 _ _ (by decide) hfirst hsecond
    fun k hk hk' => by omega
  exact absurd hchain (by decide)

theorem one_chain_iff_closesAtBoundary_newBoard : Starts newBoard ∧
    ((∀ v ∈ System.visited (seasonScheduler weeklyCalendar) newBoard (twoSweeps []),
        OneChain v.shared) ↔
      ∀ x ∈ System.transitions (seasonScheduler weeklyCalendar) newBoard (twoSweeps []),
        ClosesAtBoundary weeklyCalendar x.1 x.2) :=
  ⟨newBoard_starts, one_chain_iff_closesAtBoundary newBoard_starts _⟩

end Rovenue.Leaderboards
