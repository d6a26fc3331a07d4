import Rovenue.Leaderboards.Cadence
import Rovenue.Txn.Program
import Rovenue.Threads.System

/-! The season scheduler. A sweep opens a season where a leaderboard has no ACTIVE one, then closes
what is due; a close and the season that follows it are one transaction. -/

namespace Rovenue.Leaderboards
open Txn (Table Database applyAll)
open Threads

inductive LeaderboardMetric where
  | topSpenders | topConsumers
  deriving DecidableEq, Repr

structure Leaderboard where
  projectId : String
  name : String := ""
  metric : LeaderboardMetric := .topSpenders
  currencyId : Option String := none
  settings : CadenceSettings
  entryLimit : Option ℕ := some 100
  isEnabled : Bool := true
  deriving DecidableEq

inductive SeasonStatus where
  | active | closed
  deriving DecidableEq, Repr

/-- `leaderboard_seasons_leaderboardId_seasonNumber_key`; a row's id names the same row. -/
structure SeasonKey where
  leaderboardId : String
  seasonNumber : ℕ
  deriving DecidableEq

structure Season where
  window : SeasonWindow
  status : SeasonStatus := .active
  closedAt : Option ℤ := none
  deriving DecidableEq

abbrev SeasonRow := SeasonKey × Season

structure StandingRow where
  subscriberId : String
  score : String
  eventCount : ℕ
  deriving DecidableEq

structure StandingInput extends StandingRow where
  rank : ℕ
  deriving DecidableEq

structure AuditEntry where
  projectId : String
  userId : String := "system"
  action : String := "leaderboard_season.closed"
  resource : String := "leaderboard_season"
  resourceId : SeasonKey
  standingsCount : ℕ
  deriving DecidableEq

structure LeaderboardDb where
  leaderboards : Table String Leaderboard := .empty
  seasons : Table SeasonKey Season := .empty
  standings : List (SeasonKey × StandingInput) := []
  auditLogs : List AuditEntry := []

inductive SeasonWrite where
  | insertSeason (key : SeasonKey) (window : SeasonWindow)
  | closeSeason (key : SeasonKey) (closedAt : ℤ)
  | insertStandings (key : SeasonKey) (rows : List StandingInput)
  | insertAudit (entry : AuditEntry)
  deriving DecidableEq

def Season.close (closedAt : ℤ) (row : Season) : Season :=
  { row with status := .closed, closedAt := some closedAt }

def LeaderboardDb.write (s : LeaderboardDb) : SeasonWrite → LeaderboardDb
  | .insertSeason key window => { s with seasons := s.seasons.insert key { window := window } }
  | .closeSeason key closedAt => { s with seasons := s.seasons.modify key (Season.close closedAt) }
  | .insertStandings key rows => { s with standings := s.standings ++ rows.map fun row => (key, row) }
  | .insertAudit entry => { s with auditLogs := s.auditLogs ++ [entry] }

instance : Database LeaderboardDb SeasonWrite := ⟨LeaderboardDb.write⟩

def findEnabledLeaderboardsWithoutActiveSeason (s : LeaderboardDb) : List (String × Leaderboard) :=
  s.leaderboards.entries.filter fun e => e.2.isEnabled &&
    !s.seasons.entries.any fun season =>
      season.1.leaderboardId = e.1 && season.2.status = .active

def findNextSeasonNumber (leaderboardId : String) (s : LeaderboardDb) : ℕ :=
  ((s.seasons.entries.filter fun e => e.1.leaderboardId = leaderboardId).map fun e =>
    e.1.seasonNumber).foldr max 0 + 1

def findDueSeasons (closeBefore : ℤ) (s : LeaderboardDb) : List SeasonRow :=
  s.seasons.entries.filter fun e => e.2.status = .active && e.2.window.endsAt ≤ closeBefore

def seasonConflicts (key : SeasonKey) (s : LeaderboardDb) : Bool :=
  (s.seasons.get? key).isSome || s.seasons.entries.any fun e =>
    e.1.leaderboardId = key.leaderboardId && e.2.status = .active

def openSeason (key : SeasonKey) (window : SeasonWindow) (s : LeaderboardDb) : List SeasonWrite :=
  if seasonConflicts key s then [] else [.insertSeason key window]

def insertStandings (key : SeasonKey) (rows : List StandingInput) : List SeasonWrite :=
  if rows = [] then [] else [.insertStandings key rows]

structure UpdateLeaderboardInput where
  name : Option String := none
  currencyId : Option (Option String) := none
  entryLimit : Option ℕ := none
  timezone : Option String := none
  isEnabled : Option Bool := none

def UpdateLeaderboardInput.apply (patch : UpdateLeaderboardInput) (row : Leaderboard) :
    Leaderboard :=
  { row with
    name := patch.name.getD row.name
    currencyId := patch.currencyId.getD row.currencyId
    entryLimit := patch.entryLimit.map some |>.getD row.entryLimit
    settings := { row.settings with timezone := patch.timezone.getD row.settings.timezone }
    isEnabled := patch.isEnabled.getD row.isEnabled }

def updateLeaderboard (id : String) (patch : UpdateLeaderboardInput) (s : LeaderboardDb) :
    LeaderboardDb := { s with leaderboards := s.leaderboards.modify id patch.apply }

def snapshotSettleMs : ℤ := 5 * 60 * 1000

def defaultEntryLimit : ℕ := 100

structure StandingsQuery where
  projectId : String
  metric : LeaderboardMetric
  currencyId : Option String
  window : SeasonWindow
  limit : ℕ

structure SeasonClose where
  now : ℤ
  season : SeasonRow
  leaderboard : Leaderboard
  standings : List StandingRow
  next : SeasonWindow
  rest : List SeasonRow

namespace SeasonClose
variable (c : SeasonClose)

def key : SeasonKey := c.season.1

def successor : SeasonKey := ⟨c.key.leaderboardId, c.key.seasonNumber + 1⟩

def ranked : List StandingInput := c.standings.mapIdx fun index row => ⟨row, index + 1⟩

def auditEntry : AuditEntry where
  projectId := c.leaderboard.projectId
  resourceId := c.key
  standingsCount := c.standings.length

end SeasonClose

inductive CloseStatement where
  | standings | audit | successor | commit
  deriving DecidableEq

inductive Sweep where
  | idle
  | opening (now : ℤ) (candidates : List (String × Leaderboard))
  | inserting (now : ℤ) (key : SeasonKey) (window : SeasonWindow)
      (rest : List (String × Leaderboard))
  | looking (now : ℤ)
  | closing (now : ℤ) (due : List SeasonRow)
  | querying (now : ℤ) (season : SeasonRow) (leaderboard : Leaderboard) (rest : List SeasonRow)
  | claiming (c : SeasonClose)
  -- the claim went through; `pending` is written but not committed
  | inTransaction (c : SeasonClose) (upcoming : CloseStatement) (pending : List SeasonWrite)

/-- `held` marks the leaderboards whose entry of the partial unique index an open transaction has
changed: a statement on that entry waits for it. `log` is the transactions in commit order. -/
structure SchedulerState where
  db : LeaderboardDb
  log : List (List SeasonWrite) := []
  held : String → Bool := fun _ => false

namespace SchedulerState
variable (s : SchedulerState)

def commit (ws : List SeasonWrite) : SchedulerState :=
  { s with db := applyAll s.db ws, log := s.log ++ [ws] }

def lock (leaderboardId : String) : SchedulerState :=
  { s with held := Function.update s.held leaderboardId true }

def unlock (leaderboardId : String) : SchedulerState :=
  { s with held := Function.update s.held leaderboardId false }

end SchedulerState

inductive SweepEvent where
  | run (now : ℤ) (queryStandings : StandingsQuery → Option (List StandingRow))
  | fault
  | crash

namespace Sweep
variable (calendar : SeasonCalendar) (s : SchedulerState)

def openNext (now : ℤ) (candidate : String × Leaderboard) (rest : List (String × Leaderboard)) :
    Sweep :=
  match calendar.seasonWindowContaining candidate.2.settings now with
  | .error _ => .opening now rest
  | .ok window =>
    .inserting now ⟨candidate.1, findNextSeasonNumber candidate.1 s.db⟩ window rest

def insertFirst (now : ℤ) (key : SeasonKey) (window : SeasonWindow)
    (rest : List (String × Leaderboard)) : SchedulerState × Sweep :=
  if s.held key.leaderboardId then (s, .inserting now key window rest)
  else (s.commit (openSeason key window s.db), .opening now rest)

def standingsQuery (season : SeasonRow) (leaderboard : Leaderboard) : StandingsQuery where
  projectId := leaderboard.projectId
  metric := leaderboard.metric
  currencyId := leaderboard.currencyId
  window := season.2.window
  limit := leaderboard.entryLimit.getD defaultEntryLimit

def query (now : ℤ) (season : SeasonRow) (leaderboard : Leaderboard) (rest : List SeasonRow)
    (queryStandings : StandingsQuery → Option (List StandingRow)) : Sweep :=
  match queryStandings (standingsQuery season leaderboard) with
  | none => .closing now rest
  | some standings =>
    match calendar.nextSeasonWindow season.2.window leaderboard.settings with
    | .error _ => .closing now rest
    | .ok next => .claiming ⟨now, season, leaderboard, standings, next, rest⟩

def claim (c : SeasonClose) : SchedulerState × Sweep :=
  -- `UPDATE … SET status = 'CLOSED' WHERE id = … AND status = 'ACTIVE'`
  if (s.db.seasons.get? c.key).any fun row => row.status = .active then
    if s.held c.key.leaderboardId then (s, .claiming c)
    else (s.lock c.key.leaderboardId, .inTransaction c .standings [.closeSeason c.key c.now])
  else (s, .closing c.now c.rest)

def proceed (c : SeasonClose) (upcoming : CloseStatement) (pending : List SeasonWrite) :
    SchedulerState × Sweep :=
  match upcoming with
  | .standings => (s, .inTransaction c .audit (pending ++ insertStandings c.key c.ranked))
  | .audit => (s, .inTransaction c .successor (pending ++ [.insertAudit c.auditEntry]))
  | .successor =>
    (s, .inTransaction c .commit (pending ++ openSeason c.successor c.next (applyAll s.db pending)))
  | .commit => ((s.commit pending).unlock c.key.leaderboardId, .closing c.now c.rest)

def run (now : ℤ) (queryStandings : StandingsQuery → Option (List StandingRow)) :
    Sweep → SchedulerState × Sweep
  | .idle => (s, .opening now (findEnabledLeaderboardsWithoutActiveSeason s.db))
  | .opening now [] => (s, .looking now)
  | .opening now (candidate :: rest) => (s, openNext calendar s now candidate rest)
  | .inserting now key window rest => insertFirst s now key window rest
  | .looking now => (s, .closing now (findDueSeasons (now - snapshotSettleMs) s.db))
  | .closing _ [] => (s, .idle)
  | .closing now (season :: rest) =>
    match s.db.leaderboards.get? season.1.leaderboardId with
    | none => (s, .closing now rest)
    | some leaderboard => (s, .querying now season leaderboard rest)
  | .querying now season leaderboard rest =>
    (s, query calendar now season leaderboard rest queryStandings)
  | .claiming c => claim s c
  | .inTransaction c upcoming pending => proceed s c upcoming pending

def fault : Sweep → SchedulerState × Sweep
  -- an error is caught for the leaderboard or season at hand, and its transaction rolled back; one
  -- in a read of the whole list fails the sweep
  | .idle => (s, .idle)
  | .opening now candidates => (s, .opening now candidates.tail)
  | .inserting now _ _ rest => (s, .opening now rest)
  | .looking _ => (s, .idle)
  | .closing now due => (s, .closing now due.tail)
  | .querying now _ _ rest => (s, .closing now rest)
  | .claiming c => (s, .closing c.now c.rest)
  | .inTransaction c _ _ => (s.unlock c.key.leaderboardId, .closing c.now c.rest)

def crash : Sweep → SchedulerState
  | .inTransaction c _ _ => s.unlock c.key.leaderboardId
  | _ => s

end Sweep

def seasonScheduler (calendar : SeasonCalendar) :
    System SchedulerState Sweep SweepEvent (String × UpdateLeaderboardInput) where
  step s t
    | .run now queryStandings => Sweep.run calendar s now queryStandings t
    | .fault => Sweep.fault s t
    | .crash => (Sweep.crash s t, .idle)
  env s edit := { s with db := updateLeaderboard edit.1 edit.2 s.db }
  reset t _ := t

end Rovenue.Leaderboards
