import Rovenue.Sql.Statements

/-! The migrations of the SDK's cache, and what opening a store runs of them. Outside a
transaction each statement commits on its own. -/

namespace Rovenue.Sdk
open Sql

inductive TableName where
  | schemaMeta | identity | entitlements | etagCache | creditBalance | appAccountTokens
  | sessionEvents | offeringsCache | attributeMutations | remoteConfigCache
  | virtualCurrencyBalance | experimentExposure | funnelInstall | funnelClaimState
  | placementsCache | paywallEvents
deriving DecidableEq

instance : Fintype TableName where
  elems := {.schemaMeta, .identity, .entitlements, .etagCache, .creditBalance, .appAccountTokens,
    .sessionEvents, .offeringsCache, .attributeMutations, .remoteConfigCache,
    .virtualCurrencyBalance, .experimentExposure, .funnelInstall, .funnelClaimState,
    .placementsCache, .paywallEvents}
  complete t := by cases t <;> decide

abbrev Cache := Database TableName
abbrev Sql := Statement TableName

def createTable (name : TableName) (columns : List Column) : Sql :=
  .createTable name false ⟨columns, []⟩

def createKeyedTable (name : TableName) (columns : List Column) (key : String) : Sql :=
  .createTable name false ⟨columns, [key]⟩

def setVersion (v : ℤ) : Sql := .update .schemaMeta "version" (.int v)

def migrationV1 : List Sql := [
  createTable .schemaMeta [⟨"version", "INTEGER PRIMARY KEY"⟩],
  createTable .identity [
    ⟨"id", "INTEGER PRIMARY KEY CHECK (id = 1)"⟩, ⟨"anon_id", "TEXT NOT NULL"⟩,
    ⟨"known_user_id", "TEXT"⟩, ⟨"created_at_ms", "INTEGER NOT NULL"⟩],
  createKeyedTable .entitlements [
    ⟨"user_scope", "TEXT NOT NULL"⟩, ⟨"entitlement_id", "TEXT NOT NULL"⟩,
    ⟨"is_active", "INTEGER NOT NULL"⟩, ⟨"product_id", "TEXT"⟩, ⟨"expires_at_ms", "INTEGER"⟩,
    ⟨"updated_at_ms", "INTEGER NOT NULL"⟩] "PRIMARY KEY (user_scope, entitlement_id)",
  createTable .etagCache [
    ⟨"resource", "TEXT PRIMARY KEY"⟩, ⟨"etag", "TEXT NOT NULL"⟩,
    ⟨"updated_at_ms", "INTEGER NOT NULL"⟩],
  .insert .schemaMeta [.int 1]]

def migrationV2 : List Sql := [
  .addColumn .entitlements ⟨"store", "TEXT NOT NULL DEFAULT ''"⟩ (.text ""),
  .addColumn .entitlements ⟨"product_identifier", "TEXT NOT NULL DEFAULT ''"⟩ (.text ""),
  .addColumn .entitlements ⟨"expires_iso", "TEXT"⟩ .null,
  createTable .creditBalance [
    ⟨"user_scope", "TEXT PRIMARY KEY"⟩, ⟨"balance", "INTEGER NOT NULL"⟩,
    ⟨"updated_at_ms", "INTEGER NOT NULL"⟩],
  setVersion 2]

def migrationV3 : List Sql := [
  createTable .appAccountTokens [
    ⟨"scope", "TEXT PRIMARY KEY"⟩, ⟨"token", "TEXT NOT NULL"⟩, ⟨"created_at", "TEXT NOT NULL"⟩],
  createTable .sessionEvents [
    ⟨"id", "INTEGER PRIMARY KEY AUTOINCREMENT"⟩, ⟨"kind", "TEXT NOT NULL"⟩,
    ⟨"occurred_at", "TEXT NOT NULL"⟩, ⟨"duration_ms", "INTEGER"⟩],
  .createIndex "idx_session_events_id" .sessionEvents,
  setVersion 3]

def migrationV4 : List Sql := [
  .dropTableIfExists .identity,
  .createTable .identity true ⟨[
    ⟨"id", "INTEGER PRIMARY KEY CHECK (id = 1)"⟩, ⟨"rovenue_id", "TEXT NOT NULL"⟩,
    ⟨"app_user_id", "TEXT"⟩, ⟨"synced", "INTEGER NOT NULL DEFAULT 1"⟩,
    ⟨"created_at_ms", "INTEGER NOT NULL"⟩], []⟩,
  setVersion 4]

def responseCache (name : TableName) : Sql :=
  createTable name [
    ⟨"resource", "TEXT PRIMARY KEY"⟩, ⟨"body", "TEXT NOT NULL"⟩,
    ⟨"updated_at_ms", "INTEGER NOT NULL"⟩]

def migrationV5 : List Sql := [responseCache .offeringsCache, setVersion 5]

def migrationV6 : List Sql := [
  createTable .attributeMutations [
    ⟨"id", "INTEGER PRIMARY KEY AUTOINCREMENT"⟩, ⟨"key", "TEXT NOT NULL"⟩, ⟨"value", "TEXT"⟩],
  .createIndex "idx_attribute_mutations_id" .attributeMutations,
  setVersion 6]

def migrationV7 : List Sql := [responseCache .remoteConfigCache, setVersion 7]

def migrationV8 : List Sql := [
  createKeyedTable .virtualCurrencyBalance [
    ⟨"user_scope", "TEXT NOT NULL"⟩, ⟨"code", "TEXT NOT NULL"⟩, ⟨"balance", "INTEGER NOT NULL"⟩,
    ⟨"updated_at_ms", "INTEGER NOT NULL"⟩] "PRIMARY KEY (user_scope, code)",
  createKeyedTable .experimentExposure [
    ⟨"user_scope", "TEXT NOT NULL"⟩, ⟨"experiment_id", "TEXT NOT NULL"⟩,
    ⟨"variant_id", "TEXT NOT NULL"⟩, ⟨"exposed_at_ms", "INTEGER NOT NULL"⟩]
    "PRIMARY KEY (user_scope, experiment_id, variant_id)",
  setVersion 8]

def migrationV9 : List Sql := [
  createTable .funnelInstall [
    ⟨"id", "INTEGER PRIMARY KEY CHECK (id = 1)"⟩, ⟨"install_id", "TEXT NOT NULL"⟩,
    ⟨"created_at_ms", "INTEGER NOT NULL"⟩],
  createTable .funnelClaimState [
    ⟨"install_id", "TEXT PRIMARY KEY"⟩, ⟨"state", "TEXT NOT NULL"⟩, ⟨"subscriber_id", "TEXT"⟩,
    ⟨"claimed_at_ms", "INTEGER"⟩, ⟨"created_at_ms", "INTEGER NOT NULL"⟩],
  setVersion 9]

def migrationV10 : List Sql := [responseCache .placementsCache, setVersion 10]

def migrationV11 : List Sql := [
  createTable .paywallEvents [
    ⟨"id", "INTEGER PRIMARY KEY AUTOINCREMENT"⟩, ⟨"envelope_json", "TEXT NOT NULL"⟩],
  .createIndex "idx_paywall_events_id" .paywallEvents,
  setVersion 11]

def migrations : List (List Sql) := [
  migrationV1, migrationV2, migrationV3, migrationV4, migrationV5, migrationV6, migrationV7,
  migrationV8, migrationV9, migrationV10, migrationV11]

def latest : ℕ := 11

def readVersion (db : Cache) : ℕ :=
  -- `SELECT version FROM schema_meta LIMIT 1` read as a `u32`; whatever goes wrong is 0
  match (db.tables .schemaMeta).bind fun r => r.rows.head?.bind (·[r.definition.place "version"]?) with
  | some (.int n) => if 0 ≤ n ∧ n < 2 ^ 32 then n.toNat else 0
  | _ => 0

def pending (current : ℕ) : List Sql :=
  ((migrations.zipIdx.filter fun m => current < m.2 + 1).map Prod.fst).flatten

/-- The statement that fails makes `open` return `Storage`. -/
def runMigrations (db : Cache) : Option Cache := db.execAll (pending (readVersion db))

end Rovenue.Sdk
