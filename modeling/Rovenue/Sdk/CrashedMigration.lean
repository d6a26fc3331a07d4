import Rovenue.Sdk.CacheSchema

/-! A crash between two statements of a migration, and the next time the store opens. -/

namespace Rovenue.Sdk
open Sql Database

def isMeta (t : TableName) : Bool := t = .schemaMeta

/-- But for its rows the store is what the first `v` migrations make of a new file; the row
of `schema_meta` is the version. -/
def OnDisk (v : ℕ) (db : Cache) : Prop :=
  Database.empty.execAll (migrations.take v).flatten = some (db.shape isMeta)

/-- Left after `k` statements, the store opens as if it had not been left, and no row is
lost. -/
def SurvivesCrash (db : Cache) (k : ℕ) : Prop :=
  ∃ crashed opened whole,
    db.execAll ((pending (readVersion db)).take k) = some crashed ∧
    runMigrations crashed = some opened ∧ runMigrations db = some whole ∧
    readVersion opened = latest ∧
    (∀ t, (opened.tables t).map Relation.definition = (whole.tables t).map Relation.definition) ∧
    opened.indexes = whole.indexes ∧
    ∀ t ≠ TableName.schemaMeta, KeepsRows t db opened

/-- The statements of the first `i` migrations. -/
def statementsThrough (i : ℕ) : ℕ := ((migrations.take i).map List.length).sum

/-- The crash falls between two migrations, or inside the fourth. -/
def Harmless (g : ℕ) : Prop :=
  (∃ i ≤ migrations.length, g = statementsThrough i) ∨
    (statementsThrough 3 ≤ g ∧ g ≤ statementsThrough 4)

instance : DecidablePred Harmless := fun _ => inferInstanceAs (Decidable (_ ∨ _))

def fresh (g : ℕ) : Option Cache := Database.empty.execAll (migrations.flatten.take g)

theorem fresh_ne_none : ∀ g ≤ statementsThrough latest, fresh g ≠ none := by decide

theorem fresh_reopens : ∀ g ≤ statementsThrough latest,
    (fresh g).bind runMigrations = if Harmless g then fresh (statementsThrough latest) else none := by
  decide

theorem fresh_version : ∀ v ≤ latest, (fresh (statementsThrough v)).map readVersion = some v := by
  decide

theorem fresh_version_ge : ∀ g ≤ statementsThrough latest, statementsThrough 4 ≤ g →
    ∀ db ∈ fresh g, 4 ≤ readVersion db := by
  decide

theorem fresh_drops : ∀ v < 4, ∀ k ≤ (pending v).length,
    .dropTableIfExists .identity ∈ (pending v).take k ∨
      ∀ db ∈ fresh (statementsThrough v + k), readVersion db < 4 := by
  decide

theorem migrations_insert : ∀ st ∈ migrations.flatten, st.InsertsInto isMeta := by decide

theorem migrations_endanger : ∀ t ≠ TableName.schemaMeta, t ≠ TableName.identity →
    ∀ st ∈ migrations.flatten, ¬st.Endangers t := by decide

theorem later_endanger : ∀ st ∈ (migrations.drop 4).flatten, ¬st.Endangers TableName.identity := by
  decide

theorem pending_eq (v : ℕ) : pending v = (migrations.drop v).flatten := by
  have hzip : ∀ (ms : List (List Sql)) (i : ℕ),
      ((ms.zipIdx i).filter fun m => v < m.2 + 1).map Prod.fst = ms.drop (v - i) := by
    intro ms
    induction ms with
    | nil => simp
    | cons m ms ih =>
      intro i
      rw [List.zipIdx_cons, List.filter_cons]
      split_ifs with hlt
      · have hzero : v - i = 0 := by simp at hlt; omega
        have hzero' : v - (i + 1) = 0 := by omega
        simp only [List.map_cons, ih, hzero, hzero', List.drop_zero]
      · have hsucc : v - i = v - (i + 1) + 1 := by simp at hlt; omega
        rw [ih, hsucc, List.drop_succ_cons]
  rw [pending, hzip, Nat.sub_zero]

theorem readVersion_shape (db : Cache) : readVersion (db.shape isMeta) = readVersion db := by
  have hmeta : (db.shape isMeta).tables .schemaMeta = db.tables .schemaMeta := by
    simp [shape, isMeta]
  rw [readVersion, readVersion, hmeta]

theorem mem_migrations_of_pending {v : ℕ} {st : Sql} (h : st ∈ pending v) :
    st ∈ migrations.flatten := by
  rw [pending_eq] at h
  obtain ⟨m, hm, hst⟩ := List.mem_flatten.1 h
  exact List.mem_flatten.2 ⟨m, List.mem_of_mem_drop hm, hst⟩

theorem runMigrations_shape (db : Cache) :
    runMigrations (db.shape isMeta) = (runMigrations db).map (shape isMeta) := by
  rw [runMigrations, runMigrations, readVersion_shape]
  exact execAll_shape fun st hst => migrations_insert st (mem_migrations_of_pending hst)

section OnDisk
variable {v k : ℕ} {db : Cache}

theorem flatten_take_add (v k : ℕ) :
    migrations.flatten.take (statementsThrough v + k) =
      (migrations.take v).flatten ++ (pending v).take k := by
  have hlength : statementsThrough v = (migrations.take v).flatten.length := by
    rw [statementsThrough, List.length_flatten]
  have hsplit : migrations.flatten = (migrations.take v).flatten ++ pending v := by
    rw [pending_eq, ← List.flatten_append, List.take_append_drop]
  rw [hsplit, hlength, List.take_length_add_append]

theorem OnDisk.fresh (h : OnDisk v db) : fresh (statementsThrough v) = some (db.shape isMeta) := by
  have htake := flatten_take_add v 0
  simp only [Nat.add_zero, List.take_zero, List.append_nil] at htake
  rw [Sdk.fresh, htake]
  exact h

theorem OnDisk.readVersion (h : OnDisk v db) (hv : v ≤ latest) : readVersion db = v := by
  have hversion := fresh_version v hv
  rw [h.fresh, Option.map_some, readVersion_shape] at hversion
  exact Option.some.inj hversion

theorem OnDisk.crash (h : OnDisk v db) (hin : statementsThrough v + k ≤ statementsThrough latest) :
    ∃ crashed, db.execAll ((pending v).take k) = some crashed ∧
      Sdk.fresh (statementsThrough v + k) = some (crashed.shape isMeta) := by
  have hshape : (db.execAll ((pending v).take k)).map (shape isMeta) =
      Sdk.fresh (statementsThrough v + k) := by
    rw [Sdk.fresh, flatten_take_add, execAll_append, h, Option.bind_some]
    refine (execAll_shape fun st hst => ?_).symm
    exact migrations_insert st (mem_migrations_of_pending (List.mem_of_mem_take hst))
  rcases hcrash : db.execAll ((pending v).take k) with _ | crashed
  · rw [hcrash] at hshape
    exact absurd hshape.symm (fresh_ne_none _ hin)
  · rw [hcrash] at hshape
    exact ⟨crashed, rfl, hshape.symm⟩

end OnDisk

theorem reopen_shape {crashed : Cache} {g : ℕ} (hg : g ≤ statementsThrough latest)
    (hcrashed : fresh g = some (crashed.shape isMeta)) :
    (runMigrations crashed).map (shape isMeta) =
      if Harmless g then fresh (statementsThrough latest) else none := by
  have hreopens := fresh_reopens g hg
  rw [hcrashed, Option.bind_some, runMigrations_shape] at hreopens
  exact hreopens

section Rows
variable {v k : ℕ} {db crashed opened : Cache} {t : TableName}

theorem bothRuns (hcrash : db.execAll ((pending v).take k) = some crashed)
    (hopened : runMigrations crashed = some opened) :
    db.execAll ((pending v).take k ++ pending (readVersion crashed)) = some opened := by
  rw [execAll_append, hcrash, Option.bind_some]
  exact hopened

theorem mem_bothRuns {st : Sql}
    (hst : st ∈ (pending v).take k ++ pending (readVersion crashed)) :
    st ∈ migrations.flatten := by
  rcases List.mem_append.1 hst with hfirst | hsecond
  · exact mem_migrations_of_pending (List.mem_of_mem_take hfirst)
  · exact mem_migrations_of_pending hsecond

theorem mem_later {n : ℕ} {st : Sql} (hn : 4 ≤ n) (hst : st ∈ pending n) :
    st ∈ (migrations.drop 4).flatten := by
  have hdrop : migrations.drop n = (migrations.drop 4).drop (n - 4) := by
    rw [List.drop_drop, Nat.add_sub_cancel' hn]
  rw [pending_eq, hdrop] at hst
  obtain ⟨m, hm, hmst⟩ := List.mem_flatten.1 hst
  exact List.mem_flatten.2 ⟨m, List.mem_of_mem_drop hm, hmst⟩

theorem rows_kept_iff (hv : v ≤ latest) (hk : k ≤ (pending v).length)
    (hin : statementsThrough v + k ≤ statementsThrough latest)
    (hcrash : db.execAll ((pending v).take k) = some crashed)
    (hcrashed : fresh (statementsThrough v + k) = some (crashed.shape isMeta))
    (hopened : runMigrations crashed = some opened)
    (hwhole : (opened.tables .identity).isSome) :
    (∀ t ≠ TableName.schemaMeta, KeepsRows t db opened) ↔ (v < 4 → db.Bare .identity) := by
  have hboth := bothRuns hcrash hopened
  have hversion : readVersion (crashed.shape isMeta) = readVersion crashed := readVersion_shape _
  constructor
  · intro hkeeps hold r hr
    have hdrop : .dropTableIfExists .identity ∈
        (pending v).take k ++ pending (readVersion crashed) := by
      rcases fresh_drops v hold k hk with hfirst | hlow
      · exact List.mem_append_left _ hfirst
      · have hlt := hlow _ hcrashed
        rw [hversion] at hlt
        have hpending : ∀ n < 4, .dropTableIfExists .identity ∈ pending n := by decide
        exact List.mem_append_right _ (hpending _ hlt)
    have hbare : opened.Bare .identity :=
      execAll_bare_of_drop (show isMeta .identity = false from rfl)
        (fun st hst => migrations_insert st (mem_bothRuns hst)) hdrop hboth
    obtain ⟨r', hr', hrows⟩ := hkeeps .identity (by decide) r hr
    rcases hall : r.rows with _ | ⟨row, rows⟩
    · rfl
    · obtain ⟨row', hrow', -⟩ := hrows 0 row (by rw [hall]; rfl)
      rw [hbare r' hr'] at hrow'
      simp at hrow'
  · intro hbare t ht
    by_cases hidentity : t = .identity
    · subst hidentity
      rcases Nat.lt_or_ge v 4 with hold | hnew
      · intro r hr
        obtain ⟨r', hr'⟩ := Option.isSome_iff_exists.1 hwhole
        refine ⟨r', hr', fun i row hrow => ?_⟩
        rw [hbare hold r hr] at hrow
        simp at hrow
      · have hlow : statementsThrough 4 ≤ statementsThrough v + k := by
          have hmono : ∀ n ≤ latest, 4 ≤ n → statementsThrough 4 ≤ statementsThrough n := by decide
          exact (hmono v hv hnew).trans (Nat.le_add_right ..)
        have hcurrent := fresh_version_ge _ hin hlow _ hcrashed
        rw [hversion] at hcurrent
        refine execAll_keepsRows (fun st hst => later_endanger st ?_) hboth
        rcases List.mem_append.1 hst with hfirst | hsecond
        · exact mem_later hnew (List.mem_of_mem_take hfirst)
        · exact mem_later hcurrent hsecond
    · exact execAll_keepsRows (fun st hst => migrations_endanger t ht hidentity st (mem_bothRuns hst))
        hboth

end Rows

/-- A store opens again just when the crash was harmless, and loses no row just when the
fourth migration finds no identity to drop. -/
theorem survivesCrash_iff {v k : ℕ} {db : Cache} (hv : v ≤ latest) (hdb : OnDisk v db)
    (hk : k ≤ (pending v).length) :
    SurvivesCrash db k ↔
      Harmless (statementsThrough v + k) ∧ (v < 4 → db.Bare .identity) := by
  have hin : statementsThrough v + k ≤ statementsThrough latest := by
    have hall : ∀ n ≤ latest,
        statementsThrough n + (pending n).length = statementsThrough latest := by decide
    have := hall v hv
    omega
  obtain ⟨crashed, hcrash, hcrashed⟩ := hdb.crash hin
  have hreopen := reopen_shape hin hcrashed
  have hstart : (runMigrations db).map (shape isMeta) = fresh (statementsThrough latest) := by
    have hle : statementsThrough v ≤ statementsThrough latest := by omega
    have hharmless : Harmless (statementsThrough v) := .inl ⟨v, hv, rfl⟩
    have := reopen_shape hle hdb.fresh
    rwa [if_pos hharmless] at this
  obtain ⟨last, hlast⟩ := Option.ne_none_iff_exists'.1 (fresh_ne_none _ le_rfl)
  rw [hlast] at hreopen hstart
  obtain ⟨whole, hwhole, hwholeShape⟩ := Option.map_eq_some_iff.1 hstart
  have hidentity : (last.tables .identity).isSome := by
    have : ∀ db ∈ fresh (statementsThrough latest), (db.tables .identity).isSome := by
      decide
    exact this last hlast
  by_cases hharmless : Harmless (statementsThrough v + k)
  · rw [if_pos hharmless] at hreopen
    obtain ⟨opened, hopened, hopenedShape⟩ := Option.map_eq_some_iff.1 hreopen
    have hsame : opened.shape isMeta = whole.shape isMeta := hopenedShape.trans hwholeShape.symm
    have hthere : (opened.tables .identity).isSome := by
      have hsome : ((opened.shape isMeta).tables .identity).isSome =
          (opened.tables .identity).isSome := shape_isSome
      rw [← hsome, hopenedShape]
      exact hidentity
    have hrows := rows_kept_iff hv hk hin hcrash hcrashed hopened hthere
    constructor
    · rintro ⟨crashed', opened', -, hcrash', hopened', -, -, -, -, hkeeps⟩
      rw [hdb.readVersion hv] at hcrash'
      obtain rfl := Option.some.inj (hcrash.symm.trans hcrash')
      obtain rfl := Option.some.inj (hopened.symm.trans hopened')
      exact ⟨hharmless, hrows.1 hkeeps⟩
    · rintro ⟨-, hbare⟩
      refine ⟨crashed, opened, whole, ?_, hopened, hwhole, ?_, ?_, ?_, hrows.2 hbare⟩
      · rw [hdb.readVersion hv]
        exact hcrash
      · rw [← readVersion_shape, hopenedShape]
        have hversion := fresh_version latest le_rfl
        rw [hlast] at hversion
        exact Option.some.inj hversion
      · exact definitions_eq_of_shape hsame
      · have hindexes : (opened.shape isMeta).indexes = (whole.shape isMeta).indexes := by rw [hsame]
        exact hindexes
  · rw [if_neg hharmless] at hreopen
    constructor
    · rintro ⟨crashed', opened', -, hcrash', hopened', -⟩
      rw [hdb.readVersion hv] at hcrash'
      obtain rfl := Option.some.inj (hcrash.symm.trans hcrash')
      rw [hopened'] at hreopen
      cases hreopen
    · rintro ⟨hcontra, -⟩
      exact absurd hcontra hharmless

theorem onDisk_new : OnDisk 0 .empty := rfl

/-- A new file whose first table alone was created never opens again. -/
theorem new_store_left_early : OnDisk 0 .empty ∧ ¬SurvivesCrash .empty 1 := by
  have hstuck : (Database.empty.execAll ((pending 0).take 1)).bind runMigrations = none := by
    decide
  refine ⟨onDisk_new, ?_⟩
  rintro ⟨crashed, opened, -, hcrash, hopened, -⟩
  have hversion : readVersion .empty = 0 := rfl
  rw [hversion] at hcrash
  rw [hcrash, Option.bind_some, hopened] at hstuck
  cases hstuck

theorem survivesCrash_iff_new : SurvivesCrash .empty 5 := by
  refine (survivesCrash_iff (v := 0) (by decide) onDisk_new (by decide)).2 ⟨by decide, fun _ => ?_⟩
  intro r hr
  cases hr

end Rovenue.Sdk
