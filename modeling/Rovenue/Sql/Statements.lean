import Mathlib

/-! A database as its tables, and the statements of a migration. A statement that fails
leaves no database: what ran before it is what stays on disk. -/

namespace Sql

inductive Cell where
  | null
  | int (n : ℤ)
  | text (s : String)
  deriving DecidableEq

structure Column where
  name : String
  decl : String
  deriving DecidableEq

structure Definition where
  columns : List Column
  constraints : List String
  deriving DecidableEq

structure Relation where
  definition : Definition
  rows : List (List Cell)
  deriving DecidableEq

/-- `T` names the tables; an index has a name of its own. -/
structure Database (T : Type) where
  tables : T → Option Relation
  indexes : List (String × T)

inductive Statement (T : Type) where
  | createTable (name : T) (ifNotExists : Bool) (definition : Definition)
  | dropTableIfExists (name : T)
  | addColumn (name : T) (column : Column) (default : Cell)
  | createIndex (index : String) (on : T)
  | insert (name : T) (row : List Cell)
  | update (name : T) (column : String) (value : Cell)
  deriving DecidableEq

variable {T : Type} [DecidableEq T]

def Definition.place (d : Definition) (column : String) : ℕ :=
  d.columns.findIdx fun c => c.name = column

namespace Statement

def InsertsInto (keep : T → Bool) : Statement T → Prop
  | .insert name _ => keep name = true
  | _ => True

def Endangers (t : T) : Statement T → Prop
  | .dropTableIfExists name | .update name .. => name = t
  | _ => False

instance (keep : T → Bool) : DecidablePred (InsertsInto (T := T) keep)
  | .insert name _ => inferInstanceAs (Decidable (keep name = true))
  | .createTable .. | .dropTableIfExists _ | .addColumn .. | .createIndex .. | .update .. =>
    .isTrue trivial

instance (t : T) : DecidablePred (Endangers t)
  | .dropTableIfExists name => inferInstanceAs (Decidable (name = t))
  | .update name .. => inferInstanceAs (Decidable (name = t))
  | .createTable .. | .addColumn .. | .createIndex .. | .insert .. => .isFalse id

end Statement

namespace Relation
variable (r : Relation)

def withColumn (column : Column) (default : Cell) : Relation :=
  ⟨{ r.definition with columns := r.definition.columns ++ [column] }, r.rows.map (· ++ [default])⟩

def withRow (row : List Cell) : Relation := { r with rows := r.rows ++ [row] }

def withCell (column : String) (value : Cell) : Relation :=
  { r with rows := r.rows.map (·.set (r.definition.place column) value) }

def emptied : Relation := { r with rows := [] }

end Relation

namespace Database

def empty : Database T := ⟨fun _ => none, []⟩

instance [Fintype T] : DecidableEq (Database T) := fun db db' =>
  decidable_of_iff (db.tables = db'.tables ∧ db.indexes = db'.indexes)
    (by cases db; cases db'; simp)

variable (db : Database T)

def set (name : T) (r : Option Relation) : Database T :=
  { db with tables := Function.update db.tables name r }

def alter (name : T) (f : Relation → Option Relation) : Option (Database T) :=
  ((db.tables name).bind f).map fun r => db.set name (some r)

def exec : Statement T → Option (Database T)
  | .createTable name ifNotExists definition =>
    if (db.tables name).isSome then (if ifNotExists then some db else none)
    else some (db.set name (some ⟨definition, []⟩))
  | .dropTableIfExists name =>
    some { db.set name none with indexes := db.indexes.filter fun e => e.2 ≠ name }
  | .addColumn name column default => db.alter name fun r =>
    if column.name ∈ r.definition.columns.map Column.name then none
    else some (r.withColumn column default)
  | .createIndex index on =>
    if (db.tables on).isNone ∨ index ∈ db.indexes.map Prod.fst then none
    else some { db with indexes := db.indexes ++ [(index, on)] }
  | .insert name row => db.alter name fun r => some (r.withRow row)
  | .update name column value => db.alter name fun r => some (r.withCell column value)

def execAll (db : Database T) : List (Statement T) → Option (Database T)
  -- `execute_batch`: it stops at the first statement that fails
  | [] => some db
  | st :: sts => (db.exec st).bind fun db' => db'.execAll sts

variable {db} {db' db'' : Database T} {sts sts' : List (Statement T)} {st : Statement T} {t : T}

@[simp] theorem execAll_nil : db.execAll [] = some db := rfl

theorem execAll_append : db.execAll (sts ++ sts') = (db.execAll sts).bind (·.execAll sts') := by
  induction sts generalizing db with
  | nil => rfl
  | cons st sts ih => simp only [List.cons_append, execAll, Option.bind_assoc, ih]

theorem execAll_induct {R : Database T → Database T → Prop} (refl : ∀ db, R db db)
    (trans : ∀ {a b c}, R a b → R b c → R a c)
    (each : ∀ st ∈ sts, ∀ db db', exec db st = some db' → R db db')
    (h : db.execAll sts = some db') : R db db' := by
  induction sts generalizing db with
  | nil =>
    obtain rfl := Option.some.inj h
    exact refl _
  | cons st sts ih =>
    obtain ⟨mid, hst, hrest⟩ := Option.bind_eq_some_iff.1 h
    have hhead := each st (List.mem_cons_self ..) _ _ hst
    exact trans hhead (ih (fun s hs => each s (List.mem_cons_of_mem _ hs)) hrest)

def shape (keep : T → Bool) (db : Database T) : Database T :=
  { db with tables := fun t => (db.tables t).map fun r => if keep t then r else r.emptied }

variable {keep : T → Bool}

omit [DecidableEq T] in
@[simp] theorem shape_isSome : ((db.shape keep).tables t).isSome = (db.tables t).isSome := by
  simp [shape]

omit [DecidableEq T] in
theorem definitions_eq_of_shape (h : db.shape keep = db'.shape keep) (t : T) :
    (db.tables t).map Relation.definition = (db'.tables t).map Relation.definition := by
  have hdefinition : ∀ db : Database T, (db.tables t).map Relation.definition =
      ((db.shape keep).tables t).map Relation.definition := by
    intro db
    rw [shape, Option.map_map]
    refine congrArg (fun g => Option.map g _) (funext fun r => ?_)
    rcases hkeep : keep t with _ | _ <;> simp [Relation.emptied]
  rw [hdefinition db, hdefinition db', h]

theorem shape_set (r : Option Relation) :
    (db.set t r).shape keep =
      (db.shape keep).set t (r.map fun r => if keep t then r else r.emptied) := by
  simp only [shape, set, mk.injEq, and_true]
  funext s
  by_cases hs : s = t
  · subst hs
    simp
  · simp [hs]

theorem shape_alter {f : Relation → Option Relation}
    (hf : keep t = false → ∀ r, f r.emptied = (f r).map Relation.emptied) :
    (db.shape keep).alter t f = (db.alter t f).map (shape keep) := by
  have htable : ((db.shape keep).tables t).bind f =
      ((db.tables t).bind f).map fun r => if keep t then r else r.emptied := by
    rcases hr : db.tables t with _ | r
    · simp [shape, hr]
    · rcases hk : keep t with _ | _
      · simp [shape, hr, hk, hf hk]
      · simp [shape, hr, hk]
  rw [alter, alter, htable, Option.map_map, Option.map_map]
  refine congrArg (fun g => Option.map g _) (funext fun r => ?_)
  simp only [Function.comp_apply, shape_set, Option.map_some]

theorem exec_shape (hst : st.InsertsInto keep) :
    (db.shape keep).exec st = (db.exec st).map (shape keep) := by
  cases st with
  | createTable name ifNotExists definition =>
    simp only [exec, shape_isSome]
    split_ifs <;> simp [shape_set, Relation.emptied]
  | dropTableIfExists name =>
    have hset : (db.set name none).shape keep = (db.shape keep).set name none := shape_set none
    simp only [exec, Option.map_some, Option.some.injEq]
    rw [← hset]
    rfl
  | addColumn name column default =>
    refine shape_alter fun _ r => ?_
    have hdefinition : r.emptied.definition = r.definition := rfl
    rw [hdefinition]
    split_ifs
    · rfl
    · simp [Relation.withColumn, Relation.emptied]
  | createIndex index on =>
    have hnone : ((db.shape keep).tables on).isNone = (db.tables on).isNone := by simp [shape]
    have hindexes : (db.shape keep).indexes = db.indexes := rfl
    simp only [exec, hnone, hindexes]
    split_ifs <;> rfl
  | insert name row =>
    have hkeep : keep name = true := hst
    exact shape_alter fun hfalse => by simp [hkeep] at hfalse
  | update name column value =>
    refine shape_alter fun _ r => ?_
    simp [Relation.withCell, Relation.emptied]

theorem execAll_shape (hsts : ∀ st ∈ sts, st.InsertsInto keep) :
    (db.shape keep).execAll sts = (db.execAll sts).map (shape keep) := by
  induction sts generalizing db with
  | nil => rfl
  | cons st sts ih =>
    have hrest : ∀ db : Database T,
        (db.shape keep).execAll sts = (db.execAll sts).map (shape keep) :=
      fun db => ih fun s hs => hsts s (List.mem_cons_of_mem _ hs)
    rw [execAll, execAll, exec_shape (hsts st (List.mem_cons_self ..)), Option.map_bind,
      Option.bind_map]
    exact congrArg _ (funext fun db' => hrest db')

def RowsKept (rows rows' : List (List Cell)) : Prop :=
  ∀ (i : ℕ) (row : List Cell), rows[i]? = some row → ∃ row', rows'[i]? = some row' ∧ row <+: row'

theorem RowsKept.refl (rows : List (List Cell)) : RowsKept rows rows :=
  fun _ row hrow => ⟨row, hrow, List.prefix_rfl⟩

theorem RowsKept.trans {rows rows' rows'' : List (List Cell)} (h : RowsKept rows rows')
    (h' : RowsKept rows' rows'') : RowsKept rows rows'' := by
  intro i row hrow
  obtain ⟨row', hrow', hgrows⟩ := h i row hrow
  obtain ⟨row'', hrow'', hgrows'⟩ := h' i row' hrow'
  exact ⟨row'', hrow'', hgrows.trans hgrows'⟩

theorem rowsKept_append (rows added : List (List Cell)) : RowsKept rows (rows ++ added) := by
  intro i row hrow
  have hi := (List.getElem?_eq_some_iff.1 hrow).1
  exact ⟨row, by rw [List.getElem?_append_left hi, hrow], List.prefix_rfl⟩

theorem rowsKept_extend (rows : List (List Cell)) (added : List Cell) :
    RowsKept rows (rows.map (· ++ added)) := by
  intro i row hrow
  exact ⟨row ++ added, by rw [List.getElem?_map, hrow]; rfl, List.prefix_append ..⟩

def KeepsRows (t : T) (db db' : Database T) : Prop :=
  ∀ r, db.tables t = some r → ∃ r', db'.tables t = some r' ∧ RowsKept r.rows r'.rows

/-- The table, if it is there, holds no row. -/
def Bare (t : T) (db : Database T) : Prop := ∀ r, db.tables t = some r → r.rows = []

omit [DecidableEq T] in
theorem KeepsRows.of_eq (h : db'.tables t = db.tables t) : KeepsRows t db db' :=
  fun r hr => ⟨r, h.trans hr, .refl _⟩

omit [DecidableEq T] in
theorem KeepsRows.trans (h : KeepsRows t db db') (h' : KeepsRows t db' db'') :
    KeepsRows t db db'' := by
  intro r hr
  obtain ⟨r', hr', hrows⟩ := h r hr
  obtain ⟨r'', hr'', hrows'⟩ := h' r' hr'
  exact ⟨r'', hr'', hrows.trans hrows'⟩

theorem tables_set_of_ne {s : T} (r : Option Relation) (h : t ≠ s) :
    (db.set s r).tables t = db.tables t := Function.update_of_ne h ..

theorem alter_tables {s : T} {f : Relation → Option Relation} (h : db.alter s f = some db') :
    db'.tables t = db.tables t ∨
      s = t ∧ ∃ r r', db.tables t = some r ∧ f r = some r' ∧ db'.tables t = some r' := by
  obtain ⟨r', hr', rfl⟩ := Option.map_eq_some_iff.1 h
  obtain ⟨r, hr, hfr⟩ := Option.bind_eq_some_iff.1 hr'
  by_cases hst : s = t
  · subst hst
    exact .inr ⟨rfl, r, r', hr, hfr, by simp [set]⟩
  · exact .inl (tables_set_of_ne _ (Ne.symm hst))

/-- What a statement can do to one table: nothing, create it, drop it, or change its rows
one way. -/
theorem exec_tables (h : db.exec st = some db') :
    db'.tables t = db.tables t ∨
      (db.tables t = none ∧ ∃ d, db'.tables t = some ⟨d, []⟩) ∨
      (st = .dropTableIfExists t ∧ db'.tables t = none) ∨
      ∃ r r', db.tables t = some r ∧ db'.tables t = some r' ∧
        ((∃ added, r'.rows = r.rows.map (· ++ added)) ∨
          (∃ row, st = .insert t row ∧ r'.rows = r.rows ++ [row]) ∨
          ∃ column value, st = .update t column value ∧
            r'.rows = r.rows.map (·.set (r.definition.place column) value)) := by
  cases st with
  | createTable name ifNotExists definition =>
    simp only [exec] at h
    split_ifs at h with hexists
    · obtain rfl := Option.some.inj h
      exact .inl rfl
    · obtain rfl := Option.some.inj h
      by_cases hname : t = name
      · subst hname
        have hnone : db.tables t = none := by simpa using hexists
        exact .inr (.inl ⟨hnone, definition, by simp [set]⟩)
      · exact .inl (tables_set_of_ne _ hname)
  | dropTableIfExists name =>
    obtain rfl := Option.some.inj h
    by_cases hname : t = name
    · subst hname
      exact .inr (.inr (.inl ⟨rfl, by simp [set]⟩))
    · exact .inl (tables_set_of_ne none hname)
  | addColumn name column default =>
    obtain hsame | ⟨rfl, r, r', hr, hr', hafter⟩ := alter_tables (t := t) h
    · exact .inl hsame
    · split_ifs at hr'
      obtain rfl := Option.some.inj hr'
      exact .inr (.inr (.inr ⟨r, _, hr, hafter, .inl ⟨[default], rfl⟩⟩))
  | createIndex index on =>
    simp only [exec] at h
    split_ifs at h
    obtain rfl := Option.some.inj h
    exact .inl rfl
  | insert name row =>
    obtain hsame | ⟨rfl, r, r', hr, hr', hafter⟩ := alter_tables (t := t) h
    · exact .inl hsame
    · obtain rfl := Option.some.inj hr'
      exact .inr (.inr (.inr ⟨r, _, hr, hafter, .inr (.inl ⟨row, rfl, rfl⟩)⟩))
  | update name column value =>
    obtain hsame | ⟨rfl, r, r', hr, hr', hafter⟩ := alter_tables (t := t) h
    · exact .inl hsame
    · obtain rfl := Option.some.inj hr'
      exact .inr (.inr (.inr ⟨r, _, hr, hafter, .inr (.inr ⟨column, value, rfl, rfl⟩)⟩))

theorem exec_keepsRows (hst : ¬st.Endangers t) (h : db.exec st = some db') :
    KeepsRows t db db' := by
  intro r₀ hr₀
  obtain hsame | ⟨hnone, -⟩ | ⟨rfl, -⟩ | ⟨r, r', hr, hr', hrows⟩ := exec_tables (t := t) h
  · exact KeepsRows.of_eq hsame r₀ hr₀
  · rw [hnone] at hr₀
    cases hr₀
  · exact absurd rfl hst
  · obtain rfl := Option.some.inj (hr.symm.trans hr₀)
    refine ⟨r', hr', ?_⟩
    obtain ⟨added, hadded⟩ | ⟨row, -, hadded⟩ | ⟨column, value, rfl, -⟩ := hrows
    · exact hadded ▸ rowsKept_extend _ _
    · exact hadded ▸ rowsKept_append _ _
    · exact absurd rfl hst

theorem exec_bare (hkeep : keep t = false) (hst : st.InsertsInto keep) (hbare : db.Bare t)
    (h : db.exec st = some db') : db'.Bare t := by
  intro r₁ hr₁
  obtain hsame | ⟨-, d, hd⟩ | ⟨-, hnone⟩ | ⟨r, r', hr, hr', hrows⟩ := exec_tables (t := t) h
  · exact hbare r₁ (hsame.symm.trans hr₁)
  · obtain rfl := Option.some.inj (hd.symm.trans hr₁)
    rfl
  · rw [hnone] at hr₁
    cases hr₁
  · obtain rfl := Option.some.inj (hr'.symm.trans hr₁)
    have hempty := hbare r hr
    obtain ⟨added, hadded⟩ | ⟨row, rfl, -⟩ | ⟨column, value, -, hadded⟩ := hrows
    · simp [hadded, hempty]
    · have hkeep' : keep t = true := hst
      simp [hkeep] at hkeep'
    · simp [hadded, hempty]

theorem execAll_keepsRows (hsts : ∀ st ∈ sts, ¬st.Endangers t) (h : db.execAll sts = some db') :
    KeepsRows t db db' :=
  execAll_induct (fun _ => .of_eq rfl) KeepsRows.trans (fun st hst _ _ => exec_keepsRows (hsts st hst)) h

theorem execAll_bare (hkeep : keep t = false) (hsts : ∀ st ∈ sts, st.InsertsInto keep)
    (hbare : db.Bare t) (h : db.execAll sts = some db') : db'.Bare t :=
  execAll_induct (R := fun a b => a.Bare t → b.Bare t) (fun _ => id) (fun h g => g ∘ h)
    (fun st hst _ _ hexec hb => exec_bare hkeep (hsts st hst) hb hexec) h hbare

theorem execAll_bare_of_drop (hkeep : keep t = false) (hsts : ∀ st ∈ sts, st.InsertsInto keep)
    (hdrop : .dropTableIfExists t ∈ sts) (h : db.execAll sts = some db') : db'.Bare t := by
  obtain ⟨before, after, rfl⟩ := List.append_of_mem hdrop
  rw [execAll_append] at h
  obtain ⟨mid, -, hrest⟩ := Option.bind_eq_some_iff.1 h
  obtain ⟨dropped, hdropped, hafter⟩ := Option.bind_eq_some_iff.1 hrest
  have hbare : dropped.Bare t := by
    intro r hr
    obtain rfl := Option.some.inj hdropped
    simp [set] at hr
  exact execAll_bare hkeep (fun st hst => hsts st (by simp [hst])) hbare hafter

end Database
end Sql
