import Mathlib.Data.List.AList
import Mathlib.Tactic.Common

namespace Maubot.Introspection

/-!
# Plugin instances — the tables of a plugin's database

The two ways to describe the database of an instance whose engine is SQLite.

* `introspectSqlite` — the query over `sqlite_master`, and the grouping of its rows;
* `introspectSqlalchemy` — from tables that SQLAlchemy has reflected;
* `lookup_introspectSqlite` — the grouping loses and merges no column;
* `introspections_agree_iff` — when the two descriptions are the same.
-/

/-! ### Schemas -/

structure Column where
  name : String
  /-- The declared type -/
  type : String
  /-- The column has a `NOT NULL` constraint. -/
  notnull : Bool
  dfltValue : Option String
  /-- The position in the primary key, from 1; 0 for the other columns -/
  pk : Nat
  deriving DecidableEq

structure Table where
  name : String
  columns : List Column
  /-- No two columns have one name. -/
  names : (columns.map Column.name).Nodup

/-- The tables of a database -/
structure Schema where
  tables : List Table
  /-- No two tables have one name. -/
  names : (tables.map Table.name).Nodup

/-! ### The query -/

/-- A row of the query; the fields of the pragma are null for a table without columns. -/
structure Row where
  tableName : String
  colId : Option Nat
  columnName : Option String
  dataType : Option String
  isPrimary : Option Nat
  columnDefault : Option String
  isNullable : Option Bool

/-- `p.[notnull] AS is_nullable` -/
def Column.row (table : Table) (column : Column) (cid : Nat) : Row where
  tableName := table.name
  colId := some cid
  columnName := some column.name
  dataType := some column.type
  isPrimary := some column.pk
  columnDefault := column.dfltValue
  isNullable := some column.notnull

/-- The left join with `pragma_table_info` -/
def Table.rows (table : Table) : List Row :=
  if table.columns = [] then [⟨table.name, none, none, none, none, none, none⟩]
  else table.columns.zipIdx.map fun c => c.1.row table c.2

/-- The rows of the query, ordered by the tables' names -/
def Schema.rows (schema : Schema) : List Row :=
  (schema.tables.mergeSort fun t t' => t.name ≤ t'.name).flatMap Table.rows

/-! ### The two descriptions -/

/-- What `_introspect_sqlite` says about a column -/
structure Entry where
  type : Option String
  nullable : Bool
  default : Option String
  primary : Bool
  deriving DecidableEq

abbrev Columns := AList fun _ : Option String => Entry

abbrev Tables := AList fun _ : String => Columns

/-- `bool(x)` for the numbers and nulls of a row -/
def Row.entry (row : Row) : Entry where
  type := row.dataType
  nullable := row.isNullable.getD false
  default := row.columnDefault
  primary := row.isPrimary.getD 0 ≠ 0

/-- `tables[table_name]["columns"][col_name] = {…}`, on a `defaultdict` -/
def setColumn (tables : Tables) (row : Row) : Tables :=
  tables.insert row.tableName
    (((tables.lookup row.tableName).getD ∅).insert row.columnName row.entry)

/-- `_introspect_sqlite` -/
def introspectSqlite (schema : Schema) : Tables := schema.rows.foldl setColumn ∅

/-- A column that SQLAlchemy has reflected -/
structure SaColumn where
  name : String
  /-- `str(column.type)` -/
  type : String
  unique : Option Bool
  default : Option String
  nullable : Bool
  primaryKey : Bool

structure SaTable where
  name : String
  columns : List SaColumn

/-- What `_introspect_sqlalchemy` says about a column -/
structure SaEntry where
  type : String
  unique : Bool
  default : Option String
  nullable : Bool
  primary : Bool

def SaColumn.entry (column : SaColumn) : SaEntry where
  type := column.type
  unique := column.unique.getD false
  default := column.default
  nullable := column.nullable
  primary := column.primaryKey

/-- `_introspect_sqlalchemy`: of two columns, or tables, with one name the later one counts. -/
def introspectSqlalchemy (metadata : List SaTable) :
    AList fun _ : String => AList fun _ : String => SaEntry :=
  metadata.foldl (fun tables table => tables.insert table.name <|
    table.columns.foldl (fun columns column => columns.insert column.name column.entry) ∅) ∅

/-! ### Grouping -/

variable {tables : Tables} {rows : List Row} {row : Row}

/-- The entry of a column of a table -/
def entryAt (tables : Tables) (table : String) (column : Option String) : Option Entry :=
  (tables.lookup table).bind (·.lookup column)

/-- A row that is set is there, -/
theorem entryAt_setColumn_self (tables : Tables) (row : Row) :
    entryAt (setColumn tables row) row.tableName row.columnName = some row.entry := by
  rw [entryAt, setColumn, AList.lookup_insert, Option.bind_some, AList.lookup_insert]

/-- and the others are as before. -/
theorem entryAt_setColumn_ne {table : String} {column : Option String}
    (h : ¬ (row.tableName = table ∧ row.columnName = column)) :
    entryAt (setColumn tables row) table column = entryAt tables table column := by
  by_cases ht : table = row.tableName
  · subst ht
    have hc : column ≠ row.columnName := fun heq => h ⟨rfl, heq.symm⟩
    rw [entryAt, setColumn, AList.lookup_insert, Option.bind_some, AList.lookup_insert_ne hc,
      entryAt]
    cases tables.lookup row.tableName with
    | none   => rfl
    | some _ => rfl
  · rw [entryAt, setColumn, AList.lookup_insert_ne ht, entryAt]

/-- Each entry comes from a row, or was there before. -/
theorem of_entryAt_foldl {table : String} {column : Option String} {entry : Entry}
    (h : entryAt (rows.foldl setColumn tables) table column = some entry) :
    (∃ row ∈ rows, row.tableName = table ∧ row.columnName = column ∧ row.entry = entry) ∨
      entryAt tables table column = some entry := by
  induction rows generalizing tables with
  | nil => exact .inr h
  | cons row rows ih =>
    rcases ih h with ⟨row', hrow', hkey⟩ | hbefore
    · exact .inl ⟨row', List.mem_cons_of_mem _ hrow', hkey⟩
    · by_cases hkey : row.tableName = table ∧ row.columnName = column
      · obtain ⟨rfl, rfl⟩ := hkey
        rw [entryAt_setColumn_self] at hbefore
        exact .inl ⟨row, List.mem_cons_self, rfl, rfl, Option.some.inj hbefore⟩
      · rw [entryAt_setColumn_ne hkey] at hbefore
        exact .inr hbefore

/-- What was there is still there after all rows. -/
theorem entryAt_foldl_of_before {table : String} {column : Option String}
    (h : (entryAt tables table column).isSome = true) :
    (entryAt (rows.foldl setColumn tables) table column).isSome = true := by
  induction rows generalizing tables with
  | nil => exact h
  | cons row rows ih =>
    refine ih ?_
    by_cases hkey : row.tableName = table ∧ row.columnName = column
    · obtain ⟨rfl, rfl⟩ := hkey
      rw [entryAt_setColumn_self]
      rfl
    · rw [entryAt_setColumn_ne hkey]
      exact h

/-- Each row has an entry. -/
theorem entryAt_foldl_of_mem (h : row ∈ rows) :
    (entryAt (rows.foldl setColumn tables) row.tableName row.columnName).isSome = true := by
  induction rows generalizing tables with
  | nil => cases h
  | cons row' rows ih =>
    rcases List.mem_cons.mp h with rfl | h
    · refine @entryAt_foldl_of_before (setColumn tables row) rows _ _ ?_
      rw [entryAt_setColumn_self]
      rfl
    · exact ih h

/-- A table is described exactly if there is a row of it. -/
theorem mem_foldl_setColumn {table : String} : table ∈ rows.foldl setColumn tables ↔
    (∃ row ∈ rows, row.tableName = table) ∨ table ∈ tables := by
  induction rows generalizing tables with
  | nil => simp
  | cons row rows ih =>
    rw [List.foldl_cons, ih, setColumn, AList.mem_insert]
    simp only [List.mem_cons, exists_eq_or_imp]
    rw [eq_comm (a := table), or_left_comm, or_assoc]

/-! ### What the query says of a schema -/

variable {schema : Schema} {table : Table} {column : Column}

/-- The rows of a table are its columns, or one for none. -/
theorem mem_tableRows : row ∈ table.rows ↔
    (table.columns = [] ∧ row = ⟨table.name, none, none, none, none, none, none⟩) ∨
      ∃ column cid, (column, cid) ∈ table.columns.zipIdx ∧ row = column.row table cid := by
  unfold Table.rows
  split
  next h =>
    rw [List.mem_singleton, h]
    simp
  next h =>
    rw [List.mem_map]
    constructor
    · rintro ⟨⟨column, cid⟩, hmem, rfl⟩
      exact .inr ⟨column, cid, hmem, rfl⟩
    · rintro (⟨hnil, -⟩ | ⟨column, cid, hmem, rfl⟩)
      · exact absurd hnil h
      · exact ⟨(column, cid), hmem, rfl⟩

/-- They have its name. -/
theorem tableName_of_mem (h : row ∈ table.rows) : row.tableName = table.name := by
  obtain ⟨-, rfl⟩ | ⟨column, cid, -, rfl⟩ := mem_tableRows.mp h
  · rfl
  · rfl

/-- Every column has a row, -/
theorem row_of_mem (h : column ∈ table.columns) : ∃ cid, column.row table cid ∈ table.rows := by
  obtain ⟨cid, hcid⟩ := List.mem_iff_getElem?.mp h
  exact ⟨cid, mem_tableRows.mpr (.inr ⟨column, cid, List.mem_zipIdx_iff_getElem?.mpr hcid, rfl⟩)⟩

/-- and every table has one. -/
theorem exists_row (table : Table) : ∃ row, row ∈ table.rows := by
  by_cases h : table.columns = []
  · exact ⟨_, mem_tableRows.mpr (.inl ⟨h, rfl⟩)⟩
  · obtain ⟨column, hcolumn⟩ := List.exists_mem_of_ne_nil _ h
    obtain ⟨cid, hrow⟩ := row_of_mem hcolumn
    exact ⟨_, hrow⟩

/-- The rows of a schema are those of its tables. -/
theorem mem_rows : row ∈ schema.rows ↔ ∃ table ∈ schema.tables, row ∈ table.rows := by
  simp [Schema.rows]

/-- A name belongs to one table. -/
theorem table_eq {table' : Table} (h : table ∈ schema.tables) (h' : table' ∈ schema.tables)
    (hname : table.name = table'.name) : table = table' :=
  List.inj_on_of_nodup_map schema.names h h' hname

/-- The tables are those of the schema. -/
theorem mem_introspectSqlite {name : String} :
    name ∈ introspectSqlite schema ↔ ∃ table ∈ schema.tables, table.name = name := by
  rw [introspectSqlite, mem_foldl_setColumn]
  constructor
  · rintro (⟨row, hrow, rfl⟩ | hempty)
    · obtain ⟨table, htable, hmem⟩ := mem_rows.mp hrow
      exact ⟨table, htable, (tableName_of_mem hmem).symm⟩
    · exact absurd hempty (AList.notMem_empty name)
  · rintro ⟨table, htable, rfl⟩
    obtain ⟨row, hrow⟩ := exists_row table
    exact .inl ⟨row, mem_rows.mpr ⟨table, htable, hrow⟩, tableName_of_mem hrow⟩

/-- An entry for a table comes from a row of it. -/
theorem of_entryAt (htable : table ∈ schema.tables) {key : Option String} {entry : Entry}
    (h : entryAt (introspectSqlite schema) table.name key = some entry) :
    ∃ row ∈ table.rows, row.columnName = key ∧ row.entry = entry := by
  rcases of_entryAt_foldl h with ⟨row, hrow, hname, hkey, hentry⟩ | hempty
  · obtain ⟨table', htable', hmem⟩ := mem_rows.mp hrow
    obtain rfl := table_eq htable' htable ((tableName_of_mem hmem).symm.trans hname)
    exact ⟨row, hmem, hkey, hentry⟩
  · cases hempty

/-- What the query says of a column -/
def Column.described (column : Column) : Entry where
  type := some column.type
  nullable := column.notnull
  default := column.dfltValue
  primary := column.pk ≠ 0

/-- **No column is lost or merged with another one.** -/
theorem lookup_introspectSqlite (htable : table ∈ schema.tables)
    (hcolumn : column ∈ table.columns) :
    entryAt (introspectSqlite schema) table.name (some column.name) = some column.described := by
  obtain ⟨cid, htableRow⟩ := row_of_mem hcolumn
  have hrow : column.row table cid ∈ schema.rows := mem_rows.mpr ⟨table, htable, htableRow⟩
  have hsome : (entryAt (introspectSqlite schema) table.name (some column.name)).isSome = true :=
    entryAt_foldl_of_mem hrow
  obtain ⟨entry, hentry⟩ := Option.isSome_iff_exists.mp hsome
  obtain ⟨row, hmem, hname, rfl⟩ := of_entryAt htable hentry
  rw [hentry]
  obtain ⟨hnil, -⟩ | ⟨column', cid', hzip', rfl⟩ := mem_tableRows.mp hmem
  · rw [hnil] at hcolumn
    cases hcolumn
  · have hcolumn' : column' ∈ table.columns :=
      List.mem_of_getElem? (List.mem_zipIdx_iff_getElem?.mp hzip')
    obtain rfl : column' = column :=
      List.inj_on_of_nodup_map table.names hcolumn' hcolumn (Option.some.inj hname)
    rfl

/-- A table that has columns is described with no others. -/
theorem column_of_entryAt (htable : table ∈ schema.tables) (hne : table.columns ≠ [])
    {key : Option String} {entry : Entry}
    (h : entryAt (introspectSqlite schema) table.name key = some entry) :
    ∃ column ∈ table.columns, key = some column.name := by
  obtain ⟨row, hmem, rfl, -⟩ := of_entryAt htable h
  obtain ⟨hnil, -⟩ | ⟨column, cid, hzip, rfl⟩ := mem_tableRows.mp hmem
  · exact absurd hnil hne
  · exact ⟨column, List.mem_of_getElem? (List.mem_zipIdx_iff_getElem?.mp hzip), rfl⟩

/-! ### When the descriptions agree -/

/-- The map has the tables and columns of the schema, and says of each column what
    SQLAlchemy's description says; a column is nullable unless it has a constraint. -/
structure Agree (schema : Schema) (metadata : List SaTable) : Prop where
  tables : ∀ name, name ∈ introspectSqlite schema ↔ ∃ table ∈ schema.tables, table.name = name
  columns : ∀ table ∈ schema.tables, ∀ key,
    (entryAt (introspectSqlite schema) table.name key).isSome = true ↔
      ∃ column ∈ table.columns, key = some column.name
  same : ∀ table ∈ schema.tables, ∀ column ∈ table.columns, ∃ entry saEntry,
    entryAt (introspectSqlite schema) table.name (some column.name) = some entry ∧
      ((introspectSqlalchemy metadata).lookup table.name).bind (·.lookup column.name) =
        some saEntry ∧
      entry.type = some saEntry.type ∧ entry.nullable = saEntry.nullable ∧
      entry.primary = saEntry.primary
  nullable : ∀ table ∈ schema.tables, ∀ column ∈ table.columns, ∀ entry,
    entryAt (introspectSqlite schema) table.name (some column.name) = some entry →
      (entry.nullable = true ↔ column.notnull = false)

/-- **The descriptions agree** only for a database without tables: `notnull` is reported as
    `nullable`. -/
theorem introspections_agree_iff (schema : Schema) (metadata : List SaTable) :
    Agree schema metadata ↔ schema.tables = [] := by
  constructor
  · intro hagree
    by_contra hne
    obtain ⟨table, htable⟩ := List.exists_mem_of_ne_nil _ hne
    -- a table without columns has one whose name is null
    have hcolumns : table.columns ≠ [] := by
      intro hnil
      have hrow : (⟨table.name, none, none, none, none, none, none⟩ : Row) ∈ schema.rows :=
        mem_rows.mpr ⟨table, htable, mem_tableRows.mpr (.inl ⟨hnil, rfl⟩)⟩
      obtain ⟨column, hcolumn, -⟩ :=
        (hagree.columns table htable none).mp (entryAt_foldl_of_mem hrow)
      rw [hnil] at hcolumn
      cases hcolumn
    obtain ⟨column, hcolumn⟩ := List.exists_mem_of_ne_nil _ hcolumns
    have hnullable := hagree.nullable table htable column hcolumn _
      (lookup_introspectSqlite htable hcolumn)
    simp [Column.described] at hnullable
  · intro hnil
    have hnone {table : Table} (htable : table ∈ schema.tables) : False := by
      rw [hnil] at htable
      cases htable
    exact ⟨fun _ => mem_introspectSqlite, fun _ h => (hnone h).elim, fun _ h => (hnone h).elim,
      fun _ h => (hnone h).elim⟩

/-- A table `todo` with the columns `id INTEGER PRIMARY KEY` and `text TEXT NOT NULL` -/
def todo : Schema where
  tables := [⟨"todo", [⟨"id", "INTEGER", false, none, 1⟩, ⟨"text", "TEXT", true, none, 0⟩],
    by decide⟩]
  names := by decide

/-- Its reflection -/
def todoMetadata : List SaTable :=
  [⟨"todo", [⟨"id", "INTEGER", none, none, true, true⟩,
    ⟨"text", "TEXT", none, none, false, false⟩]⟩]

/-- The two introspections of the example disagree. -/
theorem not_agree : ¬ Agree todo todoMetadata := by
  intro hagree
  have htable : todo.tables.head (List.cons_ne_nil _ _) ∈ todo.tables := List.head_mem _
  have hcolumn : (⟨"text", "TEXT", true, none, 0⟩ : Column) ∈
      (todo.tables.head (List.cons_ne_nil _ _)).columns :=
    List.mem_cons_of_mem _ List.mem_cons_self
  have hnullable := hagree.nullable _ htable _ hcolumn _ (lookup_introspectSqlite htable hcolumn)
  exact absurd (hnullable.mp rfl) (by decide)

end Maubot.Introspection
