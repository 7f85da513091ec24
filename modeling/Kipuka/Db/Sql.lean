/-
  The SQL that the migrations of `src/db/schema.rs` are written in, and what the three databases make
  of it.
-/
import Kipuka.Error
import Kipuka.Generic.Outcome
import Kipuka.Generic.Runtime

namespace Kipuka.Db

open Generic

inductive DbKind where
  | sqlite
  | postgres
  | mariaDb
  deriving DecidableEq, Repr

/-! ## Statements -/

structure Reference where
  table : String
  column : String
  deriving DecidableEq, Repr

structure Column where
  name : String
  type : String
  attributes : String
  references : Option Reference
  deriving DecidableEq, Repr

structure ForeignKey where
  name : String
  column : String
  references : Reference
  deriving DecidableEq, Repr

structure TableDef where
  name : String
  columns : List Column
  foreignKeys : List ForeignKey
  options : String
  deriving DecidableEq, Repr

structure IndexColumn where
  name : String
  suffix : String
  deriving DecidableEq, Repr

structure Index where
  name : String
  table : String
  columns : List IndexColumn
  deriving DecidableEq, Repr

structure EnumType where
  name : String
  values : List String
  deriving DecidableEq, Repr

inductive Stmt where
  /-- `CREATE TABLE IF NOT EXISTS`. -/
  | createTable (table : TableDef)
  /-- `CREATE INDEX IF NOT EXISTS`. -/
  | createIndex (index : Index)
  /-- `CREATE TYPE` in a block that catches `duplicate_object`. -/
  | createType (type : EnumType)
  | addColumn (ifNotExists : Bool) (table : String) (column : Column)
  | modifyColumn (table : String) (column : Column)
  | insertVersion (version : Int)
  /-- The row with id 1 of `audit_writer_lock`, unless there is one. -/
  | insertWriterLock
  deriving DecidableEq, Repr

/-! ### Texts -/

def quoted (values : List String) : String :=
  String.intercalate ", " (values.map fun value => "'" ++ value ++ "'")

def Column.sql (c : Column) : String :=
  " ".intercalate ([c.name, c.type] ++ (if c.attributes = "" then [] else [c.attributes]) ++
    c.references.toList.map fun r => "REFERENCES " ++ r.table ++ "(" ++ r.column ++ ")")

def ForeignKey.sql (k : ForeignKey) : String :=
  "CONSTRAINT " ++ k.name ++ " FOREIGN KEY (" ++ k.column ++ ") REFERENCES " ++
    k.references.table ++ "(" ++ k.references.column ++ ")"

def Stmt.sql (kind : DbKind) : Stmt → String
  | .createTable t =>
    "CREATE TABLE IF NOT EXISTS " ++ t.name ++ " (" ++
      ", ".intercalate (t.columns.map Column.sql ++ t.foreignKeys.map ForeignKey.sql) ++ ")" ++
      (if t.options = "" then "" else " " ++ t.options)
  | .createIndex i =>
    "CREATE INDEX IF NOT EXISTS " ++ i.name ++ " ON " ++ i.table ++ " (" ++
      ", ".intercalate (i.columns.map fun c => c.name ++ c.suffix) ++ ")"
  | .createType ty =>
    "DO $$ BEGIN CREATE TYPE " ++ ty.name ++ " AS ENUM (" ++ quoted ty.values ++
      "); EXCEPTION WHEN duplicate_object THEN NULL; END $$"
  | .addColumn ifNotExists table c =>
    "ALTER TABLE " ++ table ++ " ADD COLUMN " ++ (if ifNotExists then "IF NOT EXISTS " else "") ++
      c.sql
  | .modifyColumn table c => "ALTER TABLE " ++ table ++ " MODIFY COLUMN " ++ c.sql
  | .insertVersion version =>
    "INSERT INTO schema_version (version) VALUES (" ++ toString version ++ ")"
  | .insertWriterLock =>
    match kind with
    | .mariaDb => "INSERT IGNORE INTO audit_writer_lock (id, revision) VALUES (1, 0)"
    | _ => "INSERT INTO audit_writer_lock (id, revision) VALUES (1, 0) ON CONFLICT (id) DO NOTHING"

/-! ## Databases -/

structure Database where
  tables : AList fun _ : String => TableDef
  indexes : List Index
  types : List EnumType
  /-- The rows of `schema_version`. -/
  versions : List Int
  /-- The revision in row 1 of `audit_writer_lock`. -/
  writerLock : Option Int

namespace Database

def empty : Database := ⟨∅, [], [], [], none⟩

def hasTable (d : Database) (table : String) : Bool := (d.tables.lookup table).isSome

def hasColumn (d : Database) (table column : String) : Bool :=
  (d.tables.lookup table).any fun t => t.columns.any fun c => c.name = column

theorem hasColumn_iff {d : Database} {table column : String} :
    d.hasColumn table column = true ↔
      ∃ t, d.tables.lookup table = some t ∧ ∃ c ∈ t.columns, c.name = column := by
  unfold hasColumn
  cases d.tables.lookup table <;> simp

def hasIndex (d : Database) (kind : DbKind) (index : Index) : Bool :=
  d.indexes.any fun i => i.name = index.name && (kind ≠ .mariaDb || i.table = index.table)

def hasType (d : Database) (name : String) : Bool := d.types.any fun ty => ty.name = name

def addTable (d : Database) (t : TableDef) : Database :=
  { d with
    tables := d.tables.insert t.name t
    versions := if t.name = "schema_version" then [] else d.versions
    writerLock := if t.name = "audit_writer_lock" then none else d.writerLock }

end Database

/-! ## Execution -/

inductive SqlError where
  | noSuchTable (table : String)
  | noSuchColumn (column : String)
  | noSuchType (type : String)
  | duplicateColumn (column : String)
  | unsupported
  deriving DecidableEq, Repr

def SqlError.text : SqlError → String
  | .noSuchTable table => "no such table: " ++ table
  | .noSuchColumn column => "no such column: " ++ column
  | .noSuchType type => "no such type: " ++ type
  | .duplicateColumn column => "duplicate column name: " ++ column
  | .unsupported => "syntax error"

/-- The types of PostgreSQL that the migrations use, apart from their own enum types. -/
def postgresTypes : List String := ["TEXT", "INTEGER", "BIGSERIAL", "BIGINT", "BYTEA", "BOOLEAN"]

/-- The references of a new table are checked when it is created, except by SQLite. -/
def missingReference (kind : DbKind) (d : Database) (t : TableDef) : Option Reference :=
  if kind = .sqlite then none
  else
    (t.columns.filterMap Column.references ++ t.foreignKeys.map ForeignKey.references).find?
      fun r => !d.hasColumn r.table r.column

def missingType (kind : DbKind) (d : Database) (t : TableDef) : Option Column :=
  if kind = .postgres then
    t.columns.find? fun c => !(postgresTypes.contains c.type || d.hasType c.type)
  else none

def createTable (kind : DbKind) (d : Database) (t : TableDef) : Except SqlError Database :=
  if d.hasTable t.name then .ok d
  else
    match missingReference kind d t, missingType kind d t with
    | some r, _ => .error (.noSuchTable r.table)
    | none, some c => .error (.noSuchType c.type)
    | none, none => .ok (d.addTable t)

def createIndex (kind : DbKind) (d : Database) (i : Index) : Except SqlError Database :=
  if d.hasTable i.table then
    if d.hasIndex kind i then .ok d
    else
      match i.columns.find? fun c => !d.hasColumn i.table c.name with
      | some c => .error (.noSuchColumn c.name)
      | none => .ok { d with indexes := d.indexes ++ [i] }
  else .error (.noSuchTable i.table)

def createType (kind : DbKind) (d : Database) (ty : EnumType) : Except SqlError Database :=
  if kind = .postgres then
    if d.hasType ty.name then .ok d else .ok { d with types := d.types ++ [ty] }
  else .error .unsupported

def addColumn (kind : DbKind) (d : Database) (ifNotExists : Bool) (table : String) (c : Column) :
    Except SqlError Database :=
  if kind = .sqlite ∧ ifNotExists then .error .unsupported
  else
    match d.tables.lookup table with
    | none => .error (.noSuchTable table)
    | some t =>
      if d.hasColumn table c.name then
        if ifNotExists then .ok d else .error (.duplicateColumn c.name)
      else .ok { d with tables := d.tables.insert table { t with columns := t.columns ++ [c] } }

def replaceColumn (c : Column) (columns : List Column) : List Column :=
  columns.map fun c' => if c'.name = c.name then c else c'

theorem replaceColumn_replaceColumn (c : Column) (columns : List Column) :
    replaceColumn c (replaceColumn c columns) = replaceColumn c columns := by
  simp only [replaceColumn, List.map_map]
  refine List.map_congr_left fun c' _ => ?_
  by_cases h : c'.name = c.name <;> simp [h]

def modifyColumn (kind : DbKind) (d : Database) (table : String) (c : Column) :
    Except SqlError Database :=
  if kind = .mariaDb then
    match d.tables.lookup table with
    | none => .error (.noSuchTable table)
    | some t =>
      if d.hasColumn table c.name then
        .ok { d with
          tables := d.tables.insert table { t with columns := replaceColumn c t.columns } }
      else .error (.noSuchColumn c.name)
  else .error .unsupported

def insertVersion (d : Database) (version : Int) : Except SqlError Database :=
  if d.hasColumn "schema_version" "version" then
    .ok { d with versions := d.versions ++ [version] }
  else .error (.noSuchTable "schema_version")

def insertWriterLock (d : Database) : Except SqlError Database :=
  if d.hasTable "audit_writer_lock" then .ok { d with writerLock := some (d.writerLock.getD 0) }
  else .error (.noSuchTable "audit_writer_lock")

def exec (kind : DbKind) (d : Database) : Stmt → Except SqlError Database
  | .createTable t => createTable kind d t
  | .createIndex i => createIndex kind d i
  | .createType ty => createType kind d ty
  | .addColumn ifNotExists table c => addColumn kind d ifNotExists table c
  | .modifyColumn table c => modifyColumn kind d table c
  | .insertVersion version => insertVersion d version
  | .insertWriterLock => insertWriterLock d

/-! ## What a statement changes -/

def Stmt.lasting : Stmt → Bool
  | .createTable _ | .createIndex _ | .createType _ | .insertWriterLock => true
  | .addColumn ifNotExists _ _ => ifNotExists
  | .modifyColumn .. | .insertVersion _ => false

/-- What a statement would create is there, and the statement says that this is no error. -/
def Present (kind : DbKind) (d : Database) : Stmt → Prop
  | .createTable t => d.hasTable t.name = true
  | .createIndex i => d.hasTable i.table = true ∧ d.hasIndex kind i = true
  | .createType ty => kind = .postgres ∧ d.hasType ty.name = true
  | .addColumn ifNotExists table c =>
    kind ≠ .sqlite ∧ ifNotExists = true ∧ d.hasColumn table c.name = true
  | .modifyColumn .. | .insertVersion _ => False
  | .insertWriterLock => d.hasTable "audit_writer_lock" = true ∧ d.writerLock.isSome = true

inductive Change (kind : DbKind) (d : Database) : Stmt → Database → Prop
  | none (stmt : Stmt) (h : Present kind d stmt) : Change kind d stmt d
  | table (t : TableDef) (h : d.hasTable t.name = false) :
    Change kind d (.createTable t) (d.addTable t)
  | index (i : Index) (h : d.hasTable i.table = true) :
    Change kind d (.createIndex i) { d with indexes := d.indexes ++ [i] }
  | type (ty : EnumType) (hkind : kind = .postgres) :
    Change kind d (.createType ty) { d with types := d.types ++ [ty] }
  | column (ifNotExists : Bool) (table : String) (t : TableDef) (c : Column)
      (hkind : ¬ (kind = .sqlite ∧ ifNotExists = true)) (h : d.tables.lookup table = some t)
      (hnew : d.hasColumn table c.name = false) :
    Change kind d (.addColumn ifNotExists table c)
      { d with tables := d.tables.insert table { t with columns := t.columns ++ [c] } }
  | modified (table : String) (t : TableDef) (c : Column) (hkind : kind = .mariaDb)
      (h : d.tables.lookup table = some t) (hcol : d.hasColumn table c.name = true) :
    Change kind d (.modifyColumn table c)
      { d with tables := d.tables.insert table { t with columns := replaceColumn c t.columns } }
  | version (version : Int) (h : d.hasColumn "schema_version" "version" = true) :
    Change kind d (.insertVersion version) { d with versions := d.versions ++ [version] }
  | writerLock (h : d.hasTable "audit_writer_lock" = true) :
    Change kind d .insertWriterLock { d with writerLock := some (d.writerLock.getD 0) }

variable {kind : DbKind} {d d' : Database} {stmt : Stmt}

theorem exec_change (h : exec kind d stmt = .ok d') : Change kind d stmt d' := by
  cases stmt with
  | createTable t =>
    simp only [exec, createTable] at h
    split at h
    · next hhas => exact Except.ok.inj h ▸ .none _ hhas
    · next hno =>
      split at h
      · cases h
      · cases h
      · exact Except.ok.inj h ▸ .table t (by simpa using hno)
  | createIndex i =>
    simp only [exec, createIndex] at h
    split at h
    · next htable =>
      split at h
      · next hhas => exact Except.ok.inj h ▸ .none _ ⟨htable, hhas⟩
      · split at h
        · cases h
        · exact Except.ok.inj h ▸ .index i htable
    · cases h
  | createType ty =>
    simp only [exec, createType] at h
    split at h
    · next hkind =>
      split at h
      · next hhas => exact Except.ok.inj h ▸ .none _ ⟨hkind, hhas⟩
      · exact Except.ok.inj h ▸ .type ty hkind
    · cases h
  | addColumn ifNotExists table c =>
    simp only [exec, addColumn] at h
    split at h
    · cases h
    · next hkind =>
      split at h
      · cases h
      · next t hlookup =>
        split at h
        · next hhas =>
          split at h
          · next hif => exact Except.ok.inj h ▸ .none _ ⟨fun hk => hkind ⟨hk, hif⟩, hif, hhas⟩
          · cases h
        · next hno =>
          exact Except.ok.inj h ▸ .column ifNotExists table t c hkind hlookup (by simpa using hno)
  | modifyColumn table c =>
    simp only [exec, modifyColumn] at h
    split at h
    · next hkind =>
      split at h
      · cases h
      · next t hlookup =>
        split at h
        · next hcol => exact Except.ok.inj h ▸ .modified table t c hkind hlookup hcol
        · cases h
    · cases h
  | insertVersion version =>
    simp only [exec, insertVersion] at h
    split at h
    · next hcol => exact Except.ok.inj h ▸ .version version hcol
    · cases h
  | insertWriterLock =>
    simp only [exec, insertWriterLock] at h
    split at h
    · next htable => exact Except.ok.inj h ▸ .writerLock htable
    · cases h

/-! ### Nothing is removed -/

structure Grows (d d' : Database) : Prop where
  tables : ∀ table, d.hasTable table = true → d'.hasTable table = true
  columns : ∀ table column, d.hasColumn table column = true → d'.hasColumn table column = true
  indexes : d.indexes ⊆ d'.indexes
  types : d.types ⊆ d'.types
  writerLock : d.hasTable "audit_writer_lock" = true → d.writerLock.isSome = true →
    d'.writerLock.isSome = true

theorem Grows.refl (d : Database) : Grows d d :=
  ⟨fun _ h => h, fun _ _ h => h, List.Subset.refl _, List.Subset.refl _, fun _ h => h⟩

theorem grows_insert {table : String} {t' : TableDef}
    (h : ∀ t, d.tables.lookup table = some t →
      ∀ c ∈ t.columns, ∃ c' ∈ t'.columns, c'.name = c.name) :
    Grows d { d with tables := d.tables.insert table t' } := by
  refine ⟨?_, ?_, List.Subset.refl _, List.Subset.refl _, fun _ h => h⟩
  · intro table' htable'
    simp only [Database.hasTable, AList.lookup_insert_eq] at htable' ⊢
    split
    · rfl
    · exact htable'
  · intro table' column hcolumn
    obtain ⟨t, ht, c, hc, rfl⟩ := Database.hasColumn_iff.mp hcolumn
    rw [Database.hasColumn_iff]
    by_cases heq : table' = table
    · subst heq
      exact ⟨t', AList.lookup_insert _, h t ht c hc⟩
    · exact ⟨t, (AList.lookup_insert_ne heq).trans ht, c, hc, rfl⟩

theorem addTable_grows {t : TableDef} (h : d.hasTable t.name = false) : Grows d (d.addTable t) := by
  have hnone : d.tables.lookup t.name = none := by simpa [Database.hasTable] using h
  have hinsert : Grows d { d with tables := d.tables.insert t.name t } :=
    grows_insert fun t' ht' => by cases hnone.symm.trans ht'
  refine ⟨hinsert.tables, hinsert.columns, hinsert.indexes, hinsert.types, ?_⟩
  intro htable hlock
  have hne : t.name ≠ "audit_writer_lock" := by
    rintro heq
    rw [heq, htable] at h
    cases h
  simpa [Database.addTable, hne] using hlock

theorem Change.grows (h : Change kind d stmt d') : Grows d d' := by
  cases h with
  | none => exact .refl d
  | table t hno => exact addTable_grows hno
  | index i htable => exact { Grows.refl d with indexes := List.subset_append_left _ _ }
  | type ty hkind => exact { Grows.refl d with types := List.subset_append_left _ _ }
  | column ifNotExists table t c hkind hlookup hnew =>
    refine grows_insert fun t' ht' c' hc' => ?_
    obtain rfl := Option.some.inj (hlookup.symm.trans ht')
    exact ⟨c', List.mem_append_left _ hc', rfl⟩
  | modified table t c hkind hlookup hcol =>
    refine grows_insert fun t' ht' c' hc' => ?_
    obtain rfl := Option.some.inj (hlookup.symm.trans ht')
    refine ⟨_, List.mem_map_of_mem hc', ?_⟩
    split
    · next heq => exact heq.symm
    · rfl
  | version version hcol => exact { Grows.refl d with }
  | writerLock htable => exact { Grows.refl d with writerLock := fun _ _ => rfl }

/-! ### Statements that can be repeated -/

theorem Present.mono (h : Present kind d stmt) (hgrows : Grows d d') : Present kind d' stmt := by
  cases stmt with
  | createTable t => exact hgrows.tables _ h
  | createIndex i =>
    refine ⟨hgrows.tables _ h.1, ?_⟩
    obtain ⟨i', hi', hname⟩ := List.any_eq_true.mp h.2
    exact List.any_eq_true.mpr ⟨i', hgrows.indexes hi', hname⟩
  | createType ty =>
    refine ⟨h.1, ?_⟩
    obtain ⟨ty', hty', hname⟩ := List.any_eq_true.mp h.2
    exact List.any_eq_true.mpr ⟨ty', hgrows.types hty', hname⟩
  | addColumn ifNotExists table c => exact ⟨h.1, h.2.1, hgrows.columns _ _ h.2.2⟩
  | modifyColumn | insertVersion => exact h.elim
  | insertWriterLock => exact ⟨hgrows.tables _ h.1, hgrows.writerLock h.1 h.2⟩

theorem exec_of_present (h : Present kind d stmt) : exec kind d stmt = .ok d := by
  cases stmt with
  | createTable t => exact if_pos h
  | createIndex i => rw [exec, createIndex, if_pos h.1, if_pos h.2]
  | createType ty => rw [exec, createType, if_pos h.1, if_pos h.2]
  | addColumn ifNotExists table c =>
    obtain ⟨hkind, rfl, hcolumn⟩ := h
    obtain ⟨t, ht, -⟩ := Database.hasColumn_iff.mp hcolumn
    rw [exec, addColumn, if_neg fun hc => hkind hc.1, ht]
    exact if_pos hcolumn
  | modifyColumn | insertVersion => exact h.elim
  | insertWriterLock =>
    obtain ⟨revision, hrevision⟩ := Option.isSome_iff_exists.mp h.2
    rw [exec, insertWriterLock, if_pos h.1, hrevision, Option.getD_some, ← hrevision]

theorem Change.present (h : Change kind d stmt d') (hlasting : stmt.lasting = true) :
    Present kind d' stmt := by
  cases h with
  | none _ hpresent => exact hpresent
  | table t hno => simp [Present, Database.hasTable, Database.addTable]
  | index i htable => exact ⟨htable, by simp [Database.hasIndex]⟩
  | type ty hkind => exact ⟨hkind, by simp [Database.hasType]⟩
  | column ifNotExists table t c hkind hlookup hnew =>
    refine ⟨fun hk => hkind ⟨hk, hlasting⟩, hlasting, Database.hasColumn_iff.mpr ?_⟩
    exact ⟨_, AList.lookup_insert _, c, by simp, rfl⟩
  | modified | version => cases hlasting
  | writerLock htable => exact ⟨htable, rfl⟩

end Kipuka.Db
