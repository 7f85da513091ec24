/-
  Migrations that are interrupted (`src/db/schema.rs`), on all three databases. A run that is cut
  off has done some of the pending statements; the next one starts at the recorded version and
  meets what is there already. Proved is when it ends as an uninterrupted run does.
-/
import Kipuka.Db.Schema

namespace Kipuka.Db

open Generic

variable {kind : DbKind} {d d' : Database} {stmt : Stmt}

/-! ## Versions -/

variable {context : String → String}

theorem query_ok (h : query kind stmt context d = .ok d') :
    exec kind d stmt = .ok d' := mapError_eq_ok.mp h

def Stmt.keepsVersion : Stmt → Bool
  | .insertVersion _ => false
  | .addColumn _ table _ | .modifyColumn table _ => table ≠ "schema_version"
  | _ => true

theorem currentVersion_congr
    (htable : d'.tables.lookup "schema_version" = d.tables.lookup "schema_version")
    (hversions : d'.versions = d.versions) : d'.currentVersion = d.currentVersion := by
  have hcol : d'.hasColumn "schema_version" "version" = d.hasColumn "schema_version" "version" := by
    rw [Database.hasColumn, htable]
    rfl
  rw [Database.currentVersion, Database.currentVersion, hcol, hversions]

theorem Change.currentVersion (h : Change kind d stmt d') (hkeeps : stmt.keepsVersion = true) :
    d'.currentVersion = d.currentVersion := by
  cases h with
  | none => rfl
  | table t hno =>
    by_cases hname : t.name = "schema_version"
    · -- a new table has no rows
      have hold : d.hasColumn "schema_version" "version" = false := by
        rw [hname, Database.hasTable, Option.isSome_eq_false_iff, Option.isNone_iff_eq_none] at hno
        rw [Database.hasColumn, hno, Option.any_none]
      have hrows : (d.addTable t).versions = [] := if_pos hname
      rw [Database.currentVersion, Database.currentVersion, hold, hrows]
      simp
    · exact currentVersion_congr (AList.lookup_insert_ne (Ne.symm hname)) (if_neg hname)
  | index | type | writerLock => exact currentVersion_congr rfl rfl
  | column ifNotExists table t c hkind hlookup hnew =>
    have hne : table ≠ "schema_version" := by simpa [Stmt.keepsVersion] using hkeeps
    exact currentVersion_congr (AList.lookup_insert_ne (Ne.symm hne)) rfl
  | modified table t c hkind hlookup hcol =>
    have hne : table ≠ "schema_version" := by simpa [Stmt.keepsVersion] using hkeeps
    exact currentVersion_congr (AList.lookup_insert_ne (Ne.symm hne)) rfl
  | version version hcol => cases hkeeps

theorem insertVersion_currentVersion {version : Int} (hlt : d.currentVersion < version)
    (h : exec kind d (.insertVersion version) = .ok d') : d'.currentVersion = version := by
  cases exec_change h with
  | none _ hpresent => exact hpresent.elim
  | version _ hcol =>
    rw [Database.currentVersion, if_pos hcol] at hlt
    have hcol' : ({ d with versions := d.versions ++ [version] } : Database).hasColumn
        "schema_version" "version" = true := hcol
    have hmax : (d.versions ++ [version]).max? = some version := by
      refine List.max?_eq_some_iff.mpr ⟨by simp, fun b hb => ?_⟩
      rcases List.mem_append.mp hb with hb | hb
      · cases hlast : d.versions.max? with
        | none =>
          rw [List.max?_eq_none_iff.mp hlast] at hb
          cases hb
        | some last =>
          rw [hlast, Option.getD_some] at hlt
          exact ((List.max?_eq_some_iff.mp hlast).2 b hb).trans hlt.le
      · exact (List.mem_singleton.mp hb).le
    rw [Database.currentVersion, if_pos hcol', hmax, Option.getD_some]

/-! ## The script -/

theorem migrations_versions (kind : DbKind) :
    (migrations kind).map Migration.version = [1, 2, 3, 4, 5, 6] := by
  cases kind <;> rfl

theorem migrations_keepVersion (kind : DbKind) :
    ∀ m ∈ migrations kind, ∀ s ∈ m.statements, s.1.keepsVersion = true := by
  cases kind <;> decide +kernel

theorem lawful (kind : DbKind) : (script kind).Lawful where
  ordered := by
    have h : ((migrations kind).map Migration.version).Pairwise (· < ·) := by
      rw [migrations_versions]
      decide
    exact List.pairwise_map.mpr (List.pairwise_map.mp h)
  steps_number := by
    intro g hg step hstep d d' hok
    obtain ⟨m, hm, rfl⟩ := List.mem_map.mp hg
    obtain ⟨s, hs, rfl⟩ := List.mem_map.mp hstep
    exact (exec_change (query_ok hok)).currentVersion (migrations_keepVersion kind m hm s hs)
  record_number := by
    intro g hg d d' hlt hok
    obtain ⟨m, hm, rfl⟩ := List.mem_map.mp hg
    exact insertVersion_currentVersion hlt (query_ok hok)

variable {n : Int}

theorem pending_nil (h : 6 ≤ n) : Script.pending (script kind).stages n = [] := by
  have hversions : ∀ v ∈ (migrations kind).map Migration.version, v ≤ n := by
    rw [migrations_versions]
    simp only [List.forall_mem_cons, List.not_mem_nil, false_implies, implies_true, and_true]
    omega
  refine List.flatMap_eq_nil_iff.mpr fun g hg => ?_
  obtain ⟨hg, hlt⟩ := List.mem_filter.mp hg
  obtain ⟨m, hm, rfl⟩ := List.mem_map.mp hg
  exact absurd (of_decide_eq_true hlt) (not_lt.mpr (hversions _ (List.mem_map_of_mem hm)))

variable {step : Database → Except KipukaError Database}

theorem query_of_mem_pending (h : step ∈ Script.pending (script kind).stages n) :
    ∃ stmt context, step = query kind stmt context := by
  obtain ⟨g, hg, hstep⟩ := List.mem_flatMap.mp h
  obtain ⟨m, hm, rfl⟩ := List.mem_map.mp (List.mem_of_mem_filter hg)
  rcases List.mem_append.mp hstep with hstep | hstep
  · obtain ⟨s, hs, rfl⟩ := List.mem_map.mp hstep
    exact ⟨s.1, s.2, rfl⟩
  · exact ⟨.insertVersion m.version, m.recording, List.mem_singleton.mp hstep⟩

theorem hasColumn_step (h : step ∈ Script.pending (script kind).stages n) {table column : String}
    (hcol : d.hasColumn table column = true) (hok : step d = .ok d') :
    d'.hasColumn table column = true := by
  obtain ⟨stmt, context, rfl⟩ := query_of_mem_pending h
  exact (exec_change (query_ok hok)).grows.columns table column hcol

/-! ## Statements made again -/

theorem present_of_runSteps {statements : List (Stmt × (String → String))}
    (hlasting : ∀ s ∈ statements, s.1.lasting = true)
    (hrun : runSteps (statements.map fun s => query kind s.1 s.2) d = .ok d') :
    ∀ s ∈ statements, Present kind d' s.1 := by
  induction statements generalizing d with
  | nil => exact List.forall_mem_nil _
  | cons s statements ih =>
    obtain ⟨mid, hfirst, hrest⟩ := except_bind_eq_ok.mp hrun
    have hnow : Present kind mid s.1 :=
      (exec_change (query_ok hfirst)).present (hlasting s List.mem_cons_self)
    intro s' hs'
    rcases List.mem_cons.mp hs' with rfl | hs'
    · refine runSteps_keeps (I := fun u => Present kind u s'.1) ?_ hnow hrest
      intro step hstep u u' hu hok
      obtain ⟨s'', -, rfl⟩ := List.mem_map.mp hstep
      exact hu.mono (exec_change (query_ok hok)).grows
    · exact ih (fun s'' hs'' => hlasting s'' (List.mem_cons_of_mem s hs'')) hrest s' hs'

theorem query_of_present (h : Present kind d stmt) : query kind stmt context d = .ok d := by
  rw [query, exec_of_present h]
  rfl

variable {table : String} {c : Column}

theorem hasColumn_of_addColumn {ifNotExists : Bool}
    (h : exec kind d (.addColumn ifNotExists table c) = .ok d') :
    d'.hasColumn table c.name = true := by
  cases exec_change h with
  | none _ hpresent => exact hpresent.2.2
  | column _ _ t _ _ _ _ =>
    exact Database.hasColumn_iff.mpr ⟨_, AList.lookup_insert _, c, by simp, rfl⟩

theorem addColumn_ne_ok (hcol : d.hasColumn table c.name = true) :
    exec kind d (.addColumn false table c) ≠ .ok d' := by
  intro h
  cases exec_change h with
  | none _ hpresent => cases hpresent.2.1
  | column _ _ t _ _ _ hnew =>
    rw [hcol] at hnew
    cases hnew

theorem modifyColumn_again (h : query kind (.modifyColumn table c) context d = .ok d') :
    query kind (.modifyColumn table c) context d' = .ok d' := by
  have hchange := exec_change (query_ok h)
  have hgrows := hchange.grows
  cases hchange with
  | none _ hpresent => exact hpresent.elim
  | modified _ t _ hkind hlookup hcol =>
    rw [query, exec, modifyColumn, if_pos hkind, AList.lookup_insert]
    simp only [if_pos (hgrows.columns table c.name hcol), replaceColumn_replaceColumn,
      AList.insert_insert]
    rfl

variable {m : Migration}

theorem migration_cases (hm : m ∈ migrations kind) : (∀ s ∈ m.statements, s.1.lasting = true) ∨
      (∃ table c context, m.statements = [(.modifyColumn table c, context)]) ∨
      kind = .sqlite ∧ m = migrationV6 .sqlite := by
  obtain rfl | rfl | rfl | rfl | rfl | rfl : m = migrationV1 kind ∨ m = migrationV2 ∨
      m = migrationV3 kind ∨ m = migrationV4 ∨ m = migrationV5 kind ∨ m = migrationV6 kind := by
    simpa [migrations] using hm
  · left
    cases kind <;> decide +kernel
  · left
    decide
  · left
    cases kind <;> decide +kernel
  · left
    decide
  · cases kind with
    | mariaDb => exact .inr (.inl ⟨_, _, _, rfl⟩)
    | _ => exact .inl (List.forall_mem_nil _)
  · cases kind with
    | sqlite => exact .inr (.inr ⟨rfl, rfl⟩)
    | _ =>
      left
      decide

/-! ## Interrupted migrations -/

/-- SQLite was stopped inside the migration that chains the audit table. -/
def HalfChained (kind : DbKind) (d : Database) : Prop :=
  kind = .sqlite ∧ d.currentVersion < 6 ∧ d.hasColumn "audit_events" "prev_hash" = true

theorem idle_of_cut (hm : m ∈ migrations kind)
    (hlt : d'.currentVersion < m.version) (hhalf : ¬ HalfChained kind d')
    {part : List (Database → Except KipukaError Database)}
    (hpart : part <+: (m.stage kind).steps) (hrun : runSteps part d = .ok d') :
    ∀ step ∈ part, step d' = .ok d' := by
  obtain ⟨done, hdone, rfl⟩ := List.prefix_map_iff.mp hpart
  rcases migration_cases hm with hlasting | ⟨table, c, context, hmodify⟩ | ⟨rfl, rfl⟩
  · intro step hstep
    obtain ⟨s, hs, rfl⟩ := List.mem_map.mp hstep
    exact query_of_present
      (present_of_runSteps (fun s hs => hlasting s (hdone.subset hs)) hrun s hs)
  · rw [hmodify, List.prefix_cons_iff] at hdone
    rcases hdone with rfl | ⟨done', rfl, hdone'⟩
    · exact List.forall_mem_nil _
    · obtain rfl := List.prefix_nil.mp hdone'
      intro step hstep
      obtain rfl := List.mem_singleton.mp hstep
      obtain ⟨mid, hmid, hend⟩ := except_bind_eq_ok.mp hrun
      obtain rfl := Except.ok.inj hend
      exact modifyColumn_again hmid
  · -- nothing was done, as the first statement leaves its column
    cases done with
    | nil => exact List.forall_mem_nil _
    | cons s done =>
      obtain ⟨rfl, -⟩ := List.cons_prefix_cons.mp hdone
      obtain ⟨mid, hmid, hend⟩ := except_bind_eq_ok.mp hrun
      have hcol : d'.hasColumn "audit_events" "prev_hash" = true := by
        refine runSteps_keeps (I := fun u => u.hasColumn "audit_events" "prev_hash" = true) ?_
          (hasColumn_of_addColumn (query_ok hmid)) hend
        intro step hstep u u' hu hok
        obtain ⟨s, -, rfl⟩ := List.mem_map.mp hstep
        exact (exec_change (query_ok hok)).grows.columns _ _ hu
      exact absurd ⟨rfl, hlt, hcol⟩ hhalf

theorem HalfChained.run_ne_ok (h : HalfChained kind d) (d' : Database) :
    runMigrations kind d ≠ .ok d' := by
  obtain ⟨rfl, hlt, hcol⟩ := h
  let alter : Stmt := .addColumn false "audit_events" (nullable "prev_hash" "TEXT")
  have hmem : query .sqlite alter (failedOn .sqlite "v6" alter).2 ∈
      Script.pending (script .sqlite).stages d.currentVersion := by
    refine List.mem_flatMap.mpr ⟨(migrationV6 .sqlite).stage .sqlite, ?_, List.mem_cons_self⟩
    refine List.mem_filter.mpr ⟨List.mem_map_of_mem (by simp [migrations]), ?_⟩
    exact decide_eq_true hlt
  refine runSteps_ne_ok (I := fun u => u.hasColumn "audit_events" "prev_hash" = true)
    (fun step hstep u u' hu hok => hasColumn_step hstep hu hok) hmem ?_ hcol d'
  exact fun u u' hu hok => addColumn_ne_ok hu (query_ok hok)

theorem HalfChained.cutOff (h : HalfChained kind d) (hcut : (script kind).CutOff d d') :
    HalfChained kind d' := by
  refine ⟨h.1, ?_, ?_⟩
  · -- with version 6 nothing would be left to do, so the run would have been complete
    by_contra hge
    exact h.run_ne_ok d' ((lawful kind).run_of_nothing_left hcut (pending_nil (not_lt.mp hge)))
  · obtain ⟨done, hdone, hrun⟩ := hcut
    refine runSteps_keeps (I := fun u => u.hasColumn "audit_events" "prev_hash" = true) ?_ h.2.2 hrun
    exact fun step hstep u u' hu hok => hasColumn_step (hdone.subset hstep) hu hok

theorem rerun_of_cutOff {t : Database} (hrun : runMigrations kind d = .ok t)
    (hcut : (script kind).CutOff d d') (hhalf : ¬ HalfChained kind d') :
    runMigrations kind d' = .ok t := by
  refine (lawful kind).resume hrun hcut ?_
  intro g hg hlt part mid hpart hpartRun
  obtain ⟨m, hm, rfl⟩ := List.mem_map.mp hg
  exact idle_of_cut hm hlt hhalf hpart hpartRun

/-- For every database that can be migrated, and after any number of runs that were cut off at any
    statement, the next run ends with the same database as an uninterrupted one, unless SQLite was
    left with the first column of version 6 and without its record. -/
theorem rerun_iff {t : Database} (hrun : runMigrations kind d = .ok t)
    (hcut : (script kind).Interrupted d d') :
    runMigrations kind d' = .ok t ↔ ¬ HalfChained kind d' := by
  refine ⟨fun hok hhalf => hhalf.run_ne_ok t hok, fun hhalf => ?_⟩
  induction hcut with
  | refl => exact hrun
  | tail hcut hlast ih =>
    refine rerun_of_cutOff (ih ?_) hlast hhalf
    exact fun hbefore => hhalf (hbefore.cutOff hlast)

/-! ### Cut off between the two columns -/

def cutAfter (kind : DbKind) (n : Nat) : Except KipukaError Database :=
  runSteps ((Script.pending (script kind).stages 0).take n) .empty

theorem cutOff_cutAfter {n : Nat} (h : cutAfter kind n = .ok d) :
    (script kind).CutOff .empty d :=
  ⟨_, List.take_prefix _ _, h⟩

def throughFirstAlter (kind : DbKind) : Nat :=
  (Script.pending (script kind).stages 0).length - 2

variable {x : Except KipukaError Database}

theorem exists_ok_of_any {p : Database → Bool}
    (h : x.toOption.any p = true) : ∃ d, x = .ok d ∧ p d = true := by
  cases x with
  | error e => cases h
  | ok d => exact ⟨d, rfl, h⟩

theorem exists_migrated (kind : DbKind) : ∃ t, runMigrations kind .empty = .ok t := by
  have h : (runMigrations kind .empty).toOption.any (fun _ => true) = true := by
    cases kind <;> decide +kernel
  obtain ⟨t, ht, -⟩ := exists_ok_of_any h
  exact ⟨t, ht⟩

theorem resumed_after_first_alter :
    ∃ t d, runMigrations .postgres .empty = .ok t ∧
      cutAfter .postgres (throughFirstAlter .postgres) = .ok d ∧
      d.hasColumn "audit_events" "prev_hash" = true ∧ runMigrations .postgres d = .ok t := by
  obtain ⟨t, ht⟩ := exists_migrated .postgres
  obtain ⟨d, hd, hcol⟩ := exists_ok_of_any
    (x := cutAfter .postgres (throughFirstAlter .postgres))
    (p := fun d => d.hasColumn "audit_events" "prev_hash") (by decide +kernel)
  refine ⟨t, d, ht, hd, hcol, (rerun_iff ht (.single (cutOff_cutAfter hd))).mpr ?_⟩
  exact fun hhalf => by cases hhalf.1

def reports (message : String) : Except KipukaError Database → Bool
  | .error (.db e) => e = message
  | _ => false

theorem eq_error_of_reports {message : String}
    (h : reports message x = true) : x = .error (.db message) := by
  unfold reports at h
  split at h
  · rw [of_decide_eq_true h]
  · cases h

theorem rerun_fails_after_first_alter :
    ∃ t d, runMigrations .sqlite .empty = .ok t ∧ (script .sqlite).CutOff .empty d ∧
      runMigrations .sqlite d =
        .error (.db ("migration v6 failed on [ALTER TABLE audit_events ADD COLUMN prev_hash " ++
          "TEXT]: duplicate column name: prev_hash")) := by
  obtain ⟨t, ht⟩ := exists_migrated .sqlite
  obtain ⟨d, hd, hreports⟩ := exists_ok_of_any
    (x := cutAfter .sqlite (throughFirstAlter .sqlite))
    (p := fun d => reports ("migration v6 failed on [ALTER TABLE audit_events ADD COLUMN " ++
      "prev_hash TEXT]: duplicate column name: prev_hash") (runMigrations .sqlite d))
    (by decide +kernel)
  exact ⟨t, d, ht, cutOff_cutAfter hd, eq_error_of_reports hreports⟩

end Kipuka.Db
