import Mathlib.Data.List.Nodup
import Mathlib.Data.List.Pairwise
import Mathlib.Data.List.Sort
import Mathlib.Data.String.Basic
import Dibs.Lib.Exclusive

/-!
# The migration runner

`MigrationRunner.run` of `db/postgres.py` applies the `.sql` files that `schema_migrations` does not
list yet, each with the insertion of its version, in one transaction that first takes an advisory
lock. Every replica of the application runs it at startup, so any number of runners interleave; a
statement can fail, and a runner can die, anywhere.

What a statement of a migration does to the rest of the schema is Postgres' affair: `execute`, which
may refuse it. The model's transaction is the code's coroutine between two statements, and the
advisory lock is that of `Lib/Exclusive`, so interleaved runners are serial
(`Exclusive.serial`). `transaction_spec` says what one whole transaction does, and
`migrations_once` what any number of runners have done in any reachable state.
-/

namespace Dibs

/-! ## Discovery -/

/-- One ordered migration file discovered on disk. -/
structure Migration where
  /-- The file's name without its suffix. -/
  version : String
  /-- The file's text. -/
  sql : String
  deriving DecidableEq, Repr

/-- An entry of a directory. -/
structure DirectoryEntry where
  /-- The entry's name. -/
  name : String
  /-- Whether it is a file. -/
  isFile : Bool
  /-- The file's text; none where it is not UTF-8. -/
  text : Option String
  deriving DecidableEq, Repr

/-- A directory: no two of its entries have one name. -/
structure Directory where
  /-- The entries in the order of the listing. -/
  entries : List DirectoryEntry
  /-- The names are distinct. -/
  distinct : (entries.map (·.name)).Nodup

/-- What stands after a name's last dot, where there is one that neither begins nor ends the name,
and what stands before it. -/
def splitSuffix (name : List Char) : List Char × List Char :=
  match name.reverse.dropWhile (· ≠ '.') with
  | [] => (name, [])
  | _ :: before =>
    let after := name.reverse.takeWhile (· ≠ '.')
    if before = [] ∨ after = [] then (name, []) else (before.reverse, '.' :: after.reverse)

/-- `Path.stem`. -/
def DirectoryEntry.stem (e : DirectoryEntry) : String := String.ofList (splitSuffix e.name.toList).1

/-- `Path.suffix`. -/
def DirectoryEntry.suffix (e : DirectoryEntry) : String :=
  String.ofList (splitSuffix e.name.toList).2

/-- `discover_migrations`: the `.sql` files of a directory by name, none where one of them cannot be
read. A directory that is not there has none. -/
def discoverMigrations : Option Directory → Option (List Migration)
  | none => some []
  | some directory =>
    let sorted := directory.entries.mergeSort fun e f => decide (e.name ≤ f.name)
    (sorted.filter fun e => e.isFile && e.suffix == ".sql").mapM fun e =>
      e.text.map fun sql => ⟨e.stem, sql⟩

/-- A name is its stem and its suffix. -/
theorem splitSuffix_append (name : List Char) :
    (splitSuffix name).1 ++ (splitSuffix name).2 = name := by
  have hcut := List.takeWhile_append_dropWhile (p := fun c : Char => decide (c ≠ '.')) (l := name.reverse)
  cases hdrop : name.reverse.dropWhile (· ≠ '.') with
  | nil => simp only [splitSuffix, hdrop, List.append_nil]
  | cons c before =>
    have hdot : c = '.' := by
      have hne : name.reverse.dropWhile (fun c : Char => decide (c ≠ '.')) ≠ [] := by
        rw [hdrop]
        exact List.cons_ne_nil _ _
      have hhead := List.head_dropWhile_not (fun c : Char => decide (c ≠ '.')) hne
      simpa only [hdrop, List.head_cons, decide_eq_false_iff_not, not_not] using hhead
    have hname : name = before.reverse ++ '.' :: (name.reverse.takeWhile (· ≠ '.')).reverse := by
      have hreverse := congrArg List.reverse hcut
      rw [hdrop, hdot, List.reverse_append, List.reverse_reverse, List.reverse_cons,
        List.append_assoc, List.singleton_append] at hreverse
      exact hreverse.symm
    simp only [splitSuffix, hdrop]
    split
    · exact List.append_nil _
    · exact hname.symm

/-- Two entries with one stem and one suffix have one name. -/
theorem DirectoryEntry.name_eq {e f : DirectoryEntry} (hstem : e.stem = f.stem)
    (hsuffix : e.suffix = f.suffix) : e.name = f.name := by
  have hstem' : (splitSuffix e.name.toList).1 = (splitSuffix f.name.toList).1 :=
    String.ofList_injective hstem
  have hsuffix' : (splitSuffix e.name.toList).2 = (splitSuffix f.name.toList).2 :=
    String.ofList_injective hsuffix
  apply String.toList_injective
  rw [← splitSuffix_append e.name.toList, ← splitSuffix_append f.name.toList, hstem', hsuffix']

/-- The discovered versions are distinct. -/
theorem discoverMigrations_nodup {directory : Option Directory} {migrations : List Migration}
    (h : discoverMigrations directory = some migrations) : (migrations.map (·.version)).Nodup := by
  cases directory with
  | none =>
    cases h
    exact List.nodup_nil
  | some directory =>
    simp only [discoverMigrations] at h
    generalize hfiles : ((directory.entries.mergeSort fun e f => decide (e.name ≤ f.name)).filter
      fun e => e.isFile && e.suffix == ".sql") = files at h
    have hsuffix : ∀ e ∈ files, e.suffix = ".sql" := by
      intro e he
      rw [← hfiles, List.mem_filter, Bool.and_eq_true, beq_iff_eq] at he
      exact he.2.2
    have hnames : (files.map (·.name)).Nodup := by
      have hperm := (List.mergeSort_perm directory.entries fun e f => decide (e.name ≤ f.name)).map
        (·.name)
      have hsorted := hperm.nodup_iff.mpr directory.distinct
      rw [← hfiles]
      exact hsorted.sublist (List.filter_sublist.map _)
    have hversions : migrations.map (·.version) = files.map (·.stem) := by
      clear hfiles hsuffix hnames
      induction files generalizing migrations with
      | nil =>
        cases h
        rfl
      | cons e files ih =>
        simp only [List.mapM_cons, Option.bind_eq_bind, Option.bind_eq_some_iff, Option.map_eq_some_iff,
          Option.pure_def, Option.some.injEq] at h
        obtain ⟨m, ⟨sql, -, rfl⟩, rest, hrest, rfl⟩ := h
        rw [List.map_cons, List.map_cons, ih hrest]
    rw [hversions]
    refine List.Nodup.map_on ?_ (List.Nodup.of_map _ hnames)
    intro e he f hf hstem
    have hname := DirectoryEntry.name_eq hstem ((hsuffix e he).trans (hsuffix f hf).symm)
    exact List.inj_on_of_nodup_map hnames he hf hname

example : splitSuffix "0001.first.sql".toList = ("0001.first".toList, ".sql".toList) := by decide

example : splitSuffix ".sql".toList = (".sql".toList, []) := by decide

/-! ## The runner's transaction -/

/-- The rows of `schema_migrations`: its primary key keeps them distinct. -/
structure SchemaMigrations where
  /-- The versions in the order of their insertion. -/
  versions : List String
  /-- The primary key. -/
  distinct : versions.Nodup

/-- `INSERT INTO schema_migrations`; none where the key is taken. -/
def SchemaMigrations.insert (table : SchemaMigrations) (version : String) :
    Option SchemaMigrations :=
  if h : version ∈ table.versions then none
  else some ⟨table.versions ++ [version], by
    simpa only [List.nodup_append, List.nodup_singleton, List.mem_singleton, true_and,
      forall_eq] using ⟨table.distinct, fun v hv => ne_of_mem_of_not_mem hv h⟩⟩

/-- The database of the runner: its own table, which may be missing, and the rest of the schema. -/
structure Database (S : Type*) where
  /-- The table `schema_migrations`. -/
  table : Option SchemaMigrations
  /-- The rest of the schema. -/
  schema : S

/-- `_applied_versions`, in the order of insertion; none of them without the table. -/
def Database.applied {S : Type*} (d : Database S) : List String :=
  (d.table.map SchemaMigrations.versions).getD []

/-- `CREATE TABLE IF NOT EXISTS schema_migrations`. -/
def Database.createTable {S : Type*} (d : Database S) : Database S :=
  { d with table := some (d.table.getD ⟨[], List.nodup_nil⟩) }

/-- Where a runner's transaction stands: the statement that it sends next. -/
inductive RunnerStage
  /-- The creation of `schema_migrations`. -/
  | creating
  /-- The reading of the applied versions. -/
  | reading
  /-- The loop, with the versions that were read and the migrations that are left. -/
  | applying (already : List String) (rest : List Migration)
  /-- The insertion of a version whose SQL was executed. -/
  | inserting (already : List String) (migration : Migration) (rest : List Migration)

/-- The state of a runner's transaction. -/
structure RunnerTransaction (S : Type*) where
  /-- The runner's migrations. -/
  migrations : List Migration
  /-- The database as the transaction sees it, its own statements included. -/
  view : Database S
  /-- The statement that comes next. -/
  stage : RunnerStage
  /-- The versions it reports. -/
  applied : List String

/-- The statements of `MigrationRunner.run` after the lock, one at a time, and the turns of its loop
that send none; none where Postgres refuses the statement or nothing is left to do. -/
def MigrationRunner.statement {S : Type*} (execute : String → S → Option S)
    (t : RunnerTransaction S) : Option (RunnerTransaction S) :=
  match t.stage with
  | .creating => some { t with view := t.view.createTable, stage := .reading }
  | .reading => some { t with stage := .applying t.view.applied t.migrations }
  | .applying _ [] => none
  | .applying already (migration :: rest) =>
    if migration.version ∈ already then some { t with stage := .applying already rest }
    else (execute migration.sql t.view.schema).map fun schema =>
      { t with view := { t.view with schema := schema }, stage := .inserting already migration rest }
  | .inserting already migration rest =>
    match t.view.table with
    | none => none
    | some table => (table.insert migration.version).map fun table =>
        { t with
          view := { t.view with table := some table }
          stage := .applying already rest
          applied := t.applied ++ [migration.version] }

/-- The view that the transaction commits; none before its end. -/
def RunnerTransaction.publish {S : Type*} (t : RunnerTransaction S) : Option (Database S) :=
  match t.stage with
  | .applying _ [] => some t.view
  | _ => none

/-- The transactions of runners with their own lists of migrations. -/
def runnerCode {κ S : Type*} (execute : String → S → Option S) (migrations : κ → List Migration) :
    TransactionCode κ (Database S) (RunnerTransaction S) Unit where
  start k found := ⟨migrations k, found, .creating, []⟩
  act _ := MigrationRunner.statement execute
  publish := RunnerTransaction.publish

/-! ## What one transaction does -/

section Transaction

variable {κ S : Type*} {execute : String → S → Option S} {migrations : κ → List Migration}

/-- The SQL of migrations, executed one after another. -/
def replay (execute : String → S → Option S) : List Migration → S → Option S
  | [], schema => some schema
  | m :: rest, schema => (execute m.sql schema).bind (replay execute rest)

/-- A replay of two lists is that of the second after the first. -/
theorem replay_append (l₁ l₂ : List Migration) (schema : S) :
    replay execute (l₁ ++ l₂) schema = (replay execute l₁ schema).bind (replay execute l₂) := by
  induction l₁ generalizing schema with
  | nil => rfl
  | cons m l₁ ih =>
    simp only [List.cons_append, replay, Option.bind_assoc]
    exact congrArg _ (funext ih)

/-- The migrations whose versions are not applied yet, in their order. -/
def pending (migrations : List Migration) (applied : List String) : List Migration :=
  migrations.filter fun m => decide (m.version ∉ applied)

/-- A transaction that found `found` has executed and inserted `done`. -/
structure Executed (execute : String → S → Option S) (found : Database S) (done : List Migration)
    (t : RunnerTransaction S) : Prop where
  /-- The SQL made the schema. -/
  schema : replay execute done found.schema = some t.view.schema
  /-- The versions were inserted in this order. -/
  inserted : t.view.applied = found.applied ++ done.map (·.version)
  /-- They are what is reported. -/
  reported : t.applied = done.map (·.version)

/-- What a transaction that found `found` has done when it stands where it does. -/
def Progress (execute : String → S → Option S) (found : Database S) (t : RunnerTransaction S) : Prop :=
  match t.stage with
  | .creating => t.view = found ∧ t.applied = []
  | .reading => Executed execute found [] t ∧ t.view.table ≠ none
  | .applying already rest => already = found.applied ∧ t.view.table ≠ none ∧
    ∃ seen, t.migrations = seen ++ rest ∧ Executed execute found (pending seen found.applied) t
  | .inserting already migration rest => already = found.applied ∧ t.view.table ≠ none ∧
    migration.version ∉ found.applied ∧ ∃ seen, t.migrations = seen ++ migration :: rest ∧
      ∃ before, execute migration.sql before = some t.view.schema ∧
        Executed execute found (pending seen found.applied)
          { t with view := { t.view with schema := before } }

@[simp] theorem Database.applied_createTable (d : Database S) : d.createTable.applied = d.applied := by
  cases d with
  | mk table schema => cases table <;> rfl

/-- An insertion that succeeds appends the version. -/
theorem SchemaMigrations.insert_eq_some {table table' : SchemaMigrations} {version : String}
    (h : table.insert version = some table') :
    version ∉ table.versions ∧ table'.versions = table.versions ++ [version] := by
  unfold SchemaMigrations.insert at h
  split at h
  · cases h
  · rename_i hversion
    cases h
    exact ⟨hversion, rfl⟩

/-- One more migration is pending when its version is not applied. -/
theorem pending_append_singleton (seen : List Migration) (m : Migration) (applied : List String) :
    pending (seen ++ [m]) applied =
      if m.version ∈ applied then pending seen applied else pending seen applied ++ [m] := by
  unfold pending
  rw [List.filter_append]
  split <;> rename_i hm <;> simp [hm]

/-- Every statement keeps the account of what the transaction has done. -/
theorem statement_progress {found : Database S} {t t' : RunnerTransaction S}
    (h : Progress execute found t) (hstep : MigrationRunner.statement execute t = some t') :
    Progress execute found t' := by
  obtain ⟨all, view, stage, applied⟩ := t
  unfold MigrationRunner.statement at hstep
  cases stage with
  | creating =>
    obtain ⟨rfl, rfl⟩ := h
    cases hstep
    refine ⟨⟨rfl, ?_, rfl⟩, ?_⟩
    · simp
    · simp [Database.createTable]
  | reading =>
    obtain ⟨hdone, htable⟩ := h
    cases hstep
    refine ⟨?_, htable, [], rfl, hdone.schema, hdone.inserted, hdone.reported⟩
    simpa using hdone.inserted
  | applying already rest =>
    obtain ⟨rfl, htable, seen, hseen, hdone⟩ := h
    dsimp only at hseen htable
    cases rest with
    | nil => cases hstep
    | cons m rest =>
      dsimp only at hstep
      split at hstep
      · -- An applied version is skipped: nothing more is pending.
        rename_i hm
        cases hstep
        refine ⟨rfl, htable, seen ++ [m], ?_, ?_⟩
        · rw [hseen, List.append_assoc, List.singleton_append]
        · rw [pending_append_singleton, if_pos hm]
          exact ⟨hdone.schema, hdone.inserted, hdone.reported⟩
      · rename_i hm
        obtain ⟨schema, hexec, rfl⟩ := Option.map_eq_some_iff.mp hstep
        exact ⟨rfl, htable, hm, seen, hseen, view.schema, hexec,
          ⟨hdone.schema, hdone.inserted, hdone.reported⟩⟩
  | inserting already m rest =>
    obtain ⟨rfl, -, hm, seen, hseen, before, hexec, hdone⟩ := h
    obtain ⟨table, schema⟩ := view
    cases table with
    | none => cases hstep
    | some table =>
      obtain ⟨table', hinsert, rfl⟩ := Option.map_eq_some_iff.mp hstep
      obtain ⟨-, hversions⟩ := SchemaMigrations.insert_eq_some hinsert
      have hinserted : table.versions = found.applied ++ (pending seen found.applied).map (·.version) :=
        hdone.inserted
      refine ⟨rfl, Option.some_ne_none _, seen ++ [m], ?_, ?_⟩
      · rw [List.append_assoc, List.singleton_append]
        exact hseen
      · rw [pending_append_singleton, if_neg hm]
        constructor
        · rw [replay_append, hdone.schema]
          change (execute m.sql before).bind some = some schema
          rw [hexec, Option.bind_some]
        · change table'.versions = _
          rw [hversions, hinserted, List.map_append, List.append_assoc]
          rfl
        · change applied ++ [m.version] = _
          have hreported : applied = (pending seen found.applied).map (·.version) := hdone.reported
          rw [hreported, List.map_append]
          rfl

/-- A statement leaves the list of migrations alone. -/
theorem statement_migrations {t t' : RunnerTransaction S}
    (h : MigrationRunner.statement execute t = some t') : t'.migrations = t.migrations := by
  unfold MigrationRunner.statement at h
  split at h
  · cases h
    rfl
  · cases h
    rfl
  · cases h
  · split at h
    · cases h
      rfl
    · obtain ⟨schema, -, rfl⟩ := Option.map_eq_some_iff.mp h
      rfl
  · split at h
    · cases h
    · obtain ⟨table, -, rfl⟩ := Option.map_eq_some_iff.mp h
      rfl

/-- What the transaction of `k` that found `found` has done, wherever it stands. -/
theorem Alone.progress {k : κ} {found : Database S} {t : RunnerTransaction S}
    (h : (runnerCode execute migrations).Alone k found t) :
    Progress execute found t ∧ t.migrations = migrations k := by
  refine TransactionCode.Alone.invariant (P := fun t => Progress execute found t ∧
    t.migrations = migrations k) ?_ ?_ h
  · exact And.intro (And.intro rfl rfl) rfl
  · intro _ t t' ⟨hprogress, hmigrations⟩ hact
    refine ⟨statement_progress hprogress hact, ?_⟩
    rw [← hmigrations]
    exact statement_migrations hact

/-- What a whole transaction of `k` that found `found` publishes: the pending migrations are
executed, inserted and reported, in their order. -/
theorem transaction_spec {k : κ} {found published : Database S} {t : RunnerTransaction S}
    (h : (runnerCode execute migrations).Alone k found t) (hpub : t.publish = some published) :
    replay execute (pending (migrations k) found.applied) found.schema = some published.schema ∧
      published.applied = found.applied ++ (pending (migrations k) found.applied).map (·.version) ∧
      t.applied = (pending (migrations k) found.applied).map (·.version) := by
  obtain ⟨hprogress, hmigrations⟩ := Alone.progress h
  obtain ⟨all, view, stage, applied⟩ := t
  unfold RunnerTransaction.publish at hpub
  split at hpub
  · rename_i already hstage
    cases hpub
    dsimp only at hstage hmigrations
    subst hstage hmigrations
    obtain ⟨-, -, seen, hseen, hdone⟩ := hprogress
    rw [List.append_nil] at hseen
    dsimp only at hseen
    rw [hseen]
    exact ⟨hdone.schema, hdone.inserted, hdone.reported⟩
  · cases hpub

/-- An insertion succeeds where the key is free. -/
theorem SchemaMigrations.insert_of_notMem {table : SchemaMigrations} {version : String}
    (h : version ∉ table.versions) :
    ∃ table', table.insert version = some table' ∧ table'.versions = table.versions ++ [version] := by
  have hinsert : table.insert version = some _ := dif_neg h
  exact ⟨_, hinsert, (SchemaMigrations.insert_eq_some hinsert).2⟩

/-- A part of a replay that succeeds succeeds. -/
theorem replay_of_append {l₁ l₂ : List Migration} {schema last : S}
    (h : replay execute (l₁ ++ l₂) schema = some last) :
    ∃ middle, replay execute l₁ schema = some middle ∧ replay execute l₂ middle = some last := by
  rw [replay_append] at h
  exact Option.bind_eq_some_iff.mp h

/-- The SQL of a pending migration is executed where the schema takes the SQL of all of them. -/
theorem statement_sql {found : Database S} {t : RunnerTransaction S} {already : List String}
    {m : Migration} {rest : List Migration} {last : S} (h : Progress execute found t)
    (hstage : t.stage = .applying already (m :: rest)) (hm : m.version ∉ already)
    (hreplay : replay execute (pending t.migrations found.applied) found.schema = some last) :
    ∃ t', MigrationRunner.statement execute t = some t' ∧ t'.stage = .inserting already m rest := by
  obtain ⟨all, view, stage, applied⟩ := t
  dsimp only at hstage hreplay
  subst hstage
  obtain ⟨rfl, -, seen, hseen, hdone⟩ := h
  dsimp only at hseen
  have hsplit : pending all found.applied =
      pending seen found.applied ++ (m :: pending rest found.applied) := by
    rw [hseen]
    simp [pending, hm]
  rw [hsplit] at hreplay
  obtain ⟨middle, hmiddle, hrest⟩ := replay_of_append hreplay
  have heq : middle = view.schema := Option.some.inj (hmiddle.symm.trans hdone.schema)
  subst heq
  obtain ⟨schema, hexec, -⟩ := Option.bind_eq_some_iff.mp hrest
  refine ⟨⟨all, { view with schema := schema }, .inserting found.applied m rest, applied⟩, ?_, rfl⟩
  simp only [MigrationRunner.statement, if_neg hm]
  rw [hexec, Option.map_some]

/-- With distinct versions the insertion after the SQL is never refused: the version is neither
found nor inserted before. -/
theorem statement_insert {found : Database S} {t : RunnerTransaction S} {already : List String}
    {m : Migration} {rest : List Migration} (h : Progress execute found t)
    (hstage : t.stage = .inserting already m rest)
    (hdistinct : (t.migrations.map (·.version)).Nodup) :
    ∃ t', MigrationRunner.statement execute t = some t' ∧ t'.stage = .applying already rest := by
  obtain ⟨all, ⟨table, schema⟩, stage, applied⟩ := t
  dsimp only at hstage hdistinct
  subst hstage
  obtain ⟨rfl, htable, hm, seen, hseen, before, -, hdone⟩ := h
  dsimp only at hseen htable
  cases table with
  | none => exact absurd rfl htable
  | some table =>
    have hinserted : table.versions = found.applied ++ (pending seen found.applied).map (·.version) :=
      hdone.inserted
    have hfree : m.version ∉ table.versions := by
      rw [hinserted, List.mem_append, not_or]
      refine ⟨hm, fun hmem => ?_⟩
      obtain ⟨m', hm', hversion⟩ := List.mem_map.mp hmem
      rw [hseen, List.map_append, List.map_cons] at hdistinct
      have hapart := (List.nodup_append.mp hdistinct).2.2
      exact hapart m'.version (List.mem_map_of_mem (List.mem_filter.mp hm').1) m.version
        List.mem_cons_self hversion
    obtain ⟨table', hinsert, -⟩ := SchemaMigrations.insert_of_notMem hfree
    refine ⟨⟨all, ⟨some table', schema⟩, .applying found.applied rest, applied ++ [m.version]⟩, ?_,
      rfl⟩
    simp only [MigrationRunner.statement]
    rw [hinsert, Option.map_some]

/-- Some statements of a transaction, each of which succeeds. -/
def Statements (execute : String → S → Option S) : RunnerTransaction S → RunnerTransaction S → Prop :=
  Relation.ReflTransGen fun t t' => MigrationRunner.statement execute t = some t'

/-- Statements keep the account of what the transaction has done, and its migrations. -/
theorem Statements.progress {found : Database S} {t t' : RunnerTransaction S}
    (h : Statements execute t t') (hp : Progress execute found t) :
    Progress execute found t' ∧ t'.migrations = t.migrations := by
  induction h with
  | refl => exact ⟨hp, rfl⟩
  | tail _ hs ih => exact ⟨statement_progress ih.1 hs, (statement_migrations hs).trans ih.2⟩

/-- The loop ends, when the versions are distinct and the schema takes the SQL of the pending
migrations. The induction is on the migrations that are left. -/
theorem loop_ends {found : Database S} {t : RunnerTransaction S} {already : List String}
    {rest : List Migration} {last : S} (h : Progress execute found t)
    (hstage : t.stage = .applying already rest)
    (hdistinct : (t.migrations.map (·.version)).Nodup)
    (hreplay : replay execute (pending t.migrations found.applied) found.schema = some last) :
    ∃ t', Statements execute t t' ∧ t'.stage = .applying already [] := by
  induction rest generalizing t with
  | nil => exact ⟨t, .refl, hstage⟩
  | cons m rest ih =>
    -- One turn of the loop, of one statement or two.
    have hturn : ∃ t₁, Statements execute t t₁ ∧ t₁.stage = .applying already rest := by
      by_cases hm : m.version ∈ already
      · refine ⟨{ t with stage := .applying already rest }, .single ?_, rfl⟩
        simp only [MigrationRunner.statement, hstage, if_pos hm]
      · obtain ⟨t₁, hsql, hstage₁⟩ := statement_sql h hstage hm hreplay
        obtain ⟨t₂, hinsert, hstage₂⟩ := statement_insert (statement_progress h hsql) hstage₁
          (by rwa [statement_migrations hsql])
        exact ⟨t₂, .tail (.single hsql) hinsert, hstage₂⟩
    obtain ⟨t₁, hsteps, hstage₁⟩ := hturn
    obtain ⟨hp₁, hmigrations⟩ := hsteps.progress h
    obtain ⟨t₂, hrest, hstage₂⟩ := ih hp₁ hstage₁ (by rwa [hmigrations]) (by rwa [hmigrations])
    exact ⟨t₂, hsteps.trans hrest, hstage₂⟩

/-- A transaction with distinct versions comes to its end from wherever it stands, when the schema
takes the SQL of the pending migrations. -/
theorem transaction_ends {found : Database S} {t : RunnerTransaction S} {last : S}
    (h : Progress execute found t) (hdistinct : (t.migrations.map (·.version)).Nodup)
    (hreplay : replay execute (pending t.migrations found.applied) found.schema = some last) :
    ∃ t' published, Statements execute t t' ∧ t'.publish = some published := by
  have hloop : ∃ t₁ rest, Statements execute t t₁ ∧ t₁.stage = .applying found.applied rest := by
    cases hstage : t.stage with
    | creating =>
      have hview : t.view = found := by
        unfold Progress at h
        rw [hstage] at h
        exact h.1
      refine ⟨{ t with view := t.view.createTable, stage := .applying found.applied t.migrations },
        t.migrations, .tail (b := { t with view := t.view.createTable, stage := .reading })
          (.single ?_) ?_, rfl⟩
      · simp only [MigrationRunner.statement, hstage]
      · simp [MigrationRunner.statement, hview]
    | reading =>
      have hview : t.view.applied = found.applied := by
        unfold Progress at h
        rw [hstage] at h
        simpa using h.1.inserted
      refine ⟨{ t with stage := .applying found.applied t.migrations }, t.migrations, .single ?_, rfl⟩
      simp only [MigrationRunner.statement, hstage, hview]
    | applying already rest =>
      unfold Progress at h
      rw [hstage] at h
      rw [h.1] at hstage
      exact ⟨t, rest, .refl, hstage⟩
    | inserting already m rest =>
      obtain ⟨t₁, hinsert, hstage₁⟩ := statement_insert h hstage hdistinct
      unfold Progress at h
      rw [hstage] at h
      rw [h.1] at hstage₁
      exact ⟨t₁, rest, .single hinsert, hstage₁⟩
  obtain ⟨t₁, rest, hsteps, hstage₁⟩ := hloop
  obtain ⟨hp₁, hmigrations⟩ := hsteps.progress h
  obtain ⟨t₂, hrest, hstage₂⟩ := loop_ends hp₁ hstage₁ (by rwa [hmigrations]) (by rwa [hmigrations])
  refine ⟨t₂, t₂.view, hsteps.trans hrest, ?_⟩
  simp only [RunnerTransaction.publish, hstage₂]

end Transaction

/-! ## Any number of runners -/

/-- Where the coroutine of a runner stands. -/
inductive RunnerState
  /-- Not started. -/
  | ready
  /-- Its transaction waits for the lock. -/
  | waiting
  /-- Its transaction has the lock. -/
  | inside
  /-- It returned these versions. -/
  | returned (applied : List String)
  /-- It raised or died. -/
  | raised
  deriving DecidableEq

/-- Postgres and the runners. -/
structure MigrationSystem (κ S : Type*) where
  /-- The database under the advisory lock. -/
  postgres : Exclusive κ (Database S) (RunnerTransaction S)
  /-- The coroutine of each runner. -/
  runners : κ → RunnerState

/-- What can happen next. -/
inductive MigrationStep (κ : Type*)
  /-- A runner acquires a connection, opens its transaction and asks for the lock. -/
  | begin (k : κ)
  /-- Postgres grants the lock. -/
  | lock (k : κ)
  /-- The statement of the runner that has the lock succeeds. -/
  | statement (k : κ)
  /-- The runner's transaction commits; it may not live to hear of it. -/
  | commit (k : κ) (answered : Bool)
  /-- A statement of the runner fails, or the runner dies: its transaction is rolled back. -/
  | fail (k : κ)
  deriving DecidableEq

section System

variable {κ S : Type*} [DecidableEq κ]

/-- The system with another state of one runner. -/
def MigrationSystem.set (s : MigrationSystem κ S) (k : κ) (r : RunnerState) : MigrationSystem κ S :=
  { s with runners := Function.update s.runners k r }

/-- The party that has the lock. -/
def Exclusive.holder {σ β : Type*} (e : Exclusive κ σ β) : Option κ := e.active.map Prod.fst

/-- One step; none where it cannot be taken. -/
def MigrationSystem.step (execute : String → S → Option S) (migrations : κ → List Migration)
    (s : MigrationSystem κ S) : MigrationStep κ → Option (MigrationSystem κ S)
  | .begin k => if s.runners k = .ready then some (s.set k .waiting) else none
  | .lock k =>
    if s.runners k = .waiting then
      (s.postgres.step (runnerCode execute migrations) (.lock k)).map fun p =>
        { s.set k .inside with postgres := p }
    else none
  | .statement k =>
    if s.postgres.holder = some k then
      (s.postgres.step (runnerCode execute migrations) (.act ())).map fun p => { s with postgres := p }
    else none
  | .commit k answered => match s.postgres.active with
    | none => none
    | some (holder, t) =>
      if holder = k then
        (s.postgres.step (runnerCode execute migrations) .commit).map fun p =>
          { s.set k (if answered then .returned t.applied else .raised) with postgres := p }
      else none
  | .fail k => match s.runners k with
    | .waiting => some (s.set k .raised)
    | .inside => (s.postgres.step (runnerCode execute migrations) .rollback).map fun p =>
        { s.set k .raised with postgres := p }
    | _ => none

/-- The runners as a machine, from a database that a former release has left. -/
def migrationMachine (execute : String → S → Option S) (migrations : κ → List Migration)
    (found : Database S) : Machine (MigrationSystem κ S) (MigrationStep κ) where
  init s := s = ⟨⟨found, none, []⟩, fun _ => .ready⟩
  allowed s i := (s.step execute migrations i).isSome
  exec i s := (s.step execute migrations i).getD s

/-- Whether a step can be taken is computed. -/
instance (execute : String → S → Option S) (migrations : κ → List Migration) (found : Database S)
    (s : MigrationSystem κ S) (i : MigrationStep κ) :
    Decidable ((migrationMachine execute migrations found).allowed s i) :=
  inferInstanceAs (Decidable ((s.step execute migrations i).isSome = true))

variable {execute : String → S → Option S} {migrations : κ → List Migration} {found : Database S}

@[simp] theorem MigrationSystem.set_postgres (s : MigrationSystem κ S) (k : κ) (r : RunnerState) :
    (s.set k r).postgres = s.postgres := rfl

@[simp] theorem MigrationSystem.set_runners (s : MigrationSystem κ S) (k : κ) (r : RunnerState) :
    (s.set k r).runners = Function.update s.runners k r := rfl

/-- What a step can do: the step of Postgres, if it takes one, and the state of the runner. -/
theorem MigrationSystem.step_cases {s s' : MigrationSystem κ S} {i : MigrationStep κ}
    (h : s.step execute migrations i = some s') :
    (∃ k, i = .begin k ∧ s.runners k = .ready ∧ s' = s.set k .waiting) ∨
    (∃ k p, i = .lock k ∧ s.runners k = .waiting ∧
      s.postgres.step (runnerCode execute migrations) (.lock k) = some p ∧
      s' = { s.set k .inside with postgres := p }) ∨
    (∃ k p, i = .statement k ∧ s.postgres.holder = some k ∧
      s.postgres.step (runnerCode execute migrations) (.act ()) = some p ∧
      s' = { s with postgres := p }) ∨
    (∃ k answered t p, i = .commit k answered ∧ s.postgres.active = some (k, t) ∧
      s.postgres.step (runnerCode execute migrations) .commit = some p ∧
      s' = { s.set k (if answered then .returned t.applied else .raised) with postgres := p }) ∨
    (∃ k, i = .fail k ∧ s.runners k = .waiting ∧ s' = s.set k .raised) ∨
    (∃ k p, i = .fail k ∧ s.runners k = .inside ∧
      s.postgres.step (runnerCode execute migrations) .rollback = some p ∧
      s' = { s.set k .raised with postgres := p }) := by
  cases i with
  | begin k =>
    simp only [step] at h
    split at h
    · rename_i hready
      cases h
      exact .inl ⟨k, rfl, hready, rfl⟩
    · cases h
  | lock k =>
    simp only [step] at h
    split at h
    · rename_i hwaiting
      obtain ⟨p, hp, rfl⟩ := Option.map_eq_some_iff.mp h
      exact .inr (.inl ⟨k, p, rfl, hwaiting, hp, rfl⟩)
    · cases h
  | statement k =>
    simp only [step] at h
    split at h
    · rename_i hholder
      obtain ⟨p, hp, rfl⟩ := Option.map_eq_some_iff.mp h
      exact .inr (.inr (.inl ⟨k, p, rfl, hholder, hp, rfl⟩))
    · cases h
  | commit k answered =>
    simp only [step] at h
    split at h
    · cases h
    · rename_i holder t hactive
      split at h
      · rename_i hk
        subst hk
        obtain ⟨p, hp, rfl⟩ := Option.map_eq_some_iff.mp h
        exact .inr (.inr (.inr (.inl ⟨holder, answered, t, p, rfl, hactive, hp, rfl⟩)))
      · cases h
  | fail k =>
    simp only [step] at h
    split at h
    · rename_i hwaiting
      cases h
      exact .inr (.inr (.inr (.inr (.inl ⟨k, rfl, hwaiting, rfl⟩))))
    · rename_i hinside
      obtain ⟨p, hp, rfl⟩ := Option.map_eq_some_iff.mp h
      exact .inr (.inr (.inr (.inr (.inr ⟨k, p, rfl, hinside, hp, rfl⟩))))
    · cases h

/-- An allowed label is a step. -/
theorem MigrationSystem.step_of_allowed {s : MigrationSystem κ S} {i : MigrationStep κ}
    (h : (migrationMachine execute migrations found).allowed s i) :
    s.step execute migrations i = some ((migrationMachine execute migrations found).exec i s) := by
  obtain ⟨s', hs⟩ := Option.isSome_iff_exists.mp h
  rw [hs]
  exact congrArg some (by simp only [migrationMachine, hs, Option.getD_some])

/-- Postgres sees transactions under one exclusive lock: every step of the system is a step of it
or leaves it alone. -/
theorem MigrationSystem.postgres_reach {s : MigrationSystem κ S}
    (h : (migrationMachine execute migrations found).Reach s) :
    (Exclusive.machine (runnerCode execute migrations) found).Reach s.postgres := by
  refine h.map (f := MigrationSystem.postgres) ?_ ?_
  · rintro s rfl
    rfl
  · intro s i _ _ ha
    have hstep := step_of_allowed ha
    revert hstep
    generalize (migrationMachine execute migrations found).exec i s = s'
    intro hstep
    obtain ⟨k, -, -, rfl⟩ | ⟨k, p, -, -, hp, rfl⟩ | ⟨k, p, -, -, hp, rfl⟩ | ⟨k, _, t, p, -, -, hp, rfl⟩ |
      ⟨k, -, -, rfl⟩ | ⟨k, p, -, -, hp, rfl⟩ := step_cases hstep
    · exact .refl
    · exact Exclusive.later_of_step found hp
    · exact Exclusive.later_of_step found hp
    · exact Exclusive.later_of_step found hp
    · exact .refl
    · exact Exclusive.later_of_step found hp

/-- What the coroutines know: a runner is inside exactly while it has the lock, and a journalled
transaction is its runner's only one, which is over. -/
structure MigrationSystem.Coherent (s : MigrationSystem κ S) : Prop where
  /-- The holder is the runner that is inside. -/
  inside : ∀ k, s.runners k = .inside ↔ s.postgres.holder = some k
  /-- The runner of a journalled transaction is done. -/
  journalled : ∀ k t, (k, t) ∈ s.postgres.journal →
    s.runners k = .returned t.applied ∨ s.runners k = .raised
  /-- What a runner returned is journalled. -/
  returned : ∀ k applied, s.runners k = .returned applied →
    ∃ t, (k, t) ∈ s.postgres.journal ∧ t.applied = applied

/-- A runner that has journalled nothing moves, and Postgres with it: they still agree when they
agree about this runner and nothing changes for the others. -/
theorem MigrationSystem.Coherent.move {s : MigrationSystem κ S} (h : s.Coherent) {k : κ}
    {p : Exclusive κ (Database S) (RunnerTransaction S)} {r : RunnerState}
    (hfresh : ∀ t, (k, t) ∉ s.postgres.journal)
    (hothers : ∀ k', k' ≠ k → (p.holder = some k' ↔ s.postgres.holder = some k'))
    (hself : r = .inside ↔ p.holder = some k)
    (hkeep : s.postgres.journal ⊆ p.journal)
    (hjournal : ∀ k' t, (k', t) ∈ p.journal → (k', t) ∈ s.postgres.journal ∨
      k' = k ∧ (r = .returned t.applied ∨ r = .raised))
    (hreturned : ∀ applied, r = .returned applied → ∃ t, (k, t) ∈ p.journal ∧ t.applied = applied) :
    MigrationSystem.Coherent { s.set k r with postgres := p } := by
  refine ⟨fun k' => ?_, fun k' t ht => ?_, fun k' applied hk' => ?_⟩
  · by_cases hk : k' = k
    · subst hk
      simpa using hself
    · simpa [Function.update_of_ne hk, hothers k' hk] using h.inside k'
  · obtain hold | ⟨rfl, hr⟩ := hjournal k' t ht
    · have hk : k' ≠ k := by
        rintro rfl
        exact hfresh t hold
      simpa [Function.update_of_ne hk] using h.journalled k' t hold
    · simpa using hr
  · by_cases hk : k' = k
    · subst hk
      exact hreturned applied (by simpa using hk')
    · obtain ⟨t, ht, happlied⟩ := h.returned k' applied (by simpa [Function.update_of_ne hk] using hk')
      exact ⟨t, hkeep ht, happlied⟩

omit [DecidableEq κ] in
/-- A runner that is not done has journalled nothing. -/
theorem MigrationSystem.Coherent.fresh {s : MigrationSystem κ S} (h : s.Coherent) {k : κ}
    (hreturned : ∀ applied, s.runners k ≠ .returned applied) (hraised : s.runners k ≠ .raised)
    (t : RunnerTransaction S) : (k, t) ∉ s.postgres.journal := by
  intro ht
  obtain hdone | hdone := h.journalled k t ht
  · exact hreturned _ hdone
  · exact hraised hdone

/-- The runners' coroutines and Postgres agree in every reachable state. -/
theorem MigrationSystem.coherent {s : MigrationSystem κ S}
    (h : (migrationMachine execute migrations found).Reach s) : s.Coherent := by
  refine h.invariant ?_ ?_
  · rintro s rfl
    exact ⟨fun k => by simp [Exclusive.holder], fun k t ht => by simp at ht,
      fun k applied hk => by simp at hk⟩
  · intro s i _ hinv ha
    have hstep := step_of_allowed ha
    revert hstep
    generalize (migrationMachine execute migrations found).exec i s = s'
    intro hstep
    obtain ⟨k, -, hk, rfl⟩ | ⟨k, p, -, hk, hp, rfl⟩ | ⟨k, p, -, hk, hp, rfl⟩ |
      ⟨k, answered, t, p, -, hactive, hp, rfl⟩ | ⟨k, -, hk, rfl⟩ | ⟨k, p, -, hk, hp, rfl⟩ :=
      step_cases hstep
    · -- begin
      refine hinv.move (p := s.postgres) (hinv.fresh (by simp [hk]) (by simp [hk]))
        (fun _ _ => Iff.rfl) ?_ (List.Subset.refl _) (fun _ _ ht => .inl ht) (by simp)
      simp [← hinv.inside, hk]
    · -- lock
      obtain ⟨_, ⟨⟩, hnone, rfl⟩ | ⟨_, _, _, _, hi, -⟩ | ⟨_, _, _, hi, -⟩ | ⟨_, _, hi, -⟩ :=
        Exclusive.step_cases hp
      · refine hinv.move (hinv.fresh (by simp [hk]) (by simp [hk])) (fun k' hk' => ?_) ?_
          (List.Subset.refl _) (fun _ _ ht => .inl ht) (by simp)
        · simp [Exclusive.holder, hnone, hk'.symm]
        · simp [Exclusive.holder]
      · cases hi
      · cases hi
      · cases hi
    · -- statement
      obtain ⟨_, hi, -⟩ | ⟨_, k', t, t', ⟨⟩, hactive, -, rfl⟩ | ⟨_, _, _, hi, -⟩ | ⟨_, _, hi, -⟩ :=
        Exclusive.step_cases hp
      · cases hi
      · refine ⟨fun k'' => ?_, hinv.journalled, hinv.returned⟩
        simpa [Exclusive.holder, hactive] using hinv.inside k''
      · cases hi
      · cases hi
    · -- commit
      obtain ⟨_, hi, -⟩ | ⟨_, _, _, _, hi, -⟩ | ⟨_, _, c, -, hactive', hpub, rfl⟩ | ⟨_, _, hi, -⟩ :=
        Exclusive.step_cases hp
      · cases hi
      · cases hi
      · cases hactive.symm.trans hactive'
        have hk : s.runners k = .inside := (hinv.inside k).mpr (by simp [Exclusive.holder, hactive])
        refine hinv.move (hinv.fresh (by simp [hk]) (by simp [hk])) (fun k' hk' => ?_) ?_
          (List.subset_cons_self _ _) (fun k' t' ht => ?_) (fun applied hr => ?_)
        · simp [Exclusive.holder, hactive, hk'.symm]
        · cases answered <;> simp [Exclusive.holder]
        · obtain heq | ht := List.mem_cons.mp ht
          · cases heq
            cases answered <;> simp
          · exact .inl ht
        · cases answered with
          | false => simp at hr
          | true =>
            refine ⟨t, List.mem_cons_self, ?_⟩
            simpa using hr
      · cases hi
    · -- fail before the lock
      refine hinv.move (p := s.postgres) (hinv.fresh (by simp [hk]) (by simp [hk]))
        (fun _ _ => Iff.rfl) ?_ (List.Subset.refl _) (fun _ _ ht => .inl ht) (by simp)
      simp [← hinv.inside, hk]
    · -- fail inside
      obtain ⟨_, hi, -⟩ | ⟨_, _, _, _, hi, -⟩ | ⟨_, _, _, hi, -⟩ | ⟨k', t, -, hactive, rfl⟩ :=
        Exclusive.step_cases hp
      · cases hi
      · cases hi
      · cases hi
      · have hholder := (hinv.inside k).mp hk
        simp only [Exclusive.holder, hactive, Option.map_some, Option.some.injEq] at hholder
        subst hholder
        refine hinv.move (hinv.fresh (by simp [hk]) (by simp [hk])) (fun k'' hk'' => ?_) ?_
          (List.Subset.refl _) (fun _ _ ht => .inl ht) (by simp)
        · simp [Exclusive.holder, hactive, hk''.symm]
        · simp [Exclusive.holder]

omit [DecidableEq κ] in
/-- What a journal of whole transactions has made of a database: `ms` are the migrations they
executed. -/
structure Journalled (execute : String → S → Option S) (migrations : κ → List Migration)
    (found : Database S) (journal : List (κ × RunnerTransaction S)) (now : Database S)
    (ms : List Migration) : Prop where
  /-- Their versions were inserted in this order. -/
  versions : now.applied = found.applied ++ ms.map (·.version)
  /-- Their SQL made the schema. -/
  schema : replay execute ms found.schema = some now.schema
  /-- Each is one of the migrations of a runner. -/
  shipped : ∀ m ∈ ms, ∃ k, m ∈ migrations k
  /-- Each transaction executed what was pending for its runner when it began, and reported that. -/
  transaction : ∀ k t, (k, t) ∈ journal → ∃ before after,
    ms = before ++ pending (migrations k) (found.applied ++ before.map (·.version)) ++ after ∧
      t.applied = (pending (migrations k) (found.applied ++ before.map (·.version))).map (·.version)
  /-- No two transactions report one version. -/
  apart : journal.Pairwise fun p q => p.2.applied.Disjoint q.2.applied

omit [DecidableEq κ] in
/-- Serial transactions execute every migration once. -/
theorem Serial.journalled {journal : List (κ × RunnerTransaction S)} {now : Database S}
    (h : (runnerCode execute migrations).Serial found journal now) :
    ∃ ms, Journalled execute migrations found journal now ms := by
  refine TransactionCode.Serial.rule (P := fun journal now =>
    ∃ ms, Journalled execute migrations found journal now ms) ?_ ?_ h
  · exact ⟨[], by simp, rfl, by simp, by simp, .nil⟩
  · rintro l k t c d ⟨ms, hms⟩ halone hpub
    obtain ⟨hschema, hversions, happlied⟩ := transaction_spec halone hpub
    rw [hms.versions] at hschema hversions happlied
    set new := pending (migrations k) (found.applied ++ ms.map (·.version)) with hnew
    refine ⟨ms ++ new, ?_, ?_, ?_, ?_, ?_⟩
    · rw [hversions, List.map_append, List.append_assoc]
    · rw [replay_append, hms.schema]
      exact hschema
    · intro m hm
      obtain hm | hm := List.mem_append.mp hm
      · exact hms.shipped m hm
      · exact ⟨k, (List.mem_filter.mp hm).1⟩
    · intro k' t' ht
      obtain heq | ht := List.mem_cons.mp ht
      · cases heq
        exact ⟨ms, [], (List.append_nil _).symm, happlied⟩
      · obtain ⟨before, after, hsplit, hreported⟩ := hms.transaction k' t' ht
        refine ⟨before, after ++ new, ?_, hreported⟩
        rw [hsplit, ← List.append_assoc, ← hsplit]
    · refine List.pairwise_cons.mpr ⟨?_, hms.apart⟩
      rintro ⟨k', t'⟩ ht v hv hv'
      -- What an earlier transaction reported is applied, so it is not pending now.
      obtain ⟨before, after, hsplit, hreported⟩ := hms.transaction k' t' ht
      have hold : v ∈ found.applied ++ ms.map (·.version) := by
        rw [hsplit, List.map_append, List.map_append, ← hreported]
        exact List.mem_append_right _ (List.mem_append_left _ (List.mem_append_right _ hv'))
      dsimp only at hv
      rw [happlied] at hv
      obtain ⟨m, hm, rfl⟩ := List.mem_map.mp hv
      exact of_decide_eq_true (List.mem_filter.mp hm).2 hold

/-- What any number of runners have done to the database they found: `ms` are the migrations that
they executed, each once. -/
structure MigrationSystem.Migrated (execute : String → S → Option S)
    (migrations : κ → List Migration) (found : Database S) (s : MigrationSystem κ S)
    (ms : List Migration) : Prop where
  /-- Their versions were inserted in this order. -/
  versions : s.postgres.committed.applied = found.applied ++ ms.map (·.version)
  /-- No version is there twice. -/
  once : s.postgres.committed.applied.Nodup
  /-- Their SQL, executed once each and in this order, made the schema. -/
  schema : replay execute ms found.schema = some s.postgres.committed.schema
  /-- Each is one of the migrations of a runner. -/
  shipped : ∀ m ∈ ms, ∃ k, m ∈ migrations k
  /-- A runner that returned executed what was pending when it got the lock, and returned that. -/
  returned : ∀ k applied, s.runners k = .returned applied → ∃ before after,
    ms = before ++ pending (migrations k) (found.applied ++ before.map (·.version)) ++ after ∧
      applied = (pending (migrations k) (found.applied ++ before.map (·.version))).map (·.version)
  /-- All its migrations are applied. -/
  complete : ∀ k applied, s.runners k = .returned applied →
    ∀ m ∈ migrations k, m.version ∈ s.postgres.committed.applied
  /-- No version is reported by two runners. -/
  apart : ∀ k k' applied applied', k ≠ k' → s.runners k = .returned applied →
    s.runners k' = .returned applied' → applied.Disjoint applied'

/-- The applied versions are distinct. -/
theorem Database.applied_nodup (d : Database S) : d.applied.Nodup := by
  cases d with
  | mk table schema =>
    cases table with
    | none => exact List.nodup_nil
    | some table => exact table.distinct

/-- The committed versions only grow. -/
theorem MigrationSystem.applied_grows {s s' : MigrationSystem κ S}
    (h : (migrationMachine execute migrations found).Reach s)
    (hl : (migrationMachine execute migrations found).Later s s') :
    s.postgres.committed.applied <+: s'.postgres.committed.applied := by
  refine hl.stable (P := fun t => s.postgres.committed.applied <+: t.postgres.committed.applied) ?_ h
    (List.prefix_refl _)
  intro t i hreach hgrown ha
  refine hgrown.trans ?_
  have halone := (Exclusive.serial (postgres_reach hreach)).2
  have hstep := step_of_allowed ha
  revert hstep
  generalize (migrationMachine execute migrations found).exec i t = t'
  intro hstep
  -- Postgres took a step or none, and only a commit changes what is committed.
  have hpostgres : t'.postgres = t.postgres ∨
      ∃ j, t.postgres.step (runnerCode execute migrations) j = some t'.postgres := by
    obtain ⟨k, -, -, rfl⟩ | ⟨k, p, -, -, hp, rfl⟩ | ⟨k, p, -, -, hp, rfl⟩ |
      ⟨k, _, _, p, -, -, hp, rfl⟩ | ⟨k, -, -, rfl⟩ | ⟨k, p, -, -, hp, rfl⟩ := step_cases hstep
    · exact .inl rfl
    · exact .inr ⟨_, hp⟩
    · exact .inr ⟨_, hp⟩
    · exact .inr ⟨_, hp⟩
    · exact .inl rfl
    · exact .inr ⟨_, hp⟩
  have hcommitted : t'.postgres.committed = t.postgres.committed ∨
      ∃ k b, t.postgres.active = some (k, b) ∧ b.publish = some t'.postgres.committed := by
    obtain heq | ⟨j, hj⟩ := hpostgres
    · exact .inl (congrArg _ heq)
    · obtain ⟨_, -, -, heq⟩ | ⟨_, _, _, _, -, -, -, heq⟩ | ⟨k, b, c, -, hactive, hpub, heq⟩ |
        ⟨_, _, -, -, heq⟩ := Exclusive.step_cases hj
      · exact .inl (by rw [heq])
      · exact .inl (by rw [heq])
      · refine .inr ⟨k, b, hactive, ?_⟩
        rw [heq]
        exact hpub
      · exact .inl (by rw [heq])
  obtain heq | ⟨k, b, hactive, hpub⟩ := hcommitted
  · exact heq ▸ List.prefix_refl _
  · exact ⟨_, (transaction_spec (halone k b hactive) hpub).2.1.symm⟩

/-- However any number of runners interleave, fail and die, every reachable database is the one
they found with some of their migrations executed once each, one after another, and recorded in that
order; a runner that returned has all its migrations applied, reported exactly those that it executed
itself, and what is recorded stays. -/
theorem migrations_once (execute : String → S → Option S) (migrations : κ → List Migration)
    (found : Database S) {s : MigrationSystem κ S}
    (h : (migrationMachine execute migrations found).Reach s) :
    (∃ ms, s.Migrated execute migrations found ms) ∧
      ∀ s', (migrationMachine execute migrations found).Later s s' →
        s.postgres.committed.applied <+: s'.postgres.committed.applied := by
  refine ⟨?_, fun s' hl => MigrationSystem.applied_grows h hl⟩
  obtain ⟨hserial, -⟩ := Exclusive.serial (MigrationSystem.postgres_reach h)
  obtain ⟨ms, hms⟩ := Serial.journalled hserial
  have hcoherent := MigrationSystem.coherent h
  have hreturned : ∀ k applied, s.runners k = .returned applied → ∃ before after,
      ms = before ++ pending (migrations k) (found.applied ++ before.map (·.version)) ++ after ∧
        applied =
          (pending (migrations k) (found.applied ++ before.map (·.version))).map (·.version) := by
    intro k applied hk
    obtain ⟨t, ht, rfl⟩ := hcoherent.returned k applied hk
    exact hms.transaction k t ht
  refine ⟨ms, hms.versions, Database.applied_nodup _, hms.schema, hms.shipped, hreturned, ?_, ?_⟩
  · intro k applied hk m hm
    obtain ⟨before, after, hsplit, -⟩ := hreturned k applied hk
    rw [hms.versions, hsplit]
    by_cases hdone : m.version ∈ found.applied ++ before.map (·.version)
    · rw [List.append_assoc, List.map_append, ← List.append_assoc]
      exact List.mem_append_left _ hdone
    · have hpending : m ∈ pending (migrations k) (found.applied ++ before.map (·.version)) :=
        List.mem_filter.mpr ⟨hm, decide_eq_true hdone⟩
      refine List.mem_append_right _ (List.mem_map_of_mem ?_)
      exact List.mem_append_left _ (List.mem_append_right _ hpending)
  · intro k k' applied applied' hne hk hk'
    obtain ⟨t, ht, rfl⟩ := hcoherent.returned k applied hk
    obtain ⟨t', ht', rfl⟩ := hcoherent.returned k' applied' hk'
    have hsymm : Std.Symm fun p q : κ × RunnerTransaction S => p.2.applied.Disjoint q.2.applied :=
      ⟨fun _ _ hd v hv hv' => hd hv' hv⟩
    exact hms.apart.forall ht ht' fun heq => hne (congrArg Prod.fst heq)

variable (migrations found) in
/-- The statements of the runner that has the lock are steps of the system. -/
theorem MigrationSystem.later_of_statements {s : MigrationSystem κ S} {k : κ}
    {t t' : RunnerTransaction S} (hactive : s.postgres.active = some (k, t))
    (h : Statements execute t t') :
    (migrationMachine execute migrations found).Later s
      { s with postgres := { s.postgres with active := some (k, t') } } := by
  induction h with
  | refl =>
    rw [← hactive]
    exact .refl
  | tail _ hs ih =>
    rename_i b c _
    have hstep : MigrationSystem.step execute migrations
        { s with postgres := { s.postgres with active := some (k, b) } } (.statement k) =
          some { s with postgres := { s.postgres with active := some (k, c) } } := by
      simp [step, Exclusive.holder, Exclusive.step, runnerCode, hs]
    refine ih.tail ⟨.statement k, ?_, ?_⟩
    · simp only [migrationMachine, hstep, Option.isSome_some]
    · simp only [migrationMachine, hstep, Option.getD_some]

/-- Postgres at the sample: it takes all SQL but the empty one, and remembers it. -/
def sampleExecute (sql : String) (schema : List String) : Option (List String) :=
  if sql = "" then none else some (schema ++ [sql])

/-- The migrations of the replicas of two releases. -/
def sampleMigrations (k : Bool × Bool) : List Migration :=
  ⟨"0001_first", "CREATE"⟩ :: if k.1 then [⟨"0002_second", "ALTER"⟩] else []

/-- Two releases start at once. The first one dies with the lock; of the others, which are its
restart and the newer release, the restart executes the common migration. -/
def sampleRun : List (MigrationStep (Bool × Bool)) :=
  [.begin (false, false), .begin (true, false), .lock (false, false), .statement (false, false),
    .fail (false, false), .begin (false, true), .lock (false, true), .statement (false, true),
    .statement (false, true), .statement (false, true), .statement (false, true),
    .commit (false, true) true, .lock (true, false), .statement (true, false),
    .statement (true, false), .statement (true, false), .statement (true, false),
    .statement (true, false), .commit (true, false) true]

/-- The replicas of two releases on an empty database. -/
abbrev sampleMachine : Machine (MigrationSystem (Bool × Bool) (List String)) (MigrationStep (Bool × Bool)) :=
  migrationMachine sampleExecute sampleMigrations ⟨none, []⟩

/-- Their state after some steps. -/
def sampleAfter (steps : List (MigrationStep (Bool × Bool))) :
    MigrationSystem (Bool × Bool) (List String) :=
  sampleMachine.final ⟨⟨⟨none, []⟩, none, []⟩, fun _ => .ready⟩ steps

theorem migrations_once_restart :
    (∃ ms, (sampleAfter sampleRun).Migrated sampleExecute sampleMigrations
      ⟨none, []⟩ ms) ∧
      ∀ s', sampleMachine.Later (sampleAfter sampleRun) s' →
        (sampleAfter sampleRun).postgres.committed.applied <+: s'.postgres.committed.applied :=
  migrations_once sampleExecute sampleMigrations ⟨none, []⟩
    ((Machine.Reach.init rfl).final (by decide))

example : (sampleAfter sampleRun).runners (true, false) = .returned ["0002_second"] := by decide

/-- A runner with discovered migrations that has the lock is never stuck: wherever its transaction
stands and whatever others did before, when the schema takes the SQL of its pending migrations then
it can run to its end, and it then returns these and has made their schema. -/
theorem runner_finishes (execute : String → S → Option S) (migrations : κ → List Migration)
    (found : Database S) {s : MigrationSystem κ S}
    (h : (migrationMachine execute migrations found).Reach s) {k : κ} (hk : s.runners k = .inside)
    {directory : Option Directory} (hdirectory : discoverMigrations directory = some (migrations k))
    {schema : S} (hreplay : replay execute (pending (migrations k) s.postgres.committed.applied)
      s.postgres.committed.schema = some schema) :
    ∃ s', (migrationMachine execute migrations found).Later s s' ∧
      s'.runners k =
        .returned ((pending (migrations k) s.postgres.committed.applied).map (·.version)) ∧
      s'.postgres.committed.schema = schema ∧ s'.postgres.holder = none := by
  have hholder := ((MigrationSystem.coherent h).inside k).mp hk
  have hactive : ∃ t, s.postgres.active = some (k, t) := by
    obtain ⟨⟨k', t⟩, hactive, hk'⟩ := Option.map_eq_some_iff.mp hholder
    exact ⟨t, by rw [hactive, show k' = k from hk']⟩
  obtain ⟨t, hactive⟩ := hactive
  obtain ⟨hprogress, hmigrations⟩ :=
    Alone.progress ((Exclusive.serial (MigrationSystem.postgres_reach h)).2 k t hactive)
  have hdistinct := discoverMigrations_nodup hdirectory
  rw [← hmigrations] at hdistinct hreplay
  obtain ⟨t', published, hsteps, hpub⟩ := transaction_ends hprogress hdistinct hreplay
  have hlater := MigrationSystem.later_of_statements migrations found hactive hsteps
  -- What the whole transaction is, seen from the state in which it is about to commit.
  have halone := (Exclusive.serial (MigrationSystem.postgres_reach (h.later hlater))).2 k t' rfl
  obtain ⟨hschema, -, hreported⟩ := transaction_spec halone hpub
  dsimp only at hschema hreported
  rw [← hmigrations, hreplay] at hschema
  have hcommit : MigrationSystem.step execute migrations
      { s with postgres := { s.postgres with active := some (k, t') } } (.commit k true) =
        some ⟨⟨published, none, (k, t') :: s.postgres.journal⟩,
          Function.update s.runners k (.returned t'.applied)⟩ := by
    simp [MigrationSystem.step, Exclusive.step, runnerCode, hpub, MigrationSystem.set]
  refine ⟨_, hlater.tail ⟨.commit k true, Option.isSome_iff_exists.mpr ⟨_, hcommit⟩, rfl⟩, ?_⟩
  simp only [migrationMachine, hcommit, Option.getD_some]
  refine ⟨?_, (Option.some.inj hschema).symm, rfl⟩
  rw [Function.update_self, hreported]

/-- The migrations directory of the older release. -/
def sampleDirectory : Directory where
  entries := [⟨"0001_first.sql", true, some "CREATE"⟩]
  distinct := by decide

theorem runner_finishes_restart :
    ∃ s', sampleMachine.Later (sampleAfter (sampleRun.take 9)) s' ∧
      s'.runners (false, true) = .returned ((pending (sampleMigrations (false, true))
        (sampleAfter (sampleRun.take 9)).postgres.committed.applied).map (·.version)) ∧
      s'.postgres.committed.schema = ["CREATE"] ∧ s'.postgres.holder = none := by
  have hreach : sampleMachine.Reach (sampleAfter (sampleRun.take 9)) :=
    (Machine.Reach.init rfl).final (by decide)
  have hdirectory : discoverMigrations (some sampleDirectory) = some (sampleMigrations (false, true)) := by
    simp only [discoverMigrations, sampleDirectory, List.mergeSort_singleton]
    decide
  exact runner_finishes sampleExecute sampleMigrations ⟨none, []⟩ hreach (by decide) hdirectory
    (by decide)

end System

end Dibs
