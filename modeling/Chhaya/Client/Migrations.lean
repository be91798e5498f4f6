import Chhaya.Lib.Sqlite

/-!
# The schema of the local database

The five migrations of the client database, and the runner that takes a database to a version. Between its runs rows are
inserted.

- `up_schema`, `down_schema`: the schema that one migration makes of another, with the indexes that were lost before.
- `migrateTo_spec`: a run of the runner succeeds, makes the schema of its target and keeps the rows.
- `history_inv`: where the database stands after a sequence of targets.
- `migrations_pathIndependent`: the schema is that of a fresh database if and only if the indexes are not lost, and rows
  are kept.
-/

namespace Chhaya

namespace Migrations

open Sqlite (Value Column Layout Row Table Index Db Schema Step Stmt Grown Shrunk)

inductive DbTables
  | schemaVersion
  | users
  | contacts
  | conversations
  | participants
  | messages
  | devices
  | circuits
  | kv
  deriving DecidableEq, Nonempty

inductive DbCols
  | id
  | createdAt
  | version
  | appliedAt
  | chhayaId
  | displayNameEnc
  | publicKey
  | encryptedPrivateKey
  | userId
  | contactId
  | avatarEnc
  | verificationLevel
  | isBlocked
  | addedAt
  | type
  | nameEnc
  | avatarBlob
  | createdBy
  | pinned
  | lastTs
  | conversationId
  | joinedAt
  | leftAt
  | isAdmin
  | senderId
  | encryptedContent
  | contentType
  | mediaBlob
  | mediaMetaEnc
  | replyToId
  | sentAt
  | deliveredAt
  | readAt
  | deviceName
  | platform
  | fcmTokenEncrypted
  | isLinked
  | lastActiveAt
  | pathEnc
  | expiresAt
  | key
  | value
  -- a literal of the fifth migration
  | payloadEnc
  deriving DecidableEq

inductive DbIndices
  | messagesByConversation
  | participantsByUser
  | conversationsOrder
  | contactsByUser
  | devicesByUser
  deriving DecidableEq

/-- A table, or the copy `<table>_downgrade_tmp` that takes its place. -/
inductive TableName
  | of (t : DbTables)
  | downgradeTmp (t : DbTables)
  deriving DecidableEq, Nonempty

abbrev Database := Db TableName DbCols DbIndices

abbrev DatabaseSchema := Schema TableName DbCols DbIndices

abbrev Statement := Step TableName DbCols DbIndices

instance : Coe DbTables TableName := ⟨TableName.of⟩

/-! ## The migrations -/

def text (name : DbCols) : Column DbCols := { name, type := "TEXT" }

def integer (name : DbCols) : Column DbCols := { name, type := "INTEGER" }

def blob (name : DbCols) : Column DbCols := { name, type := "BLOB" }

def primaryKey (c : Column DbCols) : Column DbCols := { c with primaryKey := true }

def unique (c : Column DbCols) : Column DbCols := { c with unique := true }

def notNull (c : Column DbCols) : Column DbCols := { c with notNull := true }

def withDefault (v : Value) (c : Column DbCols) : Column DbCols := { c with default := v }

def createTable (t : DbTables) (layout : Layout DbCols) : Statement := .run (.createTable t layout true)

def createIndex (i : DbIndices) (t : DbTables) (columns : List DbCols) : Statement := .run (.createIndex i t columns)

def dropIndex (i : DbIndices) : Statement := .run (.dropIndex i)

def dropTable (t : DbTables) : Statement := .run (.dropTable t true)

structure Migration where
  version : Nat
  up : List Statement
  down : List Statement

def usersTable : Layout DbCols where
  columns := [primaryKey (text .id), notNull (unique (text .chhayaId)), notNull (text .displayNameEnc),
    notNull (text .publicKey), notNull (text .encryptedPrivateKey), notNull (integer .createdAt)]

def contactsTable : Layout DbCols where
  columns := [notNull (text .userId), notNull (text .contactId), notNull (text .displayNameEnc), text .avatarEnc,
    withDefault (.integer 1) (notNull (integer .verificationLevel)),
    withDefault (.integer 0) (notNull (integer .isBlocked)), notNull (integer .addedAt)]
  primaryKey := [.userId, .contactId]

def kvTable : Layout DbCols where
  columns := [primaryKey (text .key), notNull (text .value)]

def migrationV001Initial : Migration where
  version := 1
  up := [createTable .users usersTable, createTable .contacts contactsTable, createTable .kv kvTable,
    createIndex .contactsByUser .contacts [.userId]]
  down := [dropIndex .contactsByUser, dropTable .kv, dropTable .contacts, dropTable .users]

def conversationsTable : Layout DbCols where
  columns := [primaryKey (text .id), notNull (text .type), text .nameEnc, blob .avatarBlob, notNull (text .createdBy),
    notNull (integer .createdAt), withDefault (.integer 0) (notNull (integer .pinned)),
    withDefault (.integer 0) (notNull (integer .lastTs))]

def participantsTable : Layout DbCols where
  columns := [notNull (text .conversationId), notNull (text .userId), notNull (integer .joinedAt), integer .leftAt,
    withDefault (.integer 0) (notNull (integer .isAdmin))]
  primaryKey := [.conversationId, .userId]

def messagesTable : Layout DbCols where
  columns := [primaryKey (text .id), notNull (text .conversationId), notNull (text .senderId),
    notNull (text .encryptedContent), withDefault (.text "text") (notNull (text .contentType)), blob .mediaBlob,
    text .mediaMetaEnc, text .replyToId, notNull (integer .sentAt), integer .deliveredAt, integer .readAt]

def migrationV002Messages : Migration where
  version := 2
  up := [createTable .conversations conversationsTable, createTable .participants participantsTable,
    createTable .messages messagesTable, createIndex .messagesByConversation .messages [.conversationId, .sentAt],
    createIndex .participantsByUser .participants [.userId],
    createIndex .conversationsOrder .conversations [.pinned, .lastTs]]
  down := [dropIndex .conversationsOrder, dropIndex .participantsByUser, dropIndex .messagesByConversation,
    dropTable .messages, dropTable .participants, dropTable .conversations]

def devicesTable : Layout DbCols where
  columns := [primaryKey (text .id), notNull (text .userId), notNull (text .deviceName), notNull (text .platform),
    text .fcmTokenEncrypted, notNull (text .publicKey), withDefault (.integer 0) (notNull (integer .isLinked)),
    notNull (integer .lastActiveAt)]

def migrationV003Devices : Migration where
  version := 3
  up := [createTable .devices devicesTable, createIndex .devicesByUser .devices [.userId]]
  down := [dropIndex .devicesByUser, dropTable .devices]

def circuitsTable : Layout DbCols where
  columns := [primaryKey (text .id), notNull (text .pathEnc), notNull (integer .createdAt), notNull (integer .expiresAt)]

def migrationV004Circuits : Migration where
  version := 4
  up := [createTable .circuits circuitsTable]
  down := [dropTable .circuits]

def addColumnIfMissing (t : DbTables) (column : DbCols) : Statement := .addColumnIfMissing t (text column)

def rebuildWithoutPayload (t : DbTables) (createV004 : Layout DbCols) (keepColumns : List DbCols) : Statement :=
  .rebuild t (.downgradeTmp t) createV004 keepColumns

def migrationV005Payloads : Migration where
  version := 5
  up := [addColumnIfMissing .contacts .payloadEnc, addColumnIfMissing .conversations .payloadEnc,
    addColumnIfMissing .users .payloadEnc]
  down := [
    rebuildWithoutPayload .contacts
      { columns := [notNull (text .userId), notNull (text .contactId), notNull (text .displayNameEnc), text .avatarEnc,
          withDefault (.integer 1) (notNull (integer .verificationLevel)),
          withDefault (.integer 0) (notNull (integer .isBlocked)), notNull (integer .addedAt)]
        primaryKey := [.userId, .contactId] }
      [.userId, .contactId, .displayNameEnc, .avatarEnc, .verificationLevel, .isBlocked, .addedAt],
    rebuildWithoutPayload .conversations
      { columns := [primaryKey (text .id), notNull (text .type), text .nameEnc, blob .avatarBlob,
          notNull (text .createdBy), notNull (integer .createdAt), withDefault (.integer 0) (notNull (integer .pinned)),
          withDefault (.integer 0) (notNull (integer .lastTs))] }
      [.id, .type, .nameEnc, .avatarBlob, .createdBy, .createdAt, .pinned, .lastTs],
    rebuildWithoutPayload .users
      { columns := [primaryKey (text .id), notNull (unique (text .chhayaId)), notNull (text .displayNameEnc),
          notNull (text .publicKey), notNull (text .encryptedPrivateKey), notNull (integer .createdAt)] }
      [.id, .chhayaId, .displayNameEnc, .publicKey, .encryptedPrivateKey, .createdAt]]

def chhayaMigrations : List Migration :=
  [migrationV001Initial, migrationV002Messages, migrationV003Devices, migrationV004Circuits, migrationV005Payloads]

/-! ## The runner -/

/-- Migrations whose versions are gapless from 1. -/
structure MigrationRunner where
  migrations : List Migration
  gapless : migrations.map Migration.version = (List.range migrations.length).map (· + 1)

inductive MigrationError
  | argument (message : String)
  | range
  | sql (e : Sqlite.Error)
  deriving DecidableEq

def schemaVersionTable : Layout DbCols where
  columns := [primaryKey (integer .version), notNull (integer .appliedAt)]

/-- `MAX(version)`. A column that is `INTEGER PRIMARY KEY` holds integers only. -/
def maxVersion (rows : List (Row DbCols)) : Option Int :=
  (rows.filterMap fun r => match r .version with | .integer n => some n | _ => none).max?

def currentVersionTxn (d : Database) : Except MigrationError (Int × Database) :=
  match (createTable .schemaVersion schemaVersionTable).exec d with
  | .error e => .error (.sql e)
  | .ok d => .ok ((((d.tables DbTables.schemaVersion).bind fun x => maxVersion x.rows).getD 0), d)

def ofSql {α : Type} : Except Sqlite.Error α → Except MigrationError α
  | .ok a => .ok a
  | .error e => .error (.sql e)

/-- The row of an applied version. -/
def versionRow (v appliedAt : Int) : Row DbCols
  | .version => .integer v
  | .appliedAt => .integer appliedAt
  | _ => .null

namespace MigrationRunner

variable (runner : MigrationRunner)

def latestVersion : Nat := runner.migrations.length

/-- `_migrations[v - 1]`. -/
def migration (v : Int) : Except MigrationError Migration :=
  if 1 ≤ v then
    match runner.migrations[(v - 1).toNat]? with
    | some m => .ok m
    | none => .error .range
  else .error .range

/-- The loop that climbs `n` versions, the first of which is `v`. -/
def climb (now : Int → Int) : Nat → Int → Database → Except MigrationError Database
  | 0, _, d => .ok d
  | n + 1, v, d => do
    let m ← runner.migration v
    let d ← ofSql (d.steps m.up)
    let d ← ofSql (d.insertOrIgnore DbTables.schemaVersion (versionRow v (now v)))
    climb now n (v + 1) d

/-- The loop that descends `n` versions, the first of which is `v`. -/
def descend : Nat → Int → Database → Except MigrationError Database
  | 0, _, d => .ok d
  | n + 1, v, d => do
    let m ← runner.migration v
    let d ← ofSql (d.steps m.down)
    let d ← ofSql (d.deleteWhere DbTables.schemaVersion .version (.integer v))
    descend n (v - 1) d

/-- Migrates to exactly `target` in a transaction: where it fails, the database stays as it was. The time at which a version
is applied is `now` of it. -/
def migrateTo (now : Int → Int) (d : Database) (target : Int) : Except MigrationError Database :=
  if target < 0 ∨ target > runner.latestVersion then .error (.argument "Out of range")
  else do
    let (current, d) ← currentVersionTxn d
    if current = target then .ok d
    else if current < target then runner.climb now (target - current).toNat (current + 1) d
    else runner.descend (current - target).toNat current d

end MigrationRunner

def chhayaRunner : MigrationRunner := ⟨chhayaMigrations, rfl⟩

/-! ## Schemas -/

/-- Where a database stands: its version, and whether it lost the indexes of two tables. -/
structure Level where
  version : Nat
  contactsLost : Bool := false
  conversationsLost : Bool := false

namespace Level

/-- Only tables that exist have lost an index, and contacts have lost theirs where conversations have. -/
structure Ok (l : Level) : Prop where
  latest : l.version ≤ 5
  contacts : l.contactsLost → 1 ≤ l.version
  conversations : l.conversationsLost → 2 ≤ l.version ∧ l.contactsLost

def up (l : Level) : Level := { l with version := l.version + 1 }

/-- The fifth migration loses the indexes on its way down. -/
def down (l : Level) : Level where
  version := l.version - 1
  contactsLost := decide (2 ≤ l.version) && (decide (l.version = 5) || l.contactsLost)
  conversationsLost := decide (3 ≤ l.version) && (decide (l.version = 5) || l.conversationsLost)

/-- With the column of the fifth migration. -/
def payload (l : Level) (layout : Layout DbCols) : Layout DbCols :=
  if 5 ≤ l.version then { layout with columns := layout.columns ++ [text .payloadEnc] } else layout

/-- A table or an index, from a version on. -/
def since {α : Type} (l : Level) (v : Nat) (a : α) : Option α := if v ≤ l.version then some a else none

def schema (l : Level) : DatabaseSchema where
  layouts
    | .of .schemaVersion => some schemaVersionTable
    | .of .users => l.since 1 (l.payload usersTable)
    | .of .contacts => l.since 1 (l.payload contactsTable)
    | .of .kv => l.since 1 kvTable
    | .of .conversations => l.since 2 (l.payload conversationsTable)
    | .of .participants => l.since 2 participantsTable
    | .of .messages => l.since 2 messagesTable
    | .of .devices => l.since 3 devicesTable
    | .of .circuits => l.since 4 circuitsTable
    | .downgradeTmp _ => none
  indexes
    | .contactsByUser => if l.contactsLost then none else l.since 1 ⟨.of .contacts, [.userId]⟩
    | .messagesByConversation => l.since 2 ⟨.of .messages, [.conversationId, .sentAt]⟩
    | .participantsByUser => l.since 2 ⟨.of .participants, [.userId]⟩
    | .conversationsOrder => if l.conversationsLost then none else l.since 2 ⟨.of .conversations, [.pinned, .lastTs]⟩
    | .devicesByUser => l.since 3 ⟨.of .devices, [.userId]⟩

/-- The indexes of the tables that are dropped are not lost. -/
theorem Ok.lost {l : Level} (h : l.Ok) : (l.version = 0 → l.contactsLost = false) ∧
    (l.version ≤ 1 → l.conversationsLost = false) := by
  refine ⟨fun hv => ?_, fun hv => ?_⟩
  · by_contra hc
    have := h.contacts (by simpa using hc)
    omega
  · by_contra hc
    have := (h.conversations (by simpa using hc)).1
    omega

/-- A migration up, from where the database stands. -/
theorem up_schema {l : Level} (hl : l.Ok) {m : Migration} (hm : chhayaMigrations[l.version]? = some m) :
    l.schema.steps m.up = some l.up.schema := by
  obtain ⟨hc, hk⟩ := hl.lost
  obtain ⟨v, c, k⟩ := l
  match v, hm with
  | 0, hm =>
    obtain ⟨rfl, rfl⟩ : c = false ∧ k = false := ⟨hc rfl, hk (Nat.zero_le 1)⟩
    cases hm
    refine Schema.steps_eq (fun t => ?_) fun i => by cases i <;> rfl
    cases t with
    | of t => cases t <;> rfl
    | downgradeTmp t => rfl
  | 1, hm =>
    obtain rfl : k = false := hk (Nat.le_refl 1)
    cases hm
    refine Schema.steps_eq (fun t => ?_) fun i => by cases i <;> rfl
    cases t with
    | of t => cases t <;> rfl
    | downgradeTmp t => rfl
  | 2, hm | 3, hm | 4, hm =>
    cases hm
    refine Schema.steps_eq (fun t => ?_) fun i => by cases i <;> rfl
    cases t with
    | of t => cases t <;> rfl
    | downgradeTmp t => rfl

/-- A migration down, from where the database stands. -/
theorem down_schema {l : Level} {m : Migration} (hl : 1 ≤ l.version) (hm : chhayaMigrations[l.version - 1]? = some m) :
    l.schema.steps m.down = some l.down.schema := by
  obtain ⟨v, c, k⟩ := l
  match v, hm with
  | 1, hm | 2, hm | 3, hm | 4, hm | 5, hm =>
    cases hm
    refine Schema.steps_eq (fun t => ?_) fun i => by cases i <;> cases c <;> cases k <;> rfl
    cases t with
    | of t => cases t <;> rfl
    | downgradeTmp t => cases t <;> rfl

/-- Where a run of the runner takes it. -/
def goto (l : Level) (t : Nat) : Level :=
  if l.version ≤ t then { l with version := t }
  else ⟨t, decide (1 ≤ t) && (decide (l.version = 5) || l.contactsLost),
    decide (2 ≤ t) && (decide (l.version = 5) || l.conversationsLost)⟩

theorem goto_self (l : Level) : l.goto l.version = l := if_pos (Nat.le_refl _)

theorem goto_version (l : Level) (t : Nat) : (l.goto t).version = t := by
  unfold goto
  split <;> rfl

theorem Ok.up {l : Level} (h : l.Ok) (hl : l.version < 5) : l.up.Ok :=
  ⟨hl, fun hc => Nat.le_succ_of_le (h.contacts hc), fun hk => ⟨Nat.le_succ_of_le (h.conversations hk).1, (h.conversations hk).2⟩⟩

theorem Ok.down {l : Level} (h : l.Ok) : l.down.Ok := by
  have hlatest := h.latest
  refine ⟨?_, fun hc => ?_, fun hk => ?_⟩
  · simp only [Level.down]
    omega
  · simp only [Level.down, Bool.and_eq_true, decide_eq_true_eq] at hc ⊢
    omega
  · simp only [Level.down, Bool.and_eq_true, decide_eq_true_eq, Bool.or_eq_true] at hk ⊢
    refine ⟨by omega, by omega, hk.2.imp id fun hk => (h.conversations hk).2⟩

theorem up_goto {l : Level} {n : Nat} : l.up.goto (l.version + (n + 1)) = l.goto (l.version + (n + 1)) := by
  have h : l.up.version ≤ l.version + (n + 1) := by
    simp only [up]
    omega
  rw [goto, goto, if_pos h, if_pos (Nat.le_add_right _ _), up]

theorem down_goto {l : Level} (hl : l.version ≤ 5) {t : Nat} (ht : t < l.version) : l.down.goto t = l.goto t := by
  rw [goto, goto, if_neg (Nat.not_le.mpr ht)]
  by_cases hd : l.down.version ≤ t
  · have heq : l.version = t + 1 := by
      simp only [down] at hd
      omega
    rw [if_pos hd]
    simp [down, heq]
  · have h5 : l.version - 1 ≠ 5 := by omega
    rw [if_neg hd]
    simp only [down, h5, decide_false, Bool.false_or, mk.injEq, true_and]
    simp only [down] at hd
    refine ⟨?_, ?_⟩
    · by_cases h1 : 1 ≤ t
      · rw [decide_eq_true (show 2 ≤ l.version by omega), Bool.true_and]
      · rw [decide_eq_false h1, Bool.false_and, Bool.false_and]
    · by_cases h2 : 2 ≤ t
      · rw [decide_eq_true (show 3 ≤ l.version by omega), Bool.true_and]
      · rw [decide_eq_false h2, Bool.false_and, Bool.false_and]

end Level

/-! ## Runs of the runner -/

/-- The rows of the applied versions. -/
def VersionsUpTo (n : Nat) (d : Database) : Prop :=
  ∃ x, d.tables DbTables.schemaVersion = some x ∧ x.layout = schemaVersionTable ∧
    ∀ v : Int, (∃ r ∈ x.rows, r .version = .integer v) ↔ 1 ≤ v ∧ v ≤ n

structure Standing (l : Level) (d : Database) : Prop where
  ok : l.Ok
  schema : d.schema = l.schema
  valid : d.Valid
  versions : VersionsUpTo l.version d

/-- What the steps of the migrations are. -/
theorem up_grows : ∀ m ∈ chhayaMigrations, ∀ s ∈ m.up, s.Grows ∧ TableName.of .schemaVersion ∉ s.tables := by decide

theorem down_shrinks : ∀ m ∈ chhayaMigrations, ∀ s ∈ m.down, s.Shrinks ∧ TableName.of .schemaVersion ∉ s.tables := by decide

theorem VersionsUpTo.of_tables {n : Nat} {d d' : Database} (h : VersionsUpTo n d)
    (heq : d'.tables DbTables.schemaVersion = d.tables DbTables.schemaVersion) : VersionsUpTo n d' := by
  rwa [VersionsUpTo, heq]

/-- The current version is the one the database stands at. -/
theorem Standing.currentVersionTxn {l : Level} {d : Database} (h : Standing l d) :
    currentVersionTxn d = .ok ((l.version : Int), d) := by
  obtain ⟨x, hx, -, hv⟩ := h.versions
  have hmem : ∀ v : Int, v ∈ (x.rows.filterMap fun r => match r .version with | .integer n => some n | _ => none) ↔
      1 ≤ v ∧ v ≤ l.version := by
    intro v
    rw [← hv v, List.mem_filterMap]
    refine exists_congr fun r => and_congr_right fun _ => ⟨fun h => ?_, fun h => by rw [h]⟩
    cases hr : r .version <;> simp_all
  have hmax : (maxVersion x.rows).getD 0 = l.version := by
    rw [maxVersion]
    cases hm : (x.rows.filterMap fun r => match r .version with | .integer n => some n | _ => none).max? with
    | none =>
      rw [List.max?_eq_none_iff] at hm
      have := (hmem l.version).not.mp (by rw [hm]; exact List.not_mem_nil)
      simp only [Option.getD_none]
      omega
    | some a =>
      obtain ⟨hmem', hle⟩ := List.max?_eq_some_iff.mp hm
      have ha := (hmem a).mp hmem'
      have := hle l.version ((hmem l.version).mpr ⟨by omega, le_rfl⟩)
      simp only [Option.getD_some]
      omega
  rw [Migrations.currentVersionTxn, createTable, Step.exec, Stmt.exec, hx]
  simp only [ite_true, hx, Option.bind_some, hmax]

/-- The row of the next version is inserted. -/
theorem insert_version {n : Nat} {d : Database} (hv : d.Valid) (h : VersionsUpTo n d) (now : Int → Int) :
    ∃ d', d.insertOrIgnore DbTables.schemaVersion (versionRow (n + 1 : Nat) (now (n + 1 : Nat))) = .ok d' ∧
      d'.schema = d.schema ∧ d'.Valid ∧ VersionsUpTo (n + 1) d' ∧
      ∀ u : TableName, u ≠ .of .schemaVersion → d'.tables u = d.tables u := by
  obtain ⟨x, hx, hlayout, hn⟩ := h
  obtain ⟨new, hnew⟩ : ∃ new, new = x.layout.complete x.layout.names (versionRow (n + 1 : Nat) (now (n + 1 : Nat))) :=
    ⟨_, rfl⟩
  have hversion : new .version = .integer (n + 1 : Nat) := by
    rw [hnew, hlayout]
    rfl
  have hat : new .appliedAt = .integer (now (n + 1 : Nat)) := by
    rw [hnew, hlayout]
    rfl
  have hnulls : x.layout.notNulls = [.appliedAt] := by
    rw [hlayout]
    rfl
  have hkeys : x.layout.keys = [[.version]] := by
    rw [hlayout]
    rfl
  have hallows : x.layout.Allows (new :: x.rows) := by
    obtain ⟨hnull, hpairs⟩ := hv.rows hx
    refine ⟨fun r hr c hc => ?_, fun key hkey => List.pairwise_cons.mpr ⟨fun r hr hsame => ?_, hpairs key hkey⟩⟩
    · rcases List.mem_cons.mp hr with rfl | hr
      · rw [hnulls, List.mem_singleton] at hc
        rw [hc, hat]
        exact Value.noConfusion
      · exact hnull r hr c hc
    · rw [hkeys, List.mem_singleton] at hkey
      subst hkey
      have heq := (hsame .version List.mem_cons_self).1
      rw [hversion] at heq
      have hold := (hn (n + 1 : Nat)).mp ⟨r, hr, heq.symm⟩
      omega
  have hinsert : d.insert DbTables.schemaVersion (versionRow (n + 1 : Nat) (now (n + 1 : Nat))) =
      .ok { d with tables := Function.update d.tables (TableName.of .schemaVersion) (some ⟨x.layout, new :: x.rows⟩) } := by
    rw [hnew] at hallows ⊢
    simp only [Db.insert, hx, if_pos hallows]
  obtain ⟨hschema, hv', -, hother⟩ := Db.insert_does hv hinsert
  refine ⟨_, by rw [Db.insertOrIgnore, hinsert], hschema, hv', ⟨⟨x.layout, new :: x.rows⟩,
    Function.update_self (TableName.of .schemaVersion) _ d.tables, hlayout, fun v => ?_⟩, hother⟩
  simp only [List.exists_mem_cons_iff, hn v, hversion, Value.integer.injEq]
  omega

/-- The row of the last version is deleted. -/
theorem delete_version {n : Nat} {d : Database} (hv : d.Valid) (h : VersionsUpTo n d) (hn : 1 ≤ n) :
    ∃ d', d.deleteWhere DbTables.schemaVersion .version (.integer n) = .ok d' ∧ d'.schema = d.schema ∧ d'.Valid ∧
      VersionsUpTo (n - 1) d' ∧ ∀ u : TableName, u ≠ .of .schemaVersion → d'.tables u = d.tables u := by
  obtain ⟨x, hx, hlayout, hrows⟩ := h
  obtain ⟨d', hd, hschema, hv', ht, hother⟩ := Db.deleteWhere_does (c := DbCols.version) (v := .integer n) hv hx
  refine ⟨d', hd, hschema, hv', ⟨_, ht, hlayout, fun v => ⟨fun ⟨r, hr, hrv⟩ => ?_, fun hle => ?_⟩⟩, hother⟩
  · obtain ⟨hr, hne⟩ := List.mem_filter.mp hr
    have hold := (hrows v).mp ⟨r, hr, hrv⟩
    have : v ≠ n := by
      rintro rfl
      simp [hrv] at hne
    omega
  · obtain ⟨r, hr, hrv⟩ := (hrows v).mpr (by omega)
    refine ⟨r, List.mem_filter.mpr ⟨hr, ?_⟩, hrv⟩
    have : v ≠ n := by omega
    simp [hrv, this]

/-- One turn of the loop that climbs. -/
theorem climb_once {l : Level} {d : Database} (h : Standing l d) (hl : l.version < 5) (now : Int → Int) (n : Nat) :
    ∃ d', chhayaRunner.climb now (n + 1) (l.version + 1 : Nat) d = chhayaRunner.climb now n (l.up.version + 1 : Nat) d' ∧
      Standing l.up d' ∧ ∀ u : TableName, u ≠ .of .schemaVersion → Grown u d d' := by
  have hm : chhayaMigrations[l.version]? = some (chhayaMigrations.get ⟨l.version, hl⟩) := List.getElem?_eq_getElem hl
  have hmem : chhayaMigrations.get ⟨l.version, hl⟩ ∈ chhayaMigrations := List.get_mem _ _
  generalize chhayaMigrations.get ⟨l.version, hl⟩ = m at hm hmem
  obtain ⟨d₁, hsteps, hschema, hv, hgrown, -⟩ :=
    Db.steps_schema h.valid (by rw [h.schema]; exact Level.up_schema h.ok hm)
  have hversions : VersionsUpTo l.version d₁ :=
    h.versions.of_tables (Db.steps_other hsteps fun s hs => (up_grows m hmem s hs).2)
  obtain ⟨d₂, hinsert, hschema', hv', hversions', hother⟩ := insert_version hv hversions now
  refine ⟨d₂, ?_, ⟨h.ok.up hl, hschema'.trans hschema, hv', hversions'⟩, fun u hu => ?_⟩
  · have hmig : chhayaRunner.migration (l.version + 1 : Nat) = .ok m := by
      have hi : ((l.version + 1 : Nat) - 1 : Int).toNat = l.version := by omega
      rw [MigrationRunner.migration, if_pos (by omega), hi]
      simp only [chhayaRunner, hm]
    rw [MigrationRunner.climb, hmig]
    simp only [Bind.bind, Except.bind, hsteps, ofSql, hinsert]
    rfl
  · exact (hgrown (fun s hs => (up_grows m hmem s hs).1) u).trans fun x hx =>
      ⟨x, (hother u hu).trans hx, fun _ h => h, fun r hr => ⟨r, hr, fun _ _ => rfl⟩⟩

/-- One turn of the loop that descends. -/
theorem descend_once {l : Level} {d : Database} (h : Standing l d) (hl : 1 ≤ l.version) (n : Nat) :
    ∃ d', chhayaRunner.descend (n + 1) l.version d = chhayaRunner.descend n l.down.version d' ∧
      Standing l.down d' ∧ ∀ u : TableName, u ≠ .of .schemaVersion → Shrunk u d d' := by
  have hlatest := h.ok.latest
  have hlt : l.version - 1 < chhayaMigrations.length := by
    have : chhayaMigrations.length = 5 := rfl
    omega
  have hm : chhayaMigrations[l.version - 1]? = some (chhayaMigrations.get ⟨l.version - 1, hlt⟩) :=
    List.getElem?_eq_getElem hlt
  have hmem : chhayaMigrations.get ⟨l.version - 1, hlt⟩ ∈ chhayaMigrations := List.get_mem _ _
  generalize chhayaMigrations.get ⟨l.version - 1, hlt⟩ = m at hm hmem
  obtain ⟨d₁, hsteps, hschema, hv, -, hshrunk⟩ :=
    Db.steps_schema h.valid (by rw [h.schema]; exact Level.down_schema hl hm)
  have hversions : VersionsUpTo l.version d₁ :=
    h.versions.of_tables (Db.steps_other hsteps fun s hs => (down_shrinks m hmem s hs).2)
  obtain ⟨d₂, hdelete, hschema', hv', hversions', hother⟩ := delete_version hv hversions hl
  refine ⟨d₂, ?_, ⟨h.ok.down, hschema'.trans hschema, hv', hversions'⟩, fun u hu => ?_⟩
  · have hmig : chhayaRunner.migration l.version = .ok m := by
      have hi : (l.version - 1 : Int).toNat = l.version - 1 := by omega
      rw [MigrationRunner.migration, if_pos (by omega), hi]
      simp only [chhayaRunner, hm]
    have hnext : (l.version : Int) - 1 = (l.down.version : Nat) := by
      simp only [Level.down]
      omega
    rw [MigrationRunner.descend, hmig]
    simp only [Bind.bind, Except.bind, hsteps, ofSql, hdelete, hnext]
  · exact (hshrunk (fun s hs => (down_shrinks m hmem s hs).1) u).trans fun x hx =>
      ⟨x, (hother u hu).symm.trans hx, fun _ h => h, fun r hr => ⟨r, hr, fun _ _ => rfl⟩⟩

/-- The loop that climbs. -/
theorem climb_spec {l : Level} {d : Database} (h : Standing l d) (now : Int → Int) (n : Nat) (hn : l.version + n ≤ 5) :
    ∃ d', chhayaRunner.climb now n (l.version + 1 : Nat) d = .ok d' ∧ Standing (l.goto (l.version + n)) d' ∧
      ∀ u : TableName, u ≠ .of .schemaVersion → Grown u d d' := by
  induction n generalizing l d with
  | zero => exact ⟨d, rfl, l.goto_self.symm ▸ h, fun u _ => .refl u d⟩
  | succ n ih =>
    obtain ⟨d₁, heq, hs, hg⟩ := climb_once h (by omega) now n
    have hv : l.up.version = l.version + 1 := rfl
    obtain ⟨d₂, heq', hs', hg'⟩ := ih hs (by rw [hv]; omega)
    refine ⟨d₂, heq.trans heq', ?_, fun u hu => (hg u hu).trans (hg' u hu)⟩
    rwa [hv, show l.version + 1 + n = l.version + (n + 1) by omega, Level.up_goto] at hs'

/-- The loop that descends. -/
theorem descend_spec {l : Level} {d : Database} (h : Standing l d) (n : Nat) (hn : n ≤ l.version) :
    ∃ d', chhayaRunner.descend n l.version d = .ok d' ∧ Standing (l.goto (l.version - n)) d' ∧
      ∀ u : TableName, u ≠ .of .schemaVersion → Shrunk u d d' := by
  induction n generalizing l d with
  | zero => exact ⟨d, rfl, l.goto_self.symm ▸ h, fun u _ => .refl u d⟩
  | succ n ih =>
    obtain ⟨d₁, heq, hs, hg⟩ := descend_once h (by omega) n
    have hv : l.down.version = l.version - 1 := rfl
    obtain ⟨d₂, heq', hs', hg'⟩ := ih hs (by rw [hv]; omega)
    refine ⟨d₂, heq.trans heq', ?_, fun u hu => (hg u hu).trans (hg' u hu)⟩
    rwa [hv, show l.version - 1 - n = l.version - (n + 1) by omega, Level.down_goto h.ok.latest (by omega)] at hs'

/-- A run of the runner succeeds, makes the schema of its target and keeps the rows. -/
theorem migrateTo_spec {l : Level} {d : Database} (h : Standing l d) (now : Int → Int) {t : Nat} (ht : t ≤ 5) :
    ∃ d', chhayaRunner.migrateTo now d t = .ok d' ∧ Standing (l.goto t) d' ∧
      ∀ u : TableName, u ≠ .of .schemaVersion → Grown u d d' ∨ Shrunk u d d' := by
  have hrange : ¬((t : Int) < 0 ∨ (t : Int) > chhayaRunner.latestVersion) := by
    have : chhayaRunner.latestVersion = 5 := rfl
    omega
  rw [MigrationRunner.migrateTo, if_neg hrange, h.currentVersionTxn]
  simp only [Bind.bind, Except.bind, Nat.cast_inj, Nat.cast_lt]
  rcases Nat.lt_trichotomy l.version t with hlt | rfl | hlt
  · obtain ⟨d', heq, hs, hg⟩ := climb_spec h now (t - l.version) (by omega)
    have hn : ((t : Int) - l.version).toNat = t - l.version := by omega
    rw [if_neg hlt.ne, if_pos hlt, hn]
    exact ⟨d', heq, by rwa [show l.version + (t - l.version) = t by omega] at hs, fun u hu => Or.inl (hg u hu)⟩
  · rw [if_pos rfl]
    exact ⟨d, rfl, l.goto_self.symm ▸ h, fun u _ => Or.inl (.refl u d)⟩
  · obtain ⟨d', heq, hs, hg⟩ := descend_spec h (l.version - t) (by omega)
    have hn : ((l.version : Int) - t).toNat = l.version - t := by omega
    rw [if_neg hlt.ne', if_neg (by omega), hn]
    exact ⟨d', heq, by rwa [show l.version - (l.version - t) = t by omega] at hs, fun u hu => Or.inr (hg u hu)⟩

/-! ## Histories -/

/-- The targets to which a database was migrated, and the states it was in, the last ones first. Rows that satisfy the
constraints are inserted between. -/
inductive History : List Nat → List Database → Prop
  | empty : History [] [{}]
  | insert {targets : List Nat} {d d' : Database} {states : List Database} (h : History targets (d :: states))
    {t : DbTables} (ht : t ≠ .schemaVersion) {values : Row DbCols} (hi : d.insert t values = .ok d') :
    History targets (d' :: d :: states)
  | migrate {targets : List Nat} {d d' : Database} {states : List Database} (h : History targets (d :: states))
    {now : Int → Int} {target : Nat} (ht : target ≤ chhayaRunner.latestVersion)
    (hm : chhayaRunner.migrateTo now d target = .ok d') : History (target :: targets) (d' :: d :: states)

/-- The rows of the tables that are present throughout keep their values in the columns that are present throughout. -/
def RowsKept (states : List Database) : Prop :=
  ∀ (newer : List Database) (d : Database) (older : List Database), states = newer ++ d :: older →
    ∀ t : DbTables, t ≠ .schemaVersion → ∀ x, d.tables t = some x → (∀ d' ∈ newer, d'.tables t ≠ none) →
      ∀ last ∈ (newer ++ [d]).head?, ∃ x', last.tables t = some x' ∧ ∀ r ∈ x.rows, ∃ r' ∈ x'.rows,
        ∀ c, (∀ d' ∈ newer ++ [d], ∃ y, d'.tables t = some y ∧ c ∈ y.layout.names) → r' c = r c

/-- Since the database was last empty, it was not taken down from the fifth version. -/
def IndexesKept : List Nat → Prop
  | [] => True
  | target :: targets => target = 0 ∨ ¬(targets.head? = some 5 ∧ target < 5) ∧ IndexesKept targets

instance : DecidablePred IndexesKept := fun targets => by
  induction targets with
  | nil => exact isTrue trivial
  | cons target targets ih =>
    unfold IndexesKept
    infer_instance

/-- Where targets take a database. -/
def levelOf : List Nat → Level
  | [] => ⟨0, false, false⟩
  | target :: targets => (levelOf targets).goto target

theorem levelOf_version (targets : List Nat) : (levelOf targets).version = targets.head?.getD 0 := by
  cases targets with
  | nil => rfl
  | cons target targets => exact Level.goto_version _ _

/-- The runner sets up the table of the versions first. -/
theorem migrateTo_empty : ∃ d : Database, Standing ⟨0, false, false⟩ d ∧
    (∀ now t, chhayaRunner.migrateTo now {} t = chhayaRunner.migrateTo now d t) ∧
    ∀ u : TableName, u ≠ .of .schemaVersion → d.tables u = none := by
  obtain ⟨d, hd⟩ : ∃ d : Database, d =
    { tables := Function.update (fun _ => none) (TableName.of .schemaVersion) (some ⟨schemaVersionTable, []⟩) } := ⟨_, rfl⟩
  have hx : d.tables DbTables.schemaVersion = some ⟨schemaVersionTable, []⟩ := by
    rw [hd]
    rfl
  have hother : ∀ u : TableName, u ≠ .of .schemaVersion → d.tables u = none := fun u hu => by
    rw [hd]
    exact Function.update_of_ne hu _ fun _ => none
  have hstanding : Standing ⟨0, false, false⟩ d := by
    refine ⟨⟨by decide, nofun, nofun⟩, ?_, ⟨fun {t x} ht => ?_, fun {i y} hi => by rw [hd] at hi; cases hi⟩,
      ⟨_, hx, rfl, fun v => ⟨fun ⟨r, hr, _⟩ => (List.not_mem_nil hr).elim, fun h => ?_⟩⟩⟩
    · refine Sqlite.Schema.ext (funext fun t => ?_) (funext fun i => by rw [hd]; cases i <;> rfl)
      rw [hd]
      cases t with
      | of t => cases t <;> rfl
      | downgradeTmp t => rfl
    · by_cases h : t = .of .schemaVersion
      · obtain rfl : ⟨schemaVersionTable, []⟩ = x := Option.some.inj (hx.symm.trans (h ▸ ht))
        exact Sqlite.Layout.allows_nil _
      · rw [hother t h] at ht
        cases ht
    · have : v ≤ 0 := h.2
      omega
  refine ⟨d, hstanding, fun now t => ?_, hother⟩
  have hcurrent : currentVersionTxn {} = currentVersionTxn d := by
    rw [hstanding.currentVersionTxn, hd]
    rfl
  rw [MigrationRunner.migrateTo, MigrationRunner.migrateTo, hcurrent]

theorem Level.Ok.goto {l : Level} (h : l.Ok) {t : Nat} (ht : t ≤ 5) : (l.goto t).Ok := by
  refine ⟨(l.goto_version t).symm ▸ ht, ?_, ?_⟩
  · rw [Level.goto_version, Level.goto]
    split
    case isTrue hle => exact fun hc => (h.contacts hc).trans hle
    case isFalse => simp +contextual
  · rw [Level.goto_version, Level.goto]
    split
    case isTrue hle => exact fun hk => ⟨(h.conversations hk).1.trans hle, (h.conversations hk).2⟩
    case isFalse =>
      intro hk
      simp only [Bool.and_eq_true, decide_eq_true_eq, Bool.or_eq_true] at hk ⊢
      exact ⟨hk.1, by omega, hk.2.imp id fun hk => (h.conversations hk).2⟩

theorem levelOf_ok {targets : List Nat} (h : ∀ t ∈ targets, t ≤ 5) : (levelOf targets).Ok := by
  induction targets with
  | nil => exact ⟨Nat.zero_le 5, nofun, nofun⟩
  | cons t targets ih =>
    exact (ih fun t ht => h t (List.mem_cons_of_mem _ ht)).goto (h t List.mem_cons_self)

/-- The indexes are lost where the database was taken down from the fifth version. -/
theorem levelOf_kept {targets : List Nat} (h : ∀ t ∈ targets, t ≤ 5) :
    (levelOf targets).contactsLost = false ↔ IndexesKept targets := by
  induction targets with
  | nil => exact ⟨fun _ => trivial, fun _ => rfl⟩
  | cons t targets ih =>
    have htail : ∀ t ∈ targets, t ≤ 5 := fun t ht => h t (List.mem_cons_of_mem _ ht)
    have ht : t ≤ 5 := h t List.mem_cons_self
    have hok := (levelOf_ok htail).contacts
    have hhead : targets.head? = some 5 ↔ (levelOf targets).version = 5 := by
      rw [levelOf_version]
      cases targets.head? <;> simp
    rw [IndexesKept, ← ih htail, levelOf, hhead, Level.goto]
    split
    case isTrue hle =>
      constructor
      · exact fun hc => Or.inr ⟨by omega, hc⟩
      · rintro (rfl | ⟨-, hc⟩)
        · by_contra hc
          have := hok (by simpa using hc)
          omega
        · exact hc
    case isFalse hlt =>
      have hzero : ¬1 ≤ t ↔ t = 0 := by omega
      have hfive : (levelOf targets).version = 5 ∧ t < 5 ↔ (levelOf targets).version = 5 := by omega
      simp only [Bool.and_eq_false_iff, decide_eq_false_iff_not, Bool.or_eq_false_iff, hzero, hfive]

theorem History.targets_le {targets : List Nat} {states : List Database} (h : History targets states) :
    ∀ t ∈ targets, t ≤ 5 := by
  induction h with
  | empty => nofun
  | insert h ht hi ih => exact ih
  | migrate h ht hm ih => exact List.forall_mem_cons.mpr ⟨ht, ih⟩

/-- Where the database stands after a sequence of targets. -/
theorem history_inv {targets : List Nat} {states : List Database} (h : History targets states) :
    ∀ d ∈ states.head?, targets = [] ∧ d = {} ∨ Standing (levelOf targets) d := by
  induction h with
  | empty =>
    rintro d ⟨⟩
    exact Or.inl ⟨rfl, rfl⟩
  | @insert targets d d' states h t ht values hi ih =>
    rintro _ ⟨⟩
    rcases ih d rfl with ⟨-, rfl⟩ | hs
    · cases hi
    · obtain ⟨hschema, hv, -, hother⟩ := Db.insert_does hs.valid hi
      have hne : TableName.of .schemaVersion ≠ .of t := fun h => ht (TableName.of.inj h).symm
      exact Or.inr ⟨hs.ok, hschema.trans hs.schema, hv, hs.versions.of_tables (hother _ hne)⟩
  | @migrate targets d d' states h now target ht hm ih =>
    rintro _ ⟨⟩
    rcases ih d rfl with ⟨rfl, rfl⟩ | hs
    · obtain ⟨d₀, hs, heq, -⟩ := migrateTo_empty
      obtain ⟨d₁, hm', hs', -⟩ := migrateTo_spec hs now ht
      obtain rfl : d₁ = d' := Except.ok.inj (hm'.symm.trans ((heq now target).symm.trans hm))
      exact Or.inr hs'
    · obtain ⟨d₁, hm', hs', -⟩ := migrateTo_spec hs now ht
      obtain rfl : d₁ = d' := Except.ok.inj (hm'.symm.trans hm)
      exact Or.inr hs'

/-- A run of the runner in a history. -/
theorem history_migrateTo {targets : List Nat} {d : Database} {states : List Database} (h : History targets (d :: states))
    (now : Int → Int) {target : Nat} (ht : target ≤ chhayaRunner.latestVersion) :
    ∃ d', chhayaRunner.migrateTo now d target = .ok d' ∧ Standing (levelOf (target :: targets)) d' ∧
      ∀ t : DbTables, t ≠ .schemaVersion → Grown (TableName.of t) d d' ∨ Shrunk (TableName.of t) d d' := by
  rcases history_inv h d rfl with ⟨rfl, rfl⟩ | hs
  · obtain ⟨d₀, hs, heq, -⟩ := migrateTo_empty
    obtain ⟨d₁, hm, hs', -⟩ := migrateTo_spec hs now ht
    exact ⟨d₁, (heq now target).trans hm, hs', fun t _ => Or.inl fun x hx => by cases hx⟩
  · obtain ⟨d₁, hm, hs', hmoved⟩ := migrateTo_spec hs now ht
    exact ⟨d₁, hm, hs', fun t ht => hmoved t fun h => ht (TableName.of.inj h)⟩

/-- One more state. -/
theorem RowsKept.cons {d d' : Database} {states : List Database} (h : RowsKept (d :: states))
    (hmoved : ∀ t : DbTables, t ≠ .schemaVersion → Grown (TableName.of t) d d' ∨ Shrunk (TableName.of t) d d') :
    RowsKept (d' :: d :: states) := by
  intro newer d₀ older heq t ht x hx hpresent last hlast
  cases newer with
  | nil =>
    obtain ⟨rfl, -⟩ := List.cons.inj heq
    obtain rfl : d' = last := by simpa using hlast
    exact ⟨x, hx, fun r hr => ⟨r, hr, fun _ _ => rfl⟩⟩
  | cons d₁ newer =>
    obtain ⟨rfl, htail⟩ := List.cons.inj heq
    obtain rfl : d' = last := by simpa using hlast
    have hhead : d ∈ (newer ++ [d₀]).head? := by
      cases newer with
      | nil => exact congrArg some (List.cons.inj htail).1.symm
      | cons d₁ newer => exact congrArg some (List.cons.inj htail).1.symm
    obtain ⟨y, hy, hrows⟩ := h newer d₀ older htail t ht x hx
      (fun d' hd' => hpresent d' (List.mem_cons_of_mem _ hd')) d hhead
    rcases hmoved t ht with hg | hs
    · obtain ⟨y', hy', -, hrows'⟩ := hg y hy
      refine ⟨y', hy', fun r hr => ?_⟩
      obtain ⟨r', hr', hc⟩ := hrows r hr
      obtain ⟨r'', hr'', hc'⟩ := hrows' r' hr'
      refine ⟨r'', hr'', fun c hthrough => (hc' c ?_).trans (hc c fun d' hd' => hthrough d' (List.mem_cons_of_mem _ hd'))⟩
      obtain ⟨z, hz, hcz⟩ := hthrough d (List.mem_cons_of_mem _ (List.mem_of_mem_head? hhead))
      rwa [Option.some.inj (hy.symm.trans hz)]
    · obtain ⟨y', hy'⟩ := Option.ne_none_iff_exists'.mp (hpresent d' List.mem_cons_self)
      obtain ⟨y₁, hy₁, -, hrows'⟩ := hs y' hy'
      obtain rfl : y = y₁ := Option.some.inj (hy.symm.trans hy₁)
      refine ⟨y', hy', fun r hr => ?_⟩
      obtain ⟨r', hr', hc⟩ := hrows r hr
      obtain ⟨r'', hr'', hc'⟩ := hrows' r' hr'
      refine ⟨r'', hr'', fun c hthrough => (hc' c ?_).trans (hc c fun d' hd' => hthrough d' (List.mem_cons_of_mem _ hd'))⟩
      obtain ⟨z, hz, hcz⟩ := hthrough d' List.mem_cons_self
      rwa [Option.some.inj (hy'.symm.trans hz)]

theorem history_rowsKept {targets : List Nat} {states : List Database} (h : History targets states) : RowsKept states := by
  induction h with
  | empty =>
    intro newer d older heq t ht x hx
    have hmem : d ∈ [({} : Database)] := heq ▸ List.mem_append_right _ List.mem_cons_self
    rw [List.mem_singleton.mp hmem] at hx
    cases hx
  | @insert targets d d' states h t ht values hi ih =>
    rcases history_inv h d rfl with ⟨-, rfl⟩ | hs
    · cases hi
    · exact ih.cons fun t _ => Or.inl ((Db.insert_does hs.valid hi).2.2.1 t)
  | @migrate targets d d' states h now target ht hm ih =>
    obtain ⟨d₁, hm', -, hmoved⟩ := history_migrateTo h now ht
    obtain rfl : d₁ = d' := Except.ok.inj (hm'.symm.trans hm)
    exact ih.cons hmoved

/-- The schema is that of a fresh database where no index is lost. -/
theorem Level.schema_eq_iff {l : Level} (h : l.Ok) : l.schema = schema ⟨l.version, false, false⟩ ↔ l.contactsLost = false := by
  obtain ⟨v, c, k⟩ := l
  constructor
  · intro heq
    cases c with
    | false => rfl
    | true =>
      have hv : 1 ≤ v := h.contacts rfl
      have hi := congrFun (congrArg Sqlite.Schema.indexes heq) .contactsByUser
      simp [schema, since, hv] at hi
  · rintro rfl
    cases k with
    | false => rfl
    | true => cases (h.conversations rfl).2

/-- A sequence of targets takes an empty database to a schema. It is that of a fresh database that is taken to the last of
them directly, and rows are kept, if and only if the database was not taken down from the fifth version since it was last
empty. -/
theorem migrations_pathIndependent {targets : List Nat} {d : Database} {states : List Database}
    (h : History targets (d :: states)) (now now' : Int → Int) {target : Nat} (ht : target ≤ chhayaRunner.latestVersion) :
    ∃ d' fresh, chhayaRunner.migrateTo now d target = .ok d' ∧ chhayaRunner.migrateTo now' {} target = .ok fresh ∧
      (d'.schema = fresh.schema ∧ RowsKept (d' :: d :: states) ↔ IndexesKept (target :: targets)) := by
  obtain ⟨d', hm, hs, -⟩ := history_migrateTo h now ht
  obtain ⟨fresh, hf, hsf, -⟩ := history_migrateTo .empty now' ht
  have hkept := levelOf_kept (h.migrate ht hm).targets_le
  have hversion : (levelOf [target]) = ⟨(levelOf (target :: targets)).version, false, false⟩ := by
    rw [levelOf_version]
    rfl
  refine ⟨d', fresh, hm, hf, ?_⟩
  rw [hs.schema, hsf.schema, hversion, Level.schema_eq_iff hs.ok, hkept]
  exact and_iff_left (history_rowsKept (h.migrate ht hm))

/-- A contact. -/
def aliceRow : Row DbCols
  | .userId => .text "user"
  | .contactId => .text "alice"
  | .displayNameEnc => .text "name"
  | .verificationLevel => .integer 2
  | .isBlocked => .integer 0
  | .addedAt => .integer 1
  | _ => .null

/-- A database that is taken to the fourth version and then to the second one, and holds a contact in between. -/
theorem history_lowered : ∃ d d₁ d₀ : Database, History [2, 4] [d, d₁, d₀, {}] ∧
    ∃ x, d₁.tables DbTables.contacts = some x ∧ x.rows.map (fun r => r .contactId) = [.text "alice"] := by
  obtain ⟨d₀, hm, -⟩ := history_migrateTo .empty id (show 4 ≤ chhayaRunner.latestVersion by decide)
  have h := History.empty.migrate (show 4 ≤ chhayaRunner.latestVersion by decide) hm
  have hempty : d₀.tables DbTables.contacts = some ⟨contactsTable, []⟩ := by
    have htable : ((chhayaRunner.migrateTo id {} (4 : Nat)).toOption.bind fun d => d.tables DbTables.contacts) =
        some ⟨contactsTable, []⟩ := rfl
    rwa [hm] at htable
  have hallows : contactsTable.Allows [contactsTable.complete contactsTable.names aliceRow] := by decide
  have hinsert : d₀.insert DbTables.contacts aliceRow = .ok ⟨Function.update d₀.tables (TableName.of .contacts)
      (some ⟨contactsTable, [contactsTable.complete contactsTable.names aliceRow]⟩), d₀.indexes⟩ := by
    rw [Db.insert, hempty]
    exact if_pos hallows
  have h₁ := h.insert (by decide) hinsert
  obtain ⟨d, hm', -⟩ := history_migrateTo h₁ id (show 2 ≤ chhayaRunner.latestVersion by decide)
  have hself := Function.update_self (TableName.of .contacts)
    (some (⟨contactsTable, [contactsTable.complete contactsTable.names aliceRow]⟩ : Table DbCols)) d₀.tables
  exact ⟨d, _, d₀, h₁.migrate (by decide) hm', _, hself, rfl⟩

/-- From there, the fifth version is that of a fresh database, and the contact is kept. -/
theorem migrations_pathIndependent_lowered : ∃ (d' fresh d d₁ d₀ : Database),
    (∃ x, d₁.tables DbTables.contacts = some x ∧ x.rows.map (fun r => r .contactId) = [.text "alice"]) ∧
    History [2, 4] [d, d₁, d₀, {}] ∧ chhayaRunner.migrateTo id d (5 : Nat) = .ok d' ∧
    chhayaRunner.migrateTo id {} (5 : Nat) = .ok fresh ∧ d'.schema = fresh.schema ∧ RowsKept [d', d, d₁, d₀, {}] := by
  obtain ⟨d, d₁, d₀, h, hx⟩ := history_lowered
  obtain ⟨d', fresh, hm, hf, hiff⟩ := migrations_pathIndependent h id id (show 5 ≤ chhayaRunner.latestVersion by decide)
  obtain ⟨hschema, hrows⟩ := hiff.mpr (by decide)
  exact ⟨d', fresh, d, d₁, d₀, hx, h, hm, hf, hschema, hrows⟩

/-- From the fifth version to the fourth, the index of the contacts is lost. -/
theorem contactsByUser_lost : ∃ d d' fresh : Database, History [4, 5] [d', d, {}] ∧
    chhayaRunner.migrateTo id {} (4 : Nat) = .ok fresh ∧
    fresh.schema.indexes .contactsByUser = some ⟨.of .contacts, [.userId]⟩ ∧
    d'.schema.indexes .contactsByUser = none := by
  obtain ⟨d, hm, -⟩ := history_migrateTo .empty id (show 5 ≤ chhayaRunner.latestVersion from Nat.le_refl 5)
  have h := History.empty.migrate (Nat.le_refl 5) hm
  obtain ⟨d', hm', hs, -⟩ := history_migrateTo h id (show 4 ≤ chhayaRunner.latestVersion by decide)
  obtain ⟨fresh, hf, hsf, -⟩ := history_migrateTo .empty id (show 4 ≤ chhayaRunner.latestVersion by decide)
  refine ⟨d, d', fresh, h.migrate (by decide) hm', hf, ?_, ?_⟩
  · rw [hsf.schema]
    rfl
  · rw [hs.schema]
    rfl

end Migrations

end Chhaya
