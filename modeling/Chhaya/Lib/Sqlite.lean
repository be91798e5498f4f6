import Mathlib

/-!
# Tables, indexes and the statements that make them

SQLite as far as schema migrations use it. Tables have columns, constraints and rows; indexes belong to a table, are
dropped with it and follow it when it is renamed. `Stmt.exec` runs a statement on a database, `Step.onSchema` says what a
step of a migration makes of the schema, where the schema alone shows that it does not fail.

- `Layout.Implies.allows`: rows that satisfy the constraints of one layout, in another.
- `Db.execAll_rebuild`: a table is rebuilt with fewer columns. Its rows are kept and its indexes are lost.
- `Step.exec_onSchema`: a step that the schema allows succeeds, and makes that schema.
- `Db.steps_schema`: so do steps one after the other. Steps that add keep every row, and steps that remove keep what is
  left of it.
- `Db.steps_other`: tables that no step names stay as they are.
-/

namespace Sqlite

inductive Value
  | null
  | integer (n : Int)
  -- the bits of a double
  | real (bits : UInt64)
  | text (s : String)
  | blob (b : List UInt8)
  deriving DecidableEq

/-- The definition of a column. -/
structure Column (C : Type) where
  name : C
  type : String
  primaryKey : Bool := false
  unique : Bool := false
  notNull : Bool := false
  default : Value := .null
  deriving DecidableEq

/-- The definition of a table: its columns, and the columns of a `PRIMARY KEY` of its own. -/
structure Layout (C : Type) where
  columns : List (Column C)
  primaryKey : List C := []
  deriving DecidableEq

/-- The values of a row. A column that the table lacks has no value, and stands as null. -/
abbrev Row (C : Type) := C → Value

structure Table (C : Type) where
  layout : Layout C
  rows : List (Row C) := []

/-- An index over columns of a table. -/
structure Index (T C : Type) where
  table : T
  columns : List C
  deriving DecidableEq

structure Db (T C I : Type) where
  tables : T → Option (Table C) := fun _ => none
  indexes : I → Option (Index T C) := fun _ => none

/-- Tables without their rows, and indexes. -/
@[ext] structure Schema (T C I : Type) where
  layouts : T → Option (Layout C)
  indexes : I → Option (Index T C)

inductive Error
  | tableExists
  | noSuchTable
  | noSuchColumn
  | duplicateColumn
  | constraint
  deriving DecidableEq

section Layouts

variable {C : Type} [DecidableEq C]

namespace Layout

variable (l : Layout C)

def names : List C := l.columns.map Column.name

/-- The columns that are not null. -/
def notNulls : List C := (l.columns.filter Column.notNull).map Column.name

/-- The lists of columns in which no two rows agree. -/
def keys : List (List C) :=
  ((l.columns.filter fun c => c.primaryKey || c.unique).map fun c => [c.name]) ++
    if l.primaryKey = [] then [] else [l.primaryKey]

/-- Two rows have the same key. Nulls are different from each other. -/
def SameKey (key : List C) (r r' : Row C) : Prop := ∀ c ∈ key, r c = r' c ∧ r c ≠ .null

instance (key : List C) (r r' : Row C) : Decidable (SameKey key r r') := List.decidableBAll _ key

/-- The constraints of the table. -/
def Allows (rows : List (Row C)) : Prop :=
  (∀ r ∈ rows, ∀ c ∈ l.notNulls, r c ≠ .null) ∧ ∀ key ∈ l.keys, rows.Pairwise fun r r' => ¬SameKey key r r'

instance (rows : List (Row C)) : Decidable (l.Allows rows) := inferInstanceAs (Decidable (_ ∧ _))

/-- The default of a column. -/
def defaultOf (c : C) : Value := ((l.columns.find? fun x => x.name = c).map Column.default).getD .null

/-- What `INSERT INTO` makes of the values of some columns. -/
def complete (columns : List C) (r : Row C) : Row C := fun c => if c ∈ columns then r c else l.defaultOf c

/-- The constraints of `l'` on the columns `keep` are constraints of `l`, and its columns are columns of `l` that are
kept. -/
def Implies (keep : List C) (l' : Layout C) : Prop :=
  l'.names = keep ∧ keep ⊆ l.names ∧ l'.notNulls ⊆ l.notNulls ∧ l'.keys ⊆ l.keys ∧ (∀ key ∈ l'.keys, key ⊆ keep) ∧
    l'.notNulls ⊆ keep

instance (keep : List C) (l' : Layout C) : Decidable (l.Implies keep l') := by
  unfold Implies
  simp only [List.subset_def]
  infer_instance

end Layout

variable {l l' : Layout C} {keep : List C}

theorem Layout.complete_of_mem {r : Row C} {c : C} (h : c ∈ keep) : l.complete keep r c = r c := if_pos h

/-- Rows that satisfy the constraints of one layout, in another. -/
theorem Layout.Implies.allows (h : l.Implies keep l') {rows : List (Row C)} (hr : l.Allows rows) :
    l'.Allows (rows.map (l'.complete keep)) := by
  obtain ⟨-, -, hnull, hkeys, hsub, hkeep⟩ := h
  refine ⟨fun r' hr' c hc => ?_, fun key hkey => ?_⟩
  · obtain ⟨r, hmem, rfl⟩ := List.mem_map.mp hr'
    rw [Layout.complete_of_mem (hkeep hc)]
    exact hr.1 r hmem c (hnull hc)
  · rw [List.pairwise_map]
    refine (hr.2 key (hkeys hkey)).imp fun {r r'} hne hsame => hne fun c hc => ?_
    have hs := hsame c hc
    rwa [Layout.complete_of_mem (hsub key hkey hc), Layout.complete_of_mem (hsub key hkey hc)] at hs

end Layouts

/-! ## What stays the same -/

section Changes

variable {T C I : Type} {d d' d'' : Db T C I} {t : T} {x : Table C}

def Db.schema (d : Db T C I) : Schema T C I := ⟨fun t => (d.tables t).map Table.layout, d.indexes⟩

/-- Nothing of a table is lost: it is there with its columns, and its rows keep their values in them. -/
def Grown (t : T) (d d' : Db T C I) : Prop := ∀ x, d.tables t = some x → ∃ x', d'.tables t = some x' ∧
  x.layout.names ⊆ x'.layout.names ∧ ∀ r ∈ x.rows, ∃ r' ∈ x'.rows, ∀ c ∈ x.layout.names, r' c = r c

/-- Nothing of a table is new: it was there with its columns, and its rows have their values in them. -/
def Shrunk (t : T) (d d' : Db T C I) : Prop := ∀ x', d'.tables t = some x' → ∃ x, d.tables t = some x ∧
  x'.layout.names ⊆ x.layout.names ∧ ∀ r ∈ x.rows, ∃ r' ∈ x'.rows, ∀ c ∈ x'.layout.names, r' c = r c

theorem Grown.refl (t : T) (d : Db T C I) : Grown t d d := fun x hx => ⟨x, hx, fun _ h => h, fun r hr => ⟨r, hr, fun _ _ => rfl⟩⟩

theorem Shrunk.refl (t : T) (d : Db T C I) : Shrunk t d d := fun x hx => ⟨x, hx, fun _ h => h, fun r hr => ⟨r, hr, fun _ _ => rfl⟩⟩

theorem Grown.trans (h : Grown t d d') (h' : Grown t d' d'') : Grown t d d'' := by
  intro x hx
  obtain ⟨x', hx', hc, hr⟩ := h x hx
  obtain ⟨x'', hx'', hc', hr'⟩ := h' x' hx'
  refine ⟨x'', hx'', fun c hm => hc' (hc hm), fun r hm => ?_⟩
  obtain ⟨r', hm', he⟩ := hr r hm
  obtain ⟨r'', hm'', he'⟩ := hr' r' hm'
  exact ⟨r'', hm'', fun c hm => (he' c (hc hm)).trans (he c hm)⟩

theorem Shrunk.trans (h : Shrunk t d d') (h' : Shrunk t d' d'') : Shrunk t d d'' := by
  intro x'' hx''
  obtain ⟨x', hx', hc', hr'⟩ := h' x'' hx''
  obtain ⟨x, hx, hc, hr⟩ := h x' hx'
  refine ⟨x, hx, fun c hm => hc (hc' hm), fun r hm => ?_⟩
  obtain ⟨r', hm', he⟩ := hr r hm
  obtain ⟨r'', hm'', he'⟩ := hr' r' hm'
  exact ⟨r'', hm'', fun c hm => (he' c hm).trans (he c (hc' hm))⟩

theorem Db.schema_eq_some (h : d.tables t = some x) : d.schema.layouts t = some x.layout :=
  Option.map_eq_some_iff.mpr ⟨x, h, rfl⟩

theorem Db.schema_eq_none (h : d.tables t = none) : d.schema.layouts t = none := Option.map_eq_none_iff.mpr h

/-- The schema of a database whose table is set. -/
theorem Db.schema_update [DecidableEq T] (o : Option (Table C)) (indexes : I → Option (Index T C)) :
    (⟨Function.update d.tables t o, indexes⟩ : Db T C I).schema =
      ⟨Function.update d.schema.layouts t (o.map Table.layout), indexes⟩ := by
  refine Schema.ext (funext fun u => ?_) rfl
  by_cases h : u = t
  · subst h
    simp [Db.schema]
  · simp [Db.schema, Function.update_of_ne h]

theorem Layout.allows_nil (l : Layout C) : l.Allows [] := ⟨fun _ hr => (List.not_mem_nil hr).elim, fun _ _ => .nil⟩

end Changes

/-! ## Statements -/

section Statements

variable {T C I : Type} [DecidableEq T] [DecidableEq C] [DecidableEq I]

/-- Indexes and columns are made only where they do not exist, and indexes dropped only where they do. -/
inductive Stmt (T C I : Type)
  | createTable (t : T) (layout : Layout C) (ifNotExists : Bool)
  | dropTable (t : T) (ifExists : Bool)
  | createIndex (i : I) (t : T) (columns : List C)
  | dropIndex (i : I)
  | addColumn (t : T) (column : Column C)
  | insertSelect (into : T) (columns : List C) (source : T)
  | rename (t t' : T)

/-- The tables that a statement names to change them. -/
def Stmt.tables : Stmt T C I → List T
  | createTable t _ _ | dropTable t _ | addColumn t _ | insertSelect t _ _ => [t]
  | createIndex _ _ _ | dropIndex _ => []
  | rename t t' => [t, t']

/-- The indexes that are left when a table goes. -/
def unindexed (t : T) (indexes : I → Option (Index T C)) : I → Option (Index T C) :=
  fun i => (indexes i).filter fun x => x.table ≠ t

/-- The indexes of a table that is renamed. -/
def reindexed (t t' : T) (indexes : I → Option (Index T C)) : I → Option (Index T C) :=
  fun i => (indexes i).map fun x => if x.table = t then { x with table := t' } else x

/-- What a statement makes of the database. -/
def Stmt.exec (d : Db T C I) : Stmt T C I → Except Error (Db T C I)
  | createTable t layout ifNotExists =>
    match d.tables t with
    | some _ => if ifNotExists then .ok d else .error .tableExists
    | none => .ok { d with tables := Function.update d.tables t (some ⟨layout, []⟩) }
  | dropTable t ifExists =>
    match d.tables t with
    | some _ => .ok ⟨Function.update d.tables t none, unindexed t d.indexes⟩
    | none => if ifExists then .ok d else .error .noSuchTable
  | createIndex i t columns =>
    match d.indexes i, d.tables t with
    | some _, _ => .ok d
    | none, none => .error .noSuchTable
    | none, some x =>
      if columns ⊆ x.layout.names then .ok { d with indexes := Function.update d.indexes i (some ⟨t, columns⟩) }
      else .error .noSuchColumn
  | dropIndex i => .ok { d with indexes := Function.update d.indexes i none }
  | addColumn t column =>
    match d.tables t with
    | none => .error .noSuchTable
    | some x =>
      if column.name ∈ x.layout.names then .error .duplicateColumn
      -- a column is added without a key, and without `NOT NULL` unless it has a default
      else if column.primaryKey ∨ column.unique ∨ column.notNull ∧ column.default = .null then .error .constraint
      else .ok { d with tables := Function.update d.tables t (some ⟨{ x.layout with columns := x.layout.columns ++ [column] },
        x.rows.map fun r => Function.update r column.name column.default⟩) }
  | insertSelect into columns source =>
    match d.tables into, d.tables source with
    | some x, some y =>
      if columns ⊆ x.layout.names ∧ columns ⊆ y.layout.names then
        if x.layout.Allows (x.rows ++ y.rows.map (x.layout.complete columns)) then
          .ok { d with tables := Function.update d.tables into (some ⟨x.layout,
            x.rows ++ y.rows.map (x.layout.complete columns)⟩) }
        else .error .constraint
      else .error .noSuchColumn
    | _, _ => .error .noSuchTable
  | rename t t' =>
    match d.tables t, d.tables t' with
    | none, _ => .error .noSuchTable
    | some _, some _ => .error .tableExists
    | some x, none =>
      .ok ⟨Function.update (Function.update d.tables t none) t' (some x), reindexed t t' d.indexes⟩

/-- Statements one after the other. -/
def Db.execAll (d : Db T C I) : List (Stmt T C I) → Except Error (Db T C I)
  | [] => .ok d
  | s :: l => (s.exec d).bind fun d' => d'.execAll l

/-- `INSERT` of the values of the columns of a table. -/
def Db.insert (d : Db T C I) (t : T) (values : Row C) : Except Error (Db T C I) :=
  match d.tables t with
  | none => .error .noSuchTable
  | some x =>
    if x.layout.Allows (x.layout.complete x.layout.names values :: x.rows) then
      .ok { d with tables := Function.update d.tables t (some ⟨x.layout, x.layout.complete x.layout.names values :: x.rows⟩) }
    else .error .constraint

/-- `INSERT OR IGNORE`. -/
def Db.insertOrIgnore (d : Db T C I) (t : T) (values : Row C) : Except Error (Db T C I) :=
  match d.insert t values with
  | .error .constraint => .ok d
  | r => r

/-- `DELETE FROM ... WHERE c = v`. -/
def Db.deleteWhere (d : Db T C I) (t : T) (c : C) (v : Value) : Except Error (Db T C I) :=
  match d.tables t with
  | none => .error .noSuchTable
  | some x => .ok { d with tables := Function.update d.tables t (some ⟨x.layout, x.rows.filter fun r => r c ≠ v⟩) }

/-! ## Steps of migrations -/

/-- A statement, a column that is added where it is missing, or a table that is rebuilt with fewer columns. -/
inductive Step (T C I : Type)
  | run (s : Stmt T C I)
  | addColumnIfMissing (t : T) (column : Column C)
  | rebuild (t tmp : T) (layout : Layout C) (keep : List C)

/-- A copy of the table under a new layout takes its place. -/
def rebuild (t tmp : T) (layout : Layout C) (keep : List C) : List (Stmt T C I) :=
  [.dropTable tmp true, .createTable tmp layout false, .insertSelect tmp keep t, .dropTable t false, .rename tmp t]

def Step.tables : Step T C I → List T
  | run s => s.tables
  | addColumnIfMissing t _ => [t]
  | rebuild t tmp _ _ => [t, tmp]

def Step.exec (d : Db T C I) : Step T C I → Except Error (Db T C I)
  | run s => s.exec d
  | addColumnIfMissing t column =>
    if (d.tables t).any fun x => column.name ∈ x.layout.names then .ok d else (Stmt.addColumn t column).exec d
  | rebuild t tmp layout keep => d.execAll (Sqlite.rebuild t tmp layout keep)

/-- Steps one after the other. -/
def Db.steps (d : Db T C I) : List (Step T C I) → Except Error (Db T C I)
  | [] => .ok d
  | s :: l => (s.exec d).bind fun d' => d'.steps l

/-- What a step makes of the schema, where the schema alone shows that it does not fail. -/
def Step.onSchema (σ : Schema T C I) : Step T C I → Option (Schema T C I)
  | run (.createTable t layout ifNotExists) =>
    match σ.layouts t with
    | some _ => if ifNotExists then some σ else none
    | none => some { σ with layouts := Function.update σ.layouts t (some layout) }
  | run (.dropTable t ifExists) =>
    match σ.layouts t with
    | some _ => some ⟨Function.update σ.layouts t none, unindexed t σ.indexes⟩
    | none => if ifExists then some σ else none
  | run (.createIndex i t columns) =>
    match σ.indexes i, σ.layouts t with
    | some _, _ => some σ
    | none, none => none
    | none, some l =>
      if columns ⊆ l.names then some { σ with indexes := Function.update σ.indexes i (some ⟨t, columns⟩) } else none
  | run (.dropIndex i) => some { σ with indexes := Function.update σ.indexes i none }
  | run (.addColumn _ _) | run (.insertSelect _ _ _) | run (.rename _ _) => none
  | addColumnIfMissing t column =>
    match σ.layouts t with
    | none => none
    | some l =>
      if column.name ∈ l.names then some σ
      else if column.primaryKey ∨ column.unique ∨ column.notNull ∨ column.default ≠ .null then none
      else some { σ with layouts := Function.update σ.layouts t (some { l with columns := l.columns ++ [column] }) }
  | rebuild t tmp layout keep =>
    match σ.layouts t, σ.layouts tmp with
    | some l, none =>
      if l.Implies keep layout then some ⟨Function.update σ.layouts t (some layout), unindexed t σ.indexes⟩ else none
    | _, _ => none

/-- Rows satisfy their constraints, and indexes are on tables. -/
structure Db.Valid (d : Db T C I) : Prop where
  rows : ∀ {t x}, d.tables t = some x → x.layout.Allows x.rows
  indexes : ∀ {i y}, d.indexes i = some y → d.tables y.table ≠ none

/-- A step that only adds. -/
def Step.Grows : Step T C I → Prop
  | run (.createTable _ _ _) | run (.createIndex _ _ _) | addColumnIfMissing _ _ => True
  | _ => False

/-- A step that only removes. -/
def Step.Shrinks : Step T C I → Prop
  | run (.dropTable _ _) | run (.dropIndex _) | rebuild _ _ _ _ => True
  | _ => False

instance (s : Step T C I) : Decidable s.Grows :=
  match s with
  | .run (.createTable _ _ _) | .run (.createIndex _ _ _) | .addColumnIfMissing _ _ => isTrue trivial
  | .run (.dropTable _ _) | .run (.dropIndex _) | .run (.addColumn _ _) | .run (.insertSelect _ _ _)
  | .run (.rename _ _) | .rebuild _ _ _ _ => isFalse id

instance (s : Step T C I) : Decidable s.Shrinks :=
  match s with
  | .run (.dropTable _ _) | .run (.dropIndex _) | .rebuild _ _ _ _ => isTrue trivial
  | .run (.createTable _ _ _) | .run (.createIndex _ _ _) | .run (.addColumn _ _) | .run (.insertSelect _ _ _)
  | .run (.rename _ _) | .addColumnIfMissing _ _ => isFalse id

section Facts

variable {d d' : Db T C I} {σ : Schema T C I} {t tmp : T} {x : Table C} {layout : Layout C} {keep : List C}

omit [DecidableEq C] [DecidableEq I] in
theorem unindexed_eq_some {indexes : I → Option (Index T C)} {i : I} {y : Index T C} (h : unindexed t indexes i = some y) :
    indexes i = some y ∧ y.table ≠ t := by
  obtain ⟨h1, h2⟩ := Option.filter_eq_some_iff.mp h
  exact ⟨h1, by simpa using h2⟩

omit [DecidableEq C] [DecidableEq I] in
/-- A table is set, and the indexes are on tables. -/
theorem Db.Valid.update (hv : d.Valid) {o : Option (Table C)} {indexes : I → Option (Index T C)}
    (ho : ∀ x, o = some x → x.layout.Allows x.rows)
    (hi : ∀ {i y}, indexes i = some y → y.table = t ∧ o ≠ none ∨ y.table ≠ t ∧ d.tables y.table ≠ none) :
    (⟨Function.update d.tables t o, indexes⟩ : Db T C I).Valid := by
  refine ⟨fun {u x} hx => ?_, fun {i y} hy => ?_⟩
  · by_cases h : u = t
    · subst h
      exact ho x (by simpa using hx)
    · exact hv.rows (by simpa [Function.update_of_ne h] using hx)
  · rcases hi hy with ⟨rfl, hne⟩ | ⟨hne, hd⟩
    · simpa using hne
    · simpa [Function.update_of_ne hne] using hd

/-- A table is rebuilt with fewer columns. Its rows are kept and its indexes are lost. -/
theorem Db.execAll_rebuild (hv : d.Valid) (hx : d.tables t = some x) (htmp : d.tables tmp = none)
    (hi : x.layout.Implies keep layout) : d.execAll (rebuild t tmp layout keep) =
      .ok ⟨Function.update d.tables t (some ⟨layout, x.rows.map (layout.complete keep)⟩), unindexed t d.indexes⟩ := by
  have hne : t ≠ tmp := fun h => by rw [h, htmp] at hx; cases hx
  have hallows : layout.Allows ([] ++ x.rows.map (layout.complete keep)) := hi.allows (hv.rows hx)
  have hsub : keep ⊆ layout.names ∧ keep ⊆ x.layout.names := ⟨fun c hc => hi.1 ▸ hc, hi.2.1⟩
  have htables : Function.update (Function.update (Function.update (Function.update (Function.update d.tables tmp
      (some ⟨layout, []⟩)) tmp (some ⟨layout, [] ++ x.rows.map (layout.complete keep)⟩)) t none) tmp none) t
      (some ⟨layout, [] ++ x.rows.map (layout.complete keep)⟩) =
      Function.update d.tables t (some ⟨layout, x.rows.map (layout.complete keep)⟩) := by
    funext u
    by_cases hu : u = t
    · subst hu
      simp
    · by_cases hm : u = tmp
      · subst hm
        simp [Function.update_of_ne hu, htmp]
      · simp [Function.update_of_ne hu, Function.update_of_ne hm]
  have hindexes : reindexed tmp t (unindexed t d.indexes) = unindexed t d.indexes := by
    funext i
    cases hy : unindexed t d.indexes i with
    | none => rw [reindexed, hy]; rfl
    | some y =>
      have hyt : y.table ≠ tmp := fun h => hv.indexes (unindexed_eq_some hy).1 (h ▸ htmp)
      rw [reindexed, hy, Option.map_some, if_neg hyt]
  simp only [Sqlite.rebuild, Db.execAll, Stmt.exec, htmp, hx, Except.bind, Function.update_self, Function.update_of_ne hne,
    Function.update_of_ne hne.symm, if_pos hsub, if_pos hallows, ite_true, htables, hindexes]

/-- The step succeeds, makes the schema, and loses or adds nothing where it should not. -/
def Step.Does (s : Step T C I) (d : Db T C I) (σ : Schema T C I) : Prop :=
  ∃ d', s.exec d = .ok d' ∧ d'.schema = σ ∧ d'.Valid ∧ (s.Grows → ∀ t, Grown t d d') ∧ (s.Shrinks → ∀ t, Shrunk t d d')

/-- A step that does nothing. -/
theorem Step.does_nothing {s : Step T C I} (hv : d.Valid) (h : s.exec d = .ok d) : s.Does d d.schema :=
  ⟨d, h, rfl, hv, fun _ t => .refl t d, fun _ t => .refl t d⟩

theorem Step.createTable_does {ifNotExists : Bool} (hv : d.Valid)
    (h : (run (.createTable t layout ifNotExists)).onSchema d.schema = some σ) :
    (run (.createTable t layout ifNotExists)).Does d σ := by
  rw [onSchema] at h
  cases hx : d.tables t with
  | some x =>
    rw [Db.schema_eq_some hx] at h
    simp only [Option.ite_none_right_eq_some, Option.some.injEq] at h
    obtain ⟨rfl, rfl⟩ := h
    exact does_nothing hv (by simp [exec, Stmt.exec, hx])
  | none =>
    rw [Db.schema_eq_none hx] at h
    cases h
    refine ⟨{ d with tables := Function.update d.tables t (some ⟨layout, []⟩) }, by simp [exec, Stmt.exec, hx],
      Db.schema_update _ _, hv.update (fun x hx => ?_) (fun {i y} hy => ?_), fun _ u x hu => ?_, fun h => h.elim⟩
    · cases hx
      exact layout.allows_nil
    · have hd := hv.indexes hy
      exact Or.inr ⟨fun h => hd (h ▸ hx), hd⟩
    · have hne : u ≠ t := fun h => by rw [h, hx] at hu; cases hu
      exact ⟨x, (Function.update_of_ne hne _ _).trans hu, fun _ h => h, fun r hr => ⟨r, hr, fun _ _ => rfl⟩⟩

theorem Step.dropTable_does {ifExists : Bool} (hv : d.Valid)
    (h : (run (.dropTable t ifExists)).onSchema d.schema = some σ) : (run (.dropTable t ifExists)).Does d σ := by
  rw [onSchema] at h
  cases hx : d.tables t with
  | none =>
    rw [Db.schema_eq_none hx] at h
    simp only [Option.ite_none_right_eq_some, Option.some.injEq] at h
    obtain ⟨rfl, rfl⟩ := h
    exact does_nothing hv (by simp [exec, Stmt.exec, hx])
  | some x =>
    rw [Db.schema_eq_some hx] at h
    cases h
    refine ⟨⟨Function.update d.tables t none, unindexed t d.indexes⟩, by simp [exec, Stmt.exec, hx],
      Db.schema_update _ _, hv.update (fun x hx => by cases hx) (fun {i y} hy => ?_), fun h => h.elim, fun _ u x hu => ?_⟩
    · obtain ⟨hi, hne⟩ := unindexed_eq_some hy
      exact Or.inr ⟨hne, hv.indexes hi⟩
    · by_cases hne : u = t
      · subst hne
        simp at hu
      · exact ⟨x, (Function.update_of_ne hne _ _).symm.trans hu, fun _ h => h, fun r hr => ⟨r, hr, fun _ _ => rfl⟩⟩

theorem Step.createIndex_does {i : I} {columns : List C} (hv : d.Valid)
    (h : (run (.createIndex i t columns)).onSchema d.schema = some σ) : (run (.createIndex i t columns)).Does d σ := by
  rw [onSchema] at h
  have hdi : d.schema.indexes i = d.indexes i := rfl
  rw [hdi] at h
  cases hi : d.indexes i with
  | some y =>
    rw [hi] at h
    cases h
    exact does_nothing hv (by simp [exec, Stmt.exec, hi])
  | none =>
    cases hx : d.tables t with
    | none =>
      rw [hi, Db.schema_eq_none hx] at h
      cases h
    | some x =>
      rw [hi, Db.schema_eq_some hx] at h
      simp only [Option.ite_none_right_eq_some, Option.some.injEq] at h
      obtain ⟨hc, rfl⟩ := h
      refine ⟨{ d with indexes := Function.update d.indexes i (some ⟨t, columns⟩) }, by simp [exec, Stmt.exec, hi, hx, hc],
        rfl, ⟨fun hx => hv.rows hx, fun {j y} hy => ?_⟩, fun _ t => .refl t d, fun _ t => .refl t d⟩
      by_cases hj : j = i
      · subst hj
        obtain rfl : ⟨t, columns⟩ = y := by simpa using hy
        exact fun hn => by rw [hx] at hn; cases hn
      · exact hv.indexes ((Function.update_of_ne hj _ _).symm.trans hy)

theorem Step.dropIndex_does {i : I} (hv : d.Valid) (h : (run (.dropIndex i)).onSchema d.schema = some σ) :
    (run (.dropIndex i) : Step T C I).Does d σ := by
  rw [onSchema] at h
  cases h
  refine ⟨{ d with indexes := Function.update d.indexes i none }, rfl, rfl, ⟨fun hx => hv.rows hx, fun {j y} hy => ?_⟩,
    fun h => h.elim, fun _ t => .refl t d⟩
  by_cases hj : j = i
  · subst hj
    simp at hy
  · exact hv.indexes ((Function.update_of_ne hj _ _).symm.trans hy)

/-- A column that is no key and has no value is added at the end. -/
theorem Layout.allows_addColumn {l : Layout C} {column : Column C} {rows : List (Row C)} (h : l.Allows rows)
    (hc : ¬(column.primaryKey ∨ column.unique ∨ column.notNull ∨ column.default ≠ .null)) (hn : column.name ∉ l.names) :
    ({ l with columns := l.columns ++ [column] } : Layout C).Allows
      (rows.map fun r => Function.update r column.name column.default) := by
  obtain ⟨hpk, hu, hnn, hd⟩ : column.primaryKey = false ∧ column.unique = false ∧ column.notNull = false ∧
      column.default = .null := by simpa [not_or] using hc
  have hkeys : ({ l with columns := l.columns ++ [column] } : Layout C).keys = l.keys := by simp [keys, hpk, hu]
  have hnulls : ({ l with columns := l.columns ++ [column] } : Layout C).notNulls = l.notNulls := by simp [notNulls, hnn]
  refine ⟨fun r' hr' c hc => ?_, fun key hkey => ?_⟩
  · obtain ⟨r, hr, rfl⟩ := List.mem_map.mp hr'
    rw [hnulls] at hc
    have hne : c ≠ column.name := by
      rintro rfl
      obtain ⟨x, hx, hxn⟩ := List.mem_map.mp hc
      exact hn (List.mem_map.mpr ⟨x, (List.mem_filter.mp hx).1, hxn⟩)
    rw [Function.update_of_ne hne]
    exact h.1 r hr c hc
  · rw [hkeys] at hkey
    rw [List.pairwise_map]
    refine (h.2 key hkey).imp fun {r r'} hne hsame => hne fun c hc => ?_
    obtain ⟨heq, hnull⟩ := hsame c hc
    by_cases hcn : c = column.name
    · subst hcn
      simp [hd] at hnull
    · rw [Function.update_of_ne hcn] at heq hnull
      exact ⟨heq.trans (Function.update_of_ne hcn _ _), hnull⟩

theorem Step.addColumn_does {column : Column C} (hv : d.Valid)
    (h : (addColumnIfMissing t column).onSchema d.schema = some σ) :
    (addColumnIfMissing t column : Step T C I).Does d σ := by
  rw [onSchema] at h
  cases hx : d.tables t with
  | none =>
    rw [Db.schema_eq_none hx] at h
    cases h
  | some x =>
    rw [Db.schema_eq_some hx] at h
    by_cases hn : column.name ∈ x.layout.names
    · simp only [if_pos hn] at h
      cases h
      exact does_nothing hv (by simp [exec, hx, hn])
    simp only [if_neg hn, Option.ite_none_left_eq_some, Option.some.injEq] at h
    obtain ⟨hc, rfl⟩ := h
    have hok : ¬(column.primaryKey ∨ column.unique ∨ column.notNull ∧ column.default = .null) := by tauto
    refine ⟨{ d with tables := Function.update d.tables t (some ⟨{ x.layout with columns := x.layout.columns ++ [column] },
      x.rows.map fun r => Function.update r column.name column.default⟩) }, ?_, Db.schema_update _ _,
      hv.update (fun y hy => ?_) (fun {i y} hy => ?_), fun _ u y hu => ?_, fun h => h.elim⟩
    · simp only [exec, Stmt.exec, hx, if_neg hn, if_neg hok]
      simp [hn]
    · cases hy
      exact Layout.allows_addColumn (hv.rows hx) hc hn
    · by_cases hyt : y.table = t
      · exact Or.inl ⟨hyt, fun h => by cases h⟩
      · exact Or.inr ⟨hyt, hv.indexes hy⟩
    · by_cases hut : u = t
      · subst hut
        obtain rfl : x = y := Option.some.inj (hx.symm.trans hu)
        refine ⟨_, Function.update_self _ _ _, fun c hc => ?_, fun r hr => ⟨_, List.mem_map_of_mem hr, fun c hc => ?_⟩⟩
        · simp only [Layout.names, List.map_append, List.mem_append]
          exact Or.inl hc
        · exact Function.update_of_ne (fun h : c = column.name => hn (h ▸ hc)) _ _
      · exact ⟨y, (Function.update_of_ne hut _ _).trans hu, fun _ h => h, fun r hr => ⟨r, hr, fun _ _ => rfl⟩⟩

theorem Step.rebuild_does (hv : d.Valid) (h : (rebuild t tmp layout keep).onSchema d.schema = some σ) :
    (rebuild t tmp layout keep : Step T C I).Does d σ := by
  rw [onSchema] at h
  cases hx : d.tables t with
  | none =>
    rw [Db.schema_eq_none hx] at h
    cases h
  | some x =>
    cases htmp : d.tables tmp with
    | some y =>
      rw [Db.schema_eq_some hx, Db.schema_eq_some htmp] at h
      cases h
    | none =>
      rw [Db.schema_eq_some hx, Db.schema_eq_none htmp] at h
      simp only [Option.ite_none_right_eq_some, Option.some.injEq] at h
      obtain ⟨hi, rfl⟩ := h
      refine ⟨_, Db.execAll_rebuild hv hx htmp hi, Db.schema_update _ _, hv.update (fun y hy => ?_) (fun {i y} hy => ?_),
        fun h => h.elim, fun _ u y hu => ?_⟩
      · cases hy
        exact hi.allows (hv.rows hx)
      · obtain ⟨hy, hne⟩ := unindexed_eq_some hy
        exact Or.inr ⟨hne, hv.indexes hy⟩
      · by_cases hut : u = t
        · subst hut
          obtain rfl : ⟨layout, x.rows.map (layout.complete keep)⟩ = y := by simpa using hu
          refine ⟨x, hx, fun c hc => hi.2.1 (hi.1 ▸ hc), fun r hr => ⟨_, List.mem_map_of_mem hr, fun c hc => ?_⟩⟩
          exact Layout.complete_of_mem (hi.1 ▸ hc)
        · exact ⟨y, (Function.update_of_ne hut _ _).symm.trans hu, fun _ h => h, fun r hr => ⟨r, hr, fun _ _ => rfl⟩⟩

/-- A step that the schema allows succeeds, and makes that schema. -/
theorem Step.exec_onSchema {s : Step T C I} (hv : d.Valid) (h : s.onSchema d.schema = some σ) : s.Does d σ := by
  match s, h with
  | run (.createTable _ _ _), h => exact createTable_does hv h
  | run (.dropTable _ _), h => exact dropTable_does hv h
  | run (.createIndex _ _ _), h => exact createIndex_does hv h
  | run (.dropIndex _), h => exact dropIndex_does hv h
  | addColumnIfMissing _ _, h => exact addColumn_does hv h
  | rebuild _ _ _ _, h => exact rebuild_does hv h

/-- What steps make of the schema. -/
def Schema.steps (σ : Schema T C I) : List (Step T C I) → Option (Schema T C I)
  | [] => some σ
  | s :: l => (s.onSchema σ).bind fun σ' => σ'.steps l

/-- What steps make of the schema, table by table and index by index. -/
theorem Schema.steps_eq [Nonempty T] {σ' : Schema T C I} {l : List (Step T C I)}
    (ht : ∀ t, (σ.steps l).map (fun σ => σ.layouts t) = some (σ'.layouts t))
    (hi : ∀ i, (σ.steps l).map (fun σ => σ.indexes i) = some (σ'.indexes i)) : σ.steps l = some σ' := by
  obtain ⟨t⟩ := ‹Nonempty T›
  obtain ⟨σ'', h, -⟩ := Option.map_eq_some_iff.mp (ht t)
  rw [h] at ht hi ⊢
  exact congrArg some (Schema.ext (funext fun t => Option.some.inj (ht t)) (funext fun i => Option.some.inj (hi i)))

/-- Steps that the schema allows succeed, and make that schema. -/
theorem Db.steps_schema {l : List (Step T C I)} (hv : d.Valid) (h : d.schema.steps l = some σ) :
    ∃ d', d.steps l = .ok d' ∧ d'.schema = σ ∧ d'.Valid ∧ ((∀ s ∈ l, s.Grows) → ∀ t, Grown t d d') ∧
      ((∀ s ∈ l, s.Shrinks) → ∀ t, Shrunk t d d') := by
  induction l generalizing d with
  | nil =>
    cases h
    exact ⟨d, rfl, rfl, hv, fun _ t => .refl t d, fun _ t => .refl t d⟩
  | cons s l ih =>
    obtain ⟨σ', hs, hl⟩ := Option.bind_eq_some_iff.mp h
    obtain ⟨d', he, rfl, hv', hg, hd⟩ := Step.exec_onSchema hv hs
    obtain ⟨d'', he', hσ, hv'', hg', hd'⟩ := ih hv' hl
    refine ⟨d'', ?_, hσ, hv'', fun h t => (hg (h s List.mem_cons_self) t).trans (hg' (fun s hs => h s (List.mem_cons_of_mem _ hs)) t),
      fun h t => (hd (h s List.mem_cons_self) t).trans (hd' (fun s hs => h s (List.mem_cons_of_mem _ hs)) t)⟩
    rw [Db.steps, he]
    exact he'

/-! ## Tables that are not named -/

theorem Stmt.exec_other {s : Stmt T C I} {u : T} (h : s.exec d = .ok d') (hu : u ∉ s.tables) :
    d'.tables u = d.tables u := by
  cases s with
  | createTable t layout ifNotExists =>
    rw [tables, List.mem_singleton] at hu
    simp only [exec] at h
    split at h
    · split at h <;> cases h
      rfl
    · cases h
      exact Function.update_of_ne hu _ _
  | dropTable t ifExists =>
    rw [tables, List.mem_singleton] at hu
    simp only [exec] at h
    split at h
    · cases h
      exact Function.update_of_ne hu _ _
    · split at h <;> cases h
      rfl
  | createIndex i t columns =>
    simp only [exec] at h
    split at h
    · cases h
      rfl
    · cases h
    · split at h <;> cases h
      rfl
  | dropIndex i =>
    cases h
    rfl
  | addColumn t column =>
    rw [tables, List.mem_singleton] at hu
    simp only [exec] at h
    split at h
    · cases h
    · split at h
      · cases h
      · split at h <;> cases h
        exact Function.update_of_ne hu _ _
  | insertSelect into columns source =>
    rw [tables, List.mem_singleton] at hu
    simp only [exec] at h
    split at h
    · split at h
      · split at h <;> cases h
        exact Function.update_of_ne hu _ _
      · cases h
    · cases h
  | rename t t' =>
    obtain ⟨hut, hut'⟩ : u ≠ t ∧ u ≠ t' := by simpa [tables] using hu
    simp only [exec] at h
    split at h
    · cases h
    · cases h
    · cases h
      exact (Function.update_of_ne hut' _ _).trans (Function.update_of_ne hut _ _)

theorem Db.execAll_other {l : List (Stmt T C I)} {u : T} (h : d.execAll l = .ok d') (hu : ∀ s ∈ l, u ∉ s.tables) :
    d'.tables u = d.tables u := by
  induction l generalizing d with
  | nil =>
    cases h
    rfl
  | cons s l ih =>
    rw [execAll] at h
    cases he : s.exec d with
    | error e =>
      rw [he] at h
      cases h
    | ok d₁ =>
      rw [he] at h
      exact (ih h fun s hs => hu s (List.mem_cons_of_mem _ hs)).trans (Stmt.exec_other he (hu s List.mem_cons_self))

theorem Step.exec_other {s : Step T C I} {u : T} (h : s.exec d = .ok d') (hu : u ∉ s.tables) :
    d'.tables u = d.tables u := by
  cases s with
  | run s => exact Stmt.exec_other h hu
  | addColumnIfMissing t column =>
    rw [exec] at h
    split at h
    · cases h
      rfl
    · exact Stmt.exec_other h hu
  | rebuild t tmp layout keep =>
    refine Db.execAll_other h fun s hs => ?_
    simp only [Sqlite.rebuild, List.mem_cons, List.not_mem_nil, or_false] at hs
    rcases hs with rfl | rfl | rfl | rfl | rfl <;> simp_all [tables, Stmt.tables]

/-- Tables that no step names stay as they are. -/
theorem Db.steps_other {l : List (Step T C I)} {u : T} (h : d.steps l = .ok d') (hu : ∀ s ∈ l, u ∉ s.tables) :
    d'.tables u = d.tables u := by
  induction l generalizing d with
  | nil =>
    cases h
    rfl
  | cons s l ih =>
    rw [steps] at h
    cases he : s.exec d with
    | error e =>
      rw [he] at h
      cases h
    | ok d₁ =>
      rw [he] at h
      exact (ih h fun s hs => hu s (List.mem_cons_of_mem _ hs)).trans (Step.exec_other he (hu s List.mem_cons_self))

/-! ## Rows -/

omit [DecidableEq I] in
/-- A row is added. -/
theorem Db.insert_does {r : Row C} (hv : d.Valid) (h : d.insert t r = .ok d') :
    d'.schema = d.schema ∧ d'.Valid ∧ (∀ u, Grown u d d') ∧ ∀ u, u ≠ t → d'.tables u = d.tables u := by
  rw [insert] at h
  cases hx : d.tables t with
  | none =>
    rw [hx] at h
    cases h
  | some x =>
    simp only [hx] at h
    split at h
    case isFalse => cases h
    case isTrue hallows =>
      cases h
      refine ⟨?_, hv.update (fun y hy => ?_) (fun {i y} hy => ?_), fun u y hu => ?_, fun u hu => Function.update_of_ne hu _ _⟩
      · rw [Db.schema_update, Option.map_some, ← Db.schema_eq_some hx, Function.update_eq_self]
        rfl
      · cases hy
        exact hallows
      · by_cases hyt : y.table = t
        · exact Or.inl ⟨hyt, fun h => by cases h⟩
        · exact Or.inr ⟨hyt, hv.indexes hy⟩
      · by_cases hut : u = t
        · subst hut
          obtain rfl : x = y := Option.some.inj (hx.symm.trans hu)
          exact ⟨_, Function.update_self _ _ _, fun _ h => h, fun r hr => ⟨r, List.mem_cons_of_mem _ hr, fun _ _ => rfl⟩⟩
        · exact ⟨y, (Function.update_of_ne hut _ _).trans hu, fun _ h => h, fun r hr => ⟨r, hr, fun _ _ => rfl⟩⟩

omit [DecidableEq C] [DecidableEq I] in
/-- Rows are deleted. -/
theorem Db.deleteWhere_does {c : C} {v : Value} (hv : d.Valid) (hx : d.tables t = some x) :
    ∃ d', d.deleteWhere t c v = .ok d' ∧ d'.schema = d.schema ∧ d'.Valid ∧
      d'.tables t = some ⟨x.layout, x.rows.filter fun r => r c ≠ v⟩ ∧ ∀ u, u ≠ t → d'.tables u = d.tables u := by
  refine ⟨{ d with tables := Function.update d.tables t (some ⟨x.layout, x.rows.filter fun r => r c ≠ v⟩) },
    by simp [deleteWhere, hx], ?_, hv.update (fun y hy => ?_) (fun {i y} hy => ?_), Function.update_self _ _ _,
    fun u hu => Function.update_of_ne hu _ _⟩
  · rw [Db.schema_update, Option.map_some, ← Db.schema_eq_some hx, Function.update_eq_self]
    rfl
  · cases hy
    have hallows := hv.rows hx
    exact ⟨fun r hr => hallows.1 r (List.mem_filter.mp hr).1,
      fun key hkey => (hallows.2 key hkey).sublist List.filter_sublist⟩
  · by_cases hyt : y.table = t
    · exact Or.inl ⟨hyt, fun h => by cases h⟩
    · exact Or.inr ⟨hyt, hv.indexes hy⟩

end Facts

end Statements

end Sqlite
