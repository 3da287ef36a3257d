import LibTg.Data.Run
import LibTg.Sql.Statement
import Mathlib.Data.List.Induction
import Mathlib.Data.List.Nodup

/-!
# Tables with a key

The program writes a row with two statements: `INSERT … WHERE NOT EXISTS`, which makes a row that
holds no more than its key, and `UPDATE`, which sets the other columns. `execute_upsert` says what
both do together to a table whose rows stand for entries with a key: the entry takes the place of the
one with the same key, or comes last. The rules for single statements and for conditions come first.
-/

namespace LibTg.Sql

/-! ## Assignments -/

theorem assign_nil (row : Row) : row.assign [] = row := rfl

theorem assign_cons (row : Row) (set : Name × Value) (sets : List (Name × Value)) :
    row.assign (set :: sets) = Row.assign (Function.update row set.1 set.2) sets := rfl

/-- Columns that are not set stay. -/
theorem assign_of_notMem (row : Row) {sets : List (Name × Value)} {name : Name}
    (hname : name ∉ sets.map Prod.fst) : row.assign sets name = row name := by
  induction sets generalizing row with
  | nil => rfl
  | cons set sets ih =>
    rw [List.map_cons, List.mem_cons, not_or] at hname
    rw [assign_cons, ih _ hname.2, Function.update_of_ne hname.1]

/-- Rows that differ only in columns that are set become equal. -/
theorem assign_congr {first second : Row} {sets : List (Name × Value)}
    (h : ∀ name ∉ sets.map Prod.fst, first name = second name) :
    first.assign sets = second.assign sets := by
  induction sets generalizing first second with
  | nil =>
    funext name
    exact h name (List.not_mem_nil)
  | cons set sets ih =>
    rw [assign_cons, assign_cons]
    apply ih
    intro name hname
    by_cases heq : name = set.1
    · rw [heq, Function.update_self, Function.update_self]
    · rw [Function.update_of_ne heq, Function.update_of_ne heq]
      apply h
      rw [List.map_cons, List.mem_cons, not_or]
      exact ⟨heq, hname⟩

/-- A column that is set once. -/
theorem assign_of_mem (row : Row) {sets : List (Name × Value)} (hnodup : (sets.map Prod.fst).Nodup)
    {name : Name} {value : Value} (hmem : (name, value) ∈ sets) : row.assign sets name = value := by
  induction sets generalizing row with
  | nil => cases hmem
  | cons set sets ih =>
    rw [List.map_cons, List.nodup_cons] at hnodup
    rw [assign_cons]
    rcases List.mem_cons.mp hmem with rfl | hrest
    · rw [assign_of_notMem _ hnodup.1, Function.update_self]
    · exact ih _ hnodup.2 hrest

/-! ## Conditions -/

/-- Columns with different names are found by their names. -/
theorem findColumn_of_mem {columns : List Column} (hnodup : (columns.map (·.name)).Nodup)
    (column : Column) (hmem : column ∈ columns) : findColumn columns column.name = some column := by
  induction columns with
  | nil => cases hmem
  | cons first columns ih =>
    rw [List.map_cons, List.nodup_cons] at hnodup
    rcases List.mem_cons.mp hmem with rfl | hrest
    · exact List.find?_cons_of_pos (decide_eq_true rfl)
    · have hne : first.name ≠ column.name :=
        fun heq ↦ hnodup.1 (heq ▸ List.mem_map_of_mem hrest)
      exact (List.find?_cons_of_neg (by simpa using hne)).trans (ih hnodup.2 hrest)

/-- A column of a row equals a constant that it could store. -/
theorem holds_column {columns : List Column} (column : Column) {name : Name} {value : Value}
    (hcolumn : findColumn columns name = some column) (hstore : column.affinity.store value = value)
    (hnull : value ≠ .null) (parameter : Value) (row : Row) :
    Comparison.holds columns parameter row ⟨.column name, .value value⟩ =
      decide (row name = value) := by
  have hfirst : comparand (some column.affinity) none (row name) = row name := by
    cases column.affinity <;> rfl
  have hsecond : comparand none (some column.affinity) value = value := by
    cases haffinity : column.affinity with
    | blob => rfl
    | integer => rw [haffinity] at hstore; exact hstore
    | text => rw [haffinity] at hstore; exact hstore
  simp only [Comparison.holds, Operand.affinity, Operand.eval, hcolumn, Option.map_some, hfirst,
    hsecond]
  apply decide_eq_decide.mpr
  exact ⟨fun h ↦ h.1, fun h ↦ ⟨h, h ▸ hnull⟩⟩

theorem meets_nil (columns : List Column) (parameter : Value) (row : Row) :
    meets columns parameter [] row = true := rfl

theorem meets_cons (columns : List Column) (parameter : Value) (comparison : Comparison)
    (condition : List Comparison) (row : Row) :
    meets columns parameter (comparison :: condition) row =
      (comparison.holds columns parameter row && meets columns parameter condition row) := rfl

/-- A condition that one column equals a constant. -/
theorem meets_column {columns : List Column} (column : Column) {name : Name} {value : Value}
    (hcolumn : findColumn columns name = some column) (hstore : column.affinity.store value = value)
    (hnull : value ≠ .null) (parameter : Value) (row : Row) :
    meets columns parameter [⟨.column name, .value value⟩] row = decide (row name = value) := by
  rw [meets_cons, meets_nil, Bool.and_true, holds_column column hcolumn hstore hnull]

/-! ## Single statements -/

theorem store_of_unique {database : Database} {name : Name} {table : Table}
    (hunique : table.Unique) :
    database.store name table = some (Function.update database name (some table)) :=
  if_pos hunique

/-- A table without a unique column holds any rows. -/
theorem unique_of_forall {columns : List Column} (h : ∀ column ∈ columns, column.unique = false)
    (rows : List Row) : Table.Unique ⟨columns, rows⟩ := by
  intro column hmem hunique
  rw [h column hmem] at hunique
  cases hunique

/-- A table with one unique column. -/
theorem unique_of_nodup {columns : List Column} {rows : List Row} {name : Name}
    (hname : ∀ column ∈ columns, column.unique = true → column.name = name)
    (hnodup : (rows.map (· name)).Nodup) : Table.Unique ⟨columns, rows⟩ := by
  intro column hmem hunique
  rw [hname column hmem hunique]
  exact hnodup.filter _

/-- A table without rows has nothing to select, whatever its columns are. -/
theorem selectRows_of_nil {database : Database} {query : Select} {columns : List Column}
    (hdatabase : database query.table = some ⟨columns, []⟩) :
    (selectRows database query).getD [] = [] := by
  simp only [selectRows, hdatabase, Option.bind_eq_bind, Option.bind_some, List.filter_nil,
    List.map_nil]
  split <;> rfl

/-- `ALTER TABLE … ADD COLUMN` fails if the column is there. -/
def addColumn (columns : List Column) (column : Column) : List Column :=
  if (findColumn columns column.name).isSome then columns else columns ++ [column]

/-- Whether `ALTER TABLE` adds the column or fails, the column is there afterwards. -/
theorem getD_execute_addColumn {database : Database} {name : Name} {table : Table}
    (htable : database name = some table) {column : Column} (parameter : Value)
    (hunique : Table.Unique { table with columns := addColumn table.columns column }) :
    (execute parameter database (.addColumn name column)).getD database =
      Function.update database name
        (some { table with columns := addColumn table.columns column }) := by
  simp only [execute, htable, Option.bind_eq_bind, Option.bind_some]
  by_cases hpresent : (findColumn table.columns column.name).isSome
  · rw [if_pos hpresent, Option.getD_none, addColumn, if_pos hpresent, ← htable,
      Function.update_eq_self]
  · rw [addColumn, if_neg hpresent] at hunique
    rw [if_neg hpresent, addColumn, if_neg hpresent, store_of_unique hunique, Option.getD_some]

/-- The other statements of a text come after the columns that its first ones add. -/
theorem executeAll_addColumns {database : Database} {name : Name} {present columns : List Column}
    (hdatabase : database name = some ⟨present, []⟩)
    (hnodup : ((present ++ columns).map (·.name)).Nodup) (rest : List (Option Statement)) :
    executeAll database (columns.map (fun column ↦ some (.addColumn name column)) ++ rest) =
      executeAll (Function.update database name (some ⟨present ++ columns, []⟩)) rest := by
  induction columns generalizing database present with
  | nil => rw [List.map_nil, List.nil_append, List.append_nil, ← hdatabase, Function.update_eq_self]
  | cons column columns ih =>
    have habsent : (findColumn present column.name).isSome = false := by
      rw [findColumn, Option.isSome_eq_false_iff, Option.isNone_iff_eq_none, List.find?_eq_none]
      intro other hother hname
      rw [List.map_append, List.nodup_append] at hnodup
      exact hnodup.2.2 _ (List.mem_map_of_mem hother) _ List.mem_cons_self (of_decide_eq_true hname)
    have hunique : Table.Unique ⟨present ++ [column], []⟩ := by
      intro other _ _
      exact List.nodup_nil
    have hfirst : execute .null database (.addColumn name column) =
        some (Function.update database name (some ⟨present ++ [column], []⟩)) := by
      simp only [execute, hdatabase, Option.bind_eq_bind, Option.bind_some, habsent,
        Bool.false_eq_true, if_false]
      exact store_of_unique hunique
    rw [List.map_cons, List.cons_append, executeAll, hfirst]
    rw [← List.singleton_append, ← List.append_assoc] at hnodup
    simp only [ih (Function.update_self ..) hnodup, Function.update_idem, List.append_assoc,
      List.singleton_append]

/-- Nothing comes after a column that is there. -/
theorem executeAll_addColumn_present {database : Database} {name : Name} {table : Table}
    (htable : database name = some table) {column : Column}
    (hpresent : (findColumn table.columns column.name).isSome) (rest : List (Option Statement)) :
    executeAll database (some (.addColumn name column) :: rest) = (false, database) := by
  have hfails : execute .null database (.addColumn name column) = none := by
    simp only [execute, htable, Option.bind_eq_bind, Option.bind_some, if_pos hpresent]
  rw [executeAll, hfails]

/-! ## Entries -/

section Entries

variable {Entry Key : Type*} [DecidableEq Key]

/-- An entry in the place of the one with its key, or behind all others. -/
def upsert (key : Entry → Key) (entries : List Entry) (entry : Entry) : List Entry :=
  if entries.any (key · = key entry) then
    entries.map fun other ↦ if key other = key entry then entry else other
  else entries ++ [entry]

variable {key : Entry → Key}

theorem mem_upsert {entries : List Entry} {entry other : Entry} :
    other ∈ upsert key entries entry ↔ other = entry ∨ other ∈ entries ∧ key other ≠ key entry := by
  unfold upsert
  split
  case isTrue hpresent =>
    rw [List.any_eq_true] at hpresent
    obtain ⟨old, hold, hkey⟩ := hpresent
    rw [decide_eq_true_eq] at hkey
    rw [List.mem_map]
    constructor
    · rintro ⟨found, hfound, rfl⟩
      by_cases h : key found = key entry
      · exact .inl (if_pos h)
      · exact .inr ⟨by rwa [if_neg h], by rwa [if_neg h]⟩
    · rintro (rfl | ⟨hother, hne⟩)
      · exact ⟨old, hold, if_pos hkey⟩
      · exact ⟨other, hother, if_neg hne⟩
  case isFalse habsent =>
    rw [List.any_eq_true, not_exists] at habsent
    rw [List.mem_append, List.mem_singleton, or_comm]
    apply or_congr_right
    exact ⟨fun h ↦ ⟨h, fun hkey ↦ habsent other ⟨h, decide_eq_true hkey⟩⟩, fun h ↦ h.1⟩

/-- An entry in the place of one with its key has that key. -/
theorem key_replace (entry other : Entry) :
    key (if key other = key entry then entry else other) = key other := by
  split
  case isTrue h => exact h.symm
  case isFalse => rfl

/-- The keys stay distinct. -/
theorem nodup_upsert {entries : List Entry} (entry : Entry) (hnodup : (entries.map key).Nodup) :
    ((upsert key entries entry).map key).Nodup := by
  unfold upsert
  split
  case isTrue hpresent =>
    have hkeys : (entries.map fun other ↦ if key other = key entry then entry else other).map key =
        entries.map key := by
      rw [List.map_map]
      apply List.map_congr_left
      intro other _
      exact key_replace entry other
    rwa [hkeys]
  case isFalse habsent =>
    rw [List.any_eq_true, not_exists] at habsent
    rw [List.map_append, List.map_cons, List.map_nil, List.nodup_append]
    refine ⟨hnodup, List.nodup_singleton _, fun first hfirst second hsecond ↦ ?_⟩
    obtain ⟨other, hother, rfl⟩ := List.mem_map.mp hfirst
    rw [List.mem_singleton] at hsecond
    rintro rfl
    exact habsent other ⟨hother, decide_eq_true hsecond⟩

/-- Something that determines the key of an entry, and that the entry shares with those it takes the
place of, finds the entry or what was found before. -/
theorem find?_upsert {Full : Type*} [DecidableEq Full] {full : Entry → Full} {entries : List Entry}
    {entry : Entry} (hkey : ∀ other ∈ entries, full other = full entry → key other = key entry)
    (hfull : ∀ other ∈ entries, key other = key entry → full other = full entry) (wanted : Full) :
    (upsert key entries entry).find? (full · = wanted) =
      if full entry = wanted then some entry else entries.find? (full · = wanted) := by
  unfold upsert
  split
  case isTrue hpresent =>
    have hsame : ∀ other ∈ entries,
        full (if key other = key entry then entry else other) = full other := by
      intro other hother
      split
      case isTrue h => exact (hfull other hother h).symm
      case isFalse => rfl
    have hfind : (entries.map fun other ↦ if key other = key entry then entry else other).find?
        (fun other ↦ full other = wanted) =
          (entries.find? fun other ↦ full other = wanted).map fun other ↦
            if key other = key entry then entry else other := by
      clear hpresent
      induction entries with
      | nil => rfl
      | cons other entries ih =>
        have hrest := ih (fun found hfound ↦ hkey found (List.mem_cons_of_mem other hfound))
          (fun found hfound ↦ hfull found (List.mem_cons_of_mem other hfound))
          (fun found hfound ↦ hsame found (List.mem_cons_of_mem other hfound))
        rw [List.map_cons, List.find?_cons, List.find?_cons, hrest,
          hsame other List.mem_cons_self]
        cases decide (full other = wanted) <;> rfl
    rw [hfind]
    by_cases hwanted : full entry = wanted
    · obtain ⟨other, hother, hpresent⟩ := List.any_eq_true.mp hpresent
      have hsome : (entries.find? fun other ↦ decide (full other = wanted)).isSome := by
        rw [List.find?_isSome]
        exact ⟨other, hother, decide_eq_true
          ((hfull other hother (of_decide_eq_true hpresent)).trans hwanted)⟩
      obtain ⟨found, hfound⟩ := Option.isSome_iff_exists.mp hsome
      have hvalue := List.find?_some hfound
      rw [decide_eq_true_eq] at hvalue
      rw [hfound, Option.map_some, if_pos hwanted,
        if_pos (hkey found (List.mem_of_find?_eq_some hfound) (hvalue.trans hwanted.symm))]
    · rw [if_neg hwanted]
      cases hfound : entries.find? fun other ↦ decide (full other = wanted) with
      | none => rfl
      | some found =>
        have hvalue := List.find?_some hfound
        rw [decide_eq_true_eq] at hvalue
        rw [Option.map_some, if_neg fun h ↦
          hwanted ((hfull found (List.mem_of_find?_eq_some hfound) h).symm.trans hvalue)]
  case isFalse habsent =>
    rw [List.any_eq_true, not_exists] at habsent
    rw [List.find?_append, List.find?_singleton]
    by_cases hwanted : full entry = wanted
    · have hnone : entries.find? (fun other ↦ decide (full other = wanted)) = none := by
        rw [List.find?_eq_none]
        intro other hother hvalue
        have hsame := (of_decide_eq_true hvalue).trans hwanted.symm
        exact habsent other ⟨hother, decide_eq_true (hkey other hother hsame)⟩
      rw [if_pos hwanted, hnone, Option.none_or, if_pos (decide_eq_true hwanted)]
    · rw [if_neg hwanted, if_neg (by simpa using hwanted), Option.or_none]

/-- The entries of a kind that the new entry and those with its key are not of. -/
theorem filter_upsert {entries : List Entry} {entry : Entry} {kept : Entry → Bool}
    (hentry : kept entry = false)
    (hothers : ∀ other ∈ entries, key other = key entry → kept other = false) :
    (upsert key entries entry).filter kept = entries.filter kept := by
  unfold upsert
  split
  case isTrue hpresent =>
    clear hpresent
    induction entries with
    | nil => rfl
    | cons other entries ih =>
      have hrest := ih fun found hfound ↦ hothers found (List.mem_cons_of_mem other hfound)
      rw [List.map_cons, List.filter_cons, List.filter_cons, hrest]
      by_cases hkey : key other = key entry
      · rw [if_pos hkey, hentry, hothers other List.mem_cons_self hkey, if_neg Bool.false_ne_true,
          if_neg Bool.false_ne_true]
      · rw [if_neg hkey]
  case isFalse => rw [List.filter_append, List.filter_singleton, hentry, cond_false, List.append_nil]

/-- Writing an entry a second time changes nothing. -/
theorem map_upsert (entries : List Entry) (entry : Entry) :
    (upsert key entries entry).map (fun other ↦ if key other = key entry then entry else other) =
      upsert key entries entry := by
  apply (List.map_congr_left fun other hother ↦ ?_).trans (List.map_id _)
  rcases mem_upsert.mp hother with rfl | ⟨-, hne⟩
  · exact if_pos rfl
  · exact if_neg hne

/-- The entries with a key, of which there is one at most. -/
theorem filter_eq_find? {entries : List Entry} (hnodup : (entries.map key).Nodup) (wanted : Key) :
    entries.filter (key · = wanted) = (entries.find? (key · = wanted)).toList := by
  induction entries with
  | nil => rfl
  | cons entry entries ih =>
    rw [List.map_cons, List.nodup_cons] at hnodup
    by_cases h : key entry = wanted
    · have hothers : entries.filter (key · = wanted) = [] := by
        rw [List.filter_eq_nil_iff]
        intro other hother hkey
        exact hnodup.1 (List.mem_map.mpr ⟨other, hother, (of_decide_eq_true hkey).trans h.symm⟩)
      simp only [List.filter_cons, List.find?_cons, decide_eq_true h, hothers, if_true,
        Option.toList_some]
    · simp only [List.filter_cons, List.find?_cons, decide_eq_false h, ih hnodup.2,
        Bool.false_eq_true, if_false]

/-- The entries after some writes. -/
def upserts (key : Entry → Key) (writes : List Entry) : List Entry := writes.foldl (upsert key) []

theorem upserts_append (writes : List Entry) (entry : Entry) :
    upserts key (writes ++ [entry]) = upsert key (upserts key writes) entry := by
  rw [upserts, List.foldl_append]
  rfl

theorem nodup_upserts (writes : List Entry) : ((upserts key writes).map key).Nodup := by
  induction writes using List.reverseRecOn with
  | nil => exact List.nodup_nil
  | append_singleton writes entry ih =>
    rw [upserts_append]
    exact nodup_upsert entry ih

/-- An entry is there if nothing with its key was written after it. -/
theorem mem_upserts {writes : List Entry} {entry : Entry} :
    entry ∈ upserts key writes ↔ LastIn writes entry fun later ↦ key later = key entry := by
  induction writes using List.reverseRecOn with
  | nil => exact iff_of_false List.not_mem_nil not_lastIn_nil
  | append_singleton writes last ih =>
    rw [upserts_append, mem_upsert, lastIn_append, ih, eq_comm, and_comm]
    apply or_congr_right
    apply and_congr_left'
    exact not_congr eq_comm

theorem mem_of_mem_upserts {writes : List Entry} {entry : Entry}
    (hentry : entry ∈ upserts key writes) : entry ∈ writes :=
  (mem_upserts.mp hentry).mem

/-- Writes whose keys tell them apart as well as something else does: that finds the last one. -/
theorem find?_upserts {Full : Type*} [DecidableEq Full] {full : Entry → Full} {writes : List Entry}
    (hsame : ∀ first ∈ writes, ∀ second ∈ writes, full first = full second ↔
      key first = key second) (wanted : Full) :
    (upserts key writes).find? (full · = wanted) = writes.reverse.find? (full · = wanted) := by
  induction writes using List.reverseRecOn with
  | nil => rfl
  | append_singleton writes entry ih =>
    have hrest := ih fun first hfirst second hsecond ↦
      hsame first (List.mem_append_left _ hfirst) second (List.mem_append_left _ hsecond)
    have hlast (other : Entry) (hother : other ∈ upserts key writes) :=
      hsame other (List.mem_append_left _ (mem_of_mem_upserts hother)) entry
        (List.mem_append_right _ (List.mem_singleton_self _))
    rw [upserts_append, find?_upsert (fun other hother ↦ (hlast other hother).mp)
      (fun other hother ↦ (hlast other hother).mpr), hrest, List.reverse_append,
      List.reverse_singleton, List.singleton_append, List.find?_cons]
    by_cases hwanted : full entry = wanted
    · rw [if_pos hwanted, decide_eq_true hwanted]
    · rw [if_neg hwanted, decide_eq_false hwanted]

/-- Of the writes that something tells apart the way the keys do, one at most is wanted. -/
theorem filter_upserts {Full : Type*} [DecidableEq Full] {full : Entry → Full}
    {writes : List Entry} (hsame : ∀ first ∈ writes, ∀ second ∈ writes,
      full first = full second ↔ key first = key second) (wanted : Full) :
    (upserts key writes).filter (full · = wanted) =
      (writes.reverse.find? (full · = wanted)).toList := by
  have hnodup : ((upserts key writes).map full).Nodup := by
    apply List.Nodup.map_on
    · intro first hfirst second hsecond heq
      have hkey := (hsame first (mem_of_mem_upserts hfirst) second
        (mem_of_mem_upserts hsecond)).mp heq
      exact List.inj_on_of_nodup_map (nodup_upserts writes) hfirst hsecond hkey
    · exact (nodup_upserts writes).of_map
  rw [filter_eq_find? hnodup, find?_upserts hsame]

/-! ## Tables whose rows stand for entries -/

/-- What the two statements that write an entry set: a column with the key, and then columns whose
names do not depend on the entry. -/
structure Keyed (Entry Key : Type*) where
  columns : List Column
  key : Entry → Key
  inserted : Entry → Name × Value
  sets : Entry → List (Name × Value)
  inserted_eq : ∀ {first second}, key first = key second → inserted first = inserted second
  names_eq : ∀ first second, (sets first).map Prod.fst = (sets second).map Prod.fst

namespace Keyed

variable (layout : Keyed Entry Key)

/-- The row that `INSERT` makes. -/
def fresh (entry : Entry) : Row := Row.empty.assign [layout.inserted entry]

/-- The row of an entry. -/
def row (entry : Entry) : Row := (layout.fresh entry).assign (layout.sets entry)

/-- The table of some entries. -/
def table (entries : List Entry) : Table := ⟨layout.columns, entries.map layout.row⟩

variable {layout}

omit [DecidableEq Key] in
/-- The row of an entry becomes that of another one with the same key. -/
theorem row_assign {first second : Entry} (hkey : layout.key first = layout.key second) :
    (layout.row first).assign (layout.sets second) = layout.row second := by
  apply assign_congr
  intro name hname
  rw [row, assign_of_notMem _ (layout.names_eq second first ▸ hname), fresh, fresh,
    layout.inserted_eq hkey]

omit [DecidableEq Key] in
/-- `UPDATE`, row by row. -/
theorem execute_update_rows {database : Database} {name : Name} {rows : List Row} {entry : Entry}
    (hdatabase : database name = some ⟨layout.columns, rows⟩) {sets : List (Name × Operand)}
    {condition : List Comparison} {parameter : Value}
    (hresolves : (sets.all fun set ↦ (findColumn layout.columns set.1).isSome &&
      set.2.resolves layout.columns) ∧ resolves layout.columns condition)
    (hsets : ∀ row, assignments layout.columns parameter sets row = layout.sets entry)
    {next : List Row} (hrows : (rows.map fun row ↦
      if meets layout.columns parameter condition row then row.assign (layout.sets entry)
      else row) = next)
    (hunique : Table.Unique ⟨layout.columns, next⟩) :
    execute parameter database (.update name sets condition) =
      some (Function.update database name (some ⟨layout.columns, next⟩)) := by
  simp only [execute, hdatabase, Option.bind_eq_bind, Option.bind_some, if_pos hresolves, hsets,
    hrows]
  exact store_of_unique hunique

/-- What `UPDATE` makes of the rows of entries. -/
theorem map_update {entries : List Entry} {entry : Entry} {condition : List Comparison}
    {parameter : Value}
    (hmeets : ∀ other ∈ entries, meets layout.columns parameter condition (layout.row other) =
      decide (layout.key other = layout.key entry)) :
    (entries.map layout.row).map (fun row ↦
        if meets layout.columns parameter condition row then row.assign (layout.sets entry)
        else row) =
      (entries.map fun other ↦
        if layout.key other = layout.key entry then entry else other).map layout.row := by
  rw [List.map_map, List.map_map]
  apply List.map_congr_left
  intro other hother
  rw [Function.comp_apply, Function.comp_apply, hmeets other hother]
  by_cases hkey : layout.key other = layout.key entry
  · rw [if_pos (decide_eq_true hkey), if_pos hkey, row_assign hkey]
  · rw [if_neg (by simpa using hkey), if_neg hkey]

omit [DecidableEq Key] in
/-- `INSERT` of an entry whose key is there. -/
theorem execute_insert_present {database : Database} {name : Name} {entries : List Entry}
    (hdatabase : database name = some (layout.table entries))
    {column : Name} {value : Operand} {absent : List Comparison}
    (hinsert : (findColumn layout.columns column).isSome ∧ value.resolves [] ∧
      resolves layout.columns absent)
    (hpresent : (entries.map layout.row).any (meets layout.columns .null absent)) :
    execute .null database (.insertAbsent name column value name absent) = some database := by
  simp only [table] at hdatabase
  simp only [execute, hdatabase, Option.bind_eq_bind, Option.bind_some, if_pos hinsert,
    if_pos hpresent]

omit [DecidableEq Key] in
/-- `INSERT` of an entry whose key is not there. -/
theorem execute_insert_absent {database : Database} {name : Name} {entries : List Entry}
    {entry : Entry} (hdatabase : database name = some (layout.table entries))
    {column : Name} {value : Operand} {absent : List Comparison}
    (hinsert : (findColumn layout.columns column).isSome ∧ value.resolves [] ∧
      resolves layout.columns absent)
    (hinserted : layout.inserted entry =
      (column, stored layout.columns column (value.eval .null Row.empty)))
    (habsent : ¬ (entries.map layout.row).any (meets layout.columns .null absent))
    (hunique : Table.Unique ⟨layout.columns, entries.map layout.row ++ [layout.fresh entry]⟩) :
    execute .null database (.insertAbsent name column value name absent) =
      some (Function.update database name
        (some ⟨layout.columns, entries.map layout.row ++ [layout.fresh entry]⟩)) := by
  simp only [table] at hdatabase
  rw [fresh, hinserted] at hunique ⊢
  simp only [execute, hdatabase, Option.bind_eq_bind, Option.bind_some, if_pos hinsert,
    if_neg habsent]
  exact store_of_unique hunique

/-- `INSERT … WHERE NOT EXISTS` and `UPDATE` together write an entry. -/
theorem execute_upsert {database : Database} {name : Name} {entries : List Entry} {entry : Entry}
    (hdatabase : database name = some (layout.table entries))
    {column : Name} {value : Operand} {absent : List Comparison}
    (hinsert : (findColumn layout.columns column).isSome ∧ value.resolves [] ∧
      resolves layout.columns absent)
    (hinserted : layout.inserted entry =
      (column, stored layout.columns column (value.eval .null Row.empty)))
    (habsent : ∀ other ∈ entries, meets layout.columns .null absent (layout.row other) =
      decide (layout.key other = layout.key entry))
    {sets : List (Name × Operand)} {condition : List Comparison} {parameter : Value}
    (hresolves : (sets.all fun set ↦ (findColumn layout.columns set.1).isSome &&
      set.2.resolves layout.columns) ∧ resolves layout.columns condition)
    (hsets : ∀ row, assignments layout.columns parameter sets row = layout.sets entry)
    (hmeets : ∀ other ∈ entries, meets layout.columns parameter condition (layout.row other) =
      decide (layout.key other = layout.key entry))
    (hfresh : meets layout.columns parameter condition (layout.fresh entry) = true)
    (hnew : (∀ other ∈ entries, layout.key other ≠ layout.key entry) →
      Table.Unique ⟨layout.columns, entries.map layout.row ++ [layout.fresh entry]⟩)
    (hunique : (layout.table (upsert layout.key entries entry)).Unique) :
    ∃ next, execute .null database (.insertAbsent name column value name absent) = some next ∧
      execute parameter next (.update name sets condition) =
        some (Function.update database name
          (some (layout.table (upsert layout.key entries entry)))) := by
  have hany : (entries.map layout.row).any (meets layout.columns .null absent) ↔
      ∃ other ∈ entries, layout.key other = layout.key entry := by
    rw [List.any_map, List.any_eq_true]
    refine exists_congr fun other ↦ and_congr_right fun hother ↦ ?_
    rw [Function.comp_apply, habsent other hother, decide_eq_true_eq]
  have hrows := map_update hmeets
  by_cases hpresent : ∃ other ∈ entries, layout.key other = layout.key entry
  · have hupsert : upsert layout.key entries entry = entries.map fun other ↦
        if layout.key other = layout.key entry then entry else other := by
      apply if_pos
      simpa using hpresent
    rw [table, hupsert] at hunique
    rw [table, hupsert]
    exact ⟨database, execute_insert_present hdatabase hinsert (hany.mpr hpresent),
      execute_update_rows hdatabase hresolves hsets hrows hunique⟩
  · have hothers : ∀ other ∈ entries, layout.key other ≠ layout.key entry :=
      fun other hother hkey ↦ hpresent ⟨other, hother, hkey⟩
    have hupsert : upsert layout.key entries entry = entries ++ [entry] := by
      apply if_neg
      simpa using hothers
    have hsame : (entries.map fun other ↦
        if layout.key other = layout.key entry then entry else other) = entries := by
      calc (entries.map fun other ↦
            if layout.key other = layout.key entry then entry else other)
          = entries.map id := List.map_congr_left fun other hother ↦ if_neg (hothers other hother)
        _ = entries := List.map_id entries
    have hlast : (entries.map layout.row ++ [layout.fresh entry]).map (fun row ↦
          if meets layout.columns parameter condition row then row.assign (layout.sets entry)
          else row) =
        (entries ++ [entry]).map layout.row := by
      rw [List.map_append, hrows, hsame, List.map_append, List.map_cons, List.map_nil,
        if_pos hfresh]
      rfl
    rw [table, hupsert] at hunique
    rw [table, hupsert]
    refine ⟨_, execute_insert_absent hdatabase hinsert hinserted
      (fun h ↦ hpresent (hany.mp h)) (hnew hothers), ?_⟩
    rw [execute_update_rows (Function.update_self ..) hresolves hsets hlast hunique,
      Function.update_idem]

/-- The two statements in a table where a column of integers holds the key. The second statement
may leave out its condition if nothing else has been written. -/
theorem execute_upsert_int {database : Database} {name : Name} {entries : List Entry}
    {entry : Entry} (hdatabase : database name = some (layout.table entries)) (column : Column)
    (hcolumn : findColumn layout.columns column.name = some column)
    (hinteger : column.affinity = .integer)
    (hplain : ∀ column ∈ layout.columns, column.unique = false) {number : Key → Int64}
    (hnumber : Function.Injective number)
    (hinserted : layout.inserted entry = (column.name, .int (number (layout.key entry))))
    (hrow : ∀ other, layout.row other column.name = .int (number (layout.key other)))
    {sets : List (Name × Operand)} {condition : List Comparison} {parameter : Value}
    (hresolves : sets.all fun set ↦ (findColumn layout.columns set.1).isSome &&
      set.2.resolves layout.columns)
    (hsets : ∀ row, assignments layout.columns parameter sets row = layout.sets entry)
    (hcondition : condition = [⟨.column column.name, .value (.int (number (layout.key entry)))⟩] ∨
      condition = [] ∧ ∀ other ∈ entries, layout.key other = layout.key entry) :
    ∃ next, execute .null database (.insertAbsent name column.name
        (.value (.int (number (layout.key entry)))) name
        [⟨.column column.name, .value (.int (number (layout.key entry)))⟩]) = some next ∧
      execute parameter next (.update name sets condition) =
        some (Function.update database name
          (some (layout.table (upsert layout.key entries entry)))) := by
  have hstore (value : Int64) : column.affinity.store (.int value) = .int value := by
    rw [hinteger]
    rfl
  have hmeets (bound : Value) (other : Entry) : meets layout.columns bound
      [⟨.column column.name, .value (.int (number (layout.key entry)))⟩] (layout.row other) =
        decide (layout.key other = layout.key entry) := by
    rw [meets_column column hcolumn (hstore _) Value.noConfusion, hrow]
    apply decide_eq_decide.mpr
    rw [Value.int.injEq, hnumber.eq_iff]
  have hfresh : layout.fresh entry column.name = .int (number (layout.key entry)) := by
    rw [fresh, hinserted, assign_cons, assign_nil, Function.update_self]
  have hcolumnResolves : resolves layout.columns
      [⟨.column column.name, .value (.int (number (layout.key entry)))⟩] := by
    simp only [resolves, List.all_cons, List.all_nil, Operand.resolves, hcolumn, Option.isSome_some,
      Bool.and_self]
  have hunique (rows : List Row) : Table.Unique ⟨layout.columns, rows⟩ := unique_of_forall hplain rows
  have hinsertReady : (findColumn layout.columns column.name).isSome ∧
      (Operand.value (.int (number (layout.key entry)))).resolves [] ∧
      resolves layout.columns
        [⟨.column column.name, .value (.int (number (layout.key entry)))⟩] := by
    rw [hcolumn]
    exact ⟨rfl, rfl, hcolumnResolves⟩
  have hstored : layout.inserted entry = (column.name, stored layout.columns column.name
      ((Operand.value (.int (number (layout.key entry)))).eval .null Row.empty)) := by
    rw [hinserted, stored, hcolumn, Option.map_some, Option.getD_some, Operand.eval, hstore]
  rcases hcondition with rfl | ⟨rfl, hothers⟩
  · apply execute_upsert hdatabase hinsertReady hstored (fun other _ ↦ hmeets .null other)
      ⟨hresolves, hcolumnResolves⟩ hsets (fun other _ ↦ hmeets parameter other) _
      (fun _ ↦ hunique _) (hunique _)
    rw [meets_column column hcolumn (hstore _) Value.noConfusion, hfresh]
    exact decide_eq_true rfl
  · have hall : ∀ other ∈ entries, meets layout.columns parameter [] (layout.row other) =
        decide (layout.key other = layout.key entry) := by
      intro other hother
      rw [meets_nil, decide_eq_true (hothers other hother)]
    exact execute_upsert hdatabase hinsertReady hstored (fun other _ ↦ hmeets .null other)
      ⟨hresolves, rfl⟩ hsets hall rfl (fun _ ↦ hunique _) (hunique _)

/-- `UPDATE` of an entry that has been written changes nothing. -/
theorem execute_update_again {database : Database} {name : Name} {entries : List Entry}
    {entry : Entry}
    (hdatabase : database name = some (layout.table (upsert layout.key entries entry)))
    {sets : List (Name × Operand)} {condition : List Comparison} {parameter : Value}
    (hresolves : (sets.all fun set ↦ (findColumn layout.columns set.1).isSome &&
      set.2.resolves layout.columns) ∧ resolves layout.columns condition)
    (hsets : ∀ row, assignments layout.columns parameter sets row = layout.sets entry)
    (hmeets : ∀ other ∈ upsert layout.key entries entry,
      meets layout.columns parameter condition (layout.row other) =
        decide (layout.key other = layout.key entry))
    (hunique : (layout.table (upsert layout.key entries entry)).Unique) :
    execute parameter database (.update name sets condition) = some database := by
  have hrows := map_update hmeets
  rw [map_upsert] at hrows
  calc execute parameter database (.update name sets condition)
      = some (Function.update database name
          (some (layout.table (upsert layout.key entries entry)))) :=
        execute_update_rows hdatabase hresolves hsets hrows hunique
    _ = some database := by rw [← hdatabase, Function.update_eq_self]

omit [DecidableEq Key] in
/-- `DELETE` of the entries that meet a condition. -/
theorem execute_delete {database : Database} {name : Name} {entries : List Entry}
    (hdatabase : database name = some (layout.table entries)) {condition : List Comparison}
    {parameter : Value} (hresolves : resolves layout.columns condition) {deleted : Entry → Bool}
    (hmeets : ∀ entry ∈ entries, meets layout.columns parameter condition (layout.row entry) =
      deleted entry)
    (hunique : (layout.table (entries.filter (! deleted ·))).Unique) :
    execute parameter database (.delete name condition) =
      some (Function.update database name
        (some (layout.table (entries.filter (! deleted ·))))) := by
  have hrows : (entries.map layout.row).filter (! meets layout.columns parameter condition ·) =
      (entries.filter (! deleted ·)).map layout.row := by
    rw [List.filter_map]
    apply congrArg
    apply List.filter_congr
    intro entry hentry
    rw [Function.comp_apply, hmeets entry hentry]
  simp only [table] at hdatabase
  simp only [execute, hdatabase, Option.bind_eq_bind, Option.bind_some, if_pos hresolves, hrows]
  exact store_of_unique hunique

omit [DecidableEq Key] in
/-- `SELECT` from the entries that meet a condition. -/
theorem selectRows_eq {database : Database} {query : Select} {entries : List Entry}
    (hdatabase : database query.table = some (layout.table entries))
    (hresolves : (query.columns.all fun name ↦ (findColumn layout.columns name).isSome) ∧
      resolves layout.columns query.condition) {selected : Entry → Bool}
    (hmeets : ∀ entry ∈ entries, meets layout.columns .null query.condition (layout.row entry) =
      selected entry) :
    selectRows database query =
      some ((entries.filter selected).map fun entry ↦ query.columns.map (layout.row entry)) := by
  simp only [table] at hdatabase
  simp only [selectRows, hdatabase, Option.bind_eq_bind, Option.bind_some, if_pos hresolves,
    List.filter_map, List.map_map]
  apply congrArg
  apply congrArg
  apply List.filter_congr
  intro entry hentry
  rw [Function.comp_apply, hmeets entry hentry]

end Keyed

end Entries

/-! ## Printed statements -/

/-- The statements of a text that is made of a format. -/
theorem statements_print {pieces : List Piece} {found : List (Option Statement)}
    (hfree : QuoteFree pieces)
    (hread : (readFrom (.lexer .start) pieces).map statements = some found) :
    statements (lex (print pieces)) = found := by
  rw [Option.map_eq_some_iff] at hread
  obtain ⟨tokens, htokens, hfound⟩ := hread
  rw [lex_print hfree htokens, hfound]

/-- The query of a text that is made of a format. -/
theorem query_print {pieces : List Piece} {found : Option Select} (database : Database)
    (hfree : QuoteFree pieces)
    (hread : (readFrom (.lexer .start) pieces).map (fun tokens ↦
      (splitStatements tokens).head?.bind parseSelect) = some found) :
    query database (print pieces) = found.bind (selectRows database) := by
  rw [Option.map_eq_some_iff] at hread
  obtain ⟨tokens, htokens, hfound⟩ := hread
  rw [query, lex_print hfree htokens, ← hfound]
  cases splitStatements tokens <;> rfl

/-- A literal is made of its characters; kernel evaluation wants them at hand. -/
theorem statements_literal {characters : List Char} {found : List (Option Statement)}
    (h : statements (lex characters) = found) :
    statements (lex (String.ofList characters).toList) = found := by
  rw [String.toList_ofList, h]

/-- The statements of a printed text are those of its format. -/
theorem statements_sprintf (characters : List (List Char)) {texts : List String}
    (hliterals : characters.map String.ofList = texts) {args : List Arg}
    {found : List (Option Statement)} (hargs : ∀ value, .s value ∈ args → '\'' ∉ value)
    (hread : (readFrom (.lexer .start) (format characters.flatten args)).map statements =
      some found) : statements (lex (sprintf texts args)) = found := by
  rw [sprintf, formats_literals characters hliterals]
  exact statements_print (quoteFree_format hargs) hread

/-- The query of a printed text is that of its format. -/
theorem query_sprintf (characters : List (List Char)) {texts : List String}
    (hliterals : characters.map String.ofList = texts) {args : List Arg} {found : Option Select}
    (database : Database) (hargs : ∀ value, .s value ∈ args → '\'' ∉ value)
    (hread : (readFrom (.lexer .start) (format characters.flatten args)).map (fun tokens ↦
      (splitStatements tokens).head?.bind parseSelect) = some found) :
    query database (sprintf texts args) = found.bind (selectRows database) := by
  rw [sprintf, formats_literals characters hliterals]
  exact query_print database (quoteFree_format hargs) hread

/-- A text of one statement. -/
theorem exec_of_statement {database : Database} {text : List Char} {statement : Statement}
    (hstatement : statements (lex text) = [some statement]) :
    (exec database text).2 = (execute .null database statement).getD database := by
  rw [exec, hstatement, executeAll]
  cases execute .null database statement <;> rfl

/-- A text of one statement, with a parameter. -/
theorem bindStep_of_statement {database : Database} {text : List Char} {statement : Statement}
    (parameter : Value) (hstatement : statements (lex text) = [some statement]) :
    bindStep database text parameter = (execute parameter database statement).getD database := by
  rw [bindStep, hstatement]

end LibTg.Sql
