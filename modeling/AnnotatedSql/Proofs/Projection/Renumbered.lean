import AnnotatedSql.Proofs.Parameter.Renumbering
import AnnotatedSql.Proofs.Projection.Columns

/-!
# Types and columns of numbered statements

With slots for placeholders a statement asks for the same types and has the same columns, but a column
that is a placeholder and nothing else is named after its slot.
-/

namespace AnnotatedSql

/-! ## Types -/

namespace Binding

variable {style : BindingStyle} {s : Statement}

/-- A numbered parameter has the key that stands for its own. -/
theorem key_of_mem_table {p : Parameter} (member : p ∈ table style s) :
    p.key ∈ orderedKeys style s ∧ p.numbered.key = slotKey style s p.key := by
  obtain ⟨index, found⟩ := List.mem_iff_getElem?.mp member
  rw [table_getElem] at found
  obtain ⟨key, listed, rfl⟩ := Option.map_eq_some_iff.mp found
  have slot := slot_of_getElem listed
  refine ⟨List.mem_of_getElem? listed, ?_⟩
  simp [Parameter.numbered, parameter, slotKey, slot]

theorem Accepts.numbered_changes (accepts : Accepts style s) :
    ChangesKeys (slotKey style s) Parameter.numbered s (table style s) where
  used _ member := accepts.mem_orderedKeys.mp (key_of_mem_table member).1
  key _ member := (key_of_mem_table member).2
  hint _ := rfl
  retype _ _ := rfl

end Binding

/-! ## Columns -/

/-- The columns that the items give: those of each item are the same, or the one column of a
placeholder has the name of the placeholder in either statement. -/
inductive ColumnsAgree (env : Surroundings) :
    List (Nat × Nat) → List ResultColumn → List ResultColumn → Prop
  | nil : ColumnsAgree env [] [] []
  | same {lo hi : Nat} {items : List (Nat × Nat)} {columns rest others : List ResultColumn}
      (read : env.item lo hi = .ok columns) (next : ColumnsAgree env items rest others) :
      ColumnsAgree env ((lo, hi) :: items) (columns ++ rest) (columns ++ others)
  | placeholder {lo hi i : Nat} {p : Parameter} {type : DataType} {nullable : Bool}
      {items : List (Nat × Nat)} {rest others : List ResultColumn}
      (bare : env.statement.Bare lo hi i) (key : env.statement.paramKey? i = some p.key)
      (member : p ∈ env.parameters) (read : env.item lo hi = .ok [⟨p.name, type, nullable⟩])
      (next : ColumnsAgree env items rest others) :
      ColumnsAgree env ((lo, hi) :: items) (⟨p.name, type, nullable⟩ :: rest)
        (⟨p.numbered.name, type, nullable⟩ :: others)

/-- Both statements give rows, of columns that agree, or neither does. -/
inductive ResultsAgree (env : Surroundings) : QueryResult → QueryResult → Prop
  | execute (none : env.statement.projectionItems? = none) : ResultsAgree env .execute .execute
  | rows {items : List (Nat × Nat)} {columns others : List ResultColumn}
      (listed : env.statement.projectionItems? = some items)
      (agree : ColumnsAgree env items columns others) :
      ResultsAgree env (.rows columns) (.rows others)

theorem ColumnsMirrored.numbered {env other : Surroundings} {items : List (Nat × Nat)}
    {columns others : List ResultColumn}
    (mirrored : ColumnsMirrored id Parameter.numbered env other items columns others) :
    ColumnsAgree env items columns others := by
  induction mirrored with
  | nil => exact .nil
  | same _ _ read _ _ ih => exact .same read ih
  | placeholder named key member read _ _ ih => exact .placeholder named.bare key member read ih
  | aliased _ _ read _ _ ih => exact .same read ih

theorem ResultsMirrored.numbered {env other : Surroundings} {result again : QueryResult}
    (mirrored : ResultsMirrored id Parameter.numbered env other result again) :
    ResultsAgree env result again := by
  cases mirrored with
  | execute none => exact .execute none
  | rows listed _ agree => exact .rows listed agree.numbered

end AnnotatedSql
