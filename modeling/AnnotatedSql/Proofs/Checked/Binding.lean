import AnnotatedSql.Proofs.Checked.Statement
import AnnotatedSql.Proofs.Parameter.Table
import AnnotatedSql.Proofs.Resolution.Placement

/-!
# Binding in 32 bits

Positions and slots are numbers of 32 bits. A position is followed by the one that is expected
next, and a named parameter has a slot after all positions. No slot exceeds the number of tokens,
so that a position which nothing can follow is the only danger.
-/

namespace AnnotatedSql

/-- All that keeps the numbers of a statement within 32 bits. -/
structure Statement.Narrow (s : Statement) : Prop where
  paired : s.Paired
  size : s.size < UInt32.size
  positions : ∀ position ∈ s.positions, position + 1 < UInt32.size

namespace Checked

/-! ## Findings -/

/-- The first token that stands for the key. -/
def firstOccurrence (s : Statement) (key : ParamKey) : Checked Nat := get (s.occurrences key) 0

/-- What is wrong with the placeholder at token `i`, read alone or beside the first cast of its
key. -/
def placeholderFindings (s : Statement) (i : Nat) : Checked (List Finding) :=
  if s.isParam i then do
    let place ← token s i
    match s.paramKey? i with
    | none => pure [⟨.positionOutOfRange (s.text i), place⟩]
    | some key => do
      let hint ← castHint? s i
      match hint, s.hint? key with
      | some hint, some first =>
        if canonicalType hint.text == canonicalType first.text then pure []
        else pure [⟨.conflictingHints key first.text hint.text first.place, hint.place⟩]
      | _, _ => pure []
  else pure []

/-- The gaps in an ascending list of positions, of which `expected` should be the first. -/
def gapFindings (s : Statement) (expected : Nat) : List Nat → Checked (List Finding)
  | [] => pure []
  | position :: rest => do
    let first ← firstOccurrence s (.positional position)
    let place ← token s first
    if position == 0 then do
      let others ← gapFindings s expected rest
      pure (⟨.positionZero, place⟩ :: others)
    else do
      let next ← narrow (position + 1)
      if expected < position then do
        let _ ← sub position expected
        let last ← sub position 1
        let others ← gapFindings s next rest
        pure (⟨.positionsSkipped expected last, place⟩ :: others)
      else gapFindings s next rest

/-- The finding of a name without a declaration. -/
def undeclaredFinding (s : Statement) (name : String) : Checked Finding := do
  let first ← firstOccurrence s (.named name)
  let place ← token s first
  pure ⟨.undeclaredName name, place⟩

/-- Whether the declared name with the given index has a placeholder. -/
def isUsed (style : BindingStyle) (s : Statement) (index : Nat) (name : String) : Checked Bool :=
  if index < (Binding.slotNames style s).length then do
    let index ← narrow index
    let position ← narrow (index + 1)
    pure (s.keys.contains (.named name) || s.keys.contains (.positional position))
  else pure (s.keys.contains (.named name))

/-- The findings of the declared names without a placeholder, the first of which has the given
index. -/
def unusedFindings (style : BindingStyle) (s : Statement) :
    Nat → List String → Checked (List Finding)
  | _, [] => pure []
  | index, name :: names => do
    let used ← isUsed style s index name
    let others ← unusedFindings style s (index + 1) names
    pure (if used then others else ⟨.unusedDeclaration name, .declaration index⟩ :: others)

/-- Names without a declaration, then declarations without a placeholder. -/
def declarationFindings (style : BindingStyle) (s : Statement) : Checked (List Finding) :=
  if style.checksDeclarations then do
    let undeclared ← (s.names.filter fun name => !style.declaredNames.contains name).mapM
      (undeclaredFinding s)
    let unused ← unusedFindings style s 0 style.declaredNames
    pure (undeclared ++ unused)
  else pure []

/-- All that is wrong with the placeholders of a statement under a header. -/
def findings (style : BindingStyle) (s : Statement) : Checked (List Finding) := do
  let placeholders ← (List.range s.size).mapM (placeholderFindings s)
  let positions ← gapFindings s 1 (Binding.ascending s.positions)
  let declarations ← declarationFindings style s
  pure (placeholders.flatten ++ positions ++ declarations ++ Binding.countFindings style s)

section

variable {s : Statement}

theorem firstOccurrence_eq {key : ParamKey} (used : key ∈ s.keys) :
    firstOccurrence s key = pure (s.firstOccurrence key) := by
  obtain ⟨i, found⟩ := Statement.mem_keys.mp used
  have occurs := Statement.mem_occurrences.mpr found
  unfold firstOccurrence Statement.firstOccurrence
  cases listed : s.occurrences key with
  | nil => simp [listed] at occurs
  | cons first rest => rfl

theorem undeclaredFinding_eq {name : String} (used : name ∈ s.names) :
    undeclaredFinding s name =
      pure ⟨.undeclaredName name, .token (s.firstOccurrence (.named name))⟩ := by
  have key := Statement.mem_names.mp used
  unfold undeclaredFinding
  rw [firstOccurrence_eq key, pure_bind, token_eq (Statement.mem_firstOccurrence key), pure_bind]

variable (narrow : s.Narrow)

include narrow

theorem placeholderFindings_eq {i : Nat} :
    placeholderFindings s i = pure (Binding.placeholderFindings s i) := by
  unfold placeholderFindings Binding.placeholderFindings
  split
  next placeholder =>
    rw [token_eq (Statement.lt_size_of_param placeholder), pure_bind]
    cases s.paramKey? i with
    | none => rfl
    | some key =>
      dsimp only
      rw [castHint_eq narrow.paired, pure_bind]
      cases s.castHint? i with
      | none => rfl
      | some hint =>
        cases s.hint? key with
        | none => rfl
        | some first =>
          dsimp only
          split <;> rfl
  · rfl

theorem gapFindings_eq {positions : List Nat} (used : ∀ position ∈ positions,
    position ∈ s.positions) (expected : Nat) :
    gapFindings s expected positions = pure (Binding.gapFindings s expected positions) := by
  induction positions generalizing expected with
  | nil => rfl
  | cons position rest ih =>
    have others := ih fun other member => used other (List.mem_cons_of_mem _ member)
    have listed := used position List.mem_cons_self
    have key := Statement.mem_positions.mp listed
    unfold gapFindings Binding.gapFindings
    rw [firstOccurrence_eq key, pure_bind, token_eq (Statement.mem_firstOccurrence key), pure_bind]
    dsimp only
    split
    · rw [others, pure_bind]
    · rw [narrow_eq (narrow.positions position listed), pure_bind]
      split
      next skipped =>
        rw [sub_eq (Nat.le_of_lt skipped), pure_bind, sub_eq (by omega), pure_bind, others,
          pure_bind]
      · exact others _

end

section

variable {style : BindingStyle} {s : Statement}

theorem isUsed_eq {index : Nat} (fits : index + 1 < UInt32.size) (name : String) :
    isUsed style s index name = pure (Binding.isUsed style s index name) := by
  unfold isUsed Binding.isUsed
  by_cases listed : index < (Binding.slotNames style s).length
  · rw [if_pos listed, narrow_eq (by omega), pure_bind, narrow_eq fits, pure_bind,
      decide_eq_true listed, Bool.true_and]
  · rw [if_neg listed, decide_eq_false listed, Bool.false_and, Bool.or_false]

theorem unusedFindings_eq {names : List String} {index : Nat}
    (fits : index + names.length < UInt32.size) :
    unusedFindings style s index names =
      pure (((names.zipIdx index).filter fun item => !Binding.isUsed style s item.2 item.1).map
        fun item => ⟨.unusedDeclaration item.1, .declaration item.2⟩) := by
  induction names generalizing index with
  | nil => rfl
  | cons name names ih =>
    rw [List.length_cons] at fits
    unfold unusedFindings
    rw [isUsed_eq (by omega), pure_bind, ih (by omega), pure_bind, List.zipIdx_cons,
      List.filter_cons]
    dsimp only
    cases Binding.isUsed style s index name <;> rfl

variable (declared : style.declaredNames.length < UInt32.size)

include declared

theorem declarationFindings_eq :
    declarationFindings style s = pure (Binding.declarationFindings style s) := by
  unfold declarationFindings Binding.declarationFindings
  split
  · rw [mapM_eq fun name member => undeclaredFinding_eq (List.mem_filter.mp member).1,
      pure_bind, unusedFindings_eq (by simpa using declared), pure_bind]
  · rfl

theorem findings_eq (narrow : s.Narrow) : findings style s = pure (Binding.findings style s) := by
  unfold findings Binding.findings Binding.positionFindings
  rw [mapM_eq fun i _ => placeholderFindings_eq narrow, pure_bind,
    gapFindings_eq narrow fun position member => Binding.mem_ascending.mp member, pure_bind,
    declarationFindings_eq declared, pure_bind, List.flatMap_def]

end

/-! ## Slots -/

/-- The slot of the named parameter with the given index among the named ones. -/
def namedSlot (greatest index : Nat) : Checked Nat := do
  let index ← narrow index
  let first ← narrow (greatest + 1)
  narrow (first + index)

/-- The parameter table: a position is its own slot, and names follow the greatest position. -/
def table (style : BindingStyle) (s : Statement) : Checked (List Parameter) := do
  let positional := (Binding.ascending s.positions).map fun position =>
    Binding.parameter style s (.positional position) position
  let named ← (Binding.orderedNames style s).zipIdx.mapM fun item => do
    let slot ← namedSlot (s.positions.max?.getD 0) item.2
    pure (Binding.parameter style s (.named item.1) slot)
  pure (positional ++ named)

/-- Binds the placeholders of a statement under a header. -/
def bind (style : BindingStyle) (s : Statement) : Checked (Analyzed (List Parameter)) := do
  let findings ← findings style s
  if Findings.hasErrors findings then pure ⟨none, findings⟩
  else do
    let table ← table style s
    pure ⟨some table, findings⟩

theorem namedSlot_eq {greatest index : Nat} (fits : greatest + 1 + index < UInt32.size) :
    namedSlot greatest index = pure (greatest + 1 + index) := by
  unfold namedSlot
  rw [narrow_eq (by omega), pure_bind, narrow_eq (by omega), pure_bind, narrow_eq fits]

end Checked

/-! ## Few parameters -/

namespace Statement

variable {s : Statement}

theorem filterMap_key_length (keys : List ParamKey) :
    (keys.filterMap ParamKey.position?).length + (keys.filterMap ParamKey.name?).length =
      keys.length := by
  induction keys with
  | nil => rfl
  | cons key keys ih =>
    cases key <;>
      simp only [List.filterMap_cons, ParamKey.position?, ParamKey.name?, List.length_cons] <;>
      omega

/-- There are no more keys than tokens. -/
theorem keys_length_le (s : Statement) : s.keys.length ≤ s.size := by
  have first : s.keys.length ≤ (s.placeholders.map Prod.snd).length := by
    refine (List.subperm_of_subset s.keys_nodup fun key member => ?_).length_le
    exact List.mem_eraseDups.mp member
  have second : s.placeholders.length ≤ (List.range s.size).length := List.length_filterMap_le _ _
  rw [List.length_map] at first
  rw [List.length_range] at second
  omega

end Statement

namespace Binding

variable {style : BindingStyle} {s : Statement}

theorem Accepts.orderedNames_length_le (accepts : Accepts style s) :
    (orderedNames style s).length ≤ s.names.length :=
  (List.subperm_of_subset (orderedNames_nodup style s) fun _ member =>
    accepts.mem_orderedNames.mp member).length_le

/-- The greatest position of an accepted statement is the number of its positions. -/
theorem Accepts.greatest (accepts : Accepts style s) :
    s.positions.max?.getD 0 = s.positions.length := by
  have listed : ∀ number, number ∈ s.positions ↔ 1 ≤ number ∧ number ≤ s.positions.length := by
    intro number
    rw [← mem_ascending, accepts.positions, List.mem_range'_1]
    omega
  cases greatest : s.positions.max? with
  | none =>
    rw [List.max?_eq_none_iff.mp greatest]
    rfl
  | some number =>
    obtain ⟨member, bound⟩ := List.max?_eq_some_iff.mp greatest
    have within := (listed number).mp member
    have last := bound _ ((listed s.positions.length).mpr (by omega))
    rw [Option.getD_some]
    omega

/-- The table of an accepted statement in terms of its positions and names. -/
theorem Accepts.table_eq (accepts : Accepts style s) :
    table style s = (ascending s.positions).map (fun position =>
        parameter style s (.positional position) position) ++
      (orderedNames style s).zipIdx.map fun item =>
        parameter style s (.named item.1) (s.positions.length + 1 + item.2) := by
  unfold table orderedKeys
  rw [accepts.positions, List.zipIdx_append, List.map_append, List.length_map, List.length_range',
    Nat.zero_add]
  congr 1
  · refine List.ext_getElem (by simp) fun index _ _ => ?_
    simp [Nat.add_comm]
  · refine List.ext_getElem (by simp) fun index _ _ => ?_
    simp [Nat.add_right_comm]

end Binding

namespace Checked

variable {style : BindingStyle} {s : Statement}

theorem table_eq (narrow : s.Narrow) (accepts : Binding.Accepts style s) :
    table style s = pure (Binding.table style s) := by
  have keys := s.keys_length_le
  have counted := Statement.filterMap_key_length s.keys
  have names := accepts.orderedNames_length_le
  have small := narrow.size
  unfold table
  rw [accepts.greatest, mapM_eq (f := fun item =>
    Binding.parameter style s (.named item.1) (s.positions.length + 1 + item.2)), pure_bind,
    accepts.table_eq]
  intro item member
  have order := (List.mem_zipIdx' member).1
  change s.positions.length + s.names.length = _ at counted
  rw [namedSlot_eq (by omega), pure_bind]

/-- Binding meets no trap. -/
theorem bind_eq (narrow : s.Narrow) (declared : style.declaredNames.length < UInt32.size) :
    bind style s = pure (AnnotatedSql.bind style s) := by
  unfold bind AnnotatedSql.bind
  rw [findings_eq declared narrow, pure_bind]
  dsimp only
  split
  · rfl
  next clean => rw [table_eq narrow (Bool.eq_false_iff.mpr clean), pure_bind]

end Checked

end AnnotatedSql
