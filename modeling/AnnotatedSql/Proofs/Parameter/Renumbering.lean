import AnnotatedSql.Proofs.Parameter.Renaming
import AnnotatedSql.Proofs.Statement.Bounds

/-!
# Statements whose placeholders are numbered

An accepted statement with the slots of its parameters for placeholders is accepted without a
declaration, and its parameter table is the same but for keys and names.
-/

namespace AnnotatedSql

/-- The parameter as a statement that writes its slot has it. -/
def Parameter.numbered (parameter : Parameter) : Parameter :=
  { parameter with
    key := .positional parameter.slot
    name := "arg" ++ toString parameter.slot
    declared := false
    optional := false }

namespace Binding

/-- The key of the slot that a key has. -/
def slotKey (style : BindingStyle) (s : Statement) (key : ParamKey) : ParamKey :=
  .positional ((orderedKeys style s).idxOf key + 1)

variable {style : BindingStyle} {s t : Statement}

theorem Accepts.slotKey_injective (accepts : Accepts style s) {a b : ParamKey} (used : a ∈ s.keys)
    (same : slotKey style s a = slotKey style s b) : a = b := by
  have slots := ParamKey.positional.inj same
  exact (List.idxOf_inj (accepts.mem_orderedKeys.mpr used)).mp (by omega)

theorem slot_of_getElem {index : Nat} {key : ParamKey}
    (found : (orderedKeys style s)[index]? = some key) :
    (orderedKeys style s).idxOf key = index := by
  obtain ⟨inside, rfl⟩ := List.getElem?_eq_some_iff.mp found
  exact (orderedKeys_nodup style s).idxOf_getElem index inside

/-- A position is the key of its own slot. -/
theorem Accepts.slotKey_positional (accepts : Accepts style s) {number : Nat}
    (used : .positional number ∈ s.keys) :
    slotKey style s (.positional number) = .positional number := by
  obtain ⟨index, found⟩ := List.mem_iff_getElem?.mp (accepts.mem_orderedKeys.mpr used)
  have entry : (table style s)[index]? =
      some (parameter style s (.positional number) (index + 1)) := by
    rw [table_getElem, found]
    rfl
  have slot := accepts.slot_of_position (List.mem_of_getElem? entry) rfl
  rw [slotKey, slot_of_getElem found]
  exact congrArg ParamKey.positional slot

section Numbered

variable (accepts : Accepts style s) (renames : s.Renames id (slotKey style s) t)

include renames in
theorem numbered_names : t.names = [] := by
  unfold Statement.names
  rw [renames.keys, List.filterMap_map]
  exact List.filterMap_eq_nil_iff.mpr fun key _ => rfl

include accepts renames

theorem numbered_positions : t.positions.Perm (List.range' 1 (orderedKeys style s).length) := by
  have positions : t.positions = s.keys.map fun key => (orderedKeys style s).idxOf key + 1 := by
    unfold Statement.positions
    rw [renames.keys, List.filterMap_map]
    have slots : ParamKey.position? ∘ slotKey style s =
      some ∘ fun key => (orderedKeys style s).idxOf key + 1 := rfl
    rw [slots, List.filterMap_eq_map]
  have keys : s.keys.Perm (orderedKeys style s) :=
    (List.perm_ext_iff_of_nodup s.keys_nodup (orderedKeys_nodup style s)).mpr fun key =>
      accepts.mem_orderedKeys.symm
  have slots : (orderedKeys style s).map (fun key => (orderedKeys style s).idxOf key + 1) =
      List.range' 1 (orderedKeys style s).length := by
    refine List.ext_getElem (by simp) fun index inside _ => ?_
    rw [List.getElem_map, (orderedKeys_nodup style s).idxOf_getElem, List.getElem_range']
    omega
  rw [positions, ← slots]
  exact keys.map _

/-- The positions of the numbered statement are one to the number of parameters. -/
theorem numbered_ascending :
    ascending t.positions = List.range' 1 (orderedKeys style s).length := by
  have permuted := (ascending_perm t.positions).trans (numbered_positions accepts renames)
  refine permuted.eq_of_pairwise ?_ (ascending_pairwise t.positions_nodup) List.pairwise_lt_range'
  omega

theorem numbered_orderedKeys :
    orderedKeys .implicit t = (orderedKeys style s).map (slotKey style s) := by
  have noNames : orderedNames .implicit t = [] := numbered_names renames
  have parts : orderedKeys .implicit t =
    (ascending t.positions).map .positional ++ (orderedNames .implicit t).map .named := rfl
  rw [parts, noNames, numbered_ascending accepts renames, List.map_nil, List.append_nil]
  refine List.ext_getElem (by simp) fun index _ inside => ?_
  rw [List.length_map] at inside
  have slot := (orderedKeys_nodup style s).idxOf_getElem index inside
  simp only [List.getElem_map, List.getElem_range', slotKey, slot]
  congr 1
  omega

/-! ## Findings -/

omit renames in
/-- No placeholder of an accepted statement is out of range or cast to two types. -/
theorem Accepts.placeholderFindings_eq_nil (i : Nat) : placeholderFindings s i = [] := by
  refine List.eq_nil_iff_forall_not_mem.mpr fun finding member => ?_
  have listed : finding ∈ findings style s := by
    have inside := Statement.lt_size_of_param (mem_placeholderFindings.mp member).1
    simp only [findings, List.mem_append, List.mem_flatMap]
    exact Or.inl (Or.inl (Or.inl ⟨i, List.mem_range.mpr inside, member⟩))
  have harmless := accepts.notError listed
  rw [placeholderFindings_isError member] at harmless
  cases harmless

omit accepts renames in
theorem gapFindings_range (s : Statement) (expected count : Nat) (positive : 1 ≤ expected) :
    gapFindings s expected (List.range' expected count) = [] := by
  induction count generalizing expected with
  | zero => rfl
  | succ count ih =>
    have notZero : (expected == 0) = false := by
      rw [beq_eq_false_iff_ne]
      omega
    rw [List.range'_succ, gapFindings, notZero, ih _ (by omega)]
    simp

theorem numbered_placeholderFindings (i : Nat) : placeholderFindings t i = [] := by
  have clean : ∀ finding, finding ∉ placeholderFindings s i :=
    List.eq_nil_iff_forall_not_mem.mp (accepts.placeholderFindings_eq_nil i)
  refine List.eq_nil_iff_forall_not_mem.mpr fun finding member => ?_
  obtain ⟨param, fault⟩ := mem_placeholderFindings.mp member
  rw [renames.mirrors.isParam] at param
  rw [renames.paramKey, renames.mirrors.castHint] at fault
  rcases fault with ⟨unread, _⟩ | ⟨_, hint, first, renumbered, cast, leading, differ, _⟩
  · exact clean _ (mem_placeholderFindings.mpr
      ⟨param, Or.inl ⟨Option.map_eq_none_iff.mp unread, rfl⟩⟩)
  · obtain ⟨key, stands, rfl⟩ := Option.map_eq_some_iff.mp renumbered
    rw [renames.hint (Statement.mem_keys.mpr ⟨i, stands⟩)] at leading
    exact clean _ (mem_placeholderFindings.mpr
      ⟨param, Or.inr ⟨key, hint, first, stands, cast, leading, differ, rfl⟩⟩)

theorem numbered_findings : findings .implicit t = [] := by
  have positions : positionFindings t = [] := by
    unfold positionFindings
    rw [numbered_ascending accepts renames]
    exact gapFindings_range t 1 _ (Nat.le_refl 1)
  have placeholders : (List.range t.size).flatMap (placeholderFindings t) = [] := by
    rw [List.flatMap_eq_nil_iff]
    exact fun i _ => numbered_placeholderFindings accepts renames i
  unfold findings
  rw [positions, placeholders]
  rfl

theorem numbered_table : table .implicit t = (table style s).map Parameter.numbered := by
  refine List.ext_getElem? fun index => ?_
  rw [List.getElem?_map, table_getElem, table_getElem, numbered_orderedKeys accepts renames,
    List.getElem?_map]
  cases found : (orderedKeys style s)[index]? with
  | none => rfl
  | some key =>
    have used : key ∈ s.keys := accepts.mem_orderedKeys.mp (List.mem_of_getElem? found)
    have slot := slot_of_getElem found
    have hint := renames.hint used
    have occurrences := renames.occurrences used
    simp only [slotKey, slot] at hint occurrences
    simp only [Option.map_some, slotKey, slot, parameter, hint, occurrences, Parameter.numbered]
    rfl

theorem bind_numbered :
    bind .implicit t = ⟨some ((table style s).map Parameter.numbered), []⟩ := by
  unfold bind
  rw [numbered_findings accepts renames, numbered_table accepts renames]
  rfl

end Numbered

end Binding

end AnnotatedSql
