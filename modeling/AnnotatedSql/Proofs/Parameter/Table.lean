import AnnotatedSql.Parameter.Binding
import Mathlib.Data.List.Nodup
import Mathlib.Data.List.Sort

/-!
# The parameter table

A statement has one parameter for each key. Where binding finds no error, the positions are one to
some number, so that the table lists each key once and a position is its own slot.
-/

namespace AnnotatedSql

theorem nodup_eraseDups {α : Type} [BEq α] [LawfulBEq α] (items : List α) :
    items.eraseDups.Nodup := by
  match items with
  | [] => simp
  | item :: rest =>
    rw [List.eraseDups_cons, List.nodup_cons]
    refine ⟨?_, nodup_eraseDups _⟩
    simp [List.mem_eraseDups]
termination_by items.length
decreasing_by exact Nat.lt_succ_of_le (List.length_filter_le _ _)

/-! ## Keys -/

namespace Statement

variable {s : Statement} {key : ParamKey} {i : Nat}

theorem lt_size_of_paramKey (found : s.paramKey? i = some key) : i < s.size := by
  obtain ⟨lexeme, read, _⟩ := Option.bind_eq_some_iff.mp found
  exact (Array.getElem?_eq_some_iff.mp read).1

/-- What stands for a parameter is a placeholder. -/
theorem isParam_of_paramKey (stands : s.paramKey? i = some key) : s.isParam i = true := by
  obtain ⟨⟨kind, text⟩, read, keyed⟩ := Option.bind_eq_some_iff.mp stands
  cases kind with
  | positionalParam => simp [isParam, kind?, read, TokenKind.isParam]
  | namedParam => simp [isParam, kind?, read, TokenKind.isParam]
  | _ => cases keyed

theorem mem_placeholders : (i, key) ∈ s.placeholders ↔ s.paramKey? i = some key := by
  unfold placeholders
  rw [List.mem_filterMap]
  constructor
  · rintro ⟨j, _, found⟩
    obtain ⟨other, read, same⟩ := Option.map_eq_some_iff.mp found
    cases same
    exact read
  · intro found
    exact ⟨i, List.mem_range.mpr (lt_size_of_paramKey found), by simp [found]⟩

theorem mem_occurrences : i ∈ s.occurrences key ↔ s.paramKey? i = some key := by
  unfold occurrences
  rw [List.mem_map]
  constructor
  · rintro ⟨⟨j, other⟩, member, rfl⟩
    obtain ⟨found, same⟩ := List.mem_filter.mp member
    rw [← eq_of_beq same]
    exact mem_placeholders.mp found
  · intro found
    exact ⟨(i, key), List.mem_filter.mpr ⟨mem_placeholders.mpr found, BEq.rfl⟩, rfl⟩

theorem mem_keys : key ∈ s.keys ↔ ∃ i, s.paramKey? i = some key := by
  unfold keys
  rw [List.mem_eraseDups, List.mem_map]
  constructor
  · rintro ⟨⟨j, other⟩, member, rfl⟩
    exact ⟨j, mem_placeholders.mp member⟩
  · rintro ⟨j, found⟩
    exact ⟨(j, key), mem_placeholders.mpr found, rfl⟩

theorem keys_nodup (s : Statement) : s.keys.Nodup := nodup_eraseDups _

/-- The first occurrence of a key is a token that stands for it. -/
theorem paramKey_firstOccurrence (member : key ∈ s.keys) :
    s.paramKey? (s.firstOccurrence key) = some key := by
  obtain ⟨i, found⟩ := mem_keys.mp member
  have occurs := mem_occurrences.mpr found
  unfold firstOccurrence
  cases listed : s.occurrences key with
  | nil => simp [listed] at occurs
  | cons first rest => exact mem_occurrences.mp (by simp [listed])

theorem mem_positions {number : Nat} : number ∈ s.positions ↔ .positional number ∈ s.keys := by
  unfold positions
  rw [List.mem_filterMap]
  constructor
  · rintro ⟨key, member, found⟩
    cases key <;> simp_all [ParamKey.position?]
  · exact fun member => ⟨_, member, rfl⟩

theorem mem_names {name : String} : name ∈ s.names ↔ .named name ∈ s.keys := by
  unfold names
  rw [List.mem_filterMap]
  constructor
  · rintro ⟨key, member, found⟩
    cases key <;> simp_all [ParamKey.name?]
  · exact fun member => ⟨_, member, rfl⟩

theorem positions_nodup (s : Statement) : s.positions.Nodup := by
  refine (keys_nodup s).filterMap ?_
  rintro (a | a) (b | b) number <;> simp_all [ParamKey.position?]

theorem names_nodup (s : Statement) : s.names.Nodup := by
  refine (keys_nodup s).filterMap ?_
  rintro (a | a) (b | b) name <;> simp_all [ParamKey.name?]

end Statement

/-! ## Positions -/

namespace Binding

theorem insertAscending_eq (number : Nat) (numbers : List Nat) :
    insertAscending number numbers = numbers.orderedInsert (· ≤ ·) number := by
  induction numbers with
  | nil => rfl
  | cons other rest ih => simp only [insertAscending, List.orderedInsert_cons, ih]

theorem ascending_eq_insertionSort (numbers : List Nat) :
    ascending numbers = numbers.insertionSort (· ≤ ·) := by
  induction numbers with
  | nil => rfl
  | cons number rest ih =>
    have step : ascending (number :: rest) = insertAscending number (ascending rest) := rfl
    rw [step, ih, insertAscending_eq, List.insertionSort_cons]

theorem ascending_perm (numbers : List Nat) : (ascending numbers).Perm numbers := by
  rw [ascending_eq_insertionSort]
  exact List.perm_insertionSort _ _

theorem mem_ascending {numbers : List Nat} {number : Nat} :
    number ∈ ascending numbers ↔ number ∈ numbers :=
  (ascending_perm numbers).mem_iff

/-- Distinct numbers are strictly ascending once they are ordered. -/
theorem ascending_pairwise {numbers : List Nat} (distinct : numbers.Nodup) :
    (ascending numbers).Pairwise (· < ·) := by
  have ordered : (ascending numbers).Pairwise (· ≤ ·) := by
    rw [ascending_eq_insertionSort]
    exact List.pairwise_insertionSort _ _
  have unequal : (ascending numbers).Pairwise (· ≠ ·) :=
    (ascending_perm numbers).nodup_iff.mpr distinct
  refine (ordered.and unequal).imp ?_
  rintro a b ⟨le, ne⟩
  exact Nat.lt_of_le_of_ne le ne

/-- What is wrong with a placeholder is its position, or a cast to another type than the first one
under its key. -/
theorem mem_placeholderFindings {s : Statement} {i : Nat} {finding : Finding} :
    finding ∈ placeholderFindings s i ↔ s.isParam i = true ∧
      (s.paramKey? i = none ∧ finding = ⟨.positionOutOfRange (s.text i), .token i⟩ ∨
        ∃ key hint first, s.paramKey? i = some key ∧ s.castHint? i = some hint ∧
          s.hint? key = some first ∧ canonicalType hint.text ≠ canonicalType first.text ∧
          finding = ⟨.conflictingHints key first.text hint.text first.place, hint.place⟩) := by
  unfold placeholderFindings
  cases s.isParam i with
  | false => simp
  | true =>
    cases s.paramKey? i with
    | none => simp
    | some key =>
      cases s.castHint? i with
      | none => simp
      | some hint =>
        cases leading : s.hint? key with
        | none => simp [leading]
        | some first => simp [leading]

theorem placeholderFindings_isError {s : Statement} {i : Nat} {finding : Finding}
    (member : finding ∈ placeholderFindings s i) : finding.isError = true := by
  obtain ⟨_, ⟨_, rfl⟩ | ⟨_, _, _, _, _, _, _, rfl⟩⟩ := mem_placeholderFindings.mp member <;> rfl

/-- A gap is found at the first occurrence of the position after it, and so is position zero. -/
theorem mem_gapFindings {s : Statement} {expected : Nat} {positions : List Nat} {finding : Finding}
    (member : finding ∈ gapFindings s expected positions) :
    ∃ position ∈ positions, ∃ cause,
      finding = ⟨cause, .token (s.firstOccurrence (.positional position))⟩ ∧
        (cause = .positionZero ∨ ∃ skipped, cause = .positionsSkipped skipped (position - 1)) := by
  induction positions generalizing expected with
  | nil => cases member
  | cons position rest ih =>
    have later : ∀ {expected}, finding ∈ gapFindings s expected rest → _ := fun found =>
      (ih found).imp fun _ => And.imp_left (List.mem_cons_of_mem position)
    unfold gapFindings at member
    dsimp only at member
    split at member
    · rcases List.mem_cons.mp member with rfl | member
      · exact ⟨position, by simp, _, rfl, Or.inl rfl⟩
      · exact later member
    · split at member
      · rcases List.mem_cons.mp member with rfl | member
        · exact ⟨position, by simp, _, rfl, Or.inr ⟨_, rfl⟩⟩
        · exact later member
      · exact later member

theorem gapFindings_isError {s : Statement} {expected : Nat} {positions : List Nat}
    {finding : Finding} (member : finding ∈ gapFindings s expected positions) :
    finding.isError = true := by
  obtain ⟨_, _, _, rfl, rfl | ⟨_, rfl⟩⟩ := mem_gapFindings member <;> rfl

/-- Ascending positions without a gap count up from the expected one. -/
theorem eq_range_of_gapFindings_nil {s : Statement} {expected : Nat} {positions : List Nat}
    (ordered : positions.Pairwise (· < ·))
    (bounded : ∀ position ∈ positions, position = 0 ∨ expected ≤ position)
    (clean : gapFindings s expected positions = []) :
    positions = List.range' expected positions.length := by
  induction positions generalizing expected with
  | nil => rfl
  | cons position rest ih =>
    rw [List.pairwise_cons] at ordered
    unfold gapFindings at clean
    dsimp only at clean
    split at clean
    · cases clean
    next positive =>
      split at clean
      · cases clean
      next close =>
        have start : position = expected := by
          have := bounded position (by simp)
          simp only [beq_iff_eq] at positive
          omega
        subst position
        have rest_eq := ih ordered.2 (fun other member => Or.inr (ordered.1 other member)) clean
        rw [List.length_cons, List.range'_succ]
        exact congrArg (expected :: ·) rest_eq

/-- Binding finds no error. -/
def Accepts (style : BindingStyle) (s : Statement) : Prop :=
  Findings.hasErrors (findings style s) = false

theorem Accepts.notError {style : BindingStyle} {s : Statement} (accepts : Accepts style s)
    {finding : Finding} (member : finding ∈ findings style s) : finding.isError = false := by
  cases fails : finding.isError with
  | false => rfl
  | true =>
    have found : Findings.hasErrors (findings style s) = true :=
      List.any_eq_true.mpr ⟨finding, member, fails⟩
    rw [accepts] at found
    cases found

theorem bind_value_iff {style : BindingStyle} {s : Statement} {parameters : List Parameter} :
    (bind style s).value = some parameters ↔ Accepts style s ∧ table style s = parameters := by
  unfold bind Accepts
  cases fails : Findings.hasErrors (findings style s) <;> simp [fails]

/-- The positions of an accepted statement are one to their number. -/
theorem Accepts.positions {style : BindingStyle} {s : Statement} (accepts : Accepts style s) :
    ascending s.positions = List.range' 1 s.positions.length := by
  have clean : gapFindings s 1 (ascending s.positions) = [] := by
    refine List.eq_nil_iff_forall_not_mem.mpr fun finding member => ?_
    have fails := gapFindings_isError member
    have listed : finding ∈ findings style s := by simp [findings, positionFindings, member]
    rw [accepts.notError listed] at fails
    cases fails
  have counted := eq_range_of_gapFindings_nil (ascending_pairwise s.positions_nodup)
    (fun position _ => by omega) clean
  rwa [(ascending_perm s.positions).length_eq] at counted

/-- Every name of an accepted statement is declared where declarations count. -/
theorem Accepts.declared {style : BindingStyle} {s : Statement} (accepts : Accepts style s)
    (checks : style.checksDeclarations = true) {name : String} (used : name ∈ s.names) :
    name ∈ style.declaredNames := by
  by_contra missing
  let finding : Finding := ⟨.undeclaredName name, .token (s.firstOccurrence (.named name))⟩
  have listed : finding ∈ findings style s := by
    simp only [findings, declarationFindings, checks, if_true, List.mem_append]
    refine Or.inl (Or.inr (Or.inl (List.mem_map.mpr ⟨name, ?_, rfl⟩)))
    exact List.mem_filter.mpr ⟨used, by simpa using missing⟩
  have harmless := accepts.notError listed
  cases harmless

/-! ## Slots -/

theorem orderedNames_nodup (style : BindingStyle) (s : Statement) :
    (orderedNames style s).Nodup := by
  unfold orderedNames
  split
  · exact (nodup_eraseDups _).filter _
  · exact s.names_nodup

theorem Accepts.mem_orderedNames {style : BindingStyle} {s : Statement}
    (accepts : Accepts style s) {name : String} :
    name ∈ orderedNames style s ↔ name ∈ s.names := by
  unfold orderedNames
  split
  next checks =>
    rw [List.mem_filter, List.mem_eraseDups, List.contains_iff_mem]
    exact ⟨And.right, fun used => ⟨accepts.declared checks used, used⟩⟩
  next => exact Iff.rfl

theorem orderedKeys_nodup (style : BindingStyle) (s : Statement) :
    (orderedKeys style s).Nodup := by
  unfold orderedKeys
  refine List.Nodup.append ?_ ?_ ?_
  · refine ((ascending_perm _).nodup_iff.mpr s.positions_nodup).map fun a b same => ?_
    cases same
    rfl
  · refine (orderedNames_nodup style s).map fun a b same => ?_
    cases same
    rfl
  · intro key positional named
    obtain ⟨number, _, rfl⟩ := List.mem_map.mp positional
    obtain ⟨name, _, impossible⟩ := List.mem_map.mp named
    cases impossible

/-- The table of an accepted statement lists its keys. -/
theorem Accepts.mem_orderedKeys {style : BindingStyle} {s : Statement}
    (accepts : Accepts style s) {key : ParamKey} : key ∈ orderedKeys style s ↔ key ∈ s.keys := by
  unfold orderedKeys
  rw [List.mem_append, List.mem_map, List.mem_map]
  cases key with
  | positional number =>
    simp [mem_ascending, Statement.mem_positions]
  | named name =>
    simp [accepts.mem_orderedNames, Statement.mem_names]

@[simp] theorem table_length (style : BindingStyle) (s : Statement) :
    (table style s).length = (orderedKeys style s).length := by
  simp [table]

theorem table_keys (style : BindingStyle) (s : Statement) :
    (table style s).map Parameter.key = orderedKeys style s := by
  unfold table
  rw [List.map_map]
  exact List.zipIdx_map_fst 0 _

theorem table_slots (style : BindingStyle) (s : Statement) :
    (table style s).map Parameter.slot = List.range' 1 (table style s).length := by
  unfold table
  rw [List.map_map, List.length_map, List.length_zipIdx]
  refine List.ext_getElem (by simp) fun index _ _ => ?_
  simp [parameter, Nat.add_comm]

/-- The entry at an index of the table. -/
theorem table_getElem (style : BindingStyle) (s : Statement) (index : Nat) :
    (table style s)[index]? =
      (orderedKeys style s)[index]?.map (parameter style s · (index + 1)) := by
  unfold table
  rw [List.getElem?_map, List.getElem?_zipIdx]
  cases (orderedKeys style s)[index]? <;> simp

/-- An entry has all occurrences of its key, and the first cast of it. -/
theorem table_entry {style : BindingStyle} {s : Statement} {p : Parameter}
    (member : p ∈ table style s) :
    p.occurrences = s.occurrences p.key ∧ p.hint = s.hint? p.key := by
  obtain ⟨⟨key, index⟩, _, rfl⟩ := List.mem_map.mp member
  exact ⟨rfl, rfl⟩

/-- Binding gives no types. -/
theorem table_untyped {style : BindingStyle} {s : Statement} :
    ∀ p ∈ table style s, p.type = .unresolved := by
  intro p member
  obtain ⟨⟨key, index⟩, _, rfl⟩ := List.mem_map.mp member
  cases key <;> rfl

/-- A position of an accepted statement is its own slot. -/
theorem Accepts.slot_of_position {style : BindingStyle} {s : Statement}
    (accepts : Accepts style s) {p : Parameter} (member : p ∈ table style s) {number : Nat}
    (positional : p.key = .positional number) : p.slot = number := by
  obtain ⟨index, found⟩ := List.mem_iff_getElem?.mp member
  rw [table_getElem] at found
  obtain ⟨key, listed, rfl⟩ := Option.map_eq_some_iff.mp found
  have keyAt : key = .positional number := positional
  subst keyAt
  have slotAt : (parameter style s (.positional number) (index + 1)).slot = index + 1 := rfl
  rw [slotAt]
  simp only [orderedKeys, accepts.positions] at listed
  by_cases early : index < s.positions.length
  · rw [List.getElem?_append_left (by simpa using early), List.getElem?_map,
      List.getElem?_range' early] at listed
    cases listed
    omega
  · rw [List.getElem?_append_right (by simpa using early)] at listed
    simp at listed

end Binding

end AnnotatedSql
