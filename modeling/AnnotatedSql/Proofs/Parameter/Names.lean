import AnnotatedSql.Proofs.Parameter.Renaming
import AnnotatedSql.Proofs.Resolution.Mirrored

/-!
# Names of parameters

Parameters may go by other names as long as different names stay different. Binding then fails in the
same ways and gives the same parameters, in the same slots, under the other names.
-/

namespace AnnotatedSql

/-- The key with its name changed. -/
def ParamKey.renamed (rename : String → String) : ParamKey → ParamKey
  | positional number => .positional number
  | named name => .named (rename name)

/-- The style with the declared names changed. -/
def BindingStyle.renamed (rename : String → String) : BindingStyle → BindingStyle
  | implicit => implicit
  | explicitList names => explicitList (names.map rename)
  | positionalOptional (.count count) => positionalOptional (.count count)
  | positionalOptional (.named name) => positionalOptional (.named (rename name))

/-- Whether the name of a parameter is written in the query, in a placeholder or in the list of the
header. The name of any other parameter is made from its position. -/
def Parameter.isNamed (style : BindingStyle) (parameter : Parameter) : Bool :=
  parameter.key.name?.isSome || parameter.declared && style.count?.isNone

/-- The parameter under its other name. -/
def Parameter.renamed (rename : String → String) (style : BindingStyle) (parameter : Parameter) :
    Parameter :=
  { parameter with
    key := parameter.key.renamed rename
    name := if parameter.isNamed style then rename parameter.name else parameter.name }

theorem contains_map {α β : Type} [BEq α] [LawfulBEq α] [BEq β] [LawfulBEq β] {f : α → β}
    {items : List α} {item : α} (injective : ∀ other ∈ items, f other = f item → other = item) :
    (items.map f).contains (f item) = items.contains item := by
  rw [Bool.eq_iff_iff, List.contains_iff_mem, List.contains_iff_mem, List.mem_map]
  constructor
  · rintro ⟨other, member, same⟩
    rw [← injective other member same]
    exact member
  · exact fun member => ⟨item, member, rfl⟩

namespace BindingStyle

variable (rename : String → String) (style : BindingStyle)

@[simp] theorem renamed_checksDeclarations :
    (style.renamed rename).checksDeclarations = style.checksDeclarations := by
  rcases style with _ | _ | ⟨_ | _⟩ <;> rfl

@[simp] theorem renamed_declaredNames :
    (style.renamed rename).declaredNames = style.declaredNames.map rename := by
  rcases style with _ | _ | ⟨_ | _⟩ <;> rfl

@[simp] theorem renamed_isOptional : (style.renamed rename).isOptional = style.isOptional := by
  rcases style with _ | _ | ⟨_ | _⟩ <;> rfl

@[simp] theorem renamed_count : (style.renamed rename).count? = style.count? := by
  rcases style with _ | _ | ⟨_ | _⟩ <;> rfl

end BindingStyle

namespace Binding

variable {rename : String → String} {style : BindingStyle} {s t : Statement}

/-- Two statements that differ in the names of their parameters, and in how other names are
spelled. Names of parameters that are used or declared stay apart. -/
structure RenamesNames (respell : Name → Name) (rename : String → String) (style : BindingStyle)
    (s t : Statement) : Prop where
  renames : s.Renames respell (ParamKey.renamed rename) t
  injective : ∀ a ∈ s.names ++ style.declaredNames, ∀ b ∈ s.names ++ style.declaredNames,
    rename a = rename b → a = b

namespace RenamesNames

variable {respell : Name → Name} (renamed : RenamesNames respell rename style s t)

include renamed

theorem names : t.names = s.names.map rename := by
  unfold Statement.names
  rw [renamed.renames.keys, List.filterMap_map, List.map_filterMap]
  refine List.filterMap_congr fun key _ => ?_
  cases key <;> rfl

theorem positions : t.positions = s.positions := by
  unfold Statement.positions
  rw [renamed.renames.keys, List.filterMap_map]
  refine List.filterMap_congr fun key _ => ?_
  cases key <;> rfl

theorem names_contains {name : String} (known : name ∈ s.names ++ style.declaredNames) :
    t.names.contains (rename name) = s.names.contains name := by
  rw [renamed.names]
  refine contains_map fun other member => ?_
  exact renamed.injective other (List.mem_append_left _ member) name known

theorem declared_contains {name : String} (known : name ∈ s.names ++ style.declaredNames) :
    (style.declaredNames.map rename).contains (rename name) =
      style.declaredNames.contains name := by
  refine contains_map fun other member => ?_
  exact renamed.injective other (List.mem_append_right _ member) name known

omit renamed in
theorem contains_key (s : Statement) (name : String) :
    s.keys.contains (.named name) = s.names.contains name := by
  rw [Bool.eq_iff_iff, List.contains_iff_mem, List.contains_iff_mem, Statement.mem_names]

theorem contains_position (number : Nat) :
    t.keys.contains (.positional number) = s.keys.contains (.positional number) := by
  rw [Bool.eq_iff_iff, List.contains_iff_mem, List.contains_iff_mem, ← Statement.mem_positions,
    ← Statement.mem_positions, renamed.positions]

theorem slotNames : slotNames (style.renamed rename) t = (slotNames style s).map rename := by
  rcases style with _ | names | ⟨_ | _⟩
  · rfl
  · simp only [BindingStyle.renamed, Binding.slotNames, renamed.names, List.isEmpty_map]
    split <;> rfl
  · rfl
  · rfl

/-! ## Findings -/

theorem placeholder_kinds (i : Nat) :
    (placeholderFindings t i).map Finding.kind = (placeholderFindings s i).map Finding.kind := by
  unfold placeholderFindings
  rw [renamed.renames.mirrors.isParam, renamed.renames.paramKey, renamed.renames.mirrors.castHint]
  split
  next =>
    cases read : s.paramKey? i with
    | none => rfl
    | some key =>
      dsimp only [Option.map_some]
      rw [renamed.renames.hint (Statement.mem_keys.mpr ⟨i, read⟩)]
      split
      · split <;> rfl
      · rfl
  next => rfl

omit renamed in
theorem gap_kinds (s t : Statement) (expected : Nat) (positions : List Nat) :
    (gapFindings t expected positions).map Finding.kind =
      (gapFindings s expected positions).map Finding.kind := by
  induction positions generalizing expected with
  | nil => rfl
  | cons position rest ih =>
    unfold gapFindings
    dsimp only
    split
    · exact congrArg (_ :: ·) (ih expected)
    · split
      · exact congrArg (_ :: ·) (ih (position + 1))
      · exact ih (position + 1)

theorem isUsed {index : Nat} {name : String} (known : name ∈ style.declaredNames) :
    isUsed (style.renamed rename) t index (rename name) = isUsed style s index name := by
  unfold Binding.isUsed
  rw [contains_key, contains_key, renamed.names_contains (List.mem_append_right _ known),
    renamed.contains_position, renamed.slotNames, List.length_map]

theorem declaration_kinds : (declarationFindings (style.renamed rename) t).map Finding.kind =
    (declarationFindings style s).map Finding.kind := by
  unfold declarationFindings
  rw [BindingStyle.renamed_checksDeclarations, BindingStyle.renamed_declaredNames, renamed.names]
  split
  next =>
    rw [List.zipIdx_map, List.filter_map, List.filter_map, List.map_append, List.map_append]
    refine congrArg₂ (· ++ ·) ?_ ?_
    · simp only [List.map_map]
      have kept : s.names.filter ((fun name => !(style.declaredNames.map rename).contains name) ∘
          rename) = s.names.filter fun name => !style.declaredNames.contains name := by
        refine List.filter_congr fun name member => ?_
        rw [Function.comp_apply, renamed.declared_contains (List.mem_append_left _ member)]
      rw [kept]
      exact List.map_congr_left fun name _ => rfl
    · have kept : style.declaredNames.zipIdx.filter ((fun declared =>
            !Binding.isUsed (style.renamed rename) t declared.2 declared.1) ∘ Prod.map rename id) =
          style.declaredNames.zipIdx.filter fun declared =>
            !Binding.isUsed style s declared.2 declared.1 := by
        refine List.filter_congr fun (name, index) member => ?_
        have known := List.fst_mem_of_mem_zipIdx member
        exact congrArg (!·) (renamed.isUsed known)
      simp only [List.map_map]
      exact (congrArg _ kept).trans (List.map_congr_left fun _ _ => rfl)
  next => rfl

theorem count_kinds : (countFindings (style.renamed rename) t).map Finding.kind =
    (countFindings style s).map Finding.kind := by
  unfold countFindings
  rw [BindingStyle.renamed_count, renamed.renames.keys, List.length_map]

/-- The same kinds of things are wrong with the placeholders. -/
theorem kinds : (findings (style.renamed rename) t).map Finding.kind =
    (findings style s).map Finding.kind := by
  have placeholders : ((List.range t.size).flatMap (placeholderFindings t)).map Finding.kind =
      ((List.range s.size).flatMap (placeholderFindings s)).map Finding.kind := by
    rw [renamed.renames.mirrors.size, List.map_flatMap, List.map_flatMap]
    exact congrArg (List.range s.size).flatMap (funext renamed.placeholder_kinds)
  have positions : (positionFindings t).map Finding.kind =
      (positionFindings s).map Finding.kind := by
    unfold positionFindings
    rw [renamed.positions]
    exact gap_kinds s t 1 _
  unfold findings
  simp only [List.map_append, placeholders, positions, renamed.declaration_kinds,
    renamed.count_kinds]

theorem accepts : Accepts (style.renamed rename) t ↔ Accepts style s := by
  unfold Accepts
  rw [Findings.hasErrors_of_kinds renamed.kinds]

/-! ## The table -/

theorem orderedNames :
    orderedNames (style.renamed rename) t = (orderedNames style s).map rename := by
  unfold Binding.orderedNames
  rw [BindingStyle.renamed_checksDeclarations, BindingStyle.renamed_declaredNames]
  split
  · rw [eraseDups_map fun a aMember b bMember => renamed.injective a
        (List.mem_append_right _ aMember) b (List.mem_append_right _ bMember), List.filter_map]
    congr 1
    refine List.filter_congr fun name member => ?_
    have declared := List.mem_eraseDups.mp member
    exact renamed.names_contains (List.mem_append_right _ declared)
  · exact renamed.names

theorem orderedKeys : orderedKeys (style.renamed rename) t =
    (orderedKeys style s).map (ParamKey.renamed rename) := by
  unfold Binding.orderedKeys
  rw [renamed.positions, renamed.orderedNames, List.map_append, List.map_map, List.map_map,
    List.map_map]
  rfl

theorem parameter {key : ParamKey} (used : key ∈ s.keys) (slot : Nat) :
    parameter (style.renamed rename) t (key.renamed rename) slot =
      (parameter style s key slot).renamed rename style := by
  have hint := renamed.renames.hint used
  have occurrences := renamed.renames.occurrences used
  cases key with
  | named name =>
    have known : name ∈ s.names ++ style.declaredNames :=
      List.mem_append_left _ (Statement.mem_names.mpr used)
    have declared := renamed.declared_contains known
    simp only [ParamKey.renamed] at hint occurrences
    simp only [Binding.parameter, ParamKey.renamed, Parameter.renamed, Parameter.isNamed, hint,
      occurrences, declared, BindingStyle.renamed_count, BindingStyle.renamed_isOptional,
      BindingStyle.renamed_declaredNames, ParamKey.name?]
    rfl
  | positional number =>
    simp only [ParamKey.renamed] at hint occurrences
    simp only [Binding.parameter, ParamKey.renamed, Parameter.renamed, Parameter.isNamed, hint,
      occurrences, BindingStyle.renamed_count, BindingStyle.renamed_isOptional,
      renamed.slotNames, ParamKey.name?, List.getElem?_map]
    rcases Option.eq_none_or_eq_some (Binding.slotNames style s)[number - 1]? with
      given | ⟨name, given⟩
    · have contrary : (style.count?.isSome && style.count?.isNone) = false := by
        cases style.count? <;> rfl
      simp [given, contrary]
    · have listed := List.mem_of_getElem? given
      have uncounted : style.count? = none := by
        rcases style with _ | _ | ⟨_ | _⟩
        · rfl
        · rfl
        · cases listed
        · rfl
      simp [given, uncounted]

theorem table (accepts : Accepts style s) :
    table (style.renamed rename) t = (table style s).map (Parameter.renamed rename style) := by
  refine List.ext_getElem? fun index => ?_
  rw [List.getElem?_map, table_getElem, table_getElem, renamed.orderedKeys, List.getElem?_map]
  cases found : (Binding.orderedKeys style s)[index]? with
  | none => rfl
  | some key =>
    have used : key ∈ s.keys := accepts.mem_orderedKeys.mp (List.mem_of_getElem? found)
    exact congrArg some (renamed.parameter used (index + 1))

omit renamed in
theorem changes (accepts : Accepts style s) :
    ChangesKeys (ParamKey.renamed rename) (Parameter.renamed rename style) s
      (Binding.table style s) where
  used p member := by
    rw [← accepts.mem_orderedKeys, ← table_keys]
    exact List.mem_map_of_mem member
  key _ _ := rfl
  hint _ := rfl
  retype _ _ := rfl

end RenamesNames

end Binding

end AnnotatedSql
