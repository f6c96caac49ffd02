import AnnotatedSql.Proofs.Header.Canonical
import AnnotatedSql.Proofs.Parameter.Slots

/-!
# Names in generated code

Generated code names a parameter by its placeholder, by the list of the header, or by its position.
The first two never clash: placeholders are told apart by their names, a list repeats none, and it
names positions only where no placeholder has a name. A name made from a position is compared with
none of them, so it clashes exactly if it is written too.
-/

namespace AnnotatedSql

namespace Binding

variable {style : BindingStyle} {s : Statement}

/-- The name that the list of the header gives to a position. -/
def listedName? (style : BindingStyle) (s : Statement) (number : Nat) : Option String :=
  (slotNames style s)[number - 1]?

/-- The name that a position has by default. -/
def defaultName (number : Nat) : String := "arg" ++ toString number

/-- The name is written for a parameter of the statement, in a placeholder or in the list. -/
def IsWritten (style : BindingStyle) (s : Statement) (name : String) : Prop :=
  s.Uses (.named name) ∨
    ∃ number, s.Uses (.positional number) ∧ listedName? style s number = some name

/-- The name of the parameter with the key. -/
def generatedName (style : BindingStyle) (s : Statement) : ParamKey → String
  | .positional number => (listedName? style s number).getD (defaultName number)
  | .named name => name

theorem table_names (style : BindingStyle) (s : Statement) :
    (table style s).map Parameter.name = (orderedKeys style s).map (generatedName style s) := by
  apply List.ext_getElem?
  intro index
  rw [List.getElem?_map, List.getElem?_map, table_getElem, Option.map_map]
  cases (orderedKeys style s)[index]? with
  | none => rfl
  | some key => cases key <;> rfl

theorem defaultName_injective {a b : Nat} (same : defaultName a = defaultName b) : a = b := by
  have texts := congrArg String.toList same
  simp only [defaultName, String.toList_append, List.append_cancel_left_eq, toList_toString]
    at texts
  rw [← digitsValue_toDigits a, texts, digitsValue_toDigits]

/-- A list names positions only where no placeholder has a name. -/
theorem not_uses_of_listed {number : Nat} {listed : String}
    (found : listedName? style s number = some listed) (name : String) :
    ¬s.Uses (.named name) := by
  intro used
  have named : s.names ≠ [] := Statement.usesNames_iff.mp ⟨name, used⟩
  unfold listedName? slotNames at found
  rcases style with _ | names | ⟨_ | other⟩ <;> simp [named] at found

/-- A list gives different names to different positions. -/
theorem listedName_injective (distinct : style.declaredNames.Nodup) {a b : Nat} {name : String}
    (aPositive : 1 ≤ a) (bPositive : 1 ≤ b) (aListed : listedName? style s a = some name)
    (bListed : listedName? style s b = some name) : a = b := by
  have nodup : (slotNames style s).Nodup := by
    unfold slotNames
    rcases style with _ | names | ⟨_ | other⟩
    · exact .nil
    · dsimp only
      split
      · exact distinct
      · exact .nil
    · exact .nil
    · exact .nil
  obtain ⟨aInside, aName⟩ := List.getElem?_eq_some_iff.mp aListed
  obtain ⟨bInside, bName⟩ := List.getElem?_eq_some_iff.mp bListed
  have same := (List.Nodup.getElem_inj_iff nodup).mp (aName.trans bName.symm)
  omega

theorem generatedName_listed {number : Nat} {name : String}
    (listed : listedName? style s number = some name) :
    generatedName style s (.positional number) = name := by
  simp [generatedName, listed]

theorem generatedName_default {number : Nat} (unlisted : listedName? style s number = none) :
    generatedName style s (.positional number) = defaultName number := by
  simp [generatedName, unlisted]

/-- A key that is named like a position is that position, or the name is written. -/
theorem default_clash {key : ParamKey} {number : Nat} (used : s.Uses key)
    (same : generatedName style s key = defaultName number) :
    key = .positional number ∨ IsWritten style s (defaultName number) := by
  cases key with
  | named name =>
    apply Or.inr
    apply Or.inl
    rw [← same]
    exact used
  | positional other =>
    cases listed : listedName? style s other with
    | some name =>
      rw [generatedName_listed listed] at same
      exact Or.inr (Or.inr ⟨other, used, same ▸ listed⟩)
    | none =>
      rw [generatedName_default listed] at same
      exact Or.inl (congrArg ParamKey.positional (defaultName_injective same))

/-- Two keys of an accepted statement share a name only if one of them has it by default, and it is
written for the other. -/
theorem generatedName_clash (distinct : style.declaredNames.Nodup) (accepts : Accepts style s)
    {a b : ParamKey} (aUsed : s.Uses a) (bUsed : s.Uses b)
    (same : generatedName style s a = generatedName style s b) :
    a = b ∨ ∃ number, s.Uses (.positional number) ∧ listedName? style s number = none ∧
      IsWritten style s (defaultName number) := by
  have positive : ∀ number, s.Uses (.positional number) → 1 ≤ number := by
    intro number used
    obtain ⟨last, range⟩ := positionFindings_nil.mp (accepts_iff_parts.mp accepts).2.1
    exact ((range number).mp used).1
  have unlisted : ∀ {number key}, s.Uses (.positional number) →
      listedName? style s number = none → s.Uses key →
        generatedName style s key = generatedName style s (.positional number) →
      key = .positional number ∨ ∃ number, s.Uses (.positional number) ∧
        listedName? style s number = none ∧ IsWritten style s (defaultName number) := by
    intro number key used none keyUsed same
    rw [generatedName_default none] at same
    exact (default_clash keyUsed same).imp_right fun written => ⟨number, used, none, written⟩
  cases a with
  | positional m =>
    cases aListed : listedName? style s m with
    | none => exact (unlisted aUsed aListed bUsed same.symm).imp_left Eq.symm
    | some name =>
      cases b with
      | named other => exact absurd bUsed (not_uses_of_listed aListed other)
      | positional n =>
        cases bListed : listedName? style s n with
        | none => exact unlisted bUsed bListed aUsed same
        | some other =>
          rw [generatedName_listed aListed, generatedName_listed bListed] at same
          subst same
          have equal := listedName_injective distinct (positive m aUsed) (positive n bUsed)
            aListed bListed
          exact Or.inl (congrArg ParamKey.positional equal)
  | named name =>
    cases b with
    | named other => exact Or.inl (congrArg ParamKey.named same)
    | positional n =>
      cases bListed : listedName? style s n with
      | none => exact unlisted bUsed bListed aUsed same
      | some other => exact absurd aUsed (not_uses_of_listed bListed name)

/-- The names of an accepted statement are distinct exactly if no default name is written. -/
theorem names_nodup_iff (distinct : style.declaredNames.Nodup) (accepts : Accepts style s) :
    ((table style s).map Parameter.name).Nodup ↔
      ∀ number, s.Uses (.positional number) → listedName? style s number = none →
        ¬IsWritten style s (defaultName number) := by
  have used : ∀ {key}, key ∈ orderedKeys style s ↔ s.Uses key :=
    fun {key} => accepts.mem_orderedKeys.trans Statement.uses_iff.symm
  rw [table_names, List.nodup_map_iff_inj_on (orderedKeys_nodup style s)]
  constructor
  · intro injective number numberUsed unlisted written
    obtain named | ⟨other, otherUsed, listed⟩ := written
    · have same := injective _ (used.mpr named) _ (used.mpr numberUsed)
        (generatedName_default unlisted).symm
      cases same
    · have same := injective _ (used.mpr otherUsed) _ (used.mpr numberUsed)
        ((generatedName_listed listed).trans (generatedName_default unlisted).symm)
      cases same
      rw [unlisted] at listed
      cases listed
  · intro unwritten a aMember b bMember same
    obtain equal | ⟨number, numberUsed, unlisted, written⟩ :=
      generatedName_clash distinct accepts (used.mp aMember) (used.mp bMember) same
    · exact equal
    · exact absurd written (unwritten number numberUsed unlisted)

end Binding

/-- The parameters of an accepted query of a module have different names in generated code, unless a
position goes by its default name and a placeholder or the list of the header has that name too. -/
theorem Query.bind_names_distinct {source : Nat} {suffix : String} {text : List Char}
    {query : Query} {parameters : List Parameter}
    (parsed : query ∈ (parseModule source suffix text).queries)
    (accepted : query.bind.value = some parameters) :
    (parameters.map Parameter.name).Nodup ↔
      ∀ number, query.statement.Uses (.positional number) →
        Binding.listedName? query.descriptor.bindingStyle query.statement number = none →
          ¬Binding.IsWritten query.descriptor.bindingStyle query.statement
            (Binding.defaultName number) := by
  obtain ⟨accepts, rfl⟩ := Binding.bind_value_iff.mp accepted
  exact Binding.names_nodup_iff (canonical_of_parsed parsed).distinct accepts

/-- A list that names one of two positions, and not by the default name of the other. -/
theorem Query.bind_names_distinct_listed :
    let query : Query :=
      ⟨0, ⟨⟨"q", .explicitList ["arg1"], .many, false⟩, ⟨3, 4⟩, [⟨5, 9⟩], none⟩, ⟨3, 10⟩,
        "select $1,$2".toList, ⟨11, 23⟩⟩
    let parameters : List Parameter :=
      [⟨.positional 1, "arg1", 1, true, false, none, [1], .unresolved⟩,
        ⟨.positional 2, "arg2", 2, false, false, none, [3], .unresolved⟩]
    query ∈ (parseModule 0 "" "--!q(arg1)\nselect $1,$2".toList).queries ∧
      query.bind.value = some parameters ∧
      ((parameters.map Parameter.name).Nodup ↔
        ∀ number, query.statement.Uses (.positional number) →
          Binding.listedName? query.descriptor.bindingStyle query.statement number = none →
            ¬Binding.IsWritten query.descriptor.bindingStyle query.statement
              (Binding.defaultName number)) := by
  intro query parameters
  have parsed : query ∈ (parseModule 0 "" "--!q(arg1)\nselect $1,$2".toList).queries := by
    decide +kernel
  have accepted : query.bind.value = some parameters := by decide +kernel
  exact ⟨parsed, accepted, bind_names_distinct parsed accepted⟩

/-- The list gives the first position the default name of the second, which keeps it. -/
theorem Query.bind_names_clash :
    let query : Query :=
      ⟨0, ⟨⟨"q", .explicitList ["arg2"], .many, false⟩, ⟨4, 5⟩, [⟨6, 10⟩], none⟩, ⟨3, 11⟩,
        "SELECT $1, $2;\n".toList, ⟨12, 27⟩⟩
    query ∈ (parseModule 0 "_stream" "--! q(arg2)\nSELECT $1, $2;\n".toList).queries ∧
      ∃ parameters, query.bind.value = some parameters ∧
        parameters.map Parameter.name = ["arg2", "arg2"] := by
  intro query
  have parsed : query ∈
      (parseModule 0 "_stream" "--! q(arg2)\nSELECT $1, $2;\n".toList).queries := by
    decide +kernel
  refine ⟨parsed, [⟨.positional 1, "arg2", 1, true, false, none, [1], .unresolved⟩,
    ⟨.positional 2, "arg2", 2, false, false, none, [3], .unresolved⟩], ?_, rfl⟩
  decide +kernel

end AnnotatedSql
