import AnnotatedSql.Proofs.Outcome
import AnnotatedSql.Proofs.Parameter.Table
import AnnotatedSql.Resolution

/-!
# Statements that ask for the same types

Two statements may have the same placeholders, at other places and with other keys, and ask for the
same type at each of them. Then their parameters have the same types, or their typing fails in the
same way.
-/

namespace AnnotatedSql

variable {place : Nat → Nat} {rename : ParamKey → ParamKey} {change : Parameter → Parameter}
  {s t : Statement} {scope other : Scope} {parameters : List Parameter} {schema : Schema}

theorem Findings.hasErrors_of_kinds {findings others : List Finding}
    (kinds : others.map Finding.kind = findings.map Finding.kind) :
    hasErrors others = hasErrors findings := by
  have read : ∀ found : List Finding,
      hasErrors found = (found.map Finding.kind).any (·.severity == .error) := by
    intro found
    rw [List.any_map]
    rfl
  rw [read, read, kinds]

/-- What a renaming of keys makes of parameters: their keys are renamed, and what their types depend
on is as it was. -/
structure ChangesKeys (rename : ParamKey → ParamKey) (change : Parameter → Parameter)
    (s : Statement) (parameters : List Parameter) : Prop where
  used : ∀ p ∈ parameters, p.key ∈ s.keys
  key : ∀ p ∈ parameters, (change p).key = rename p.key
  hint : ∀ p, (change p).hint.map TypeName.text = p.hint.map TypeName.text
  retype : ∀ p type, change { p with type } = { change p with type }

namespace ChangesKeys

variable (changes : ChangesKeys rename change s parameters)

include changes

theorem key_beq (injective : ∀ a ∈ s.keys, ∀ b ∈ s.keys, rename a = rename b → a = b)
    {p : Parameter} (member : p ∈ parameters) {key : ParamKey} (used : key ∈ s.keys) :
    ((change p).key == rename key) = (p.key == key) := by
  rw [changes.key p member]
  by_cases same : p.key = key
  · simp [same]
  · have different : rename p.key ≠ rename key := fun equal =>
      same (injective _ (changes.used p member) _ used equal)
    rw [beq_eq_false_iff_ne.mpr different, beq_eq_false_iff_ne.mpr same]

theorem type (p : Parameter) : (change p).type = p.type := by
  have same : (change p).type = { change p with type := p.type }.type :=
    congrArg Parameter.type (changes.retype p p.type)
  exact same

/-- Parameters that get a type are changed as before. -/
theorem typed {others : List Parameter}
    (typed : ∀ p ∈ others, ∃ bare ∈ parameters, ∃ type, p = { bare with type }) :
    ChangesKeys rename change s others where
  used p member := by
    obtain ⟨bare, listed, type, rfl⟩ := typed p member
    exact changes.used bare listed
  key p member := by
    obtain ⟨bare, listed, type, rfl⟩ := typed p member
    rw [changes.retype]
    exact changes.key bare listed
  hint := changes.hint
  retype := changes.retype

end ChangesKeys

namespace Typing

/-- What is asked for, up to the words of what is wrong with it. -/
def kinds (asked : Option Expectation) : Option (Except DiagnosticKind DataType) :=
  asked.map (mapBoth Finding.kind id)

theorem kinds_orElse {first second first' second' : Option Expectation}
    (left : kinds first' = kinds first) (right : kinds second' = kinds second) :
    kinds (first' <|> second') = kinds (first <|> second) := by
  cases first with
  | none =>
    obtain rfl : first' = none := Option.map_eq_none_iff.mp left
    exact right
  | some expectation =>
    cases first' with
    | none => cases left
    | some other => exact left

theorem kinds_ite {condition : Bool} {asked asked' : Option Expectation}
    (same : kinds asked' = kinds asked) :
    kinds (if condition then asked' else none) = kinds (if condition then asked else none) := by
  cases condition with
  | true => exact same
  | false => rfl

/-- The placeholders of `t` are those of `s`, each at its place and with its key renamed, and what
stands around them asks for the same types. -/
structure AsksAlike (place : Nat → Nat) (rename : ParamKey → ParamKey) (s : Statement) (scope : Scope)
    (t : Statement) (other : Scope) : Prop where
  placeholders : t.placeholders = s.placeholders.map (Prod.map place rename)
  injective : ∀ a ∈ s.keys, ∀ b ∈ s.keys, rename a = rename b → a = b
  context : ∀ {i key}, s.paramKey? i = some key →
    kinds (contextType t other (place i)) = kinds (contextType s scope i)

/-- What matters of a use: its token and its key under other names, and the type that it asks for or
the kind of what is wrong with it. -/
def Use.summary (place : Nat → Nat) (rename : ParamKey → ParamKey) (use : Use) :
    Nat × ParamKey × Except DiagnosticKind DataType :=
  (place use.token, rename use.key, mapBoth Finding.kind id use.expectation)

theorem mem_keys_of_use {use : Use} (member : use ∈ uses s scope parameters) : use.key ∈ s.keys := by
  obtain ⟨⟨i, key⟩, listed, found⟩ := List.mem_filterMap.mp member
  obtain ⟨expectation, _, rfl⟩ := Option.map_eq_some_iff.mp found
  exact Statement.mem_keys.mpr ⟨i, Statement.mem_placeholders.mp (List.mem_filter.mp listed).1⟩

theorem askedTypes_summary (place : Nat → Nat) (found : List Use) (key : ParamKey) :
    (askedTypes found key).map (Prod.map place id) =
      (found.map (Use.summary place id)).filterMap fun (token, other, outcome) =>
        if other == key then outcome.toOption.map (token, ·) else none := by
  unfold askedTypes
  rw [List.filterMap_map, List.map_filterMap]
  refine List.filterMap_congr fun use _ => ?_
  obtain ⟨token, other, expectation⟩ := use
  refine (apply_ite (Option.map (Prod.map place id)) _ _ _).trans (if_congr Iff.rfl ?_ rfl)
  cases expectation <;> rfl

theorem findings_summary (place : Nat → Nat) (rename : ParamKey → ParamKey) (found : List Use) :
    (found.filterMap fun use => finding? use.expectation).map Finding.kind =
      (found.map (Use.summary place rename)).filterMap fun (_, _, outcome) =>
        match outcome with
        | .ok _ => none
        | .error kind => some kind := by
  rw [List.filterMap_map, List.map_filterMap]
  refine List.filterMap_congr fun use _ => ?_
  obtain ⟨token, other, expectation⟩ := use
  cases expectation <;> rfl

section

variable (alike : AsksAlike place rename s scope t other)
  (changes : ChangesKeys rename change s parameters)

include alike changes

theorem uses_alike : (uses t other (parameters.map change)).map (Use.summary id id) =
    (uses s scope parameters).map (Use.summary place rename) := by
  have hinted : ∀ key ∈ s.keys,
      (parameters.map change).any (fun p => p.key == rename key && p.hint.isSome) =
        parameters.any fun p => p.key == key && p.hint.isSome := by
    intro key used
    rw [List.any_map, Bool.eq_iff_iff, List.any_eq_true, List.any_eq_true]
    refine exists_congr fun p => and_congr_right fun member => ?_
    have isSome := congrArg Option.isSome (changes.hint p)
    rw [Option.isSome_map, Option.isSome_map] at isSome
    rw [Function.comp_apply, changes.key_beq alike.injective member used, isSome]
  unfold uses
  dsimp only
  rw [alike.placeholders, List.filter_map, List.filterMap_map, List.map_filterMap,
    List.map_filterMap]
  have kept : s.placeholders.filter ((fun x => !(parameters.map change).any
        fun p => p.key == x.2 && p.hint.isSome) ∘ Prod.map place rename) =
      s.placeholders.filter fun x => !parameters.any fun p => p.key == x.2 && p.hint.isSome := by
    apply List.filter_congr
    rintro ⟨i, key⟩ member
    have used : key ∈ s.keys := Statement.mem_keys.mpr ⟨i, Statement.mem_placeholders.mp member⟩
    simp only [Function.comp_apply, Prod.map, hinted key used]
  refine (congrArg _ kept).trans (List.filterMap_congr ?_)
  rintro ⟨i, key⟩ member
  have asked := alike.context (Statement.mem_placeholders.mp (List.mem_filter.mp member).1)
  dsimp only [Function.comp_apply, Prod.map]
  unfold kinds at asked
  cases old : contextType s scope i with
  | none =>
    rw [old] at asked
    rw [Option.map_eq_none_iff.mp asked]
    rfl
  | some expectation =>
    rw [old] at asked
    obtain ⟨other, new, same⟩ := Option.map_eq_some_iff.mp asked
    rw [new]
    simp only [Option.map_some, Use.summary, same, id_eq]

theorem askedTypes_alike {key : ParamKey} (used : key ∈ s.keys) :
    askedTypes (uses t other (parameters.map change)) (rename key) =
      (askedTypes (uses s scope parameters) key).map (Prod.map place id) := by
  have same : ∀ use ∈ uses s scope parameters, (rename use.key == rename key) = (use.key == key) := by
    intro use member
    by_cases equal : use.key = key
    · simp [equal]
    · have different : rename use.key ≠ rename key := fun renamed =>
        equal (alike.injective _ (mem_keys_of_use member) _ used renamed)
      rw [beq_eq_false_iff_ne.mpr different, beq_eq_false_iff_ne.mpr equal]
  have still : ∀ asked : List (Nat × DataType), asked = asked.map (Prod.map id id) := by simp
  rw [still (askedTypes _ _), askedTypes_summary, askedTypes_summary, uses_alike alike changes,
    List.filterMap_map, List.filterMap_map]
  refine List.filterMap_congr fun use member => ?_
  exact if_congr (iff_of_eq (congrArg (· = true) (same use member))) rfl rfl

end

/-- The type of a parameter, or the kind of what is wrong with it, depends on its casts and uses. -/
theorem typeOf_kind (schema : Schema) {p other : Parameter}
    (hint : other.hint.map TypeName.text = p.hint.map TypeName.text) (place : Nat → Nat)
    (asked : List (Nat × DataType)) :
    mapBoth Finding.kind id (typeOf schema other (asked.map (Prod.map place id))) =
      mapBoth Finding.kind id (typeOf schema p asked) := by
  unfold typeOf
  cases cast : p.hint with
  | some name =>
    rw [cast] at hint
    obtain ⟨again, castToo, text⟩ := Option.map_eq_some_iff.mp hint
    rw [castToo]
    dsimp only
    rw [text]
    cases schema.typeNamed? name.text <;> rfl
  | none =>
    rw [cast] at hint
    rw [Option.map_eq_none_iff.mp hint]
    cases asked with
    | nil => rfl
    | cons first others =>
      obtain ⟨token, type⟩ := first
      have found : (others.map (Prod.map place id)).find? (fun asked => asked.2 != type) =
          (others.find? fun asked => asked.2 != type).map (Prod.map place id) := List.find?_map ..
      rw [List.map_cons]
      dsimp only [Prod.map_apply, id_eq]
      rw [found]
      cases others.find? fun asked => asked.2 != type <;> rfl

theorem assign_alike (changes : ChangesKeys rename change s parameters) (p : Parameter)
    {expectation other : Expectation}
    (kinds : mapBoth Finding.kind id other = mapBoth Finding.kind id expectation) :
    assign (change p) other = change (assign p expectation) := by
  cases expectation with
  | ok type =>
    cases other with
    | ok found =>
      obtain rfl : found = type := Except.ok.inj kinds
      exact (changes.retype p found).symm
    | error _ => cases kinds
  | error _ =>
    cases other with
    | ok _ => cases kinds
    | error _ => rfl

theorem finding_kind {expectation other : Expectation}
    (kinds : mapBoth Finding.kind id other = mapBoth Finding.kind id expectation) :
    (finding? other).map Finding.kind = (finding? expectation).map Finding.kind := by
  have read : ∀ found : Expectation, (finding? found).map Finding.kind =
      match mapBoth Finding.kind id found with
      | .ok _ => none
      | .error kind => some kind := by
    intro found
    cases found <;> rfl
  rw [read, read, kinds]

end Typing

/-- The types of the parameters are the same, and so are the kinds of what is wrong with them. -/
theorem typeParameters_alike (alike : Typing.AsksAlike place rename s scope t other)
    (changes : ChangesKeys rename change s parameters) :
    (typeParameters schema t other (parameters.map change)).1 =
        (typeParameters schema s scope parameters).1.map change ∧
      (typeParameters schema t other (parameters.map change)).2.map Finding.kind =
        (typeParameters schema s scope parameters).2.map Finding.kind := by
  have same : ∀ p ∈ parameters,
      mapBoth Finding.kind id (Typing.typeOf schema (change p) (Typing.askedTypes
        (Typing.uses t other (parameters.map change)) (change p).key)) =
      mapBoth Finding.kind id (Typing.typeOf schema p
        (Typing.askedTypes (Typing.uses s scope parameters) p.key)) := by
    intro p member
    rw [changes.key p member, Typing.askedTypes_alike alike changes (changes.used p member)]
    exact Typing.typeOf_kind schema (changes.hint p) place _
  unfold typeParameters
  dsimp only
  constructor
  · simp only [List.map_map]
    exact List.map_congr_left fun p member => Typing.assign_alike changes p (same p member)
  · rw [List.map_append, List.map_append]
    refine congrArg₂ (· ++ ·) ?_ ?_
    · rw [Typing.findings_summary id id, Typing.findings_summary place rename,
        Typing.uses_alike alike changes]
    · rw [List.map_map, List.filterMap_map, List.filterMap_map, List.map_filterMap,
        List.map_filterMap]
      exact List.filterMap_congr fun p member => Typing.finding_kind (same p member)

end AnnotatedSql
