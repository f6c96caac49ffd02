import AnnotatedSql.Proofs.Schema.Named
import AnnotatedSql.Schema.File

/-!
# What a type text refers to

A type text comes down to a base: the text without its array suffixes, without the blanks around
them and without a modifier. The base names a base type or else spells the name of a declared type.
Among names that differ in more than case it spells one at most, so what it stands for does not
depend on the order of the declarations.
-/

namespace AnnotatedSql

/-! ## Spelling -/

/-- Whether a text spells a name: in quotes the very name, and else up to case. -/
def spells (text : List Char) (name : String) : Bool :=
  match unquoted? text with
  | some inner => name == String.ofList inner
  | none => equalFold name (String.ofList text)

/-- The first item whose name the text spells. Without quotes, the very name comes first. -/
def findSpelled {α : Type} (nameOf : α → String) (items : List α) (text : List Char) : Option α :=
  match unquoted? text with
  | some inner => findNamed nameOf items (String.ofList inner) true
  | none => findNamed nameOf items (String.ofList text) false

section Spelling

variable {α : Type} {nameOf : α → String} {items : List α} {text : List Char} {item : α}

theorem findSpelled_mem (found : findSpelled nameOf items text = some item) : item ∈ items := by
  unfold findSpelled at found
  split at found
  · exact findNamed_mem found
  · exact findNamed_mem found

/-- What is found has a name that the text spells. -/
theorem findSpelled_spells (found : findSpelled nameOf items text = some item) :
    spells text (nameOf item) = true := by
  unfold findSpelled findNamed at found
  unfold spells
  split at found
  all_goals
    split at found
    next same =>
      cases found
      have written := List.find?_some same
      simp_all
  next => cases found
  next => simpa using List.find?_some found

/-- Where the text spells a name, it finds an item. -/
theorem findSpelled_isSome (member : item ∈ items) (spelled : spells text (nameOf item) = true) :
    ∃ found, findSpelled nameOf items text = some found := by
  rw [← Option.isSome_iff_exists]
  unfold spells at spelled
  unfold findSpelled findNamed
  split at spelled
  next inner _ =>
    have present : (items.find? fun item => nameOf item == String.ofList inner).isSome = true :=
      List.find?_isSome.mpr ⟨item, member, spelled⟩
    split
    next => rfl
    next missing => simp [missing] at present
  next =>
    split
    next => rfl
    next => exact List.find?_isSome.mpr ⟨item, member, spelled⟩

/-- Two names that one text spells differ at most in case. -/
theorem equalFold_of_spells {a b : String} (first : spells text a = true)
    (second : spells text b = true) : equalFold a b = true := by
  unfold spells at first second
  cases quoted : unquoted? text with
  | some inner => simp_all
  | none =>
    simp only [quoted, equalFold_iff] at first second
    exact equalFold_iff.mpr (first.trans second.symm)

end Spelling

/-! ## Base of a type text -/

/-- What is left of a type text without array suffixes, at most `fuel` of them, and the blanks
around them. -/
def elementWithin : Nat → List Char → List Char
  | 0, text => trim text
  | fuel + 1, text =>
    match withoutArraySuffix? (trim text) with
    | some element => elementWithin fuel element
    | none => trim text

/-- What a type text comes down to, without array suffixes and modifier. -/
def baseText (typeName : String) : List Char :=
  withoutModifier (elementWithin typeName.length typeName.toList)

/-- Whether the type text comes down to the name of a base type. -/
def namesScalar (typeName : String) : Bool :=
  (Scalar.ofSqlName? (String.ofList (baseText typeName))).isSome

namespace Schema

/-- The type that a base stands for. -/
def baseType? (schema : Schema) (base : List Char) : Option DataType :=
  match Scalar.ofSqlName? (String.ofList base) with
  | some kind => some (.scalar kind)
  | none => (findSpelled Field.name schema.types base).map Field.type

theorem elementType?_eq (schema : Schema) (text : List Char) :
    schema.elementType? text = schema.baseType? (withoutModifier text) := by
  unfold elementType? baseType? findSpelled namedType?
  dsimp only
  cases Scalar.ofSqlName? (String.ofList (withoutModifier text)) with
  | some kind => rfl
  | none =>
    cases unquoted? (withoutModifier text) with
    | some inner => rfl
    | none => rfl

/-- What a base stands for that names no base type is declared under a name it spells. -/
theorem exists_of_baseType {schema : Schema} {base : List Char} {type : DataType}
    (known : schema.baseType? base = some type)
    (declared : Scalar.ofSqlName? (String.ofList base) = none) :
    ∃ item ∈ schema.types, spells base item.name = true ∧ item.type = type := by
  rw [baseType?, declared] at known
  obtain ⟨item, found, same⟩ := Option.map_eq_some_iff.mp known
  exact ⟨item, findSpelled_mem found, findSpelled_spells found, same⟩

/-- Array suffixes wrap the type of the element, whatever the schema. -/
theorem exists_wrapping (fuel : Nat) (text : List Char) :
    ∃ wrap : DataType → DataType, ∀ schema : Schema,
      schema.typeWithin? fuel text = (schema.elementType? (elementWithin fuel text)).map wrap := by
  induction fuel generalizing text with
  | zero => exact ⟨id, fun schema => by simp [typeWithin?, elementWithin]⟩
  | succ fuel ih =>
    cases suffix : withoutArraySuffix? (trim text) with
    | none => exact ⟨id, fun schema => by simp [typeWithin?, elementWithin, suffix]⟩
    | some element =>
      obtain ⟨wrap, wrapped⟩ := ih element
      refine ⟨DataType.array ∘ wrap, fun schema => ?_⟩
      simp only [typeWithin?, elementWithin, suffix, wrapped, Option.map_map]

/-- A type text is read as its base is, but for its array suffixes. -/
theorem typeNamed?_eq (typeName : String) :
    ∃ wrap : DataType → DataType, ∀ schema : Schema,
      schema.typeNamed? typeName = (schema.baseType? (baseText typeName)).map wrap := by
  obtain ⟨wrap, wrapped⟩ := exists_wrapping typeName.length typeName.toList
  exact ⟨wrap, fun schema => by rw [typeNamed?, wrapped, elementType?_eq, baseText]⟩

variable {schema : Schema} {typeName : String}

/-- The name of a base type is known in any schema. -/
theorem typeNamed?_of_scalar (scalar : namesScalar typeName = true) :
    ∃ type, schema.typeNamed? typeName = some type := by
  obtain ⟨wrap, read⟩ := typeNamed?_eq typeName
  obtain ⟨kind, known⟩ := Option.isSome_iff_exists.mp scalar
  exact ⟨wrap (.scalar kind), by rw [read, baseType?, known, Option.map_some]⟩

/-- A spelling of a name is known in a schema that has the name. -/
theorem typeNamed?_of_spelled {name : String} (listed : name ∈ schema.types.map Field.name)
    (spelled : spells (baseText typeName) name = true) :
    ∃ type, schema.typeNamed? typeName = some type := by
  obtain ⟨wrap, read⟩ := typeNamed?_eq typeName
  obtain ⟨type, member, rfl⟩ := List.mem_map.mp listed
  obtain ⟨found, named⟩ := findSpelled_isSome member spelled
  rw [read, baseType?, named]
  cases Scalar.ofSqlName? (String.ofList (baseText typeName)) with
  | some kind => exact ⟨_, rfl⟩
  | none => exact ⟨_, rfl⟩

/-- A known type text is that of a base type or spells the name of a type of the schema. -/
theorem spelled_of_typeNamed {type : DataType} (known : schema.typeNamed? typeName = some type)
    (declared : namesScalar typeName = false) :
    ∃ name ∈ schema.types.map Field.name, spells (baseText typeName) name = true := by
  obtain ⟨wrap, read⟩ := typeNamed?_eq typeName
  rw [read] at known
  obtain ⟨_, found, _⟩ := Option.map_eq_some_iff.mp known
  obtain ⟨item, member, spelled, _⟩ :=
    exists_of_baseType found (by simpa [namesScalar] using declared)
  exact ⟨item.name, List.mem_map_of_mem member, spelled⟩

/-- Two schemas read a type text alike, if both know it and no two names of their types differ
only in case. -/
theorem typeNamed?_unique {a b : Schema} {types : List (Field DataType)}
    (apart : NamesApart Field.name types) (first : a.types ⊆ types) (second : b.types ⊆ types)
    {s t : DataType}
    (inFirst : a.typeNamed? typeName = some s) (inSecond : b.typeNamed? typeName = some t) :
    s = t := by
  obtain ⟨wrap, read⟩ := typeNamed?_eq typeName
  rw [read] at inFirst inSecond
  obtain ⟨inner, found, rfl⟩ := Option.map_eq_some_iff.mp inFirst
  obtain ⟨other, again, rfl⟩ := Option.map_eq_some_iff.mp inSecond
  cases scalar : Scalar.ofSqlName? (String.ofList (baseText typeName)) with
  | some kind =>
    rw [baseType?, scalar] at found again
    rw [Option.some.inj (found.symm.trans again)]
  | none =>
    obtain ⟨item, listed, spelled, rfl⟩ := exists_of_baseType found scalar
    obtain ⟨twin, twinListed, twinSpelled, rfl⟩ := exists_of_baseType again scalar
    rw [apart.eq (first listed) (second twinListed) (equalFold_of_spells spelled twinSpelled)]

end Schema

end AnnotatedSql
