import AnnotatedSql.Proofs.Schema.Recursion
import Mathlib.Data.List.Perm.Basic

/-!
# Order of the composites

Composites may be declared in any order: what a type text refers to does not depend on it, so
neither does it decide whether there is a circle, nor what any type is.
-/

namespace AnnotatedSql.SchemaFile

/-- The files differ only in the order of their composites. -/
structure Reorders (other file : SchemaFile) : Prop where
  relations : other.relations = file.relations
  enums : other.enums = file.enums
  composites : other.composites.Perm file.composites

namespace Reorders

variable {file other : SchemaFile}

theorem symm (reorders : other.Reorders file) : file.Reorders other :=
  ⟨reorders.relations.symm, reorders.enums.symm, reorders.composites.symm⟩

theorem declaredNames (reorders : other.Reorders file) :
    other.declaredNames.Perm file.declaredNames := by
  unfold SchemaFile.declaredNames
  rw [reorders.enums]
  exact (reorders.composites.map _).append_left _

theorem knows (reorders : other.Reorders file) {typeName : String} (knows : file.Knows typeName) :
    other.Knows typeName := by
  refine knows.imp_right ?_
  rintro ⟨name, declared, spelled⟩
  exact ⟨name, reorders.declaredNames.mem_iff.mpr declared, spelled⟩

theorem refersTo_iff (reorders : other.Reorders file) (typeName name : String) :
    other.RefersTo typeName name ↔ file.RefersTo typeName name := by
  unfold RefersTo
  rw [(reorders.composites.map Prod.fst).mem_iff]

theorem dependsOn_eq (reorders : other.Reorders file) : other.DependsOn = file.DependsOn := by
  funext owner name
  simp only [DependsOn, reorders.composites.mem_iff, reorders.refersTo_iff]

theorem cyclic_iff (reorders : other.Reorders file) : other.Cyclic ↔ file.Cyclic := by
  unfold Cyclic
  rw [reorders.dependsOn_eq]

theorem wellNamed (reorders : other.Reorders file) (wellNamed : file.WellNamed) :
    other.WellNamed where
  relations := by
    rw [reorders.relations]
    exact wellNamed.relations
  apart := by
    refine (reorders.declaredNames.pairwise_iff fun {a b} other => ?_).mpr wellNamed.apart
    exact (equalFold_comm b a).trans other
  columns := by
    rw [reorders.relations]
    exact fun relation listed column member =>
      reorders.knows (wellNamed.columns relation listed column member)
  fields := fun composite listed field member =>
    reorders.knows (wellNamed.fields composite (reorders.composites.mem_iff.mp listed) field member)

theorem plainlySpelled (reorders : other.Reorders file) (plain : file.PlainlySpelled) :
    other.PlainlySpelled := by
  intro composite listed field member name declared
  rw [reorders.refersTo_iff]
  exact plain composite (reorders.composites.mem_iff.mp listed) field member name
    ((reorders.composites.map Prod.fst).mem_iff.mp declared)

end Reorders

variable {file : SchemaFile}

theorem field_eq {a b : Field DataType} (name : a.name = b.name) (type : a.type = b.type) :
    a = b := by
  cases a
  cases b
  simp_all

/-- Fields declared alike are the same, read among some types or among more. -/
theorem fields_unique {types more : List (Field DataType)} (apart : NamesApart Field.name more)
    (fewer : types ⊆ more) {declared : List FieldDeclaration} {fields others : List (Field DataType)}
    (given : List.Forall₂ (FieldDeclaration.Gives types) declared fields)
    (again : List.Forall₂ (FieldDeclaration.Gives more) declared others) : fields = others := by
  induction given generalizing others with
  | nil =>
    cases again
    rfl
  | cons first _ ih =>
    cases again with
    | cons second rest =>
      rw [ih rest]
      obtain ⟨known, before, read⟩ := first.type
      obtain ⟨otherKnown, otherBefore, otherRead⟩ := second.type
      have sameName := first.name.trans second.name.symm
      have sameType := Schema.typeNamed?_unique apart
        (fun _ member => fewer (before.subset member)) otherBefore.subset read otherRead
      rw [field_eq sameName sameType]

theorem Declares.apart (wellNamed : file.WellNamed) {types : List (Field DataType)}
    (declares : file.Declares types) : NamesApart Field.name types := by
  have distinct := List.pairwise_map.mp declares.distinct
  refine distinct.imp_of_mem fun {a b} first second different => ?_
  by_contra folded
  exact different (wellNamed.same (declares.name_mem (List.mem_map_of_mem first))
    (declares.name_mem (List.mem_map_of_mem second)) (by simpa using folded))

/-- The types declared in one order are among all those declared in another. -/
theorem Declares.subset {other : SchemaFile} (wellNamed : file.WellNamed)
    (reorders : other.Reorders file) {types all : List (Field DataType)}
    (declares : file.Declares types) (declaresAll : other.Declares all)
    (complete : ∀ name ∈ other.composites.map Prod.fst, name ∈ all.map Field.name) :
    types ⊆ all := by
  induction declares with
  | enums _ =>
    have same : other.enumTypes = file.enumTypes := by
      unfold enumTypes
      rw [reorders.enums]
    rw [← same]
    exact declaresAll.enumTypes_prefix.subset
  | @composite types name declared fields earlier listed fresh given ih =>
    refine List.append_subset.mpr ⟨ih, List.cons_subset.mpr ⟨?_, List.nil_subset _⟩⟩
    have otherListed := reorders.composites.mem_iff.mpr listed
    obtain ⟨type, member, named⟩ :=
      List.mem_map.mp (complete name (List.mem_map_of_mem otherListed))
    rcases declaresAll.cases member with enum | ⟨again, others, againListed, whole, givenAgain⟩
    · have taken : name ∈ other.enums.map Prod.fst := by
        rw [← named, ← enumTypes_names]
        exact List.mem_map_of_mem enum
      exact absurd taken
        ((reorders.wellNamed wellNamed).composite_not_enum (List.mem_map_of_mem otherListed))
    · rw [named] at againListed whole
      obtain rfl :=
        (reorders.wellNamed wellNamed).declaration_unique otherListed againListed
      rw [fields_unique (declaresAll.apart (reorders.wellNamed wellNamed)) ih given givenAgain]
      exact whole ▸ member

/-- Where names are distinct, type texts known and composites plainly spelled, a schema is built
unless some composite contains itself, and the order of the composites changes neither that nor any
type. -/
theorem build_recursive_iff (wellNamed : file.WellNamed) (plain : file.PlainlySpelled) :
    ((∃ name, file.build = .error (.recursiveComposite name)) ↔ file.Cyclic) ∧
    (¬file.Cyclic → ∃ schema, file.build = .ok schema) ∧
    ∀ other : SchemaFile, other.Reorders file →
      ((∃ schema, other.build = .ok schema) ↔ ∃ schema, file.build = .ok schema) ∧
      ∀ schema reordered, file.build = .ok schema → other.build = .ok reordered →
        reordered.types.Perm schema.types := by
  have built_iff : ∀ file : SchemaFile, file.WellNamed → file.PlainlySpelled →
      ((∃ schema, file.build = .ok schema) ↔ ¬file.Cyclic) := by
    intro file wellNamed plain
    constructor
    · rintro ⟨schema, success⟩
      obtain ⟨declares, complete⟩ := build_complete success
      exact declares.not_cyclic wellNamed complete
    · exact fun acyclic => (build_outcome wellNamed plain).resolve_right fun fails =>
        acyclic fails.2
  refine ⟨⟨?_, fun cyclic => ?_⟩, (built_iff file wellNamed plain).mpr, fun other reorders => ⟨?_, ?_⟩⟩
  · rintro ⟨name, fails⟩
    rcases build_outcome wellNamed plain with ⟨schema, success⟩ | ⟨_, cyclic⟩
    · rw [success] at fails
      cases fails
    · exact cyclic
  · rcases build_outcome wellNamed plain with built | ⟨fails, _⟩
    · exact absurd cyclic ((built_iff file wellNamed plain).mp built)
    · exact fails
  · rw [built_iff file wellNamed plain, ← reorders.cyclic_iff]
    exact built_iff other (reorders.wellNamed wellNamed) (reorders.plainlySpelled plain)
  · intro schema reordered success otherSuccess
    obtain ⟨declares, complete⟩ := build_complete success
    obtain ⟨otherDeclares, otherComplete⟩ := build_complete otherSuccess
    rw [List.perm_ext_iff_of_nodup otherDeclares.distinct.of_map declares.distinct.of_map]
    intro type
    exact ⟨fun member => otherDeclares.subset (reorders.wellNamed wellNamed) reorders.symm declares
        complete member,
      fun member => declares.subset wellNamed reorders otherDeclares otherComplete member⟩

/-- Composites out of order, and two composites in a circle. -/
theorem build_recursive_iff_of_two :
    let orders : SchemaFile := {
      relations := [("orders", [⟨"placed", "order_t[]", false⟩])]
      composites := [("order_t", [⟨"lines", "line_t[]"⟩, ⟨"total", "numeric(10, 2)"⟩]),
        ("line_t", [⟨"state", "mood"⟩])]
      enums := [("mood", ["happy", "sad"])] }
    let circle : SchemaFile := { composites := [("a", [⟨"x", "b[]"⟩]), ("b", [⟨"y", "a"⟩])] }
    (orders.WellNamed ∧ orders.PlainlySpelled ∧ ∃ schema,
      { orders with composites := orders.composites.reverse }.build = .ok schema) ∧
    circle.WellNamed ∧ circle.PlainlySpelled ∧
      ∃ name, circle.build = .error (.recursiveComposite name) := by
  intro orders circle
  have ordersNamed : orders.WellNamed :=
    ⟨by decide, by decide +kernel, by decide +kernel, by decide +kernel⟩
  have ordersPlain : orders.PlainlySpelled := by decide +kernel
  have circleNamed : circle.WellNamed :=
    ⟨by decide, by decide +kernel, by decide +kernel, by decide +kernel⟩
  have circlePlain : circle.PlainlySpelled := by decide +kernel
  have built : orders.build.toOption.isSome = true := by decide +kernel
  have cyclic : circle.Cyclic :=
    ⟨"a", .tail (.single ⟨_, .head _, _, .head _, by decide +kernel⟩)
      ⟨_, .tail _ (.head _), _, .head _, by decide +kernel⟩⟩
  refine ⟨⟨ordersNamed, ordersPlain, ?_⟩, circleNamed, circlePlain, ?_⟩
  · have reorders : Reorders { orders with composites := orders.composites.reverse } orders :=
      ⟨rfl, rfl, List.reverse_perm _⟩
    refine ((build_recursive_iff ordersNamed ordersPlain).2.2 _ reorders).1.mpr ?_
    cases outcome : orders.build with
    | ok schema => exact ⟨schema, rfl⟩
    | error _ =>
      rw [outcome] at built
      cases built
  · exact (build_recursive_iff circleNamed circlePlain).1.mpr cyclic

/-- A composite under the name of a base type, with a field of that base type, is said to contain
itself. -/
theorem base_type_taken_for_composite :
    let file : SchemaFile := { composites := [("text", [⟨"x", "text"⟩])] }
    file.WellNamed ∧ ¬file.Cyclic ∧ file.build = .error (.recursiveComposite "text") := by
  intro file
  refine ⟨⟨by decide, by decide +kernel, by decide +kernel, by decide +kernel⟩, ?_,
    by decide +kernel⟩
  rintro ⟨name, circle⟩
  obtain ⟨_, ⟨declared, listed, field, member, refers⟩, _⟩ :=
    Relation.TransGen.head'_iff.mp circle
  obtain ⟨rfl, rfl⟩ := Prod.mk.inj (List.mem_singleton.mp listed)
  obtain rfl := List.mem_singleton.mp member
  have scalar : namesScalar "text" = true := by decide +kernel
  cases scalar.symm.trans refers.1

end AnnotatedSql.SchemaFile
