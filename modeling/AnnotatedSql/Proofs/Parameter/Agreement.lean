import AnnotatedSql.Proofs.Outcome
import AnnotatedSql.Proofs.Parameter.Table
import AnnotatedSql.Proofs.Statement.Bounds

/-!
# What the uses of a parameter agree on

A parameter that is cast has the type that its cast names. Any other has the type that its uses ask
for, if some of them ask for one and none of them for another. Which uses come first has no say in
this.
-/

namespace AnnotatedSql

namespace Typing

variable {schema : Schema} {s : Statement} {scope : Scope} {parameters : List Parameter}
  {p : Parameter} {tokens : List Nat}

/-! ## What is asked for -/

/-- Token `i` stands for the key, and its surroundings ask for the type. -/
def Asks (s : Statement) (scope : Scope) (key : ParamKey) (i : Nat) (type : DataType) : Prop :=
  s.paramKey? i = some key ∧ contextType s scope i = some (.ok type)

/-- The types that the surroundings of tokens ask for, each with its token. -/
def askedAt (s : Statement) (scope : Scope) (tokens : List Nat) : List (Nat × DataType) :=
  tokens.filterMap fun i => (contextType s scope i).bind fun asked => asked.toOption.map (i, ·)

theorem mem_askedAt {i : Nat} {type : DataType} : (i, type) ∈ askedAt s scope tokens ↔
    i ∈ tokens ∧ contextType s scope i = some (.ok type) := by
  unfold askedAt
  rw [List.mem_filterMap]
  constructor
  · rintro ⟨j, member, found⟩
    obtain ⟨asked, context, found⟩ := Option.bind_eq_some_iff.mp found
    obtain ⟨given, typed, same⟩ := Option.map_eq_some_iff.mp found
    obtain ⟨rfl, rfl⟩ := Prod.mk.inj same
    cases asked with
    | error _ => cases typed
    | ok _ =>
      obtain rfl := Option.some.inj typed
      exact ⟨member, context⟩
  · rintro ⟨member, context⟩
    exact ⟨i, member, by rw [context]; rfl⟩

/-- The occurrences of a key that is nowhere cast are all of its uses. -/
theorem askedTypes_uses {key : ParamKey} (bare : ∀ q ∈ parameters, q.key = key → q.hint = none) :
    askedTypes (uses s scope parameters) key = askedAt s scope (s.occurrences key) := by
  have uncast : (parameters.any fun q => q.key == key && q.hint.isSome) = false := by
    refine List.any_eq_false.mpr fun q member hinted => ?_
    obtain ⟨same, cast⟩ := Bool.and_eq_true_iff.mp hinted
    rw [bare q member (eq_of_beq same)] at cast
    cases cast
  unfold askedTypes uses askedAt Statement.occurrences
  rw [List.filterMap_filterMap, List.filterMap_filter, List.filterMap_map, List.filterMap_filter]
  refine List.filterMap_congr ?_
  rintro ⟨i, other⟩ _
  by_cases same : other = key
  · subst same
    simp only [uncast, Bool.not_false, if_true, BEq.rfl, Function.comp_apply]
    cases contextType s scope i with
    | none => rfl
    | some asked => simp
  · have different : (other == key) = false := beq_eq_false_iff_ne.mpr same
    simp only [different, Function.comp_apply, Bool.false_eq_true, if_false]
    split
    · cases contextType s scope i with
      | none => rfl
      | some asked => exact if_neg fun equal => same (eq_of_beq equal)
    · rfl

/-- What is wrong with a use is that a column cannot be looked up. -/
theorem kind_of_use {use : Use} (member : use ∈ uses s scope parameters) {finding : Finding}
    (fails : finding? use.expectation = some finding) :
    finding.kind = .unknownColumn ∨ finding.kind = .ambiguousColumn := by
  let lookedUp : Expectation → Prop := fun expectation => ∀ finding, expectation = .error finding →
    finding.kind = .unknownColumn ∨ finding.kind = .ambiguousColumn
  have typed : ∀ type, lookedUp (.ok type) := fun _ _ impossible => nomatch impossible
  have named : ∀ i name lo hi, lo < s.size → hi ≤ s.size →
      lookedUp (columnType s scope i name lo hi) := by
    intro i name lo hi _ _ finding fails
    obtain ⟨fault, _, rfl⟩ := columnType_eq_error.mp fails
    cases fault with
    | unknown => exact Or.inl rfl
    | ambiguous => exact Or.inr rfl
  obtain ⟨⟨i, key⟩, _, found⟩ := List.mem_filterMap.mp member
  obtain ⟨expectation, context, rfl⟩ := Option.map_eq_some_iff.mp found
  have sound := contextType_cases (typed _) named (fun _ _ _ _ => typed _) i expectation context
  cases expectation with
  | ok type => cases fails
  | error fault =>
    obtain rfl := Option.some.inj fails
    exact sound fault rfl

/-! ## What is decided -/

/-- What the cast of a parameter decides, and without one the types that are asked for: two that differ
are an error, and so is none. -/
inductive Decides (schema : Schema) (asked : DataType → Prop) :
    Option TypeName → Except DiagnosticKind DataType → Prop
  | cast {name : TypeName} {type : DataType} (found : schema.typeNamed? name.text = some type) :
      Decides schema asked (some name) (.ok type)
  | unknown {name : TypeName} (unfound : schema.typeNamed? name.text = none) :
      Decides schema asked (some name) (.error .unknownType)
  | agreed {type : DataType} (some_ : asked type) (all : ∀ other, asked other → other = type) :
      Decides schema asked none (.ok type)
  | differing {first second : DataType} (left : asked first) (right : asked second)
      (different : first ≠ second) : Decides schema asked none (.error .ambiguousParameterType)
  | unasked (none_ : ∀ type, ¬asked type) :
      Decides schema asked none (.error .unresolvedParameterType)

namespace Decides

variable {asked : DataType → Prop} {hint : Option TypeName}
  {result other : Except DiagnosticKind DataType}

/-- Only one thing can be decided. -/
theorem unique (first : Decides schema asked hint result) (second : Decides schema asked hint other) :
    result = other := by
  cases first with
  | cast found =>
    cases second with
    | cast foundToo => rw [Option.some.inj (found.symm.trans foundToo)]
    | unknown unfound => cases found.symm.trans unfound
  | unknown unfound =>
    cases second with
    | cast found => cases found.symm.trans unfound
    | unknown _ => rfl
  | agreed some_ all =>
    cases second with
    | agreed someToo _ => rw [all _ someToo]
    | differing left right different => exact absurd ((all _ left).trans (all _ right).symm) different
    | unasked none_ => exact absurd some_ (none_ _)
  | differing left right different =>
    cases second with
    | agreed _ all => exact absurd ((all _ left).trans (all _ right).symm) different
    | differing _ _ _ => rfl
    | unasked none_ => exact absurd left (none_ _)
  | unasked none_ =>
    cases second with
    | agreed some_ _ => exact absurd some_ (none_ _)
    | differing left _ _ => exact absurd left (none_ _)
    | unasked _ => rfl

theorem eq_iff (decides : Decides schema asked hint result) :
    result = other ↔ Decides schema asked hint other :=
  ⟨fun same => same ▸ decides, decides.unique⟩

theorem ok_iff {type : DataType} : Decides schema asked hint (.ok type) ↔
    (∃ cast, hint = some cast ∧ schema.typeNamed? cast.text = some type) ∨
      hint = none ∧ asked type ∧ ∀ other, asked other → other = type := by
  constructor
  · intro decides
    cases decides with
    | cast found => exact Or.inl ⟨_, rfl, found⟩
    | agreed some_ all => exact Or.inr ⟨rfl, some_, all⟩
  · rintro (⟨_, rfl, found⟩ | ⟨rfl, some_, all⟩)
    · exact .cast found
    · exact .agreed some_ all

theorem unknownType_iff : Decides schema asked hint (.error .unknownType) ↔
    ∃ cast, hint = some cast ∧ schema.typeNamed? cast.text = none := by
  constructor
  · rintro (_ | unfound)
    exact ⟨_, rfl, unfound⟩
  · rintro ⟨_, rfl, unfound⟩
    exact .unknown unfound

theorem ambiguous_iff : Decides schema asked hint (.error .ambiguousParameterType) ↔
    hint = none ∧ ∃ first second, asked first ∧ asked second ∧ first ≠ second := by
  constructor
  · rintro (_ | _ | _ | ⟨left, right, different⟩)
    exact ⟨rfl, _, _, left, right, different⟩
  · rintro ⟨rfl, _, _, left, right, different⟩
    exact .differing left right different

theorem unresolved_iff : Decides schema asked hint (.error .unresolvedParameterType) ↔
    hint = none ∧ ∀ type, ¬asked type := by
  constructor
  · rintro (_ | _ | _ | _ | none_)
    exact ⟨rfl, none_⟩
  · rintro ⟨rfl, none_⟩
    exact .unasked none_

end Decides

/-- What is decided on a parameter, whatever the order of its uses. -/
theorem typeOf_decides (schema : Schema) (p : Parameter) (asked : List (Nat × DataType)) :
    Decides schema (fun type => ∃ i, (i, type) ∈ asked) p.hint
      (mapBoth Finding.kind id (typeOf schema p asked)) := by
  unfold typeOf
  cases p.hint with
  | some name =>
    dsimp only
    cases found : schema.typeNamed? name.text with
    | some type => exact .cast found
    | none => exact .unknown found
  | none =>
    cases asked with
    | nil => exact .unasked (by simp)
    | cons first others =>
      obtain ⟨token, type⟩ := first
      dsimp only
      split
      next agreed =>
        refine .agreed ⟨token, List.mem_cons_self⟩ fun other asks => ?_
        obtain ⟨i, member⟩ := asks
        rcases List.mem_cons.mp member with same | later
        · exact (Prod.mk.inj same).2
        · simpa using List.find?_eq_none.mp agreed _ later
      next i other differs =>
        have different : other ≠ type := by simpa using List.find?_some differs
        have later : (i, other) ∈ others := List.mem_of_find?_eq_some differs
        exact .differing ⟨i, List.mem_cons_of_mem _ later⟩ ⟨token, List.mem_cons_self⟩ different

/-- The type of a parameter, or what is wrong with its cast or with all its occurrences. -/
def outcome (schema : Schema) (s : Statement) (scope : Scope) (p : Parameter) : Expectation :=
  typeOf schema p (askedAt s scope p.occurrences)

/-- Typing a parameter ends in a finding of the kind. -/
def Reports (expectation : Expectation) (kind : DiagnosticKind) : Prop :=
  ∃ finding, expectation = .error finding ∧ finding.kind = kind

theorem reports_iff {expectation : Expectation} {kind : DiagnosticKind} :
    Reports expectation kind ↔ mapBoth Finding.kind id expectation = .error kind := by
  unfold Reports
  cases expectation <;> simp [mapBoth]

theorem ok_iff {expectation : Expectation} {type : DataType} :
    expectation = .ok type ↔ mapBoth Finding.kind id expectation = .ok type := by
  cases expectation <;> simp [mapBoth]

/-- A cast parameter has the type of its cast, if there is such a type. Any other has the type that its
occurrences ask for, if they ask for one and for no other; the order of the occurrences decides
nothing. -/
structure Judged (schema : Schema) (s : Statement) (scope : Scope) (p : Parameter) : Prop where
  typed : ∀ type, outcome schema s scope p = .ok type ↔
    (∃ cast, p.hint = some cast ∧ schema.typeNamed? cast.text = some type) ∨
      p.hint = none ∧ (∃ i, Asks s scope p.key i type) ∧
        ∀ i other, Asks s scope p.key i other → other = type
  unknown : Reports (outcome schema s scope p) .unknownType ↔
    ∃ cast, p.hint = some cast ∧ schema.typeNamed? cast.text = none
  ambiguous : Reports (outcome schema s scope p) .ambiguousParameterType ↔
    p.hint = none ∧ ∃ i j first second,
      Asks s scope p.key i first ∧ Asks s scope p.key j second ∧ first ≠ second
  unresolved : Reports (outcome schema s scope p) .unresolvedParameterType ↔
    p.hint = none ∧ ∀ i type, ¬Asks s scope p.key i type
  reordered : ∀ tokens, tokens.Perm p.occurrences →
    mapBoth Finding.kind id (typeOf schema p (askedAt s scope tokens)) =
      mapBoth Finding.kind id (outcome schema s scope p)

theorem judged_of_occurrences (schema : Schema) (scope : Scope)
    (occurs : p.occurrences = s.occurrences p.key) : Judged schema s scope p := by
  have asks : ∀ i type, (i, type) ∈ askedAt s scope p.occurrences ↔ Asks s scope p.key i type :=
    fun i type => by rw [mem_askedAt, occurs, Statement.mem_occurrences, Asks]
  have decides : Decides schema (fun type => ∃ i, Asks s scope p.key i type) p.hint
      (mapBoth Finding.kind id (outcome schema s scope p)) := by
    simpa only [asks, outcome] using typeOf_decides schema p (askedAt s scope p.occurrences)
  refine ⟨fun type => ?_, ?_, ?_, ?_, fun tokens permuted => ?_⟩
  · rw [ok_iff, decides.eq_iff, Decides.ok_iff, forall_comm]
    simp only [forall_exists_index]
  · rw [reports_iff, decides.eq_iff, Decides.unknownType_iff]
  · rw [reports_iff, decides.eq_iff, Decides.ambiguous_iff]
    grind
  · rw [reports_iff, decides.eq_iff, Decides.unresolved_iff, forall_comm]
    simp only [not_exists]
  · have again := typeOf_decides schema p (askedAt s scope tokens)
    simp only [mem_askedAt, permuted.mem_iff] at again
    simp only [← mem_askedAt, asks] at again
    exact again.unique decides

end Typing

/-- Typing gives each parameter of an accepted query what its cast or its occurrences decide, and finds
the columns that cannot be looked up and, after them, what is wrong with parameters. -/
theorem typeParameters_judged {style : BindingStyle} {s : Statement} {parameters : List Parameter}
    (bound : (bind style s).value = some parameters) (schema : Schema) (scope : Scope) :
    (typeParameters schema s scope parameters).1 =
        parameters.map (fun p => Typing.assign p (Typing.outcome schema s scope p)) ∧
      (∃ faults, (typeParameters schema s scope parameters).2 = faults ++
          parameters.filterMap (fun p => Typing.finding? (Typing.outcome schema s scope p)) ∧
        ∀ fault ∈ faults, fault.kind = .unknownColumn ∨ fault.kind = .ambiguousColumn) ∧
      ∀ p ∈ parameters, Typing.Judged schema s scope p := by
  obtain ⟨_, rfl⟩ := Binding.bind_value_iff.mp bound
  have same : ∀ p ∈ Binding.table style s, Typing.typeOf schema p (Typing.askedTypes
      (Typing.uses s scope (Binding.table style s)) p.key) = Typing.outcome schema s scope p := by
    intro p member
    obtain ⟨occurs, cast⟩ := Binding.table_entry member
    unfold Typing.outcome
    cases hinted : p.hint with
    | some name => simp only [Typing.typeOf, hinted]
    | none =>
      rw [occurs, Typing.askedTypes_uses fun q other sameKey => ?_]
      rw [(Binding.table_entry other).2, sameKey, ← cast, hinted]
  refine ⟨?_, ⟨(Typing.uses s scope (Binding.table style s)).filterMap
      (fun use => Typing.finding? use.expectation), ?_, fun fault member => ?_⟩, fun p member => ?_⟩
  · simp only [typeParameters, List.map_map]
    exact List.map_congr_left fun p member => by rw [Function.comp_apply, same p member]
  · simp only [typeParameters, List.filterMap_map]
    refine congrArg _ (List.filterMap_congr fun p member => ?_)
    rw [Function.comp_apply, same p member]
  · obtain ⟨use, used, fails⟩ := List.mem_filterMap.mp member
    exact Typing.kind_of_use used fails
  · exact Typing.judged_of_occurrences schema scope (Binding.table_entry member).1

/-- Parameters of each sort: one that is cast, one that is cast to no type, one that asks for nothing, one
that asks for two types, and one that asks for the same twice and once for an unknown column. -/
theorem typeParameters_judged_each :
    let s := (Body.read 0 ("select :cast::int4, :lost::nope, :bare from a where x = :torn and y = :torn " ++
      "and x = :sure and :sure = x and z = :sure").toList).statement
    let schema : Schema := ⟨[⟨"a", [⟨"x", .scalar .int4, false⟩, ⟨"y", .scalar .text, true⟩]⟩], []⟩
    let scope := (Scope.ofStatement schema s).toOption.getD {}
    let parameters := Binding.table .implicit s
    ((bind .implicit s).value = some parameters ∧
      (typeParameters schema s scope parameters).1.map (fun p => (p.name, p.type)) =
        [("cast", .scalar .int4), ("lost", .unresolved), ("bare", .unresolved), ("torn", .unresolved),
          ("sure", .scalar .int4)] ∧
      (typeParameters schema s scope parameters).2.map Finding.kind =
        [.unknownColumn, .unknownType, .unresolvedParameterType, .ambiguousParameterType]) ∧
      ∀ p ∈ parameters, Typing.Judged schema s scope p := by
  intro s schema scope parameters
  have judged : (bind .implicit s).value = some parameters →
      ∀ p ∈ parameters, Typing.Judged schema s scope p := fun bound =>
    (typeParameters_judged bound schema scope).2.2
  exact (and_iff_left_of_imp fun evaluated => judged evaluated.1).mpr (by decide +kernel)

end AnnotatedSql
