import AnnotatedSql.Proofs.Parameter.Table
import AnnotatedSql.Proofs.Outcome
import AnnotatedSql.Proofs.Statement.Bounds
import AnnotatedSql.Resolution

/-!
# Places of findings

Every finding on a statement points at tokens of that statement, and so does the other place that it
refers to. Where the tokens stand is therefore all that a report needs to know of the text.
-/

namespace AnnotatedSql

/-- The tokens of the place are tokens of the statement. -/
def Place.Within (s : Statement) : Place → Prop
  | tokens lo hi => lo < s.size ∧ hi ≤ s.size
  | declaration _ => True
  | optionalModifier => True

theorem Place.Within.token {s : Statement} {i : Nat} (inside : i < s.size) :
    (Place.token i).Within s := ⟨inside, inside⟩

/-- The finding and what it refers to have their places in the statement, and where it quotes what it
is about, that is tokens. -/
structure Finding.Within (s : Statement) (finding : Finding) : Prop where
  place : finding.place.Within s
  related : ∀ message place, finding.cause.related? = some (message, place) → place.Within s
  quoted : finding.cause = .untypedExpression → ∃ lo hi, finding.place = .tokens lo hi

/-- A finding that refers to no other place. -/
theorem Finding.Within.unrelated {s : Statement} {cause : Cause} {place : Place}
    (inside : place.Within s) (none : cause.related? = none)
    (quoted : cause = .untypedExpression → ∃ lo hi, place = .tokens lo hi) :
    Finding.Within s ⟨cause, place⟩ := by
  refine ⟨inside, fun message other refers => ?_, quoted⟩
  rw [none] at refers
  cases refers

/-- A finding on tokens that refers to no other place. -/
theorem Finding.Within.alone {s : Statement} {cause : Cause} {lo hi : Nat}
    (inside : (Place.tokens lo hi).Within s) (none : cause.related? = none) :
    Finding.Within s ⟨cause, .tokens lo hi⟩ :=
  .unrelated inside none fun _ => ⟨lo, hi, rfl⟩

/-- A finding that fails its query. -/
structure Finding.Fatal (s : Statement) (finding : Finding) : Prop extends
    Finding.Within s finding where
  isError : finding.isError = true

namespace Statement

variable {s : Statement} {key : ParamKey}

theorem mem_firstOccurrence (member : key ∈ s.keys) : s.firstOccurrence key < s.size :=
  lt_size_of_paramKey (paramKey_firstOccurrence member)

theorem Paired.hint_within (paired : s.Paired) {hint : TypeName} (found : s.hint? key = some hint) :
    hint.place.Within s := by
  obtain ⟨i, _, cast⟩ := List.exists_of_findSome?_eq_some found
  exact paired.castHint_bounds cast

end Statement

/-! ## Binding -/

namespace Binding

variable {s : Statement}

theorem placeholderFindings_within (paired : s.Paired) {i : Nat} {finding : Finding}
    (member : finding ∈ placeholderFindings s i) : finding.Within s := by
  obtain ⟨isParam, ⟨_, rfl⟩ | ⟨key, hint, first, _, cast, leading, _, rfl⟩⟩ :=
    mem_placeholderFindings.mp member
  · exact .alone (.token (Statement.lt_size_of_param isParam)) rfl
  · refine ⟨paired.castHint_bounds cast, fun message place refers => ?_,
      fun impossible => nomatch impossible⟩
    cases refers
    exact paired.hint_within leading

theorem gapFindings_within {expected : Nat} {positions : List Nat}
    (used : ∀ position ∈ positions, position ∈ s.positions) {finding : Finding}
    (member : finding ∈ gapFindings s expected positions) : finding.Within s := by
  obtain ⟨position, listed, cause, rfl, causes⟩ := mem_gapFindings member
  have inside : s.firstOccurrence (.positional position) < s.size :=
    Statement.mem_firstOccurrence (Statement.mem_positions.mp (used position listed))
  rcases causes with rfl | ⟨_, rfl⟩
  · exact .alone (.token inside) rfl
  · exact .alone (.token inside) rfl

theorem declarationFindings_within {style : BindingStyle} {finding : Finding}
    (member : finding ∈ declarationFindings style s) : finding.Within s := by
  unfold declarationFindings at member
  split at member
  · rcases List.mem_append.mp member with undeclared | unused
    · obtain ⟨name, found, rfl⟩ := List.mem_map.mp undeclared
      have used := Statement.mem_names.mp (List.mem_filter.mp found).1
      exact .alone (.token (Statement.mem_firstOccurrence used)) rfl
    · obtain ⟨⟨name, index⟩, _, rfl⟩ := List.mem_map.mp unused
      exact .unrelated trivial rfl fun impossible => nomatch impossible
  · cases member

theorem countFindings_within {style : BindingStyle} {finding : Finding}
    (member : finding ∈ countFindings style s) : finding.Within s := by
  unfold countFindings at member
  split at member
  · split at member
    · cases member
    · obtain rfl := List.mem_singleton.mp member
      exact .unrelated trivial rfl fun impossible => nomatch impossible
  · cases member

theorem findings_within (paired : s.Paired) {style : BindingStyle} {finding : Finding}
    (member : finding ∈ findings style s) : finding.Within s := by
  unfold findings at member
  simp only [List.mem_append] at member
  rcases member with ((single | gap) | declaration) | count
  · obtain ⟨i, _, single⟩ := List.mem_flatMap.mp single
    exact placeholderFindings_within paired single
  · exact gapFindings_within (fun _ => mem_ascending.mp) gap
  · exact declarationFindings_within declaration
  · exact countFindings_within count

end Binding

/-! ## Scopes -/

namespace Statement

variable {s : Statement} {i : Nat}

/-- The relation that a reference names, if any, is named by a token of the statement. -/
def NamesWithin (s : Statement) (reference : TableReference) : Prop :=
  ∀ name i, reference.relation = some (name, i) → i < s.size

theorem relationReference_within {reference : TableReference}
    (found : s.relationReference? i = some reference) : s.NamesWithin reference := by
  obtain ⟨⟨name, after⟩, read, rfl⟩ := Option.map_eq_some_iff.mp found
  intro other j same
  have bounds := objectName_bounds read
  cases same
  omega

theorem groupReference_within {start : Nat} {reference : TableReference}
    (found : s.groupReference? start i = some reference) : s.NamesWithin reference := by
  obtain ⟨closing, _, rfl⟩ := Option.map_eq_some_iff.mp found
  intro name j absent
  cases absent

theorem tableReference_within {reference : TableReference}
    (found : s.tableReference? i = some reference) : s.NamesWithin reference := by
  cases tableForm_of_read found with
  | group _ read | call _ _ read => exact groupReference_within read
  | relation _ read => exact relationReference_within read

/-- The table that a step is about. -/
def StepWithin (s : Statement) : ScopeStep → Prop
  | .table reference _ => s.NamesWithin reference
  | .absent _ => True
  | .insertion reference _ => s.NamesWithin reference

theorem scopeSteps_within {action : ScopeStep} (member : action ∈ s.scopeSteps) :
    s.StepWithin action := by
  obtain ⟨i, _, member⟩ := List.mem_flatMap.mp member
  cases (stepAt_of_mem member).2 with
  | from_ _ listed =>
    obtain ⟨_, read⟩ := read_of_mem_tableList listed
    exact tableReference_within read
  | outerJoin _ _ => trivial
  | join _ read => exact tableReference_within read
  | update _ read => exact tableReference_within read
  | insertInto _ _ read => exact relationReference_within read

end Statement

namespace Scope

variable {schema : Schema} {s : Statement} {scope : Scope} {finding : Finding}

theorem enter_fatal {reference : TableReference} {name : Name} {i : Nat} {nullable : Bool}
    (inside : i < s.size)
    (fails : scope.enter schema s reference name i nullable = .error finding) :
    finding.Fatal s := by
  unfold enter at fails
  split at fails
  · cases fails
    exact ⟨.alone (.token inside) rfl, rfl⟩
  · cases fails

theorem listedColumns_fatal {relation : Relation} {items : List (Nat × Nat)}
    (fails : listedColumns s relation items = .error finding) : finding.Fatal s := by
  obtain ⟨⟨lo, hi⟩, member, fails⟩ := mapM_error fails
  obtain ⟨_, plain⟩ := List.mem_filter.mp member
  rw [Bool.and_eq_true] at plain
  dsimp only at fails
  split at fails
  · cases fails
  · cases fails
    exact ⟨.alone (.token (Statement.lt_size_of_word plain.2)) rfl, rfl⟩

theorem step_fatal {action : ScopeStep} (inside : s.StepWithin action)
    (fails : scope.step schema s action = .error finding) : finding.Fatal s := by
  cases action with
  | table reference nullable =>
    simp only [Scope.step] at fails
    split at fails
    · cases fails
    next name i names =>
      cases entered : scope.enter schema s reference name i nullable with
      | error fault =>
        rw [entered] at fails
        cases fails
        exact enter_fatal (inside name i names) entered
      | ok pair =>
        rw [entered] at fails
        cases fails
  | absent context => cases fails
  | insertion reference source =>
    simp only [Scope.step] at fails
    split at fails
    · cases fails
    next name i names =>
      rcases bind_error fails with fails | ⟨⟨relation, entered⟩, _, fails⟩
      · exact enter_fatal (inside name i names) fails
      · dsimp only at fails
        split at fails
        · rcases bind_error fails with fails | ⟨columns, _, fails⟩
          · exact listedColumns_fatal fails
          · cases fails
        · cases fails

/-- What keeps a statement from having a scope fails its query. -/
theorem ofStatement_fatal (fails : Scope.ofStatement schema s = .error finding) :
    finding.Fatal s := by
  obtain ⟨scope, action, member, fails⟩ := foldlM_error fails
  exact step_fatal (Statement.scopeSteps_within member) fails

end Scope

/-! ## Types -/

namespace Typing

variable {schema : Schema} {s : Statement} {scope : Scope} {finding : Finding}

theorem columnType_fatal {i lo hi : Nat} {name : ColumnName} (begins : lo < s.size)
    (ends : hi ≤ s.size) (fails : columnType s scope i name lo hi = .error finding) :
    finding.Fatal s := by
  obtain ⟨fault, _, rfl⟩ := columnType_eq_error.mp fails
  cases fault with
  | unknown => exact ⟨.alone ⟨begins, ends⟩ rfl, rfl⟩
  | ambiguous => exact ⟨.alone ⟨begins, ends⟩ rfl, rfl⟩

/-- What is asked for may fail only in a way that fails the query. -/
theorem contextType_fatal {i : Nat} (fails : contextType s scope i = some (.error finding)) :
    finding.Fatal s := by
  let sound : Expectation → Prop := fun expectation =>
    ∀ finding, expectation = .error finding → finding.Fatal s
  have typed : ∀ type, sound (.ok type) := fun _ _ impossible => nomatch impossible
  have named : ∀ i name lo hi, lo < s.size → hi ≤ s.size →
      sound (columnType s scope i name lo hi) := fun _ _ _ _ begins ends _ failed =>
    columnType_fatal begins ends failed
  exact contextType_cases (typed _) named (fun _ _ _ _ => typed _) i _ fails finding rfl

theorem mem_uses {parameters : List Parameter} {use : Use}
    (member : use ∈ uses s scope parameters) :
    use.token < s.size ∧ contextType s scope use.token = some use.expectation := by
  obtain ⟨⟨i, key⟩, listed, found⟩ := List.mem_filterMap.mp member
  obtain ⟨expectation, context, rfl⟩ := Option.map_eq_some_iff.mp found
  have placeholder := Statement.mem_placeholders.mp (List.mem_filter.mp listed).1
  exact ⟨Statement.lt_size_of_paramKey placeholder, context⟩

theorem mem_askedTypes {parameters : List Parameter} {key : ParamKey} {asked : Nat × DataType}
    (member : asked ∈ askedTypes (uses s scope parameters) key) : asked.1 < s.size := by
  obtain ⟨use, used, asks⟩ := List.mem_filterMap.mp member
  split at asks
  · obtain ⟨type, _, rfl⟩ := Option.map_eq_some_iff.mp asks
    exact (mem_uses used).1
  · cases asks

theorem typeOf_fatal {parameter : Parameter} {asked : List (Nat × DataType)}
    (hinted : ∀ hint, parameter.hint = some hint → hint.place.Within s)
    (occurs : parameter.occurrences.headD 0 < s.size) (used : ∀ use ∈ asked, use.1 < s.size)
    (fails : typeOf schema parameter asked = .error finding) : finding.Fatal s := by
  unfold typeOf at fails
  split at fails
  next hint known =>
    split at fails
    · cases fails
    · cases fails
      exact ⟨.alone (hinted hint known) rfl, rfl⟩
  · cases asked with
    | nil =>
      cases fails
      exact ⟨.alone (.token occurs) rfl, rfl⟩
    | cons first others =>
      dsimp only at fails
      split at fails
      · cases fails
      next i other differs =>
        cases fails
        have second := used (i, other) (List.mem_cons_of_mem _ (List.mem_of_find?_eq_some differs))
        refine ⟨⟨.token second, fun message place refers => ?_,
          fun impossible => nomatch impossible⟩, rfl⟩
        cases refers
        exact .token (used first (by simp))

end Typing

theorem typeParameters_fatal {schema : Schema} {style : BindingStyle} {s : Statement}
    {scope : Scope} (paired : s.Paired) (accepts : Binding.Accepts style s) {finding : Finding}
    (member : finding ∈ (typeParameters schema s scope (Binding.table style s)).2) :
    finding.Fatal s := by
  rcases List.mem_append.mp member with single | whole
  · obtain ⟨use, used, fails⟩ := List.mem_filterMap.mp single
    obtain ⟨_, context⟩ := Typing.mem_uses used
    cases expectation : use.expectation with
    | ok type =>
      rw [expectation] at fails
      cases fails
    | error fault =>
      rw [expectation] at fails context
      cases fails
      exact Typing.contextType_fatal context
  · obtain ⟨⟨p, type⟩, typed, fails⟩ := List.mem_filterMap.mp whole
    obtain ⟨parameter, inTable, same⟩ := List.mem_map.mp typed
    cases same
    cases typed : Typing.typeOf schema p (Typing.askedTypes
        (Typing.uses s scope (Binding.table style s)) p.key) with
    | ok type =>
      rw [typed] at fails
      cases fails
    | error fault =>
      rw [typed] at fails
      cases fails
      obtain ⟨⟨key, index⟩, listed, rfl⟩ := List.mem_map.mp inTable
      have ordered : key ∈ Binding.orderedKeys style s := (List.mem_zipIdx' listed).2 ▸
        List.getElem_mem _
      have used : key ∈ s.keys := accepts.mem_orderedKeys.mp ordered
      have occurs : (Binding.parameter style s key (index + 1)).occurrences.headD 0 < s.size :=
        Statement.mem_firstOccurrence used
      exact Typing.typeOf_fatal (fun hint found => paired.hint_within found) occurs
        (fun _ => Typing.mem_askedTypes) typed

/-! ## Columns -/

namespace Surroundings

variable {env : Surroundings} {finding : Finding}

/-- What may be wrong with the tokens from `lo` to before `hi` as an expression: a column that cannot be
looked up, a cast to no type, a field that its composite does not have, or what is wrong with the operand
of a cast or in the parentheses that fields follow. -/
inductive FaultIn (env : Surroundings) : Nat → Nat → Finding → Prop
  | column {lo hi next : Nat} {name : ColumnName} (fault : LookupFault)
      (path : env.statement.columnPath? lo = some (name, next)) (whole : hi = lo + 1 ∨ next = hi) :
      FaultIn env lo hi ⟨fault.cause name, .tokens lo next⟩
  | type {lo hi cast : Nat} {type : TypeName}
      (trailing : env.statement.trailingCast? lo hi = some (cast, type)) :
      FaultIn env lo hi ⟨.unknownType type.text, type.place⟩
  | field {lo hi closing fuel i : Nat} {names : List Nat} (composite name : String)
      (group : env.statement.leadingGroup? lo hi = some closing)
      (path : env.statement.fieldPath? hi fuel (closing + 1) = some names) (member : i ∈ names) :
      FaultIn env lo hi ⟨.unknownField composite name, .token i⟩
  | operand {lo hi cast : Nat} {type : TypeName} {finding : Finding}
      (trailing : env.statement.trailingCast? lo hi = some (cast, type))
      (inner : FaultIn env lo cast finding) : FaultIn env lo hi finding
  | group {lo hi closing : Nat} {finding : Finding}
      (group : env.statement.leadingGroup? lo hi = some closing)
      (inner : FaultIn env (lo + 1) closing finding) : FaultIn env lo hi finding

theorem column_failed {lo hi next : Nat} {name : ColumnName}
    (path : env.statement.columnPath? lo = some (name, next)) (whole : hi = lo + 1 ∨ next = hi)
    (fails : env.column lo name next = .error (.failed finding)) : env.FaultIn lo hi finding := by
  unfold column at fails
  split at fails
  · cases fails
  next fault _ =>
    cases fails
    exact .column fault path whole

theorem placeholder_notFailed {i : Nat} : env.placeholder i ≠ .error (.failed finding) := by
  unfold placeholder
  dsimp only
  split
  · exact fun impossible => nomatch impossible
  · exact fun impossible => nomatch impossible

theorem token_failed {i : Nat} (fails : env.token i = .error (.failed finding)) :
    env.FaultIn i (i + 1) finding := by
  unfold token at fails
  dsimp only at fails
  split at fails
  · cases fails
  · cases fails
  · exact absurd fails placeholder_notFailed
  · exact absurd fails placeholder_notFailed
  · split at fails
    · cases fails
    · split at fails
      next name next path => exact column_failed path (Or.inl rfl) fails
      · cases fails
  · split at fails
    · cases fails
    · split at fails
      next name next path => exact column_failed path (Or.inl rfl) fails
      · cases fails
  · cases fails

/-- The names of a path of fields stand in the path. -/
theorem fieldPath_inside {s : Statement} {hi fuel i : Nat} {names : List Nat}
    (path : s.fieldPath? hi fuel i = some names) :
    i ≤ hi ∧ ∀ name ∈ names, i < name ∧ name < hi ∧ name < s.size := by
  replace path := Statement.isFieldPath_of_read path
  induction path with
  | ended => exact ⟨Nat.le_refl _, by simp⟩
  | field before _ word _ ih =>
    refine ⟨Nat.le_of_lt before, fun name member => ?_⟩
    rcases List.mem_cons.mp member with rfl | member
    · exact ⟨by omega, by omega, Statement.lt_size_of_word word⟩
    · have := ih.2 name member
      omega

/-- Where an expression fails. -/
theorem expressionWithin_failed {fuel lo hi : Nat}
    (fails : env.expressionWithin fuel lo hi = .error (.failed finding)) :
    env.FaultIn lo hi finding := by
  induction fuel generalizing lo hi with
  | zero => cases fails
  | succ fuel ih =>
    unfold expressionWithin at fails
    dsimp only at fails
    split at fails
    · cases fails
    split at fails
    next cast type trailing =>
      unfold Surroundings.cast at fails
      split at fails
      · cases fails
        exact .type trailing
      · split at fails
        · cases fails
        · cases fails
        next fault _ operand =>
          obtain rfl := Except.error.inj fails
          exact .operand trailing (ih operand)
    split at fails
    next single =>
      obtain rfl := eq_of_beq single
      exact token_failed fails
    split at fails
    next name next path =>
      obtain ⟨path, ends⟩ := Option.filter_eq_some_iff.mp path
      exact column_failed path (Or.inr (eq_of_beq ends)) fails
    split at fails
    · cases fails
    split at fails
    · cases fails
    next closing group =>
      split at fails
      · cases fails
      next names path =>
        rcases bind_error fails with fails | ⟨whole, _, fails⟩
        · exact .group group (ih fails)
        · obtain ⟨part, name, member, fails⟩ := foldlM_error fails
          unfold field at fails
          dsimp only at fails
          split at fails
          · cases fails
          · cases fails
            exact .field _ _ group path member

/-- What makes an expression fail is a finding that fails the query. -/
theorem FaultIn.fatal (paired : env.statement.Paired) {lo hi : Nat}
    (fault : env.FaultIn lo hi finding) : finding.Fatal env.statement := by
  induction fault with
  | column fault path whole =>
    have bounds := Statement.columnPath_bounds path
    cases fault with
    | unknown => exact ⟨.alone ⟨by omega, bounds.2⟩ rfl, rfl⟩
    | ambiguous => exact ⟨.alone ⟨by omega, bounds.2⟩ rfl, rfl⟩
  | type trailing =>
    obtain ⟨same, begins, ends⟩ := paired.typeName_bounds
      (Statement.trailingCast_parts trailing).2.2.2.1
    exact ⟨.alone ⟨same ▸ begins, ends⟩ rfl, rfl⟩
  | field composite name group path member =>
    exact ⟨.alone (.token ((fieldPath_inside path).2 _ member).2.2) rfl, rfl⟩
  | operand _ _ ih => exact ih
  | group _ _ ih => exact ih

/-- An item fails as an expression that ends where it does or before a word of it. -/
theorem single_failed {lo hi : Nat} (fails : env.single lo hi = .error (.failed finding)) :
    ∃ stop, (stop = hi ∨ stop < hi ∧ env.statement.isWord stop = true) ∧ env.FaultIn lo stop finding := by
  have aliased : ∀ {stop last}, env.aliased lo stop last = .error (.failed finding) →
      env.FaultIn lo stop finding := by
    intro stop last fails
    rcases bind_error fails with fails | ⟨_, _, fails⟩
    · exact expressionWithin_failed fails
    · cases fails
  unfold single at fails
  dsimp only at fails
  split at fails
  next introduced =>
    simp only [Statement.hasAlias, Bool.and_eq_true, decide_eq_true_eq] at introduced
    obtain ⟨⟨length, keyword⟩, _⟩ := introduced
    exact ⟨hi - 2, Or.inr ⟨by omega, Statement.isWord_of_keyword keyword⟩, aliased fails⟩
  · split at fails
    · split at fails
      next bare =>
        simp only [Statement.mayEndInAlias, Bool.and_eq_true, decide_eq_true_eq] at bare
        obtain ⟨⟨⟨length, word⟩, _⟩, _⟩ := bare
        exact ⟨hi - 1, Or.inr ⟨by omega, word⟩, aliased fails⟩
      · cases fails
    · exact ⟨hi, Or.inl rfl, expressionWithin_failed fails⟩

/-- What may be wrong with an item of the projection: a qualifier of `*` that names no table, an
expression that fails, or one of no known form. -/
inductive ItemFault (env : Surroundings) (lo hi : Nat) : Finding → Prop
  | qualifier {name : Name} (star : env.statement.starQualifier? lo hi = some name) :
      ItemFault env lo hi ⟨.unknownRelation name.text, .token lo⟩
  | expression {stop : Nat} {finding : Finding}
      (stops : stop = hi ∨ stop < hi ∧ env.statement.isWord stop = true)
      (fault : env.FaultIn lo stop finding) : ItemFault env lo hi finding
  | untyped : ItemFault env lo hi ⟨.untypedExpression, .tokens lo hi⟩

theorem item_failed {lo hi : Nat} (fails : env.item lo hi = .error finding) :
    env.ItemFault lo hi finding := by
  unfold item at fails
  dsimp only at fails
  split at fails
  · cases fails
  split at fails
  next qualifier star =>
    split at fails
    · cases fails
    · cases fails
      exact .qualifier star
  · split at fails
    · cases fails
    next failed =>
      cases fails
      obtain ⟨stop, stops, fault⟩ := single_failed failed
      exact .expression stops fault
    · cases fails
      exact .untyped

/-- So is what is wrong with an item of the projection. -/
theorem ItemFault.fatal (paired : env.statement.Paired) {lo hi : Nat}
    (begins : lo < env.statement.size) (ends : hi ≤ env.statement.size)
    (fault : env.ItemFault lo hi finding) : finding.Fatal env.statement := by
  cases fault with
  | qualifier star => exact ⟨.alone (.token begins) rfl, rfl⟩
  | expression stops fault => exact fault.fatal paired
  | untyped => exact ⟨.alone ⟨begins, ends⟩ rfl, rfl⟩

end Surroundings

theorem project_fatal {env : Surroundings} (paired : env.statement.Paired) {finding : Finding}
    (member : finding ∈ (project env).findings) : finding.Fatal env.statement := by
  unfold project at member
  split at member
  · cases member
  next items listed =>
    obtain ⟨outcome, ran, fails⟩ := List.mem_filterMap.mp member
    obtain ⟨⟨lo, hi⟩, isItem, rfl⟩ := List.mem_map.mp ran
    have bounds := Statement.projectionItems_bounds listed isItem
    dsimp only at fails
    cases read : env.item lo hi with
    | ok columns =>
      rw [read] at fails
      cases fails
    | error fault =>
      rw [read] at fails
      cases fails
      exact (Surroundings.item_failed read).fatal paired bounds.1 bounds.2

/-! ## Whole statements -/

/-- Every finding on a statement has its places in the statement. -/
theorem resolve_within {schema : Schema} {style : BindingStyle} {s : Statement}
    (paired : s.Paired) {finding : Finding}
    (member : finding ∈ (resolve schema style s).findings) : finding.Within s := by
  unfold resolve at member
  dsimp only at member
  split at member
  · exact Binding.findings_within paired member
  next parameters bound =>
    obtain ⟨accepts, rfl⟩ := Binding.bind_value_iff.mp bound
    split at member
    next fault built =>
      rcases List.mem_append.mp member with early | last
      · exact Binding.findings_within paired early
      · obtain rfl := List.mem_singleton.mp last
        exact (Scope.ofStatement_fatal built).toWithin
    next scope built =>
      rcases List.mem_append.mp member with early | late
      · exact Binding.findings_within paired early
      · rcases List.mem_append.mp late with typing | projection
        · exact (typeParameters_fatal paired accepts typing).toWithin
        · exact (project_fatal paired projection).toWithin

/-- A projection without a result has a finding. -/
theorem project_none {env : Surroundings} (fails : (project env).value = none) :
    ∃ finding, finding ∈ (project env).findings := by
  unfold project at fails ⊢
  split at fails
  · cases fails
  · dsimp only at fails ⊢
    split at fails
    · cases fails
    next found => exact List.exists_mem_of_ne_nil _ (by simpa using found)

/-- A resolution that fails in a scope has a finding that fails it. -/
theorem resolveIn_none {schema : Schema} {s : Statement} (paired : s.Paired)
    {parameters : List Parameter} {scope : Scope}
    (fails : (resolveIn schema s parameters scope).value = none) :
    ∃ finding ∈ (resolveIn schema s parameters scope).findings, finding.isError = true := by
  unfold resolveIn at fails ⊢
  dsimp only at fails ⊢
  split at fails
  next failing => exact List.any_eq_true.mp failing
  next =>
    obtain ⟨finding, found⟩ := project_none (Option.map_eq_none_iff.mp fails)
    exact ⟨finding, List.mem_append_right _ found, (project_fatal paired found).isError⟩

/-- A statement that does not resolve has a finding that fails it. -/
theorem resolve_none {schema : Schema} {style : BindingStyle} {s : Statement} (paired : s.Paired)
    (fails : (resolve schema style s).value = none) :
    ∃ finding ∈ (resolve schema style s).findings, finding.isError = true := by
  unfold resolve at fails ⊢
  dsimp only at fails ⊢
  split at fails
  next unbound =>
    unfold bind at unbound ⊢
    dsimp only at unbound ⊢
    split at unbound
    next failing =>
      obtain ⟨finding, found, isError⟩ := List.any_eq_true.mp failing
      exact ⟨finding, by simpa [unbound, failing] using found, isError⟩
    next => cases unbound
  next parameters bound =>
    split at fails
    next fault built =>
      exact ⟨fault, by simp, (Scope.ofStatement_fatal built).isError⟩
    next scope built =>
      obtain ⟨finding, found, isError⟩ := resolveIn_none paired fails
      exact ⟨finding, List.mem_append_right _ found, isError⟩

end AnnotatedSql
