import AnnotatedSql.Proofs.Outcome
import AnnotatedSql.Proofs.Resolution.Typed
import AnnotatedSql.Proofs.Statement.EmbeddedSteps

/-!
# Scopes of statements within statements

The steps of an inner statement build its scope within the outer statement too: the same relations,
each in the query that stands for its own. A column of the inner statement is then found there as it
is alone.
-/

namespace AnnotatedSql

/-- The entry, `n` tokens further on and within the query `outer`. -/
def ScopeEntry.moved (n : Nat) (outer : Option Nat) (entry : ScopeEntry) : ScopeEntry :=
  { entry with context := movedContext n outer entry.context }

/-- The target, `n` tokens further on. -/
def InsertTarget.moved (n : Nat) (target : InsertTarget) : InsertTarget :=
  { target with rows := target.rows.map (movedRange n) }

/-- The scope, `n` tokens further on and within the query `outer`. -/
def Scope.moved (n : Nat) (outer : Option Nat) (scope : Scope) : Scope :=
  { entries := scope.entries.map (ScopeEntry.moved n outer)
    insert := scope.insert.map (InsertTarget.moved n) }

namespace Scope

variable {n : Nat} {s t : Statement} (embeds : s.Embeds n t) {schema : Schema} {scope : Scope}

section Lookups

variable {outer : Option Nat} (before : ∀ opening ∈ outer, opening < n)

include before

theorem candidates_moved (name : ColumnName) (context : Option Nat) :
    (scope.moved n outer).candidates name (movedContext n outer context) =
      scope.candidates name context := by
  unfold candidates moved
  dsimp only
  rw [List.filter_map, List.filterMap_map]
  have same : (fun entry : ScopeEntry => entry.context == movedContext n outer context) ∘
      ScopeEntry.moved n outer = fun entry => entry.context == context := by
    funext entry
    rw [Function.comp_apply, Bool.eq_iff_iff, beq_iff_eq, beq_iff_eq]
    exact movedContext_inj before
  rw [same]
  rfl

theorem lookupIn_moved (name : ColumnName) {beyond : List (Option Nat)}
    (empty : ∀ context ∈ beyond, context ≠ outer ∧ ∀ opening ∈ context, opening < n)
    (contexts : List (Option Nat)) :
    (scope.moved n outer).lookupIn name (contexts.map (movedContext n outer) ++ beyond) =
      scope.lookupIn name contexts := by
  induction contexts with
  | nil =>
    induction beyond with
    | nil => rfl
    | cons context further ih =>
      obtain ⟨other, earlier⟩ := empty context (by simp)
      have none_ : (scope.moved n outer).candidates name context = [] := by
        unfold candidates moved
        refine List.filterMap_eq_nil_iff.mpr fun entry member => ?_
        obtain ⟨listed, same⟩ := List.mem_filter.mp member
        obtain ⟨inner, _, rfl⟩ := List.mem_map.mp listed
        have same : movedContext n outer inner.context = context := eq_of_beq same
        cases place : inner.context with
        | none =>
          rw [place] at same
          exact absurd same.symm other
        | some opening =>
          rw [place] at same
          have := earlier (opening + n) same.symm
          omega
      have rest := ih fun context member => empty context (by simp [member])
      rw [List.map_nil, List.nil_append] at rest ⊢
      unfold lookupIn
      rw [none_]
      exact rest
  | cons context contexts ih =>
    rw [List.map_cons, List.cons_append, lookupIn, lookupIn, candidates_moved before, ih]

end Lookups

include embeds

/-- A column is found in the outer statement as it is in the inner one alone. -/
theorem lookup_moved {i : Nat} (inside : i < s.size) (name : ColumnName) :
    (scope.moved n (t.level n).head?).lookup t (i + n) name = scope.lookup s i name := by
  obtain ⟨beyond, contexts, empty⟩ := embeds.contexts inside
  unfold lookup
  rw [contexts]
  exact lookupIn_moved Statement.level_head_lt name empty _

theorem enter_moved {reference : TableReference} (inside : reference.start < s.size) (name : Name)
    (i : Nat) (nullable : Bool) :
    mapBoth Finding.kind id ((scope.moved n (t.level n).head?).enter schema t (reference.moved n) name
        (i + n) nullable) =
      mapBoth Finding.kind (Prod.map id (Scope.moved n (t.level n).head?))
        (scope.enter schema s reference name i nullable) := by
  unfold enter
  cases schema.relation? name.text name.exact with
  | none => rfl
  | some relation =>
    simp [mapBoth, Scope.moved, ScopeEntry.moved, TableReference.moved, embeds.queryContext inside]

theorem listedColumns_moved (relation : Relation) {items : List (Nat × Nat)}
    (inside : ∀ item ∈ items, item.1 < s.size) :
    mapBoth Finding.kind id (listedColumns t relation (items.map (movedRange n))) =
      mapBoth Finding.kind id (listedColumns s relation items) := by
  unfold listedColumns
  rw [List.filter_map, List.mapM_map]
  have kept : items.filter ((fun item : Nat × Nat => item.2 == item.1 + 1 && t.isWord item.1) ∘
      movedRange n) = items.filter fun item => item.2 == item.1 + 1 && s.isWord item.1 := by
    refine List.filter_congr fun item member => ?_
    have length : (item.2 + n == item.1 + n + 1) = (item.2 == item.1 + 1) := by
      rw [Nat.add_right_comm, beq_moved]
    exact congrArg₂ and length (embeds.isWord (inside item member))
  refine Eq.trans (congrArg (fun list : List (Nat × Nat) => mapBoth Finding.kind id (list.mapM _)) kept) ?_
  refine mapBoth_mapM_alike fun item member => ?_
  have before := inside item (List.mem_filter.mp member).1
  dsimp only [Function.comp_apply, movedRange, Prod.map]
  rw [embeds.name before]
  cases (s.name? item.1).bind fun name => relation.column? name.text name.exact <;> rfl

theorem step_moved {action : ScopeStep} (inside : s.StepInside action) :
    mapBoth Finding.kind id (step schema t (scope.moved n (t.level n).head?)
        (action.moved n (t.level n).head?)) =
      mapBoth Finding.kind (Scope.moved n (t.level n).head?) (step schema s scope action) := by
  cases action with
  | table reference nullable =>
    simp only [step, ScopeStep.moved]
    cases named : reference.relation with
    | none =>
      simp only [TableReference.moved, named]
      rfl
    | some found =>
      have relation : (reference.moved n).relation = some (found.1, found.2 + n) := by
        simp [TableReference.moved, named]
      rw [relation]
      exact mapBoth_map_alike (enter_moved embeds inside found.1 found.2 nullable)
        fun pair => Prod.map_snd ..
  | absent context =>
    simp only [step, ScopeStep.moved, mapBoth, Scope.moved, List.map_map]
    congr 3
    refine List.map_congr_left fun entry _ => ?_
    have same : (movedContext n (t.level n).head? entry.context ==
        movedContext n (t.level n).head? context) = (entry.context == context) := by
      rw [Bool.eq_iff_iff, beq_iff_eq, beq_iff_eq]
      exact movedContext_inj Statement.level_head_lt
    simp only [Function.comp_apply, ScopeEntry.moved, same]
    split <;> rfl
  | insertion reference source =>
    obtain ⟨inside, items, _⟩ := inside
    simp only [step, ScopeStep.moved]
    cases named : reference.relation with
    | none =>
      simp only [TableReference.moved, named]
      rfl
    | some found =>
      have relation : (reference.moved n).relation = some (found.1, found.2 + n) := by
        simp [TableReference.moved, named]
      rw [relation]
      refine mapBoth_bind_alike (enter_moved embeds inside found.1 found.2 false)
        fun pair _ => ?_
      obtain ⟨relation, entered⟩ := pair
      cases listed : source.columns with
      | none =>
        simp only [InsertSource.moved, listed]
        rfl
      | some list =>
        simp only [InsertSource.moved, listed]
        refine mapBoth_bind_alike (listedColumns_moved embeds relation (items list listed)) ?_
        exact fun _ _ => rfl

/-- The steps of the inner statement build its scope, moved. -/
theorem foldlM_moved (schema : Schema) :
    mapBoth Finding.kind id ((s.scopeSteps.map (ScopeStep.moved n (t.level n).head?)).foldlM
        (step schema t) {}) =
      mapBoth Finding.kind (Scope.moved n (t.level n).head?) (ofStatement schema s) := by
  change mapBoth Finding.kind id (List.foldlM _ (Scope.moved n (t.level n).head? {}) _) = _
  exact mapBoth_foldlM_alike (fun _ => True) (fun _ _ _ _ _ => trivial)
    (fun scope action listed _ => step_moved embeds (embeds.inner.scopeSteps_inside listed)) trivial

end Scope

end AnnotatedSql
