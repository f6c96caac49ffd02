import AnnotatedSql.Proofs.Parameter.Names
import AnnotatedSql.Proofs.Parameter.Table
import AnnotatedSql.Proofs.Projection.Columns

/-!
# Resolutions of statements that read alike

A statement with other names for its parameters, and with its other names spelled in a way that no
lookup notices, resolves alike: with findings of the same kinds, and to the same types and columns
under the other names.
-/

namespace AnnotatedSql

theorem Binding.bind_of_accepts {style : BindingStyle} {s : Statement} (accepts : Accepts style s) :
    bind style s = ⟨some (table style s), findings style s⟩ := by
  unfold bind
  dsimp only
  rw [if_neg (Bool.eq_false_iff.mp accepts)]

theorem Binding.bind_of_not_accepts {style : BindingStyle} {s : Statement}
    (refuses : ¬Accepts style s) : bind style s = ⟨none, findings style s⟩ := by
  unfold bind
  dsimp only
  rw [if_pos (eq_true_of_ne_false refuses)]

/-- Under other names a statement has findings of the same kinds and the same resolution, its
parameters, its bare placeholders and its aliases renamed. -/
theorem resolve_mirrored {respell : Name → Name} {plain : Name → Prop} {rename : String → String}
    {style : BindingStyle} {s t : Statement} {schema : Schema} (nested : s.Nested)
    (unnoticed : Unnoticed respell plain schema) (names : s.AllNames plain)
    (renamed : Binding.RenamesNames respell rename style s t) :
    (resolve schema (style.renamed rename) t).findings.map Finding.kind =
        (resolve schema style s).findings.map Finding.kind ∧
      ((resolve schema style s).value = none ∧
          (resolve schema (style.renamed rename) t).value = none ∨
        ∃ scope resolution again, Scope.ofStatement schema s = .ok scope ∧
          (resolve schema style s).value = some resolution ∧
          (resolve schema (style.renamed rename) t).value = some again ∧
          again.parameters = resolution.parameters.map (Parameter.renamed rename style) ∧
          ResultsMirrored respell (Parameter.renamed rename style)
            ⟨schema, s, scope, resolution.parameters⟩
            ⟨schema, t, scope.respelled respell, again.parameters⟩ resolution.result
            again.result) := by
  have kinds := renamed.kinds
  have mirrors := renamed.renames.mirrors
  by_cases accepts : Binding.Accepts style s
  · have bound := Binding.bind_of_accepts accepts
    have otherBound := Binding.bind_of_accepts (renamed.accepts.mpr accepts)
    unfold resolve
    rw [bound, otherBound, renamed.table accepts]
    dsimp only
    cases built : Scope.ofStatement schema s with
    | error finding =>
      obtain ⟨other, fails, kind⟩ := Scope.ofStatement_error unnoticed mirrors built
      rw [fails]
      refine ⟨?_, Or.inl ⟨rfl, rfl⟩⟩
      dsimp only
      rw [List.map_append, List.map_append, kinds, List.map_singleton, List.map_singleton, kind]
    | ok scope =>
      obtain ⟨sameKinds, outcomes⟩ := resolveIn_renamed nested unnoticed names
        (Scope.Within.ofStatement built) renamed.renames (Binding.RenamesNames.changes accepts)
        Binding.table_untyped
      rw [Scope.ofStatement_ok unnoticed mirrors built]
      dsimp only
      refine ⟨by rw [List.map_append, List.map_append, kinds, sameKinds], ?_⟩
      rcases outcomes with none | ⟨resolution, again, first, second, parameters, results⟩
      · exact Or.inl none
      · exact Or.inr ⟨scope, resolution, again, rfl, first, second, parameters, results⟩
  · have otherRefused := fun other => accepts (renamed.accepts.mp other)
    unfold resolve
    rw [Binding.bind_of_not_accepts accepts, Binding.bind_of_not_accepts otherRefused]
    exact ⟨kinds, Or.inl ⟨rfl, rfl⟩⟩

end AnnotatedSql
