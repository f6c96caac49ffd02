import AnnotatedSql.Proofs.Header.Acceptance

/-!
# What headers can say

Names are identifiers and the declared ones differ, a counted query returns at most one row, and a
query streams exactly if its name ends with the suffix.
-/

namespace AnnotatedSql

/-- The name is spelled as an identifier. -/
def IsIdentifier (name : String) : Prop := Rule.word.Matches name.toList

/-- What a header can say when streaming queries are marked by the suffix. -/
structure Descriptor.Canonical (suffix : String) (descriptor : Descriptor) : Prop where
  name : IsIdentifier descriptor.name
  declared : ∀ name ∈ descriptor.declaredNames, IsIdentifier name
  distinct : descriptor.declaredNames.Nodup
  counted : ∀ count, descriptor.bindingStyle.count? = some count →
    count < UInt32.size ∧ descriptor.cardinality = .atMostOne
  streaming : descriptor.streaming = true ↔
    suffix ≠ "" ∧ suffix.toList <:+ descriptor.name.toList

theorem isStreamingName_iff {suffix name : String} :
    isStreamingName suffix name = true ↔ suffix ≠ "" ∧ suffix.toList <:+ name.toList := by
  simp [isStreamingName, List.isSuffixOf_iff_suffix]

section Derived

variable {tokens names : List Token} {token : Token} {written : WrittenHeader} {suffix : String}

theorem DerivesNames.ident (derives : DerivesNames tokens names) (member : token ∈ names) :
    token ∈ tokens ∧ token.kind = .ident := by
  induction derives with
  | one ident =>
    obtain rfl := List.mem_singleton.mp member
    exact ⟨member, ident⟩
  | more ident _ _ ih =>
    rcases List.mem_cons.mp member with rfl | member
    · exact ⟨List.mem_cons_self, ident⟩
    · exact ⟨by simp [(ih member).1], (ih member).2⟩

theorem DerivesList.ident (derives : DerivesList tokens names) (member : token ∈ names) :
    token ∈ tokens ∧ token.kind = .ident := by
  cases derives with
  | empty => cases member
  | plain derives => exact derives.ident member
  | trailing derives _ =>
    exact ⟨List.mem_append_left _ (derives.ident member).1, (derives.ident member).2⟩

theorem DerivesModifiers.argument {modifiers : List WrittenModifier} {form : ModifierForm}
    {argument : Lexeme} (derives : DerivesModifiers tokens modifiers)
    (member : form ∈ modifiers.map (·.form)) (has : form.argument? = some argument) :
    ∃ token ∈ tokens, token.toLexeme = argument ∧
      (token.kind = .ident ∨ token.kind = .number) := by
  induction derives with
  | nil => cases member
  | @cons tokens rest modifier modifiers first _ ih =>
    rw [List.map_cons, List.mem_cons] at member
    rcases member with rfl | member
    · cases first with
      | exact => cases has
      | empty => cases has
      | @argument _ given _ _ isArgument _ =>
        cases has
        exact ⟨given, by simp, rfl, isArgument⟩
    · obtain ⟨token, listed, same, isArgument⟩ := ih member
      exact ⟨token, List.mem_append_right _ listed, same, isArgument⟩

/-- A declared name stands between the parentheses, or it is an argument that does not count. -/
theorem WrittenHeader.mem_declaredNames {name : String}
    (member : name ∈ written.style.declaredNames) :
    (∃ token, name = token.text ∧ ∃ names, written.list = some names ∧ token ∈ names) ∨
      ∃ argument, name = argument.text ∧ argument.kind ≠ .number ∧
        ∃ form ∈ written.forms, form.argument? = some argument := by
  unfold style names? at member
  cases listed : written.list with
  | some names =>
    rw [listed] at member
    obtain ⟨token, present, rfl⟩ := List.mem_map.mp member
    exact Or.inl ⟨token, rfl, names, rfl, present⟩
  | none =>
    rw [listed] at member
    cases found : written.forms.findSome? ModifierForm.argument? with
    | none =>
      rw [found] at member
      cases member
    | some argument =>
      rw [found] at member
      by_cases isNumber : argument.kind = .number
      · simp [Lexeme.optionalKind, isNumber, BindingStyle.declaredNames] at member
      · have same : name = argument.text := by
          simpa [Lexeme.optionalKind, isNumber, BindingStyle.declaredNames] using member
        obtain ⟨form, present, has⟩ := List.exists_of_findSome?_eq_some found
        exact Or.inr ⟨argument, same, isNumber, form, present, has⟩

/-- The name of a header and the names it declares are identifiers. -/
theorem DerivesHeader.identifiers (derives : DerivesHeader tokens written)
    (spelled : ∀ token ∈ tokens, token.kind = .ident → IsIdentifier token.text) :
    IsIdentifier written.name.text ∧ ∀ name ∈ written.style.declaredNames, IsIdentifier name := by
  have argued : ∀ {rest modifiers form argument}, DerivesModifiers rest modifiers → rest ⊆ tokens →
      form ∈ modifiers.map (·.form) → form.argument? = some argument →
        argument.kind ≠ .number → IsIdentifier argument.text := by
    intro rest modifiers form argument derives within member has noNumber
    obtain ⟨token, listed, rfl, ident | isNumber⟩ := derives.argument member has
    · exact spelled token (within listed) ident
    · exact absurd isNumber noNumber
  cases derives with
  | @plain name rest modifiers ident derives =>
    refine ⟨spelled name List.mem_cons_self ident, fun declared member => ?_⟩
    obtain ⟨_, _, _, none, _⟩ | ⟨_, rfl, noNumber, form, present, has⟩ :=
      WrittenHeader.mem_declaredNames member
    · cases none
    · exact argued derives (List.subset_cons_self _ _) present has noNumber
  | @listed name opening closing inner names rest modifiers ident _ between _ derives =>
    refine ⟨spelled name (by simp) ident, fun declared member => ?_⟩
    obtain ⟨token, rfl, _, same, present⟩ | ⟨_, rfl, noNumber, form, present, has⟩ :=
      WrittenHeader.mem_declaredNames member
    · cases same
      obtain ⟨listed, isIdent⟩ := between.ident present
      exact spelled token (by simp [listed]) isIdent
    · refine argued derives (fun token listed => ?_) present has noNumber
      simp [listed]

theorem WrittenHeader.Valid.declared_nodup (valid : written.Valid) :
    written.style.declaredNames.Nodup := by
  unfold style
  cases listed : written.names? with
  | some names => exact valid.distinct names listed
  | none =>
    cases written.forms.findSome? ModifierForm.argument? with
    | none => exact List.nodup_nil
    | some argument =>
      dsimp only
      unfold Lexeme.optionalKind
      split <;> simp [BindingStyle.declaredNames]

/-- A counted query returns at most one row. -/
theorem WrittenHeader.Valid.counted (valid : written.Valid) {count : Nat}
    (counts : written.style.count? = some count) :
    count < UInt32.size ∧ written.cardinality = .atMostOne := by
  unfold style at counts
  cases listed : written.names? with
  | some names =>
    rw [listed] at counts
    cases counts
  | none =>
    cases found : written.forms.findSome? ModifierForm.argument? with
    | none =>
      rw [listed, found] at counts
      cases counts
    | some argument =>
      obtain ⟨form, present, has⟩ := List.exists_of_findSome?_eq_some found
      rw [listed, found] at counts
      by_cases isNumber : argument.kind = .number
      · have value : digitsValue 0 argument.text.toList = count := by
          simpa [Lexeme.optionalKind, isNumber, BindingStyle.count?] using counts
        have isCount : form.isCount = true := by simp [ModifierForm.isCount, has, isNumber]
        have noExact : written.forms.any ModifierForm.isExact = false := by
          rw [List.any_eq_false]
          intro other member isExact
          have alone := (valid.compatible.exactAlone other member isExact form present).2
          rw [isCount] at alone
          cases alone
        refine ⟨value ▸ (valid.counts form present argument has isNumber).2, ?_⟩
        unfold cardinality
        rw [noExact, List.any_eq_true.mpr ⟨form, present, isCount⟩]
        simp
      · simp [Lexeme.optionalKind, isNumber, BindingStyle.count?] at counts

end Derived

/-- What a header says can be said canonically. -/
theorem Header.canonical_of_read {block : Block} {suffix : String} {header : Header}
    (read : ofTokens suffix block.headerTokens = .ok header) :
    header.descriptor.Canonical suffix := by
  obtain ⟨written, derives, valid, rfl⟩ := (ofTokens_eq_ok block.headerTokens_spelled).mp read
  obtain ⟨name, declared⟩ := derives.identifiers fun token member ident =>
    Lexer.matches_word_of_ident (lexeme_of_significant member) ident
  exact ⟨name, declared, valid.declared_nodup, fun _ counts => valid.counted counts,
    isStreamingName_iff⟩

/-- The header of a query of a module says what a header can say. -/
theorem canonical_of_parsed {source : Nat} {suffix : String} {text : List Char} {query : Query}
    (parsed : query ∈ (parseModule source suffix text).queries) :
    query.descriptor.Canonical suffix := by
  obtain ⟨block, _, accepted⟩ := mem_parseModule_queries.mp parsed
  obtain ⟨header, read, _, rfl⟩ := Query.ofBlock_eq_ok.mp accepted
  exact Header.canonical_of_read read

end AnnotatedSql
