import AnnotatedSql.Proofs.Parameter.Renumbering
import AnnotatedSql.Proofs.Query.Rewriting
import AnnotatedSql.Proofs.Token.Spelling
import Mathlib.Data.Set.Card

/-!
# What binding accepts

Binding asks five things of the placeholders of a body: positions fit in 32 bits, they are one to
some number, casts of one parameter agree, names are declared where declarations count, and there
are as many parameters as the header fixes. It fails exactly if one of them does not hold, and then
it says so. A declaration without a placeholder is no more than a warning.
-/

namespace AnnotatedSql

namespace Statement

/-- Some token stands for the parameter. -/
def Uses (s : Statement) (key : ParamKey) : Prop := ∃ i, s.paramKey? i = some key

/-- Some token is a named placeholder. -/
def UsesNames (s : Statement) : Prop := ∃ name, s.Uses (.named name)

/-- The number in the positional placeholder at token `i`, however large. -/
def writtenPosition (s : Statement) (i : Nat) : Nat := digitsValue 0 ((s.text i).toList.drop 1)

variable {s : Statement}

theorem uses_iff {key : ParamKey} : s.Uses key ↔ key ∈ s.keys := mem_keys.symm

theorem uses_named_iff {name : String} : s.Uses (.named name) ↔ name ∈ s.names :=
  uses_iff.trans mem_names.symm

theorem usesNames_iff : s.UsesNames ↔ s.names ≠ [] := by
  rw [← List.length_pos_iff, List.length_pos_iff_exists_mem]
  exact exists_congr fun _ => uses_named_iff

instance (s : Statement) (key : ParamKey) : Decidable (s.Uses key) :=
  decidable_of_iff (key ∈ s.keys) uses_iff.symm

instance (s : Statement) : Decidable s.UsesNames :=
  decidable_of_iff (s.names ≠ []) usesNames_iff.symm

/-- As many parameters are used as there are keys. -/
theorem uses_ncard (s : Statement) : {key | s.Uses key}.ncard = s.keys.length := by
  have same : {key | s.Uses key} = ↑s.keys.toFinset := by
    ext key
    rw [Finset.mem_coe, List.mem_toFinset]
    exact uses_iff
  rw [same, Set.ncard_coe_finset, List.toFinset_card_of_nodup s.keys_nodup]

end Statement

namespace Binding

variable {style : BindingStyle} {s : Statement}

/-- What binding asks of the placeholders of a statement under a header. -/
structure Acceptable (style : BindingStyle) (s : Statement) : Prop where
  fits : ∀ i, s.is i .positionalParam = true → s.writtenPosition i < UInt32.size
  contiguous : ∃ last, ∀ number, s.Uses (.positional number) ↔ 1 ≤ number ∧ number ≤ last
  casts : ∀ key i j first second, s.paramKey? i = some key → s.paramKey? j = some key →
    s.castHint? i = some first → s.castHint? j = some second →
      canonicalType first.text = canonicalType second.text
  declared : style.checksDeclarations = true → ∀ name, s.Uses (.named name) →
    name ∈ style.declaredNames
  counted : ∀ count, style.count? = some count → {key | s.Uses key}.ncard = count

/-- A declared name that nothing needs: no placeholder has it, and none stands at its position
either, where a parameter list names the positions of a body without named placeholders. -/
def Unused (style : BindingStyle) (s : Statement) (name : String) (index : Nat) : Prop :=
  ¬s.Uses (.named name) ∧
    ¬(style = .explicitList style.declaredNames ∧ ¬s.UsesNames ∧ s.Uses (.positional (index + 1)))

instance (style : BindingStyle) (s : Statement) (name : String) (index : Nat) :
    Decidable (Unused style s name index) :=
  inferInstanceAs (Decidable (_ ∧ _))

/-! ## Each part -/

/-- Where every finding is an error there is none exactly if nothing was found. -/
theorem hasErrors_eq_false {findings : List Finding}
    (fatal : ∀ finding ∈ findings, finding.isError = true) :
    Findings.hasErrors findings = false ↔ findings = [] := by
  cases findings with
  | nil => exact iff_of_true rfl rfl
  | cons first rest => simp [Findings.hasErrors, fatal first List.mem_cons_self]

theorem countFindings_isError {finding : Finding} (member : finding ∈ countFindings style s) :
    finding.isError = true := by
  unfold countFindings at member
  split at member
  · split at member
    · cases member
    · obtain rfl := List.mem_singleton.mp member
      rfl
  · cases member

/-- A placeholder without findings has a key. -/
theorem paramKey_of_clean {i : Nat} (clean : placeholderFindings s i = [])
    (isParam : s.isParam i = true) : (s.paramKey? i).isSome = true := by
  cases read : s.paramKey? i with
  | none =>
    have found := mem_placeholderFindings.mpr ⟨isParam, Or.inl ⟨read, rfl⟩⟩
    rw [clean] at found
    cases found
  | some key => rfl

/-- Its cast agrees with the first cast under its key. -/
theorem hint_of_clean {i : Nat} {key : ParamKey} {hint : TypeName}
    (clean : placeholderFindings s i = []) (stands : s.paramKey? i = some key)
    (cast : s.castHint? i = some hint) :
    ∃ first, s.hint? key = some first ∧ canonicalType hint.text = canonicalType first.text := by
  cases leading : s.hint? key with
  | none =>
    have uncast := List.findSome?_eq_none_iff.mp leading i (Statement.mem_occurrences.mpr stands)
    rw [cast] at uncast
    cases uncast
  | some first =>
    refine ⟨first, rfl, Decidable.byContradiction fun differ => ?_⟩
    have found := mem_placeholderFindings.mpr ⟨Statement.isParam_of_paramKey stands,
      Or.inr ⟨key, hint, first, stands, cast, leading, differ, rfl⟩⟩
    rw [clean] at found
    cases found

/-- A cast that agrees with every cast of its key agrees with the first, and the other way. -/
theorem placeholderFindings_nil :
    (∀ i, placeholderFindings s i = []) ↔
      (∀ i, s.isParam i = true → (s.paramKey? i).isSome = true) ∧
      ∀ key i j first second, s.paramKey? i = some key → s.paramKey? j = some key →
        s.castHint? i = some first → s.castHint? j = some second →
          canonicalType first.text = canonicalType second.text := by
  constructor
  · intro none
    refine ⟨fun i isParam => paramKey_of_clean (none i) isParam,
      fun key i j first second stands standsToo cast castToo => ?_⟩
    obtain ⟨leading, found, agree⟩ := hint_of_clean (none i) stands cast
    obtain ⟨again, foundToo, agreeToo⟩ := hint_of_clean (none j) standsToo castToo
    obtain rfl := Option.some.inj (found.symm.trans foundToo)
    exact agree.trans agreeToo.symm
  · rintro ⟨keyed, agree⟩ i
    refine List.eq_nil_iff_forall_not_mem.mpr fun finding member => ?_
    obtain ⟨isParam, ⟨unread, _⟩ | ⟨key, hint, first, stands, cast, leading, differ, _⟩⟩ :=
      mem_placeholderFindings.mp member
    · have read := keyed i isParam
      rw [unread] at read
      cases read
    · obtain ⟨j, occurs, castToo⟩ := List.exists_of_findSome?_eq_some leading
      exact differ (agree key i j hint first stands (Statement.mem_occurrences.mp occurs) cast castToo)

/-- No gap is found exactly if the positions are one to some number. -/
theorem positionFindings_nil : positionFindings s = [] ↔
    ∃ last, ∀ number, s.Uses (.positional number) ↔ 1 ≤ number ∧ number ≤ last := by
  have used : ∀ number, s.Uses (.positional number) ↔ number ∈ ascending s.positions :=
    fun number => by rw [mem_ascending, Statement.mem_positions, Statement.uses_iff]
  constructor
  · intro none
    have counted := eq_range_of_gapFindings_nil (ascending_pairwise s.positions_nodup)
      (fun position _ => by omega) none
    refine ⟨(ascending s.positions).length, fun number => ?_⟩
    rw [used, counted, List.mem_range'_1, List.length_range']
    omega
  · rintro ⟨last, range⟩
    have same : ascending s.positions = List.range' 1 last := by
      have permuted : (ascending s.positions).Perm (List.range' 1 last) := by
        rw [List.perm_ext_iff_of_nodup ((ascending_pairwise s.positions_nodup).imp Nat.ne_of_lt)
          List.nodup_range']
        intro number
        rw [← used, range, List.mem_range'_1]
        omega
      refine permuted.eq_of_pairwise ?_ (ascending_pairwise s.positions_nodup)
        List.pairwise_lt_range'
      omega
    unfold positionFindings
    rw [same]
    exact gapFindings_range s 1 last (Nat.le_refl 1)

/-- Only a name without a declaration is an error of declarations. -/
theorem declarationFindings_harmless :
    Findings.hasErrors (declarationFindings style s) = false ↔
      (style.checksDeclarations = true → ∀ name, s.Uses (.named name) →
        name ∈ style.declaredNames) := by
  unfold declarationFindings
  split
  next checks =>
    have warnings : ∀ {α : Type} (unused : List α) (warning : α → Finding),
        (∀ item, (warning item).isError = false) →
          (unused.map warning).any Finding.isError = false := by
      intro α unused warning harmless
      rw [List.any_map, List.any_eq_false]
      intro item _
      simp [harmless item]
    have errors : ∀ names : List String, (names.map fun name => (⟨.undeclaredName name,
        .token (s.firstOccurrence (.named name))⟩ : Finding)).any Finding.isError = false ↔
          names = [] := by
      intro names
      refine (hasErrors_eq_false fun finding member => ?_).trans List.map_eq_nil_iff
      obtain ⟨name, _, rfl⟩ := List.mem_map.mp member
      rfl
    dsimp only [Findings.hasErrors]
    rw [List.any_append, warnings (style.declaredNames.zipIdx.filter _) _ fun _ => rfl,
      Bool.or_false, errors, List.filter_eq_nil_iff]
    simp [checks, Statement.uses_named_iff]
  next unchecked => exact iff_of_true rfl fun checks => absurd checks unchecked

theorem countFindings_nil : countFindings style s = [] ↔
    ∀ count, style.count? = some count → {key | s.Uses key}.ncard = count := by
  unfold countFindings
  rw [s.uses_ncard]
  cases style.count? with
  | none => exact iff_of_true rfl fun _ impossible => nomatch impossible
  | some declared => simp

/-- Binding accepts a statement exactly if each of its checks does. -/
theorem accepts_iff_parts : Accepts style s ↔
    (∀ i, placeholderFindings s i = []) ∧ positionFindings s = [] ∧
      Findings.hasErrors (declarationFindings style s) = false ∧ countFindings style s = [] := by
  have placeholders : Findings.hasErrors ((List.range s.size).flatMap (placeholderFindings s)) =
      false ↔ ∀ i, placeholderFindings s i = [] := by
    rw [hasErrors_eq_false, List.flatMap_eq_nil_iff]
    · refine ⟨fun none i => ?_, fun none i _ => none i⟩
      by_cases inside : i < s.size
      · exact none i (List.mem_range.mpr inside)
      · have unread : s.isParam i = false := by
          cases isParam : s.isParam i with
          | false => rfl
          | true => exact absurd (Statement.lt_size_of_param isParam) inside
        simp [placeholderFindings, unread]
    · intro finding member
      obtain ⟨i, _, found⟩ := List.mem_flatMap.mp member
      exact placeholderFindings_isError found
  have positions : Findings.hasErrors (positionFindings s) = false ↔ positionFindings s = [] :=
    hasErrors_eq_false fun _ => gapFindings_isError
  have count : Findings.hasErrors (countFindings style s) = false ↔ countFindings style s = [] :=
    hasErrors_eq_false fun _ => countFindings_isError
  rw [← placeholders, ← positions, ← count]
  unfold Accepts findings Findings.hasErrors
  simp only [List.any_append, Bool.or_eq_false_iff, and_assoc]

/-! ## Warnings -/

/-- A declared name is used by a placeholder of that name, or by one at its position. -/
theorem isUsed_eq_false {name : String} {index : Nat}
    (declared : (name, index) ∈ style.declaredNames.zipIdx) :
    isUsed style s index name = false ↔ Unused style s name index := by
  have inside : index < style.declaredNames.length := List.snd_lt_of_mem_zipIdx declared
  have listed : index < (slotNames style s).length ↔
      style = .explicitList style.declaredNames ∧ ¬s.UsesNames := by
    rw [Statement.usesNames_iff, not_not]
    rcases style with _ | names | ⟨_ | other⟩
    · simp [slotNames]
    · by_cases unnamed : s.names = []
      · simpa [slotNames, unnamed, BindingStyle.declaredNames] using inside
      · simp [slotNames, unnamed]
    · simp [slotNames]
    · simp [slotNames]
  unfold isUsed Unused
  rw [Bool.or_eq_false_iff, Bool.and_eq_false_iff, ← Bool.not_eq_true, ← Bool.not_eq_true,
    ← Bool.not_eq_true, List.contains_iff_mem, List.contains_iff_mem, decide_eq_true_iff, listed,
    Statement.uses_iff, Statement.uses_iff]
  tauto

/-- Of what is found on declarations, the warnings are the declared names that nothing needs. -/
theorem declarationFindings_unused (style : BindingStyle) (s : Statement) :
    (declarationFindings style s).filter (·.kind == .unusedDeclaredParameter) =
      (style.declaredNames.zipIdx.filter fun (name, index) => Unused style s name index).map
        fun (name, index) => ⟨.unusedDeclaration name, .declaration index⟩ := by
  unfold declarationFindings
  split
  next checks =>
    have undeclared : ∀ names : List String, (names.map fun name => (⟨.undeclaredName name,
        .token (s.firstOccurrence (.named name))⟩ : Finding)).filter
          (·.kind == .unusedDeclaredParameter) = [] := by
      refine fun names => List.filter_eq_nil_iff.mpr fun finding member => ?_
      obtain ⟨name, _, rfl⟩ := List.mem_map.mp member
      exact Bool.false_ne_true
    have unused : ∀ pairs : List (String × Nat), (pairs.map fun (name, index) =>
        (⟨.unusedDeclaration name, .declaration index⟩ : Finding)).filter
          (·.kind == .unusedDeclaredParameter) = pairs.map fun (name, index) =>
            ⟨.unusedDeclaration name, .declaration index⟩ := by
      refine fun pairs => List.filter_eq_self.mpr fun finding member => ?_
      obtain ⟨pair, _, rfl⟩ := List.mem_map.mp member
      rfl
    dsimp only
    rw [List.filter_append, undeclared, List.nil_append, unused]
    congr 1
    refine List.filter_congr fun (name, index) member => ?_
    rw [Bool.eq_iff_iff, Bool.not_eq_true', isUsed_eq_false member, decide_eq_true_iff]
  next unchecked =>
    have undeclared : style.declaredNames = [] := by
      rcases style with _ | names | ⟨_ | other⟩
      · rfl
      · exact absurd rfl unchecked
      · rfl
      · exact absurd rfl unchecked
    rw [undeclared]
    rfl

/-- No other check warns. -/
theorem findings_unused (style : BindingStyle) (s : Statement) :
    (findings style s).filter (·.kind == .unusedDeclaredParameter) =
      (style.declaredNames.zipIdx.filter fun (name, index) => Unused style s name index).map
        fun (name, index) => ⟨.unusedDeclaration name, .declaration index⟩ := by
  have errors : ∀ {found : List Finding}, (∀ finding ∈ found, finding.isError = true) →
      found.filter (·.kind == .unusedDeclaredParameter) = [] := by
    intro found fatal
    refine List.filter_eq_nil_iff.mpr fun finding member warns => ?_
    have fails := fatal finding member
    rw [Finding.isError, eq_of_beq warns] at fails
    cases fails
  have placeholders : ((List.range s.size).flatMap (placeholderFindings s)).filter
      (·.kind == .unusedDeclaredParameter) = [] := by
    refine errors fun finding member => ?_
    obtain ⟨i, _, found⟩ := List.mem_flatMap.mp member
    exact placeholderFindings_isError found
  have positions : (positionFindings s).filter (·.kind == .unusedDeclaredParameter) = [] :=
    errors fun _ => gapFindings_isError
  have counts : (countFindings style s).filter (·.kind == .unusedDeclaredParameter) = [] :=
    errors fun _ => countFindings_isError
  simp only [findings, List.filter_append, placeholders, positions, counts,
    declarationFindings_unused, List.nil_append, List.append_nil]

end Binding

/-! ## Queries -/

/-- A positional placeholder stands for the number it is written with, if that fits. -/
theorem ParamKey.ofLexeme_positional {text : List Char} {lexeme : Lexeme}
    (member : lexeme ∈ lexemes text) (positional : lexeme.kind = .positionalParam) {number : Nat} :
    ofLexeme? lexeme = some (.positional number) ↔
      digitsValue 0 (lexeme.text.toList.drop 1) < UInt32.size ∧
        number = digitsValue 0 (lexeme.text.toList.drop 1) := by
  have only : Rule.all.filter (·.reading = .token .positionalParam) =
      [⟨.token .positionalParam, Rule.positional⟩] := rfl
  rw [← positional] at only
  have matched := Lexer.matches_of_mem_lexemes member (by simp [positional]) (by simp [positional])
    only
  obtain ⟨digits, spelled, nonempty, decimal⟩ := Rule.matches_positional.mp matched
  have isNumber : Pattern.Matches Lexer.number (String.ofList digits).toList := by
    rw [String.toList_ofList]
    exact Lexer.matches_number.mpr
      ⟨digits, [], (List.append_nil _).symm, nonempty, decimal, Or.inl rfl⟩
  have noDot : '.' ∉ digits := fun dot => absurd (List.all_eq_true.mp decimal '.' dot) (by decide)
  have read := Lexer.numeral_of_number (n := number) isNumber
  rw [String.toList_ofList] at read
  unfold ofLexeme?
  rw [positional, spelled, List.drop_one, List.tail_cons]
  simp [read, noDot]

namespace Query

variable {query : Query} {i : Nat}

/-- The tokens of a statement are lexemes of the body. -/
theorem mem_lexemes_of_getElem {lexeme : Lexeme}
    (read : query.statement.lexemes[i]? = some lexeme) : lexeme ∈ lexemes query.body := by
  rw [statement_eq] at read
  simp only [Statement.ofLexemes, List.getElem?_toArray] at read
  exact List.mem_of_mem_filter (List.mem_of_getElem? read)

theorem paramKey_positional (positional : query.statement.is i .positionalParam = true)
    {number : Nat} : query.statement.paramKey? i = some (.positional number) ↔
      query.statement.writtenPosition i < UInt32.size ∧
        number = query.statement.writtenPosition i := by
  unfold Statement.is Statement.kind? at positional
  unfold Statement.paramKey? Statement.writtenPosition Statement.text
  cases read : query.statement.lexemes[i]? with
  | none => simp [read] at positional
  | some lexeme =>
    have kind : lexeme.kind = .positionalParam := by simpa [read] using positional
    exact ParamKey.ofLexeme_positional (mem_lexemes_of_getElem read) kind

/-- All placeholders have a key exactly if all positions fit. -/
theorem placeholders_keyed :
    (∀ i, query.statement.isParam i = true → (query.statement.paramKey? i).isSome = true) ↔
      ∀ i, query.statement.is i .positionalParam = true →
        query.statement.writtenPosition i < UInt32.size := by
  constructor
  · intro keyed i positional
    have isParam : query.statement.isParam i = true := by
      simp [Statement.isParam, eq_of_beq positional, TokenKind.isParam]
    obtain ⟨key, stands⟩ := Option.isSome_iff_exists.mp (keyed i isParam)
    cases key with
    | positional number => exact ((paramKey_positional positional).mp stands).1
    | named name =>
      obtain ⟨lexeme, read, named⟩ := Option.bind_eq_some_iff.mp stands
      have kind : lexeme.kind = .positionalParam := by
        simpa [Statement.is, Statement.kind?, read] using positional
      simp [ParamKey.ofLexeme?, kind] at named
  · intro fits i isParam
    by_cases positional : query.statement.is i .positionalParam = true
    · rw [(paramKey_positional positional).mpr ⟨fits i positional, rfl⟩]
      rfl
    · unfold Statement.isParam Statement.is Statement.kind? at *
      unfold Statement.paramKey?
      cases read : query.statement.lexemes[i]? with
      | none => simp [read] at isParam
      | some lexeme =>
        rcases lexeme with ⟨kind, text⟩
        cases kind with
        | positionalParam => simp [read] at positional
        | namedParam => rfl
        | _ => simp [read, TokenKind.isParam] at isParam

theorem accepts_iff : Binding.Accepts query.descriptor.bindingStyle query.statement ↔
    Binding.Acceptable query.descriptor.bindingStyle query.statement := by
  rw [Binding.accepts_iff_parts, Binding.placeholderFindings_nil, placeholders_keyed,
    Binding.positionFindings_nil, Binding.declarationFindings_harmless, Binding.countFindings_nil]
  constructor
  · rintro ⟨⟨fits, casts⟩, contiguous, declared, counted⟩
    exact ⟨fits, contiguous, casts, declared, counted⟩
  · rintro ⟨fits, contiguous, casts, declared, counted⟩
    exact ⟨⟨fits, casts⟩, contiguous, declared, counted⟩

/-- Binding gives a table exactly for acceptable placeholders. Where it gives none it reports an
error, and it warns of exactly the declared names that nothing needs, each where it is declared. -/
theorem bind_accepts_iff (query : Query) :
    (query.bind.value.isSome = true ↔
        Binding.Acceptable query.descriptor.bindingStyle query.statement) ∧
      (query.bind.value = none →
        ∃ report ∈ query.reports query.bind.findings, report.isError = true) ∧
      (query.reports query.bind.findings).filter (·.kind == .unusedDeclaredParameter) =
        (query.descriptor.declaredNames.zipIdx.filter fun (name, index) =>
          Binding.Unused query.descriptor.bindingStyle query.statement name index).map
            fun (name, index) => .detailed .unusedDeclaredParameter query.source
              (query.header.declaredSpans[index]?.getD query.nameSpan) name := by
  refine ⟨?_, fun fails => ?_, ?_⟩
  · rw [← accepts_iff, Option.isSome_iff_exists]
    exact ⟨fun ⟨_, gives⟩ => (Binding.bind_value_iff.mp gives).1,
      fun accepts => ⟨_, Binding.bind_value_iff.mpr ⟨accepts, rfl⟩⟩⟩
  · have found : Findings.hasErrors query.bind.findings = true := by
      unfold bind AnnotatedSql.bind at fails ⊢
      simpa using fails
    obtain ⟨finding, member, isError⟩ := List.any_eq_true.mp found
    exact ⟨_, List.mem_map_of_mem member, isError⟩
  · have kinds : (query.reports query.bind.findings).filter (·.kind == .unusedDeclaredParameter) =
        query.reports (query.bind.findings.filter (·.kind == .unusedDeclaredParameter)) :=
      List.filter_map
    rw [kinds, bind, AnnotatedSql.bind, Binding.findings_unused, reports, List.map_map]
    rfl

end Query

end AnnotatedSql
