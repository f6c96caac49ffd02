import AnnotatedSql.Proofs.Parameter.Compared
import AnnotatedSql.Proofs.Query.Rewriting

/-!
# Comparisons with columns

A comparison gives a placeholder the type of the column next to the operator. The column is the whole
operand exactly if an operand ends on its far side, which is not looked at in full: behind `+`, `||` or a
word, as before them, the column of a longer expression is taken for the operand.
-/

namespace AnnotatedSql

/-- Where a comparison gives a type, a column of that type stands next to the operator, before it or
behind it, and it is the whole operand exactly if an operand ends on its far side, no further word of it
is a word of a clause, and a `NOT` after it belongs to `LIKE` or `ILIKE`. -/
theorem Query.compared_reference {query : Query} {scope : Scope} {i : Nat} {type : DataType}
    (asks : Typing.contextType query.statement scope i = some (.ok type))
    (noCount : Typing.rowCount query.statement (query.statement.operand i).1 = none)
    (compared : (Typing.comparedAfter query.statement scope (query.statement.operand i).1 <|>
      Typing.comparedBefore query.statement scope (query.statement.operand i).2).isSome) :
    ∃ op first last name found, query.statement.isComparison op = true ∧
      query.statement.IsReference first last name ∧ found.column.type = type ∧
      ((query.statement.Faces last op ∧ op + 1 = (query.statement.operand i).1 ∧
          scope.lookup query.statement last name = .ok found ∧
          (query.statement.OperandBefore op first last ↔
            (first = 0 ∨ query.statement.endsOperand (first - 1) = true) ∧
              (∀ j, first ≤ j → j < last → query.statement.isClauseKeyword j = false) ∧
              query.statement.NegatesLike op)) ∨
        (query.statement.Faces (query.statement.operand i).2 op ∧ op + 1 = first ∧
          scope.lookup query.statement first name = .ok found ∧
          (query.statement.OperandBehind op first last ↔
            query.statement.endsOperand (last + 1) = true ∧
              ∀ j, first < j → j ≤ last → query.statement.isClauseKeyword j = false))) := by
  rcases Typing.compared_of_contextType asks noCount compared with after | before
  · obtain ⟨op, first, last, name, found, operator, faces, next, reference, looked, same, whole⟩ :=
      Typing.comparedAfter_reference after
    exact ⟨op, first, last, name, found, operator, reference, same, Or.inl ⟨faces, next, looked, whole⟩⟩
  · obtain ⟨op, first, last, name, found, operator, faces, next, reference, looked, same, whole⟩ :=
      Typing.comparedBefore_reference before
    exact ⟨op, first, last, name, found, operator, reference, same, Or.inr ⟨faces, next, looked, whole⟩⟩

/-- A column with a qualifier, before `NOT LIKE`, is the whole operand. -/
theorem Query.compared_reference_not_like :
    let scope : Scope := ⟨[⟨⟨"t", [⟨"x", .scalar .text, false⟩]⟩, none, false, none⟩], none⟩
    let query : Query := ⟨0, ⟨⟨"q", .implicit, .many, false⟩, ⟨4, 5⟩, [], none⟩, ⟨3, 5⟩,
      "select x from t where t.x not like :p;\n".toList, ⟨6, 45⟩⟩
    Scope.ofStatement ⟨[⟨"t", [⟨"x", .scalar .text, false⟩]⟩], []⟩ query.statement = .ok scope ∧
      Typing.contextType query.statement scope 10 = some (.ok (.scalar .text)) ∧
      Typing.rowCount query.statement (query.statement.operand 10).1 = none ∧
      (Typing.comparedAfter query.statement scope (query.statement.operand 10).1 <|>
        Typing.comparedBefore query.statement scope (query.statement.operand 10).2).isSome ∧
      query.statement.OperandBefore 9 5 7 ∧
      ∃ op first last name found, query.statement.isComparison op = true ∧
        query.statement.IsReference first last name ∧ found.column.type = .scalar .text ∧
        ((query.statement.Faces last op ∧ op + 1 = (query.statement.operand 10).1 ∧
            scope.lookup query.statement last name = .ok found ∧
            (query.statement.OperandBefore op first last ↔
              (first = 0 ∨ query.statement.endsOperand (first - 1) = true) ∧
                (∀ j, first ≤ j → j < last → query.statement.isClauseKeyword j = false) ∧
                query.statement.NegatesLike op)) ∨
          (query.statement.Faces (query.statement.operand 10).2 op ∧ op + 1 = first ∧
            scope.lookup query.statement first name = .ok found ∧
            (query.statement.OperandBehind op first last ↔
              query.statement.endsOperand (last + 1) = true ∧
                ∀ j, first < j → j ≤ last → query.statement.isClauseKeyword j = false))) := by
  intro scope query
  let lexemes : List Lexeme :=
    [⟨.ident, "select"⟩, ⟨.ident, "x"⟩, ⟨.ident, "from"⟩, ⟨.ident, "t"⟩, ⟨.ident, "where"⟩,
    ⟨.ident, "t"⟩, ⟨.dot, "."⟩, ⟨.ident, "x"⟩, ⟨.ident, "not"⟩, ⟨.ident, "like"⟩, ⟨.namedParam, ":p"⟩,
    ⟨.semicolon, ";"⟩]
  have lexed : query.statement = .ofLexemes lexemes :=
    query.statement_eq.trans (congrArg _ (by decide +kernel))
  have reference := @Query.compared_reference query scope 10 (.scalar .text)
  rw [lexed] at reference ⊢
  have asks : Typing.contextType (.ofLexemes lexemes) scope 10 = some (.ok (.scalar .text)) := by
    decide +kernel
  have noCount : Typing.rowCount (.ofLexemes lexemes) ((Statement.ofLexemes lexemes).operand 10).1 =
      none := by decide +kernel
  have compared : (Typing.comparedAfter (.ofLexemes lexemes) scope
        ((Statement.ofLexemes lexemes).operand 10).1 <|>
      Typing.comparedBefore (.ofLexemes lexemes) scope
        ((Statement.ofLexemes lexemes).operand 10).2).isSome := by decide +kernel
  have whole : (Statement.ofLexemes lexemes).OperandBefore 9 5 7 := by
    refine ⟨Or.inr ⟨rfl, by decide +kernel⟩, fun _ => by decide +kernel, fun i after before => ?_,
      Or.inr (by decide +kernel)⟩
    obtain rfl | rfl | rfl : i = 5 ∨ i = 6 ∨ i = 7 := by omega
    all_goals decide +kernel
  exact ⟨by decide +kernel, asks, noCount, compared, whole, reference asks noCount compared⟩

/-- The last column of a sum is taken for the operand. -/
theorem Query.compared_with_sum :
    let schema : Schema := ⟨[⟨"t", [⟨"x", .scalar .int4, false⟩, ⟨"y", .scalar .text, false⟩]⟩], []⟩
    let query : Query := ⟨0, ⟨⟨"q", .implicit, .many, false⟩, ⟨4, 5⟩, [], none⟩, ⟨3, 5⟩,
      "select x from t where x + y = :p;\n".toList, ⟨6, 40⟩⟩
    query ∈ (parseModule 0 "_stream" "--! q\nselect x from t where x + y = :p;\n".toList).queries ∧
      (Scope.ofStatement schema query.statement).toOption.map
        (Typing.contextType query.statement · 9) = some (some (.ok (.scalar .text))) ∧
      query.statement.is 8 .eq = true ∧ query.statement.operand 9 = (9, 9) ∧
      ∀ first last name, query.statement.IsReference first last name →
        ¬ query.statement.OperandBefore 8 first last := by
  intro schema query
  let lexemes : List Lexeme :=
    [⟨.ident, "select"⟩, ⟨.ident, "x"⟩, ⟨.ident, "from"⟩, ⟨.ident, "t"⟩, ⟨.ident, "where"⟩,
    ⟨.ident, "x"⟩, ⟨.operator, "+"⟩, ⟨.ident, "y"⟩, ⟨.eq, "="⟩, ⟨.namedParam, ":p"⟩, ⟨.semicolon, ";"⟩]
  have lexed : query.statement = .ofLexemes lexemes :=
    query.statement_eq.trans (congrArg _ (by decide +kernel))
  rw [lexed]
  refine ⟨by decide +kernel, by decide +kernel, by decide +kernel, by decide +kernel,
    fun first last name reference operand => ?_⟩
  have faces := operand.faces
  have noNegation : (Statement.ofLexemes lexemes).isKeyword 7 "not" = false := by decide +kernel
  have goesOn : (Statement.ofLexemes lexemes).endsOperand 6 = false := by decide +kernel
  have noDot : (Statement.ofLexemes lexemes).is 6 .dot = false := by decide +kernel
  obtain rfl : last = 7 := by
    rcases faces with next | ⟨next, negation⟩
    · omega
    · obtain rfl : last = 6 := by omega
      rw [noNegation] at negation
      cases negation
  -- the reference is the last column, and the sum goes on before it
  cases reference with
  | bare named =>
    rcases operand.begins with none_ | ends
    · cases none_
    · rw [goesOn] at ends
      cases ends
  | qualified owner dot named =>
    rw [noDot] at dot
    cases dot

end AnnotatedSql
