import AnnotatedSql.Proofs.Query.Rewriting
import AnnotatedSql.Proofs.Resolution.Wrapped

/-!
# Queries in parentheses

A query that resolves resolves within any number of parentheses too, and with the same parameters.
Yet no verb is outside parentheses then, so that it gives no rows: it is run for the number of rows
that it affects.
-/

namespace AnnotatedSql

namespace Statement

/-- The lexemes of a statement in `n` pairs of parentheses, before what ends it. -/
def wrappedLexemes (n : Nat) (lexemes final : List Lexeme) : List Lexeme :=
  List.replicate n ⟨.parenOpen, "("⟩ ++ (lexemes ++ (List.replicate n ⟨.parenClose, ")"⟩ ++ final))

variable {n i : Nat} {s t : Statement} {lexemes final : List Lexeme}

/-- What stands around the lexemes are parentheses and what ends the statement. -/
theorem lexeme_around (closes : ∀ lexeme ∈ final, lexeme.kind = .semicolon) {lexeme : Lexeme}
    (found : (ofLexemes (wrappedLexemes n lexemes final)).lexemes[i]? = some lexeme) :
    (i < n → lexeme.kind = .parenOpen) ∧
      (lexemes.length + n ≤ i → lexeme.kind = .parenClose ∨ lexeme.kind = .semicolon) := by
  have found : (wrappedLexemes n lexemes final)[i]? = some lexeme := by
    simpa [ofLexemes] using found
  unfold wrappedLexemes at found
  constructor
  · intro before
    rw [List.getElem?_append_left (by simpa using before)] at found
    rw [List.eq_of_mem_replicate (List.mem_of_getElem? found)]
  · intro after
    rw [List.getElem?_append_right (by simp; omega), List.getElem?_append_right (by simp; omega)]
      at found
    rcases List.mem_append.mp (List.mem_of_getElem? found) with parenthesis | last
    · exact Or.inl (by rw [List.eq_of_mem_replicate parenthesis])
    · exact Or.inr (closes lexeme last)

/-- Parentheses around balanced lexemes that begin as a query do. -/
theorem wrappedIn_of_lexemes (balanced : Balanced lexemes)
    (begins : (ofLexemes lexemes).isOneOf 0 ["select", "with"] = true)
    (closes : ∀ lexeme ∈ final, lexeme.kind = .semicolon) :
    (ofLexemes lexemes).WrappedIn n (ofLexemes (wrappedLexemes n lexemes final)) := by
  have written : (ofLexemes (wrappedLexemes n lexemes final)).HasAt n lexemes := by
    refine ⟨List.replicate n ⟨.parenClose, ")"⟩ ++ final, ?_⟩
    simp [ofLexemes, wrappedLexemes]
  have some_ : 0 < lexemes.length := by
    obtain ⟨_, _, word⟩ := List.any_eq_true.mp begins
    exact lt_size_of_keyword word
  have opens : ∀ {i}, i < n → (ofLexemes (wrappedLexemes n lexemes final)).is i .parenOpen = true := by
    intro i before
    simp [Statement.is, kind?, ofLexemes, wrappedLexemes, List.getElem?_append_left, before]
  have embeds := written.embeds (ofLexemes_levelled _) balanced ?_ (fun later => opens (by omega)) ?_
  · refine ⟨embeds, begins, fun {i} outside => ?_⟩
    unfold isWord isParam kind?
    cases found : (ofLexemes (wrappedLexemes n lexemes final)).lexemes[i]? with
    | none => exact ⟨rfl, rfl⟩
    | some lexeme =>
      obtain ⟨before, after⟩ := lexeme_around closes found
      have kind : lexeme.kind = .parenOpen ∨ lexeme.kind = .parenClose ∨ lexeme.kind = .semicolon :=
        outside.imp before after
      rcases kind with kind | kind | kind <;> simp [kind, TokenKind.isWord, TokenKind.isParam]
  · intro opening around
    have later : 0 < n := Nat.zero_lt_of_lt (level_head_lt opening around)
    rw [level_head_of_open later (opens (Nat.sub_lt later Nat.one_pos))] at around
    cases around
    have same : (ofLexemes (wrappedLexemes n lexemes final)).lexemes[n]? =
        (ofLexemes lexemes).lexemes[0]? := by
      have first := written.lexeme some_
      rw [Nat.zero_add] at first
      rw [first]
      simp [ofLexemes]
    have word : ∀ keyword, (ofLexemes (wrappedLexemes n lexemes final)).isKeyword n keyword =
        (ofLexemes lexemes).isKeyword 0 keyword := by
      intro keyword
      unfold isKeyword Statement.is kind? text
      rw [same]
    rw [opensSubquery, opens (Nat.sub_lt later Nat.one_pos), Nat.sub_add_cancel later, word, word]
    simpa [isOneOf] using begins
  · intro lexeme found
    rcases (lexeme_around closes found).2 (Nat.le_refl _) with closing | last
    · exact Or.inl closing
    · exact Or.inr (Or.inl last)

/-- Within parentheses there is no list of columns. -/
theorem WrappedIn.projectionItems (wrapped : s.WrappedIn n t) (later : 0 < n) :
    t.projectionItems? = none := by
  have level := level_head_of_open later (wrapped.before later)
  have none_ : t.findTop? 0 t.size
      (t.isOneOf · ["select", "insert", "update", "delete", "values"]) = none := by
    refine List.find?_eq_none.mpr fun i _ found => ?_
    obtain ⟨top, verb⟩ := Bool.and_eq_true_iff.mp found
    by_cases outside : i < n ∨ s.size + n ≤ i
    · obtain ⟨keyword, _, word⟩ := List.any_eq_true.mp verb
      rw [isKeyword_of_not_word (wrapped.around outside).1] at word
      cases word
    · obtain ⟨j, rfl⟩ := Nat.exists_eq_add_of_le' (show n ≤ i by omega)
      rw [isTop, wrapped.enclosing (by omega), level] at top
      cases context : s.enclosing j <;> simp [movedContext, context] at top
  simp [projectionItems?, projectionRange?, none_]

end Statement

namespace Query

variable {schema : Schema} {query wrapped : Query} {resolved : ResolvedQuery}

/-- A query in parentheses resolves as it does without them, with the same parameters, and gives
rows exactly if there are none. -/
theorem resolve_wrapped {lexemes final : List Lexeme} {verb n : Nat}
    (isSelect : (Statement.ofLexemes lexemes).IsSelect verb)
    (begins : (Statement.ofLexemes lexemes).isOneOf 0 ["select", "with"] = true)
    (balanced : Balanced lexemes) (closes : ∀ lexeme ∈ final, lexeme.kind = .semicolon)
    (written : significant query.body = lexemes ++ final)
    (wraps : significant wrapped.body = Statement.wrappedLexemes n lexemes final)
    (style : wrapped.descriptor.bindingStyle = query.descriptor.bindingStyle)
    (resolves : (query.resolve schema).1 = some resolved) :
    ∃ columns again, resolved.result = .rows columns ∧ (wrapped.resolve schema).1 = some again ∧
      again.parameters = resolved.parameters.map (Parameter.moved n) ∧
      again.result = if n = 0 then .rows columns else .execute := by
  have statement : query.statement = .ofLexemes (Statement.wrappedLexemes 0 lexemes final) := by
    rw [query.statement_eq, written]
    rfl
  have statementToo : wrapped.statement = .ofLexemes (Statement.wrappedLexemes n lexemes final) := by
    rw [wrapped.statement_eq, wraps]
  have inner := Statement.wrappedIn_of_lexemes (n := 0) balanced begins closes
  have outer := Statement.wrappedIn_of_lexemes (n := n) balanced begins closes
  rw [← statement] at inner
  rw [← statementToo] at outer
  have isSelectToo : query.statement.IsSelect verb :=
    ⟨inner.findTop inner.size_le (fun i inside => inner.isOneOf_inside inside _) isSelect.first,
      (inner.isKeyword_inside (Statement.lt_size_of_keyword isSelect.select) _).trans isSelect.select⟩
  obtain ⟨items, listed⟩ := isSelectToo.projectionItems
  obtain ⟨scope, _, gives⟩ := query.resolve_projects resolves
  obtain ⟨columns, _, rows⟩ := Surroundings.project_rows (by exact listed) gives
  obtain ⟨resolution, found, rfl⟩ := Option.map_eq_some_iff.mp resolves
  have still : Parameter.moved 0 = id := by
    funext p
    have type : TypeName.moved 0 = id := rfl
    simp [Parameter.moved, type]
  rcases Nat.eq_zero_or_pos n with rfl | later
  · have same : wrapped.statement = query.statement := by rw [statement, statementToo]
    refine ⟨_, ⟨wrapped, resolution⟩, rows, ?_, ?_, ?_⟩
    · rw [Query.resolve, style, same, found]
      rfl
    · rw [still, List.map_id]
      rfl
    · rw [if_pos rfl]
      exact rows
  · obtain ⟨typed, types, parameters⟩ := inner.typesParameters_iff.mp (typesParameters_of_resolve found)
    rw [still, List.map_id] at parameters
    have wrappedTypes := outer.typesParameters_iff.mpr ⟨typed, types, rfl⟩
    refine ⟨_, ⟨wrapped, ⟨typed.map (Parameter.moved n), .execute⟩⟩, rows, ?_, ?_, ?_⟩
    · rw [Query.resolve, style, wrappedTypes.resolve (outer.projectionItems later)]
      rfl
    · rw [← parameters]
      rfl
    · rw [if_neg (Nat.ne_of_gt later)]
      rfl

/-- The parameter of a query in two pairs of parentheses has the type of the column. -/
theorem resolve_wrapped_twice :
    let schema : Schema := ⟨[⟨"a", [⟨"x", .scalar .int4, false⟩]⟩], []⟩
    let query : Query := ⟨0, ⟨⟨"q", .implicit, .many, false⟩, ⟨4, 5⟩, [], none⟩, ⟨3, 5⟩,
      "select x from a where x = :k;\n".toList, ⟨6, 36⟩⟩
    let wrapped : Query := ⟨0, ⟨⟨"q", .implicit, .many, false⟩, ⟨4, 5⟩, [], none⟩, ⟨3, 5⟩,
      "((select x from a where x = :k));\n".toList, ⟨6, 40⟩⟩
    ∃ resolved columns again, resolved.parameters.map (fun p => (p.name, p.type)) =
        [("k", .scalar .int4)] ∧
      (query.resolve schema).1 = some resolved ∧
      resolved.result = .rows columns ∧ (wrapped.resolve schema).1 = some again ∧
      again.parameters = resolved.parameters.map (Parameter.moved 2) ∧
      again.result = if 2 = 0 then .rows columns else .execute := by
  intro schema query wrapped
  let lexemes : List Lexeme := [⟨.ident, "select"⟩, ⟨.ident, "x"⟩, ⟨.ident, "from"⟩, ⟨.ident, "a"⟩,
    ⟨.ident, "where"⟩, ⟨.ident, "x"⟩, ⟨.eq, "="⟩, ⟨.namedParam, ":k"⟩]
  have isSelect : (Statement.ofLexemes lexemes).IsSelect 0 := ⟨by decide +kernel, by decide +kernel⟩
  have evaluated : (query.resolve schema).1.map (·.parameters.map fun p => (p.name, p.type)) =
        some [("k", .scalar .int4)] ∧
      significant query.body = lexemes ++ [⟨.semicolon, ";"⟩] ∧
      significant wrapped.body = Statement.wrappedLexemes 2 lexemes [⟨.semicolon, ";"⟩] := by
    decide +kernel
  obtain ⟨typed, written, wraps⟩ := evaluated
  obtain ⟨resolved, resolves, same⟩ := Option.map_eq_some_iff.mp typed
  have closes : ∀ lexeme ∈ [(⟨.semicolon, ";"⟩ : Lexeme)], lexeme.kind = .semicolon := by decide
  have balanced : Balanced lexemes := by decide +kernel
  have begins : (Statement.ofLexemes lexemes).isOneOf 0 ["select", "with"] = true := by decide +kernel
  have result := resolve_wrapped isSelect begins balanced closes written wraps rfl resolves
  obtain ⟨columns, again, result⟩ := result
  exact ⟨resolved, columns, again, same, resolves, result⟩

/-- A query in parentheses is taken for one that gives no rows. -/
theorem parentheses_hide_rows :
    let schema : Schema := ⟨[⟨"a", [⟨"x", .scalar .int4, false⟩]⟩], []⟩
    let query : Query := ⟨0, ⟨⟨"q", .implicit, .many, false⟩, ⟨4, 5⟩, [], none⟩, ⟨3, 5⟩,
      "select x from a;\n".toList, ⟨6, 23⟩⟩
    let wrapped : Query := ⟨0, ⟨⟨"q", .implicit, .many, false⟩, ⟨4, 5⟩, [], none⟩, ⟨3, 5⟩,
      "(select x from a);\n".toList, ⟨6, 25⟩⟩
    query ∈ (parseModule 0 "_stream" "--! q\nselect x from a;\n".toList).queries ∧
      wrapped ∈ (parseModule 0 "_stream" "--! q\n(select x from a);\n".toList).queries ∧
      (query.resolve schema).1.map ResolvedQuery.result =
        some (.rows [⟨"x", .scalar .int4, false⟩]) ∧
      (wrapped.resolve schema).1.map ResolvedQuery.result = some .execute := by
  decide +kernel

end Query

end AnnotatedSql
