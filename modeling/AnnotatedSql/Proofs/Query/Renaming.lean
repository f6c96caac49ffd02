import AnnotatedSql.Proofs.Header.Canonical
import AnnotatedSql.Proofs.Query.Layout
import AnnotatedSql.Proofs.Query.Mirrored
import AnnotatedSql.Proofs.Query.Rewriting
import AnnotatedSql.Proofs.Token.Renaming

/-!
# Names of placeholders

Named placeholders are told apart by their names, and that is all there is to the names. Under other
names a query is cut into the same tokens, fails in the same ways, runs the same text, and has the
same parameters and columns under the other names.
-/

namespace AnnotatedSql

/-- Identifiers go to identifiers, and different ones to different ones. -/
structure IsRenaming (rename : String → String) : Prop where
  identifier : ∀ name, IsIdentifier name → IsIdentifier (rename name)
  injective : ∀ a b, IsIdentifier a → IsIdentifier b → rename a = rename b → a = b

/-- The lexeme, with another name if it is a named placeholder. -/
def Lexeme.renamed (rename : String → String) (lexeme : Lexeme) : Lexeme :=
  match lexeme.kind with
  | .namedParam =>
    ⟨.namedParam, (ParamKey.named (rename (String.ofList (lexeme.text.toList.drop 1)))).display⟩
  | _ => lexeme

/-- The header that declares the other names. -/
def Descriptor.renamed (rename : String → String) (descriptor : Descriptor) : Descriptor :=
  { descriptor with bindingStyle := descriptor.bindingStyle.renamed rename }

/-! ## Lexemes -/

section Lexemes

variable {rename : String → String} {text : List Char} {lexeme : Lexeme}

theorem Lexeme.renamed_kind (rename : String → String) (lexeme : Lexeme) :
    (lexeme.renamed rename).kind = lexeme.kind := by
  rcases lexeme with ⟨kind, text⟩
  cases kind <;> rfl

theorem Lexeme.renamed_masked (rename : String → String) (lexeme : Lexeme) :
    (lexeme.renamed rename).masked = lexeme.masked := by
  rcases lexeme with ⟨kind, text⟩
  cases kind <;> rfl

theorem ParamKey.ofLexeme_renamed (rename : String → String) (lexeme : Lexeme) :
    ofLexeme? (lexeme.renamed rename) = (ofLexeme? lexeme).map (ParamKey.renamed rename) := by
  rcases lexeme with ⟨kind, text⟩
  cases kind with
  | namedParam => simp [ofLexeme?, Lexeme.renamed, display, ParamKey.renamed]
  | positionalParam =>
    simp only [Lexeme.renamed, ofLexeme?, Option.map_map]
    rfl
  | _ => rfl

/-- What is cut as a named placeholder is a colon before an identifier. -/
theorem named_of_mem_lexemes (member : lexeme ∈ lexemes text)
    (named : lexeme.kind = .namedParam) :
    ∃ name, IsIdentifier name ∧ lexeme = ⟨.namedParam, (ParamKey.named name).display⟩ := by
  rcases lexeme with ⟨kind, spelling⟩
  obtain rfl : kind = .namedParam := named
  have only : Rule.all.filter (·.reading = .token .namedParam) =
      [⟨.token .namedParam, Rule.named⟩] := rfl
  have matched := Lexer.matches_of_mem_lexemes member (by simp) (by simp) only
  obtain ⟨word, spelled, isWord⟩ := Rule.matches_named.mp matched
  refine ⟨String.ofList word, by rwa [IsIdentifier, String.toList_ofList], ?_⟩
  have same : spelling = (ParamKey.named (String.ofList word)).display := by
    rw [← String.toList_inj, ParamKey.display, String.toList_append, String.toList_ofList]
    simpa using spelled
  rw [same]

theorem ParamKey.ofLexeme_named (name : String) :
    ofLexeme? ⟨.namedParam, (named name).display⟩ = some (.named name) := by
  simp [ofLexeme?, display]

/-- The name of a placeholder is an identifier. -/
theorem identifier_of_mem_lexemes (member : lexeme ∈ lexemes text) {name : String}
    (named : ParamKey.ofLexeme? lexeme = some (.named name)) : IsIdentifier name := by
  cases kind : lexeme.kind with
  | namedParam =>
    obtain ⟨written, isIdentifier, rfl⟩ := named_of_mem_lexemes member kind
    rw [ParamKey.ofLexeme_named] at named
    cases named
    exact isIdentifier
  | _ => simp [ParamKey.ofLexeme?, kind] at named

/-- Any lexeme but a named placeholder stays as it is. -/
theorem Lexeme.renamed_of_ne (rename : String → String) (other : lexeme.kind ≠ .namedParam) :
    lexeme.renamed rename = lexeme := by
  rcases lexeme with ⟨kind, spelling⟩
  cases kind with
  | namedParam => exact absurd rfl other
  | _ => rfl

theorem Lexeme.renamed_named (rename : String → String) (name : String) :
    Lexeme.renamed rename ⟨.namedParam, (ParamKey.named name).display⟩ =
      ⟨.namedParam, (ParamKey.named (rename name)).display⟩ := by
  simp [Lexeme.renamed, ParamKey.display]

/-- A text with its placeholders renamed is read as the renamed lexemes. -/
theorem lexemes_renamed (valid : IsRenaming rename) (text : List Char) :
    lexemes (textOf ((lexemes text).map (Lexeme.renamed rename))) =
      (lexemes text).map (Lexeme.renamed rename) := by
  have similar : List.Forall₂ (Lexeme.Alike Renamed) (lexemes text)
      ((lexemes text).map (Lexeme.renamed rename)) := by
    refine List.forall₂_map_right_iff.mpr (List.forall₂_same.mpr fun lexeme member => ?_)
    by_cases kind : lexeme.kind = .namedParam
    · obtain ⟨name, isIdentifier, rfl⟩ := named_of_mem_lexemes member kind
      have colon : ∀ name, (ParamKey.named name).display.toList = ':' :: (name.toList ++ []) :=
        fun name => by simp [ParamKey.display]
      rw [Lexeme.renamed_named]
      refine ⟨rfl, ?_, by simp⟩
      dsimp only
      rw [colon, colon]
      exact .placeholder isIdentifier (valid.identifier name isIdentifier) .nil
    · rw [Lexeme.renamed_of_ne rename kind]
      exact ⟨rfl, .refl _, fun _ => rfl⟩
  exact Lexer.indistinct_renamed.lexemes_textOf similar (Lexer.keepsOpen_renamed _ _)

theorem significant_renamed (valid : IsRenaming rename) (text : List Char) :
    significant (textOf ((lexemes text).map (Lexeme.renamed rename))) =
      (significant text).map (Lexeme.renamed rename) := by
  unfold significant
  rw [lexemes_renamed valid, List.filter_map]
  congr 1
  refine List.filter_congr fun lexeme _ => ?_
  rw [Function.comp_apply, Lexeme.renamed_kind]

end Lexemes

/-! ## Statements -/

theorem Statement.renames_names {rename : String → String} {found : List Lexeme}
    (injective : ∀ a ∈ (ofLexemes found).keys, ∀ b ∈ (ofLexemes found).keys,
      a.renamed rename = b.renamed rename → a = b) :
    (ofLexemes found).Renames id (ParamKey.renamed rename)
      (ofLexemes (found.map (Lexeme.renamed rename))) := by
  refine ⟨mirrors_of_masked ?_, fun i => ?_, injective⟩
  · rw [← ofLexemes_masked, ← ofLexemes_masked, List.map_map]
    congr 1
    exact List.map_congr_left fun lexeme _ => lexeme.renamed_masked rename
  · simp only [paramKey?, ofLexemes, List.getElem?_toArray, List.getElem?_map, Option.bind_map,
      Option.map_bind]
    congr 1
    funext lexeme
    exact ParamKey.ofLexeme_renamed rename lexeme

/-- The columns that the items give: the one column of a placeholder goes by the name of the changed
parameter, and those of any other item are the same. -/
inductive ColumnsRenamed (change : Parameter → Parameter) (env : Surroundings) :
    List (Nat × Nat) → List ResultColumn → List ResultColumn → Prop
  | nil : ColumnsRenamed change env [] [] []
  | same {lo hi : Nat} {items : List (Nat × Nat)} {columns rest others : List ResultColumn}
      (unnamed : ∀ i, ¬env.NamedAfter lo hi i) (read : env.item lo hi = .ok columns)
      (next : ColumnsRenamed change env items rest others) :
      ColumnsRenamed change env ((lo, hi) :: items) (columns ++ rest) (columns ++ others)
  | placeholder {lo hi i : Nat} {p : Parameter} {type : DataType} {nullable : Bool}
      {items : List (Nat × Nat)} {rest others : List ResultColumn}
      (named : env.NamedAfter lo hi i) (key : env.statement.paramKey? i = some p.key)
      (member : p ∈ env.parameters) (read : env.item lo hi = .ok [⟨p.name, type, nullable⟩])
      (next : ColumnsRenamed change env items rest others) :
      ColumnsRenamed change env ((lo, hi) :: items) (⟨p.name, type, nullable⟩ :: rest)
        (⟨(change p).name, type, nullable⟩ :: others)

/-- Both statements give rows, of columns renamed, or neither does. -/
inductive ResultsRenamed (change : Parameter → Parameter) (env : Surroundings) :
    QueryResult → QueryResult → Prop
  | execute (none : env.statement.projectionItems? = none) :
      ResultsRenamed change env .execute .execute
  | rows {items : List (Nat × Nat)} {columns others : List ResultColumn}
      (listed : env.statement.projectionItems? = some items)
      (agree : ColumnsRenamed change env items columns others) :
      ResultsRenamed change env (.rows columns) (.rows others)

/-- With the names of the statement spelled as they are, only placeholders are renamed. -/
theorem ColumnsMirrored.renamed {change : Parameter → Parameter} {env other : Surroundings}
    {items : List (Nat × Nat)} {columns others : List ResultColumn} (nested : env.statement.Nested)
    (mirrored : ColumnsMirrored id change env other items columns others) :
    ColumnsRenamed change env items columns others := by
  induction mirrored with
  | nil => exact .nil
  | same unnamed _ read _ _ ih => exact .same unnamed read ih
  | placeholder named key member read _ _ ih => exact .placeholder named key member read ih
  | aliased aliased _ read _ _ ih =>
    exact .same (fun i named => named.not_aliased nested aliased) read ih

theorem ResultsMirrored.renamed {change : Parameter → Parameter} {env other : Surroundings}
    {result again : QueryResult} (nested : env.statement.Nested)
    (mirrored : ResultsMirrored id change env other result again) :
    ResultsRenamed change env result again := by
  cases mirrored with
  | execute none => exact .execute none
  | rows listed _ agree => exact .rows listed (agree.renamed nested)

/-! ## Rewritten texts -/

section Texts

variable {rename : String → String} {style : BindingStyle} {s t : Statement}
  {parameters : List Parameter}

/-- A name has the slot that its other name has. -/
theorem slotOfName_renamed {respell : Name → Name}
    (renames : s.Renames respell (ParamKey.renamed rename) t)
    (changes : ChangesKeys (ParamKey.renamed rename) (Parameter.renamed rename style) s parameters)
    {name : String} (used : .named name ∈ s.keys) :
    slotOfName? (parameters.map (Parameter.renamed rename style)) (rename name) =
      slotOfName? parameters name := by
  have same : parameters.find? ((·.key == .named (rename name)) ∘ Parameter.renamed rename style) =
      parameters.find? (·.key == .named name) := by
    refine List.find?_congr fun p member => ?_
    exact changes.key_beq renames.injective member used
  unfold slotOfName?
  rw [List.find?_map, same, Option.map_map]
  rfl

/-- Where every name has a slot, other names with the same slots leave no trace in the rewritten
text. -/
theorem rewriteText_renamed (valid : IsRenaming rename) {text : List Char} {others : List Parameter}
    (slots : ∀ name, ⟨.namedParam, (ParamKey.named name).display⟩ ∈ lexemes text →
      ∃ slot, slotOfName? parameters name = some slot ∧
        slotOfName? others (rename name) = some slot) :
    rewriteText others (textOf ((lexemes text).map (Lexeme.renamed rename))) =
      rewriteText parameters text := by
  unfold rewriteText
  rw [lexemes_renamed valid, List.flatMap_map]
  refine List.flatMap_congr fun lexeme member => ?_
  by_cases kind : lexeme.kind = .namedParam
  · obtain ⟨name, _, rfl⟩ := named_of_mem_lexemes member kind
    obtain ⟨slot, found, again⟩ := slots name member
    have old : rewriteLexeme parameters ⟨.namedParam, (ParamKey.named name).display⟩ =
        (ParamKey.positional slot).display.toList := by
      simp only [rewriteLexeme, ParamKey.ofLexeme_named, found]
    have new : rewriteLexeme others ⟨.namedParam, (ParamKey.named (rename name)).display⟩ =
        (ParamKey.positional slot).display.toList := by
      simp only [rewriteLexeme, ParamKey.ofLexeme_named, again]
    rw [Lexeme.renamed_named, new, old]
  · rw [Lexeme.renamed_of_ne rename kind]
    rcases lexeme with ⟨found, spelling⟩
    cases found with
    | namedParam => exact absurd rfl kind
    | _ => rfl

end Texts

/-! ## Queries -/

namespace Query

variable {rename : String → String} {query other : Query}

theorem key_of_mem_lexemes {lexeme : Lexeme} (member : lexeme ∈ lexemes query.body) {key : ParamKey}
    (stands : ParamKey.ofLexeme? lexeme = some key) : key ∈ query.statement.keys := by
  have significant : lexeme ∈ significant query.body := by
    refine List.mem_filter.mpr ⟨member, ?_⟩
    rcases lexeme with ⟨kind, spelling⟩
    cases kind with
    | positionalParam => rfl
    | namedParam => rfl
    | _ => cases stands
  obtain ⟨i, listed⟩ := List.mem_iff_getElem?.mp significant
  refine Statement.mem_keys.mpr ⟨i, ?_⟩
  rw [statement_eq]
  simp [Statement.paramKey?, Statement.ofLexemes, listed, stands]

theorem identifier_of_mem_keys {name : String} (used : .named name ∈ query.statement.keys) :
    IsIdentifier name := by
  obtain ⟨i, read⟩ := Statement.mem_keys.mp used
  rw [statement_eq] at read
  simp only [Statement.paramKey?, Statement.ofLexemes, List.getElem?_toArray] at read
  obtain ⟨lexeme, listed, stands⟩ := Option.bind_eq_some_iff.mp read
  have member := List.mem_of_mem_filter (List.mem_of_getElem? listed)
  exact identifier_of_mem_lexemes member stands

/-- Other names in the body and in the header change nothing but the names. -/
theorem renamesNames (valid : IsRenaming rename)
    (declared : ∀ name ∈ query.descriptor.declaredNames, IsIdentifier name)
    (body : other.body = textOf ((lexemes query.body).map (Lexeme.renamed rename))) :
    Binding.RenamesNames id rename query.descriptor.bindingStyle query.statement
      other.statement := by
  have identifier : ∀ name ∈ query.statement.names ++
      query.descriptor.bindingStyle.declaredNames, IsIdentifier name := by
    intro name member
    rcases List.mem_append.mp member with used | listed
    · exact identifier_of_mem_keys (Statement.mem_names.mp used)
    · exact declared name listed
  have names : ∀ a ∈ query.statement.names ++ query.descriptor.bindingStyle.declaredNames,
      ∀ b ∈ query.statement.names ++ query.descriptor.bindingStyle.declaredNames,
        rename a = rename b → a = b :=
    fun a first b second => valid.injective a b (identifier a first) (identifier b second)
  refine ⟨?_, names⟩
  rw [other.statement_eq, body, significant_renamed valid, query.statement_eq]
  refine Statement.renames_names fun a first b second same => ?_
  rw [← query.statement_eq] at first second
  cases a with
  | positional number =>
    cases b with
    | positional _ => exact same
    | named _ => cases same
  | named a =>
    cases b with
    | positional _ => cases same
    | named b =>
      rw [valid.injective a b (identifier_of_mem_keys first) (identifier_of_mem_keys second)
        (ParamKey.named.inj same)]

end Query

/-- Placeholder names are only names. Under other names for its placeholders, in its body and its
header, a query of a module resolves alike: with reports of the same kinds, and to the same text to
run, the same parameters under their other names, and the same columns, those that are placeholders
and nothing else under the other names. -/
theorem placeholder_names_irrelevant {source : Nat} {suffix : String} {text : List Char}
    {query other : Query} {rename : String → String} (schema : Schema)
    (parsed : query ∈ (parseModule source suffix text).queries) (valid : IsRenaming rename)
    (descriptor : other.descriptor = query.descriptor.renamed rename)
    (body : other.body = textOf ((lexemes query.body).map (Lexeme.renamed rename))) :
    (other.resolve schema).2.map Report.kind = (query.resolve schema).2.map Report.kind ∧
      ((query.resolve schema).1 = none ∧ (other.resolve schema).1 = none ∨
        ∃ scope resolved again, Scope.ofStatement schema query.statement = .ok scope ∧
          (query.resolve schema).1 = some resolved ∧ (other.resolve schema).1 = some again ∧
          again.rewrittenSql = resolved.rewrittenSql ∧
          again.parameters = resolved.parameters.map
            (Parameter.renamed rename query.descriptor.bindingStyle) ∧
          ResultsRenamed (Parameter.renamed rename query.descriptor.bindingStyle)
            ⟨schema, query.statement, scope, resolved.parameters⟩ resolved.result again.result) := by
  have renamed := Query.renamesNames valid (canonical_of_parsed parsed).declared body
  have style : other.descriptor.bindingStyle = query.descriptor.bindingStyle.renamed rename := by
    rw [descriptor]
    rfl
  obtain ⟨kinds, outcomes⟩ := resolve_mirrored query.statement_nested (unnoticed_id schema)
    query.statement.allNames_true renamed
  unfold Query.resolve
  rw [style]
  dsimp only
  refine ⟨by rw [Query.reports_kinds, Query.reports_kinds, kinds], ?_⟩
  rcases outcomes with ⟨first, second⟩ |
    ⟨scope, resolution, again, built, first, second, parameters, results⟩
  · rw [first, second]
    exact Or.inl ⟨rfl, rfl⟩
  obtain ⟨accepts, keys, slots⟩ := Query.resolved_parameters first
  have changes : ChangesKeys (ParamKey.renamed rename)
      (Parameter.renamed rename query.descriptor.bindingStyle) query.statement
        resolution.parameters := by
    obtain ⟨_, _, _, inScope⟩ := resolve_success first
    obtain ⟨_, typed, _⟩ := resolveIn_success inScope
    exact (Binding.RenamesNames.changes accepts).typed fun p member =>
      mem_typeParameters (typed ▸ member)
  have rewritten : rewriteText again.parameters other.body =
      rewriteText resolution.parameters query.body := by
    rw [body, parameters]
    refine rewriteText_renamed valid fun name member => ?_
    have used := Query.key_of_mem_lexemes member (ParamKey.ofLexeme_named name)
    exact ⟨_, slotOfName_eq accepts keys slots used,
      (slotOfName_renamed renamed.renames changes used).trans (slotOfName_eq accepts keys slots used)⟩
  refine Or.inr ⟨scope, ⟨query, resolution⟩, ⟨other, again⟩, built, by rw [first]; rfl,
    by rw [second]; rfl, ?_, parameters, results.renamed query.statement_nested⟩
  exact congrArg (fun text => String.ofList (trim text)) rewritten

/-- Two names trade places, in the list and in the body: the text to run stays. -/
theorem placeholder_names_irrelevant_swapped :
    let query : Query :=
      ⟨0, ⟨⟨"q", .explicitList ["a", "b"], .many, false⟩, ⟨3, 4⟩, [⟨5, 6⟩, ⟨7, 8⟩], none⟩, ⟨3, 9⟩,
        "select :b::int2,:a::int4".toList, ⟨10, 34⟩⟩
    let other : Query :=
      ⟨0, ⟨⟨"q", .explicitList ["b", "a"], .many, false⟩, ⟨3, 4⟩, [⟨5, 6⟩, ⟨7, 8⟩], none⟩, ⟨3, 9⟩,
        "select :a::int2,:b::int4".toList, ⟨10, 34⟩⟩
    let rename := Equiv.swap "a" "b"
    query ∈ (parseModule 0 "" "--!q(a,b)\nselect :b::int2,:a::int4".toList).queries ∧
      IsRenaming rename ∧ other.descriptor = query.descriptor.renamed rename ∧
      other.body = textOf ((lexemes query.body).map (Lexeme.renamed rename)) ∧
      (other.resolve {}).2.map Report.kind = (query.resolve {}).2.map Report.kind ∧
      ((query.resolve {}).1 = none ∧ (other.resolve {}).1 = none ∨
        ∃ scope resolved again, Scope.ofStatement {} query.statement = .ok scope ∧
          (query.resolve {}).1 = some resolved ∧ (other.resolve {}).1 = some again ∧
          again.rewrittenSql = resolved.rewrittenSql ∧
          again.parameters = resolved.parameters.map
            (Parameter.renamed rename query.descriptor.bindingStyle) ∧
          ResultsRenamed (Parameter.renamed rename query.descriptor.bindingStyle)
            ⟨{}, query.statement, scope, resolved.parameters⟩ resolved.result again.result) ∧
      (query.resolve {}).1.map ResolvedQuery.rewrittenSql =
        some "select $2::int2,$1::int4" := by
  intro query other rename
  have parsed : query ∈
      (parseModule 0 "" "--!q(a,b)\nselect :b::int2,:a::int4".toList).queries := by decide +kernel
  have valid : IsRenaming rename := by
    refine ⟨fun name identifier => ?_, fun a b _ _ same => rename.injective same⟩
    have letter : ∀ c : Char, Rule.letter c = true → IsIdentifier (String.ofList [c]) := by
      intro c isLetter
      rw [IsIdentifier, String.toList_ofList]
      exact Rule.matches_word.mpr ⟨isLetter, rfl⟩
    dsimp only [rename]
    rw [Equiv.swap_apply_def]
    split
    · exact letter 'b' rfl
    split
    · exact letter 'a' rfl
    · exact identifier
  have descriptor : other.descriptor = query.descriptor.renamed rename := by decide +kernel
  have body : other.body = textOf ((lexemes query.body).map (Lexeme.renamed rename)) := by
    decide +kernel
  obtain ⟨kinds, outcomes⟩ := placeholder_names_irrelevant {} parsed valid descriptor body
  exact ⟨parsed, valid, descriptor, body, kinds, outcomes, by decide +kernel⟩

end AnnotatedSql
