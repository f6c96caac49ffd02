import AnnotatedSql.Proofs.Parameter.Hints
import AnnotatedSql.Proofs.Schema.Declared
import AnnotatedSql.Proofs.Statement.TypeSpelling
import AnnotatedSql.Proofs.Token.Quoting

/-!
# Casts to quoted names

A cast to a name in quotes is read as one type name. It stands for the type that is declared under
that very name, unless the name is that of the base type `"char"`, which comes first. Names with
quotes inside are looked up as they are written, with every quote twice.
-/

namespace AnnotatedSql

/-! ## Declared types -/

namespace Schema

/-- The schemas that come of declaring relations and types one by one. -/
inductive Built : Schema → Prop
  | empty : Built {}
  | relation {schema after : Schema} {relation : Relation} (built : Built schema)
      (added : schema.addRelation relation = .ok after) : Built after
  | type {schema after : Schema} {type : DataType} (built : Built schema)
      (added : schema.addType type = .ok after) : Built after

namespace Built

variable {schema : Schema} {name : String} {type : DataType}

/-- Every type is declared under its own name, and no other under the same. -/
theorem distinct (built : schema.Built) : (schema.types.map Field.name).Nodup ∧
    ∀ item ∈ schema.types, item.type.declaredName? = some item.name := by
  induction built with
  | empty => simp
  | relation _ added ih =>
    unfold addRelation at added
    split at added
    · cases added
    · cases added
      exact ih
  | @type schema after type built added ih =>
    cases named : type.declaredName? with
    | none => simp [addType, named] at added
    | some name =>
      obtain ⟨fresh, rfl⟩ := addType_success named added
      refine ⟨?_, fun item member => ?_⟩
      · rw [List.map_append, List.nodup_append]
        refine ⟨ih.1, by simp, fun taken listed other last => ?_⟩
        rw [List.mem_singleton.mp last]
        rintro rfl
        exact fresh listed
      · rcases List.mem_append.mp member with old | new
        · exact ih.2 item old
        · obtain rfl := List.mem_singleton.mp new
          exact named

/-- A declared type is found under its name. -/
theorem namedType (built : schema.Built) (declared : ⟨name, type⟩ ∈ schema.types) :
    schema.namedType? name true = some type := by
  have present : (schema.types.find? fun item => item.name == name).isSome = true :=
    List.find?_isSome.mpr ⟨_, declared, beq_self_eq_true name⟩
  obtain ⟨found, first⟩ := Option.isSome_iff_exists.mp present
  have same : found.name = name := by simpa using List.find?_some first
  have only := List.inj_on_of_nodup_map built.distinct.1 (List.mem_of_find?_eq_some first) declared
    same
  simp [namedType?, findNamed, first, only]

end Built

end Schema

namespace SchemaFile

variable {file : SchemaFile} {schema after : Schema}

theorem defineComposite_built {fuel : Nat} {resolving : List String} {name : String}
    (built : schema.Built) (success : file.defineComposite fuel resolving schema name = .ok after) :
    after.Built := by
  induction fuel generalizing resolving schema name after with
  | zero =>
    rcases defineComposite_cases success with ⟨_, rfl⟩ | ⟨_, _, _, more, _⟩
    · exact built
    · cases more
  | succ fuel ih =>
    rcases defineComposite_cases success with ⟨_, rfl⟩ | ⟨_, ready, fields, more, _, defined, added⟩
    · exact built
    · cases more
      have dependencies : ready.Built :=
        defineFields_keeps Schema.Built (fun _ _ _ before defined => ih before defined) built defined
      exact .type dependencies added

/-- A schema that a file declares is built. -/
theorem build_built (success : file.build = .ok schema) : schema.Built := by
  obtain ⟨enums, enumerated, success⟩ := bind_success success
  obtain ⟨types, composed, success⟩ := bind_success success
  have enumsBuilt : enums.Built :=
    foldlM_keeps Schema.Built (fun _ _ _ _ built added => .type built added) .empty enumerated
  have typesBuilt : types.Built :=
    foldlM_keeps Schema.Built (fun _ _ _ _ built defined => defineComposite_built built defined)
      enumsBuilt composed
  refine foldlM_keeps Schema.Built (fun before next item _ built declared => ?_) typesBuilt success
  obtain ⟨relation, _, added⟩ := bind_success declared
  exact .relation built added

end SchemaFile

/-! ## Names in quotes -/

theorem elementText_quotedName (name : String) : ElementText (quotedName name) := by
  have last : (quotedName name).getLast? = some '"' := by
    rw [quotedName, ← List.cons_append]
    exact List.getLast?_concat
  exact ⟨⟨'"', rfl, by decide⟩, '"', last, by decide, by decide, by decide⟩

theorem unquoted_quotedName (name : String) :
    unquoted? (quotedName name) = some (doubled name.toList) := by
  simp [unquoted?, quotedName]

theorem plain_of_char {name : String} (char : equalFold name "char" = true) :
    '"' ∉ name.toList := by
  intro member
  have folded := congrArg String.toList (equalFold_iff.mp char)
  rw [← String.ofList_toList (s := name), toList_foldCase] at folded
  have listed : '"' ∈ name.toList.map Char.toLower := List.mem_map.mpr ⟨'"', member, rfl⟩
  rw [folded] at listed
  exact absurd listed (by decide +kernel)

/-- A quoted name is that of a base type only if it is `char` in some case of letters. -/
theorem ofSqlName_quotedName {name : String} (plain : '"' ∉ name.toList) :
    Scalar.ofSqlName? (String.ofList (quotedName name)) =
      if equalFold name "char" then some .char else none := by
  have folded : (foldCase (String.ofList (quotedName name))).toList =
      '"' :: ((foldCase name).toList ++ ['"']) := by
    rw [toList_foldCase, quotedName, doubled_of_not_mem plain, List.map_cons, List.map_append,
      ← toList_foldCase, String.ofList_toList]
    rfl
  rw [(elementText_quotedName name).ofSqlName]
  split
  next char =>
    have spelled : foldCase (String.ofList (quotedName name)) = "\"char\"" := by
      rw [← String.toList_inj, folded, equalFold_iff.mp char]
      decide +kernel
    rw [spelled]
    rfl
  next other =>
    have only : ∀ spelling ∈ Scalar.spellings, spelling.1.toList.head? = some '"' →
        spelling.1 = "\"char\"" := by decide +kernel
    refine List.lookup_eq_none_iff.mpr fun spelling listed => ?_
    rw [bne_iff_ne]
    intro same
    have quoted := only spelling listed (by rw [← same, folded]; rfl)
    have inside : (foldCase name).toList = "char".toList := by
      have spelled := congrArg String.toList (same.trans quoted)
      rw [folded] at spelled
      exact List.append_cancel_right (List.cons.inj spelled).2
    refine other (equalFold_iff.mpr ((String.toList_inj.mp inside).trans ?_))
    decide +kernel

namespace Schema

variable {schema : Schema} {name : String} {type : DataType}

/-- A quoted name stands for the type that is declared under it, unless it is `char`. -/
theorem baseType_quotedName (built : schema.Built) (declared : ⟨name, type⟩ ∈ schema.types)
    (plain : '"' ∉ name.toList) (notChar : equalFold name "char" = false) :
    schema.baseType? (quotedName name) = some type := by
  have found := built.namedType declared
  rw [baseType?, ofSqlName_quotedName plain, if_neg (by simp [notChar]), findSpelled,
    unquoted_quotedName, doubled_of_not_mem plain]
  dsimp only
  rw [String.ofList_toList]
  exact found

theorem baseType_char (char : equalFold name "char" = true) :
    schema.baseType? (quotedName name) = some (.scalar .char) := by
  rw [baseType?, ofSqlName_quotedName (plain_of_char char), if_pos char]

end Schema

/-! ## Casts in a body -/

/-- A quoted name with pairs of brackets after it. -/
def TypeSpelling.quoted (name : String) (depth : Nat) : TypeSpelling where
  name := ⟨.quotedIdent, String.ofList (quotedName name)⟩
  suffixes := List.replicate depth none
  element := Lexeme.typeWord ⟨.quotedIdent, String.ofList (quotedName name)⟩
  word := rfl
  completed := .alone _
  sizes := fun size listed => nomatch List.eq_of_mem_replicate listed

namespace Lexer

theorem lexemes_brackets (depth : Nat) (after : List Char) :
    lexemes (brackets depth ++ after) =
      (List.replicate depth none).flatMap suffixLexemes ++ lexemes after := by
  induction depth with
  | zero => rfl
  | succ depth ih =>
    have parts : brackets (depth + 1) ++ after = ['['] ++ ([']'] ++ (brackets depth ++ after)) := by
      simp [brackets, List.replicate_succ]
    have opens : Begins .bracketOpen ['['] ([']'] ++ (brackets depth ++ after)) :=
      .fixed (by simp) (by decide +kernel) (by decide +kernel)
    have closes : Begins .bracketClose [']'] (brackets depth ++ after) :=
      .fixed (by simp) (by decide +kernel) (by decide +kernel)
    rw [parts, opens.lexemes_eq, closes.lexemes_eq, ih]
    simp [List.replicate_succ, suffixLexemes]

/-- A quoted name with brackets is lexed as it is spelled. -/
theorem lexemes_quoted (name : String) {depth : Nat} {after : List Char}
    (delimited : depth = 0 → after.head? ≠ some '"') :
    lexemes (quotedName name ++ (brackets depth ++ after)) =
      (TypeSpelling.quoted name depth).lexemes none ++ lexemes after := by
  have stops : (brackets depth ++ after).head? ≠ some '"' := by
    cases depth with
    | zero => exact delimited rfl
    | succ depth => simp [brackets, List.replicate_succ]
  rw [(begins_quotedName name stops).lexemes_eq, lexemes_brackets]
  rfl

end Lexer

/-- Token `i` of the body is the colons of the cast `::"name"` with pairs of brackets after it, and
what follows does not go on with the type name. -/
structure Body.CastsToQuoted (body : Body) (i : Nat) (name : String) (depth : Nat) : Prop where
  colons : body.statement.is i .doubleColon = true
  written : ∃ after, body.textAfter i = quotedName name ++ (brackets depth ++ after) ∧
    (depth = 0 → after.head? ≠ some '"')
  suffix : body.statement.suffixAt (i + 2 + 2 * depth) = false
  group : depth = 0 → body.statement.groupAt (i + 2) = false
  dotted : depth = 0 → body.statement.dottedAt (i + 2) = false

namespace TypeSpelling

theorem quoted_length (name : String) (depth : Nat) :
    ((quoted name depth).lexemes none).length = 1 + 2 * depth := by
  simp [quoted, lexemes, qualifiedName, groupLexemes, suffixLexemes, List.length_flatMap]
  omega

theorem quoted_significant (name : String) (depth : Nat) :
    ∀ lexeme ∈ (quoted name depth).lexemes none, lexeme.kind.isTrivia = false := by
  intro lexeme member
  simp only [quoted, lexemes, qualifiedName, groupLexemes, List.nil_append, List.cons_append,
    List.mem_cons, List.mem_flatMap, List.mem_replicate] at member
  rcases member with rfl | ⟨suffix, ⟨_, rfl⟩, listed⟩
  · rfl
  · have brackets : ∀ lexeme ∈ suffixLexemes none, lexeme.kind.isTrivia = false := by decide
    exact brackets lexeme listed

/-- No words complete a quoted name. -/
theorem quoted_alone (name : String) (depth : Nat) (s : Statement) (i : Nat) :
    s.completedAt (quoted name depth).name.typeWord i = false := by
  have starts : (quoted name depth).name.typeWord.toList.head? = some '"' := by
    simp [quoted, Lexeme.typeWord, quotedName]
  have other : ∀ word : String, word.toList.head? ≠ some '"' →
      (quoted name depth).name.typeWord ≠ word := by
    rintro word plain rfl
    exact plain starts
  simp [Statement.completedAt, other "double" (by decide), other "character" (by decide),
    other "timestamp" (by decide), other "time" (by decide)]

end TypeSpelling

variable {base i depth : Nat} {text : List Char} {name : String}

theorem Body.CastsToQuoted.spells (cast : (Body.read base text).CastsToQuoted i name depth) :
    (Body.read base text).statement.Spells (i + 1) (.quoted name depth) none := by
  obtain ⟨after, written, delimited⟩ := cast.written
  have follows := Body.lexemes_textAfter cast.colons (by simp)
  rw [written, Lexer.lexemes_quoted name delimited, List.filter_append,
    List.filter_eq_self.mpr (by simpa using TypeSpelling.quoted_significant name depth)] at follows
  have length := TypeSpelling.quoted_length name depth
  have ends : i + 1 + ((TypeSpelling.quoted name depth).lexemes none).length =
      i + 2 + 2 * depth := by
    rw [length]
    omega
  have unbracketed : (TypeSpelling.quoted name depth).suffixes = [] → depth = 0 := by
    intro none_
    simpa [TypeSpelling.quoted] using none_
  refine ⟨⟨_, follows.symm⟩, ends ▸ cast.suffix, fun _ none_ => ?_, fun _ _ none_ => ?_,
    fun _ _ _ => TypeSpelling.quoted_alone _ _ _ _⟩
  · rw [ends, unbracketed none_]
    exact cast.group (unbracketed none_)
  · rw [ends, unbracketed none_]
    exact cast.dotted (unbracketed none_)

/-- As an identifier the name is read without its quotes, and with each quote inside once. -/
theorem Body.CastsToQuoted.names (cast : (Body.read base text).CastsToQuoted i name depth) :
    (Body.read base text).statement.name? (i + 1) = some ⟨name, true⟩ := by
  have written : (Body.read base text).statement.HasAt (i + 1)
      [⟨.quotedIdent, String.ofList (quotedName name)⟩] := cast.spells.written.left
  have spelled : (Body.read base text).statement.text (i + 1) =
      String.ofList (quotedName name) := by
    rw [Statement.text, written.head]
    rfl
  rw [Statement.name?, written.kind]
  dsimp only
  rw [spelled, String.toList_ofList, quotedName, List.drop_one, List.tail_cons,
    List.dropLast_concat, undouble_doubled, String.ofList_toList]

/-- A cast to the quoted name of a declared type is read as one type name, with one array for each
pair of brackets. It stands for that type, unless the name is `char` in any case of letters: that is
the base type. The types may be declared one by one or by a file. -/
theorem Body.quoted_cast {schema : Schema} {type : DataType}
    (known : schema.Built ∨ ∃ file : SchemaFile, file.build = .ok schema)
    (declared : ⟨name, type⟩ ∈ schema.types)
    (cast : (Body.read base text).CastsToQuoted i name depth) :
    ∃ hint, (Body.read base text).statement.typeName? (i + 1) = some hint ∧
      hint.lo = i + 1 ∧ hint.hi = i + 2 + 2 * depth ∧
      (Body.read base text).statement.name? (i + 1) = some ⟨name, true⟩ ∧
      (equalFold name "char" = true →
        schema.typeNamed? hint.text = some (.arrays depth (.scalar .char))) ∧
      ('"' ∉ name.toList → equalFold name "char" = false →
        schema.typeNamed? hint.text = some (.arrays depth type)) := by
  have built : schema.Built := by
    rcases known with built | ⟨file, declares⟩
    · exact built
    · exact SchemaFile.build_built declares
  have read := cast.spells.typeName (Or.inl rfl)
  have spelled : (TypeSpelling.quoted name depth).text.toList =
      quotedName name ++ brackets depth := by
    rw [TypeSpelling.text, toList_append_brackets]
    simp [TypeSpelling.quoted, Lexeme.typeWord]
  have resolved := schema.typeNamed?_brackets (elementText_quotedName name) spelled
  refine ⟨_, read, rfl, ?_, cast.names, fun char => ?_, fun plain notChar => ?_⟩
  · dsimp only
    rw [TypeSpelling.quoted_length]
    omega
  · rw [resolved, Schema.baseType_char char, Option.map_some]
  · rw [resolved, Schema.baseType_quotedName built declared plain notChar, Option.map_some]

/-- A name with blanks, parentheses and brackets that a file declares, and an array of arrays of
it. -/
theorem Body.quoted_cast_brackets :
    let mood : DataType := .enumeration "Mood (a)[]" ["happy"]
    let file : SchemaFile := { enums := [("Mood (a)[]", ["happy"])] }
    let schema : Schema := { types := [⟨"Mood (a)[]", mood⟩] }
    let body := Body.read 0 "select :x::\"Mood (a)[]\"[][];".toList
    schema.Built ∧ file.build = .ok schema ∧ body.CastsToQuoted 2 "Mood (a)[]" 2 ∧
      ∃ hint, body.statement.typeName? 3 = some hint ∧ hint.lo = 3 ∧ hint.hi = 8 ∧
        body.statement.name? 3 = some ⟨"Mood (a)[]", true⟩ ∧
        schema.typeNamed? hint.text = some (.array (.array mood)) := by
  intro mood file schema body
  have declares : file.build = .ok schema := by decide +kernel
  have cast : body.CastsToQuoted 2 "Mood (a)[]" 2 :=
    ⟨by decide +kernel, ⟨";".toList, by decide +kernel, nofun⟩, by decide +kernel, nofun, nofun⟩
  obtain ⟨hint, read, begins, ends, named, _, resolved⟩ :=
    Body.quoted_cast (Or.inr ⟨file, declares⟩) (List.mem_singleton.mpr rfl) cast
  exact ⟨SchemaFile.build_built declares, declares, cast, hint, read, begins, ends, named,
    resolved (by decide) (by decide +kernel)⟩

/-- The name of the base type `"char"` hides a type that is declared under it, and a name with a
quote inside is not found. -/
theorem Body.quoted_names_missed :
    let schema : Schema :=
      { types := [⟨"char", .enumeration "char" ["a"]⟩, ⟨"a\"b", .enumeration "a\"b" ["b"]⟩] }
    let body := Body.read 0 "select :x::\"char\", :y::\"a\"\"b\";".toList
    schema.Built ∧ body.CastsToQuoted 2 "char" 0 ∧ body.CastsToQuoted 6 "a\"b" 0 ∧
      (body.statement.typeName? 3).bind (fun hint => schema.typeNamed? hint.text) =
        some (.scalar .char) ∧
      (body.statement.typeName? 7).bind (fun hint => schema.typeNamed? hint.text) = none := by
  intro schema body
  have first : Schema.addType {} (.enumeration "char" ["a"]) =
      .ok { types := [⟨"char", .enumeration "char" ["a"]⟩] } := rfl
  have second : Schema.addType { types := [⟨"char", .enumeration "char" ["a"]⟩] }
      (.enumeration "a\"b" ["b"]) = .ok schema := rfl
  have built : schema.Built := .type (.type .empty first) second
  have char : body.CastsToQuoted 2 "char" 0 :=
    ⟨by decide +kernel, ⟨", :y::\"a\"\"b\";".toList, by decide +kernel, by decide⟩,
      by decide +kernel, fun _ => by decide +kernel, fun _ => by decide +kernel⟩
  have quote : body.CastsToQuoted 6 "a\"b" 0 :=
    ⟨by decide +kernel, ⟨";".toList, by decide +kernel, by decide⟩, by decide +kernel,
      fun _ => by decide +kernel, fun _ => by decide +kernel⟩
  exact ⟨built, char, quote, by decide +kernel, by decide +kernel⟩

end AnnotatedSql
