import AnnotatedSql.Proofs.Block.Tiling
import AnnotatedSql.Proofs.Header.Writing

/-!
# Canonical headers are read back

The lexemes of a canonical header that carry meaning derive from the grammar, and the header that is
read says what was written.
-/

namespace AnnotatedSql

open Lexer Rule

/-! ## The lexemes derive from the grammar -/

section Derivation

variable {tokens : List Token}

theorem derivesNames_of_lexemes {names : List String} (nonempty : names ≠ [])
    (same : tokens.map (·.toLexeme) = meaningful (listLexemes names)) :
    ∃ found, DerivesNames tokens found ∧ found.map (·.text) = names := by
  fun_induction listLexemes names generalizing tokens with
  | case1 => exact absurd rfl nonempty
  | case2 name =>
    obtain ⟨token, rfl, spelled⟩ := List.map_eq_singleton_iff.mp same
    refine ⟨[token], .one (congrArg Lexeme.kind spelled), ?_⟩
    exact congrArg (fun lexeme => [Lexeme.text lexeme]) spelled
  | case3 name names others ih =>
    have split : meaningful (⟨.ident, name⟩ :: ⟨.comma, ","⟩ :: ⟨.whitespace, " "⟩ ::
        listLexemes names) = ⟨.ident, name⟩ :: ⟨.comma, ","⟩ :: meaningful (listLexemes names) := rfl
    rw [split] at same
    obtain ⟨token, rest, rfl, spelled, same⟩ := List.map_eq_cons_iff.mp same
    obtain ⟨comma, rest, rfl, separates, same⟩ := List.map_eq_cons_iff.mp same
    obtain ⟨found, derives, texts⟩ := ih others same
    refine ⟨token :: found, .more (congrArg Lexeme.kind spelled)
      (congrArg Lexeme.kind separates) derives, ?_⟩
    rw [List.map_cons, texts]
    exact congrArg (fun lexeme => Lexeme.text lexeme :: names) spelled

theorem derivesList_of_lexemes {names : List String}
    (same : tokens.map (·.toLexeme) = meaningful (listLexemes names)) :
    ∃ found, DerivesList tokens found ∧ found.map (·.text) = names := by
  by_cases nonempty : names = []
  · subst nonempty
    obtain rfl := List.map_eq_nil_iff.mp same
    exact ⟨[], .empty, rfl⟩
  · obtain ⟨found, derives, texts⟩ := derivesNames_of_lexemes nonempty same
    exact ⟨found, .plain derives, texts⟩

theorem derivesModifier_of_lexemes {form : ModifierForm} (canonical : form.Canonical)
    (same : tokens.map (·.toLexeme) = form.lexemes) :
    ∃ written, DerivesModifier tokens written ∧ written.form = form := by
  rcases form with _ | _ | argument
  · obtain ⟨opening, rest, rfl, opens, same⟩ := List.map_eq_cons_iff.mp same
    obtain ⟨closing, rfl, closes⟩ := List.map_eq_singleton_iff.mp same
    exact ⟨_, .exact (congrArg Lexeme.kind opens) (congrArg Lexeme.kind closes), rfl⟩
  · obtain ⟨opening, rest, rfl, opens, same⟩ := List.map_eq_cons_iff.mp same
    obtain ⟨closing, rfl, closes⟩ := List.map_eq_singleton_iff.mp same
    exact ⟨_, .empty (congrArg Lexeme.kind opens) (congrArg Lexeme.kind closes), rfl⟩
  · obtain ⟨opening, rest, rfl, opens, others⟩ := List.map_eq_cons_iff.mp same
    obtain ⟨token, rest, rfl, rfl, last⟩ := List.map_eq_cons_iff.mp others
    obtain ⟨closing, rfl, closes⟩ := List.map_eq_singleton_iff.mp last
    have isArgument := (canonical _ rfl).imp And.left And.left
    exact ⟨_, .argument (congrArg Lexeme.kind opens) isArgument (congrArg Lexeme.kind closes), rfl⟩

theorem meaningful_form {form : ModifierForm} (canonical : form.Canonical) :
    meaningful form.lexemes = form.lexemes := by
  rcases form with _ | _ | ⟨kind, text⟩
  · rfl
  · rfl
  · rcases canonical _ rfl with ⟨ident, _⟩ | ⟨isNumber, _⟩
    · cases ident
      rfl
    · cases isNumber
      rfl

theorem meaningful_append (a b : List Lexeme) :
    meaningful (a ++ b) = meaningful a ++ meaningful b := List.filter_append _ _

theorem derivesModifiers_of_lexemes {forms : List ModifierForm}
    (canonical : ∀ form ∈ forms, form.Canonical)
    (same : tokens.map (·.toLexeme) = meaningful (modifierLexemes forms)) :
    ∃ modifiers, DerivesModifiers tokens modifiers ∧ modifiers.map (·.form) = forms := by
  induction forms generalizing tokens with
  | nil =>
    obtain rfl := List.map_eq_nil_iff.mp same
    exact ⟨[], .nil, rfl⟩
  | cons form forms ih =>
    rw [List.forall_mem_cons] at canonical
    have split : meaningful (modifierLexemes (form :: forms)) =
        form.lexemes ++ meaningful (modifierLexemes forms) := by
      rw [← meaningful_form canonical.1, ← meaningful_append]
      rfl
    rw [split] at same
    obtain ⟨first, rest, rfl, starts, others⟩ := List.map_eq_append_iff.mp same
    obtain ⟨written, derives, rfl⟩ := derivesModifier_of_lexemes canonical.1 starts
    obtain ⟨modifiers, next, rfl⟩ := ih canonical.2 others
    exact ⟨written :: modifiers, .cons derives next, rfl⟩

/-- The significant lexemes of a canonical header derive from the grammar. -/
theorem derivesHeader_of_lexemes {suffix : String} {descriptor : Descriptor}
    (canonical : descriptor.Canonical suffix)
    (same : tokens.map (·.toLexeme) = meaningful descriptor.lexemes) :
    ∃ written, DerivesHeader tokens written ∧ written.name.text = descriptor.name ∧
      written.names? = descriptor.bindingStyle.names? ∧ written.forms = descriptor.forms := by
  unfold Descriptor.lexemes BindingStyle.listPart at same
  cases listed : descriptor.bindingStyle.names? with
  | none =>
    rw [listed] at same
    obtain ⟨name, rest, rfl, spelled, same⟩ := List.map_eq_cons_iff.mp same
    obtain ⟨modifiers, derives, forms⟩ := derivesModifiers_of_lexemes canonical.forms same
    exact ⟨_, .plain (congrArg Lexeme.kind spelled) derives, congrArg Lexeme.text spelled, rfl,
      forms⟩
  | some names =>
    rw [listed] at same
    have split : meaningful (⟨.ident, descriptor.name⟩ ::
        (⟨.parenOpen, "("⟩ :: listLexemes names ++ [⟨.parenClose, ")"⟩]) ++
          modifierLexemes descriptor.forms) =
        ⟨.ident, descriptor.name⟩ :: ⟨.parenOpen, "("⟩ :: (meaningful (listLexemes names) ++
          ⟨.parenClose, ")"⟩ :: meaningful (modifierLexemes descriptor.forms)) := by
      simp [meaningful, TokenKind.isTrivia]
    rw [split] at same
    obtain ⟨name, rest, rfl, spelled, same⟩ := List.map_eq_cons_iff.mp same
    obtain ⟨opening, rest, rfl, opens, same⟩ := List.map_eq_cons_iff.mp same
    obtain ⟨inner, rest, rfl, between, same⟩ := List.map_eq_append_iff.mp same
    obtain ⟨closing, rest, rfl, closes, same⟩ := List.map_eq_cons_iff.mp same
    obtain ⟨found, list, texts⟩ := derivesList_of_lexemes between
    obtain ⟨modifiers, derives, forms⟩ := derivesModifiers_of_lexemes canonical.forms same
    refine ⟨_, .listed (congrArg Lexeme.kind spelled) (congrArg Lexeme.kind opens) list
      (congrArg Lexeme.kind closes) derives, congrArg Lexeme.text spelled, ?_, forms⟩
    exact congrArg some texts

end Derivation

/-! ## What is read is what was written -/

theorem digitsValue_toString (count : Nat) : digitsValue 0 (toString count).toList = count := by
  rw [toList_toString, digitsValue_toDigits]

theorem isCount_toString {kind : TokenKind} {count : Nat} (small : count < UInt32.size) :
    Lexeme.IsCount ⟨kind, toString count⟩ := by
  refine ⟨fun member => ?_, ?_⟩
  · exact absurd (isDigit_of_mem_toString member) (by decide)
  · rwa [digitsValue_toString]

namespace Descriptor

variable {suffix : String} {descriptor : Descriptor}

/-- The modifiers of a canonical header agree. -/
theorem Canonical.compatible (canonical : descriptor.Canonical suffix) :
    Compatible descriptor.bindingStyle.names?.isSome descriptor.forms := by
  have counted := canonical.counted
  clear canonical
  obtain ⟨_, style, cardinality, _⟩ := descriptor
  unfold Descriptor.forms cardinalityForms
  rcases style with _ | names | (count | name)
  · cases cardinality <;> constructor <;> simp [BindingStyle.forms, BindingStyle.count?]
  · cases cardinality <;> constructor <;> simp [BindingStyle.forms, BindingStyle.count?]
  · obtain rfl := (counted count rfl).2
    constructor <;> simp [BindingStyle.forms, BindingStyle.count?, BindingStyle.names?]
  · cases cardinality <;> constructor <;>
      simp [BindingStyle.forms, BindingStyle.count?, BindingStyle.names?, List.countP_cons]

variable {written : WrittenHeader}

theorem style_of_parts
    (sameNames : written.names? = descriptor.bindingStyle.names?)
    (sameForms : written.forms = descriptor.forms) :
    written.style = descriptor.bindingStyle := by
  have noArgument := List.findSome?_eq_none_iff.mpr (@argument_of_cardinalityForms descriptor)
  unfold WrittenHeader.style
  rw [sameNames, sameForms, Descriptor.forms, List.findSome?_append, noArgument, Option.or_none]
  rcases descriptor.bindingStyle with _ | names | (count | name)
  · rfl
  · rfl
  · have value : Lexeme.optionalKind ⟨.number, toString count⟩ = .count count :=
      congrArg OptionalKind.count (digitsValue_toString count)
    exact congrArg BindingStyle.positionalOptional value
  · rfl

theorem Canonical.cardinality (canonical : descriptor.Canonical suffix)
    (sameForms : written.forms = descriptor.forms) :
    written.cardinality = descriptor.cardinality := by
  have counted := canonical.counted
  unfold WrittenHeader.cardinality
  rw [sameForms, Descriptor.forms, cardinalityForms]
  clear canonical sameForms
  obtain ⟨_, style, cardinality, _⟩ := descriptor
  rcases style with _ | names | (count | name)
  · cases cardinality <;> rfl
  · cases cardinality <;> rfl
  · obtain rfl := (counted count rfl).2
    rfl
  · cases cardinality <;> rfl

/-- A header with the parts of a canonical one says what that one says. -/
theorem Canonical.said (canonical : descriptor.Canonical suffix)
    (sameName : written.name.text = descriptor.name)
    (sameNames : written.names? = descriptor.bindingStyle.names?)
    (sameForms : written.forms = descriptor.forms) :
    written.Valid ∧ written.descriptor suffix = descriptor := by
  have sameListed : written.list.isSome = descriptor.bindingStyle.names?.isSome := by
    rw [← sameNames]
    simp [WrittenHeader.names?]
  refine ⟨⟨fun names listed => ?_, fun form member argument has isNumber => ?_, ?_⟩, ?_⟩
  · rw [sameNames] at listed
    rw [← BindingStyle.declaredNames_of_names listed]
    exact canonical.distinct
  · rw [sameForms] at member
    rcases canonical.forms form member argument has with ⟨ident, _⟩ | ⟨_, count, small, counts⟩
    · rw [ident] at isNumber
      cases isNumber
    · rcases argument with ⟨_, text⟩
      obtain rfl : text = toString count := counts
      exact isCount_toString small
  · rw [sameListed, sameForms]
    exact canonical.compatible
  · have streams : isStreamingName suffix descriptor.name = descriptor.streaming := by
      rw [Bool.eq_iff_iff, isStreamingName_iff, canonical.streaming]
    unfold WrittenHeader.descriptor
    rw [sameName, style_of_parts sameNames sameForms, canonical.cardinality sameForms, streams]

end Descriptor

/-! ## A module of one query -/

theorem lines_single {line : List Char} (noFeed : '\n' ∉ line) :
    lines (line ++ ['\n']) = [line ++ ['\n']] := by
  induction line with
  | nil => rfl
  | cons c line ih =>
    rw [List.mem_cons, not_or] at noFeed
    have other : (c == '\n') = false := by simpa using Ne.symm noFeed.1
    rw [List.cons_append, lines_cons, other, ih noFeed.2]
    rfl

theorem lineContent_single {line : List Char} (noReturn : '\r' ∉ line) :
    lineContent (line ++ ['\n']) = line := by
  have noLast : line.getLast? ≠ some '\r' := fun last =>
    noReturn (List.mem_of_getLast? last)
  simp [lineContent, withoutLineFeed, noLast]

/-- A header line with one line under it is one block. -/
theorem ofText_headed {header body : List Char} (noFeed : '\n' ∉ header)
    (bodyLine : lines body = [body]) (unheaded : isHeaderLine body = false) :
    Layout.ofText (headerMarker ++ header ++ ['\n'] ++ body) =
      ⟨[], [⟨0, headerMarker ++ header ++ ['\n'], body⟩]⟩ := by
  have complete : EndsLine (headerMarker ++ header ++ ['\n']) := Or.inr (by simp)
  have markerFeed : '\n' ∉ headerMarker ++ header := by
    rw [List.mem_append, not_or]
    exact ⟨by decide, noFeed⟩
  have headed : isHeaderLine (headerMarker ++ header ++ ['\n']) = true := rfl
  unfold Layout.ofText
  rw [lines_append complete, lines_single markerFeed, bodyLine, List.singleton_append,
    groupByHeader_cons, groupByHeader_cons, headed, unheaded]
  simp [groupByHeader, Layout.placeBlocks]

theorem header_of_single {header body : List Char} {start : Nat} (noReturn : '\r' ∉ header) :
    Block.header ⟨start, headerMarker ++ header ++ ['\n'], body⟩ = header := by
  have markerReturn : '\r' ∉ headerMarker ++ header := by
    rw [List.mem_append, not_or]
    exact ⟨by decide, noReturn⟩
  unfold Block.header Block.indent Block.content
  dsimp only
  rw [lineContent_single markerReturn]
  rfl

theorem Descriptor.Canonical.headerTokens {suffix : String} {descriptor : Descriptor}
    (canonical : descriptor.Canonical suffix) {block : Block}
    (header : block.header = ' ' :: descriptor.display.toList) :
    block.headerTokens.map (·.toLexeme) = meaningful descriptor.lexemes := by
  have starts : descriptor.lexemes = ⟨.ident, descriptor.name⟩ ::
    (descriptor.bindingStyle.listPart ++ modifierLexemes descriptor.forms) := rfl
  have spaced := canonical.lexes.spaced canonical.name starts
  have whole : textOf (⟨.whitespace, " "⟩ :: descriptor.lexemes) = block.header := by
    rw [header, textOf_cons, textOf_lexemes]
    rfl
  unfold Block.headerTokens
  rw [significantAt_lexemes, significant, ← whole, spaced.lexemes_eq]
  rfl

/-- What headers say is canonical, and what is canonical is read back: a module of nothing but the
canonical header and one statement is one query that says it. -/
theorem Header.read_display (source : Nat) (suffix : String) :
    (∀ (block : Block) (header : Header), ofTokens suffix block.headerTokens = .ok header →
      header.descriptor.Canonical suffix) ∧
    ∀ descriptor : Descriptor, descriptor.Canonical suffix →
      ∃ query : Query, parseModule source suffix
          ("--! " ++ descriptor.display ++ "\nSELECT 1;\n").toList = ⟨[query], []⟩ ∧
        query.descriptor = descriptor := by
  refine ⟨fun block header read => canonical_of_read read, fun descriptor canonical => ?_⟩
  have plain : ∀ {c}, c = '\n' ∨ c = '\r' → c ∉ ' ' :: descriptor.display.toList := by
    intro c ends member
    rcases List.mem_cons.mp member with rfl | member
    · exact absurd ends (by decide)
    · exact canonical.not_mem_display ends member
  have body : lines "SELECT 1;\n".toList = ["SELECT 1;\n".toList] := by decide
  have layout := ofText_headed (plain (Or.inl rfl)) body (by decide)
  have header := @header_of_single _ "SELECT 1;\n".toList 0 (plain (Or.inr rfl))
  generalize found : (⟨0, headerMarker ++ (' ' :: descriptor.display.toList) ++ ['\n'],
    "SELECT 1;\n".toList⟩ : Block) = block at layout header
  have tokens := canonical.headerTokens header
  obtain ⟨written, derives, name, names, forms⟩ := derivesHeader_of_lexemes canonical tokens
  obtain ⟨valid, said⟩ := canonical.said name names forms
  have read : ofTokens suffix block.headerTokens = .ok (written.header suffix) :=
    (ofTokens_eq_ok block.headerTokens_spelled).mpr ⟨written, derives, valid, rfl⟩
  have full : (block.bodyTokens.any fun token => token.kind != .semicolon) = true := by
    have statement : ((significant "SELECT 1;\n".toList).any fun lexeme =>
        lexeme.kind != .semicolon) = true := by decide +kernel
    rw [← significantAt_lexemes block.bodySpan.start, List.any_map] at statement
    rw [← found] at statement ⊢
    exact statement
  have outcome : ∃ query, Query.ofBlock source suffix block = .ok query ∧
      query.descriptor = descriptor :=
    ⟨_, Query.ofBlock_eq_ok.mpr ⟨_, read, full, rfl⟩, said⟩
  obtain ⟨query, outcome, sameDescriptor⟩ := outcome
  refine ⟨query, ?_, sameDescriptor⟩
  have text : ("--! " ++ descriptor.display ++ "\nSELECT 1;\n").toList =
      headerMarker ++ (' ' :: descriptor.display.toList) ++ ['\n'] ++ "SELECT 1;\n".toList := by
    simp [headerMarker]
  have nothing : strayReports source [] = [] := rfl
  unfold parseModule
  rw [text, layout]
  simp [outcome, nothing, Except.toOption]

/-- A counted header in its own words, and a streaming query with two parameters. -/
theorem Header.read_display_streaming :
    let block : Block := ⟨0, "--!q ?\x7b02\x7d\n".toList, "select $1, $2;\n".toList⟩
    let descriptor : Descriptor := ⟨"all_stream", .explicitList ["a", "b"], .exactlyOne, true⟩
    (∃ header, ofTokens "_stream" block.headerTokens = .ok header ∧
      header.descriptor.Canonical "_stream" ∧
      header.descriptor = ⟨"q", .positionalOptional (.count 2), .atMostOne, false⟩) ∧
    descriptor.Canonical "_stream" ∧ descriptor.display = "all_stream(a, b) !\x7b\x7d" ∧
    ∃ query, parseModule 0 "_stream"
        ("--! " ++ descriptor.display ++ "\nSELECT 1;\n").toList = ⟨[query], []⟩ ∧
      query.descriptor = descriptor := by
  intro block descriptor
  have isName : ∀ name ∈ ["all_stream", "a", "b"], IsIdentifier name := by
    have accepted : (["all_stream", "a", "b"].all fun name =>
        Rule.word.accepts name.toList) = true := by decide
    exact fun name member => Pattern.accepts_iff.mp (List.all_eq_true.mp accepted name member)
  have canonical : descriptor.Canonical "_stream" := by
    refine ⟨isName _ (by decide), fun name member => isName name (List.mem_cons_of_mem _ member),
      by decide, fun _ none => (nomatch none), ?_⟩
    rw [← isStreamingName_iff]
    decide
  have reads : (ofTokens "_stream" block.headerTokens).toOption.map Header.descriptor =
      some ⟨"q", .positionalOptional (.count 2), .atMostOne, false⟩ := by decide +kernel
  obtain ⟨header, read, said⟩ := Option.map_eq_some_iff.mp reads
  have read : ofTokens "_stream" block.headerTokens = .ok header := by
    cases outcome : ofTokens "_stream" block.headerTokens with
    | error fault =>
      rw [outcome] at read
      cases read
    | ok other =>
      rw [outcome] at read
      cases read
      rfl
  refine ⟨⟨header, read, ?_, said⟩, canonical, by decide, ?_⟩
  · exact (Header.read_display 0 "_stream").1 block header read
  · exact (Header.read_display 0 "_stream").2 descriptor canonical

end AnnotatedSql
