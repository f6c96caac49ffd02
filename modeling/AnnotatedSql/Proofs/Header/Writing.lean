import AnnotatedSql.Proofs.Header.Canonical
import AnnotatedSql.Proofs.Parameter.Placeholder
import AnnotatedSql.Proofs.Token.Trimming
import AnnotatedSql.Proofs.Token.Writing

/-!
# Canonical headers as they are written

A canonical header is written lexeme by lexeme, and it is cut into just these lexemes: each ends
where the next begins. It takes none but a few characters, and so stands on one line.
-/

namespace AnnotatedSql

open Lexer Rule

/-! ## The lexemes of a canonical header -/

/-- The lexemes between parentheses. -/
def listLexemes : List String → List Lexeme
  | [] => []
  | [name] => [⟨.ident, name⟩]
  | name :: names => ⟨.ident, name⟩ :: ⟨.comma, ","⟩ :: ⟨.whitespace, " "⟩ :: listLexemes names

def ModifierForm.lexemes : ModifierForm → List Lexeme
  | exact => [⟨.exactOpen, "!\x7b"⟩, ⟨.braceClose, "\x7d"⟩]
  | optional argument =>
    ⟨.optionalOpen, "?\x7b"⟩ :: argument.toList ++ [⟨.braceClose, "\x7d"⟩]

/-- Each modifier with a space before it. -/
def modifierLexemes (forms : List ModifierForm) : List Lexeme :=
  forms.flatMap fun form => ⟨.whitespace, " "⟩ :: form.lexemes

namespace BindingStyle

/-- The names between the parentheses of a canonical header. -/
def names? : BindingStyle → Option (List String)
  | explicitList names => some names
  | _ => none

/-- The modifier of a canonical header that says how parameters are found. -/
def forms : BindingStyle → List ModifierForm
  | positionalOptional (.count count) => [.optional (some ⟨.number, toString count⟩)]
  | positionalOptional (.named name) => [.optional (some ⟨.ident, name⟩)]
  | _ => []

/-- The lexemes of the parameter list. -/
def listPart (style : BindingStyle) : List Lexeme :=
  match style.names? with
  | some names => ⟨.parenOpen, "("⟩ :: listLexemes names ++ [⟨.parenClose, ")"⟩]
  | none => []

end BindingStyle

namespace Descriptor

/-- The modifier of a canonical header that says how many rows there are. -/
def cardinalityForms (descriptor : Descriptor) : List ModifierForm :=
  match descriptor.cardinality with
  | .atMostOne => if descriptor.bindingStyle.count?.isSome then [] else [.optional none]
  | .exactlyOne => [.exact]
  | .many => []

def forms (descriptor : Descriptor) : List ModifierForm :=
  descriptor.bindingStyle.forms ++ descriptor.cardinalityForms

def lexemes (descriptor : Descriptor) : List Lexeme :=
  ⟨.ident, descriptor.name⟩ :: descriptor.bindingStyle.listPart ++ modifierLexemes descriptor.forms

end Descriptor

@[simp] theorem textOf_nil : textOf [] = [] := rfl

@[simp] theorem textOf_append (a b : List Lexeme) : textOf (a ++ b) = textOf a ++ textOf b :=
  List.flatMap_append

theorem textOf_listLexemes (names : List String) :
    textOf (listLexemes names) = (String.intercalate ", " names).toList := by
  rw [String.toList_intercalate]
  fun_induction listLexemes names with
  | case1 => rfl
  | case2 name => simp [textOf]
  | case3 name names nonempty ih =>
    obtain ⟨next, names, rfl⟩ := List.exists_cons_of_ne_nil nonempty
    simp only [textOf_cons, ih, List.map_cons, List.intercalate_cons_cons, List.append_assoc]
    rfl

theorem textOf_modifierLexemes_append (a b : List ModifierForm) :
    textOf (modifierLexemes (a ++ b)) =
      textOf (modifierLexemes a) ++ textOf (modifierLexemes b) := by
  rw [modifierLexemes, List.flatMap_append, textOf_append]
  rfl

/-- The lexemes make up the canonical header. -/
theorem textOf_lexemes (descriptor : Descriptor) :
    textOf descriptor.lexemes = descriptor.display.toList := by
  have style : textOf descriptor.bindingStyle.listPart ++
      textOf (modifierLexemes descriptor.bindingStyle.forms) =
        descriptor.bindingStyle.display.toList := by
    rcases descriptor.bindingStyle with _ | names | (count | name)
    · rfl
    all_goals simp [BindingStyle.listPart, BindingStyle.names?, BindingStyle.forms,
      BindingStyle.display, textOf_listLexemes, modifierLexemes, ModifierForm.lexemes]
  have rows : textOf (modifierLexemes descriptor.cardinalityForms) =
      descriptor.cardinalityMarker.toList := by
    unfold Descriptor.cardinalityForms Descriptor.cardinalityMarker
    cases descriptor.cardinality with
    | many => rfl
    | exactlyOne => simp [modifierLexemes, ModifierForm.lexemes]
    | atMostOne =>
      dsimp only
      split <;> simp [modifierLexemes, ModifierForm.lexemes]
  unfold Descriptor.lexemes Descriptor.forms Descriptor.display
  rw [List.cons_append, textOf_cons, textOf_append, textOf_modifierLexemes_append,
    ← List.append_assoc (textOf _), style, rows, String.toList_append, String.toList_append,
    List.append_assoc]

/-! ## The header is cut into its lexemes -/

theorem Lexes.prepend {lexeme : Lexeme} {found : List Lexeme}
    (begins : Begins lexeme.kind lexeme.text.toList (textOf found))
    (next : Lexes (textOf found) found) : Lexes (textOf (lexeme :: found)) (lexeme :: found) := by
  have lexed := Lexes.cons begins next
  rwa [String.ofList_toList] at lexed

/-- The punctuation of headers. -/
def punctuation : List Lexeme :=
  [⟨.parenOpen, "("⟩, ⟨.parenClose, ")"⟩, ⟨.comma, ","⟩, ⟨.optionalOpen, "?\x7b"⟩,
    ⟨.exactOpen, "!\x7b"⟩, ⟨.braceClose, "\x7d"⟩]

/-- Punctuation is cut off whatever follows it. -/
theorem begins_punctuation {lexeme : Lexeme} (member : lexeme ∈ punctuation) (rest : List Char) :
    Begins lexeme.kind lexeme.text.toList rest := by
  have all : (punctuation.all fun lexeme => !lexeme.text.toList.isEmpty &&
      firstReading Rule.all lexeme.text.toList == some (.token lexeme.kind) &&
      Rule.all.all fun rule => (rule.pattern.deriveBy lexeme.text.toList).isDone) = true := by
    decide +kernel
  have checked := List.all_eq_true.mp all lexeme member
  simp only [Bool.and_eq_true, Bool.not_eq_true', List.isEmpty_eq_false_iff, beq_iff_eq] at checked
  exact .fixed checked.1.1 checked.1.2 checked.2

theorem Lexes.punctuation {lexeme : Lexeme} {found : List Lexeme}
    (member : lexeme ∈ AnnotatedSql.punctuation) (next : Lexes (textOf found) found) :
    Lexes (textOf (lexeme :: found)) (lexeme :: found) :=
  .prepend (begins_punctuation member _) next

/-- A word before the text is not continued by it. -/
def EndsWord (rest : List Char) : Prop := ∀ d ∈ rest.head?, wordChar d = false

theorem Lexes.identifier {name : String} {found : List Lexeme} (isName : IsIdentifier name)
    (ends : EndsWord (textOf found)) (next : Lexes (textOf found) found) :
    Lexes (textOf (⟨.ident, name⟩ :: found)) (⟨.ident, name⟩ :: found) :=
  .prepend (.word isName ends) next

/-- The argument is an identifier or a count. -/
def ModifierForm.Canonical (form : ModifierForm) : Prop :=
  ∀ argument, form.argument? = some argument →
    (argument.kind = .ident ∧ IsIdentifier argument.text) ∨
      (argument.kind = .number ∧ ∃ count < UInt32.size, argument.text = toString count)

theorem isDigit_of_mem_toString {count : Nat} {c : Char} (member : c ∈ (toString count).toList) :
    c.isDigit = true := by
  rw [toList_toString] at member
  exact Nat.isDigit_of_mem_toDigits (by omega) (by omega) member

theorem lexes_form {form : ModifierForm} {found : List Lexeme} (canonical : form.Canonical)
    (next : Lexes (textOf found) found) :
    Lexes (textOf (form.lexemes ++ found)) (form.lexemes ++ found) := by
  have closed : Lexes (textOf (⟨.braceClose, "\x7d"⟩ :: found)) (⟨.braceClose, "\x7d"⟩ :: found) :=
    .punctuation (by decide) next
  rcases form with _ | _ | argument
  · exact .punctuation (by decide) closed
  · exact .punctuation (by decide) closed
  · refine .punctuation (by decide) (.prepend ?_ closed)
    rcases canonical argument rfl with ⟨ident, isName⟩ | ⟨isNumber, count, _, counts⟩
    · rw [ident]
      refine .word isName ?_
      rintro d first
      cases first
      decide
    · rw [isNumber, counts]
      refine .digits ?_ ?_ ?_
      · rw [toList_toString]
        exact Nat.toDigits_ne_nil
      · exact List.all_eq_true.mpr fun c member => isDigit_of_mem_toString member
      · rintro d first
        cases first
        decide

theorem lexes_modifiers {forms : List ModifierForm} (canonical : ∀ form ∈ forms, form.Canonical) :
    Lexes (textOf (modifierLexemes forms)) (modifierLexemes forms) := by
  induction forms with
  | nil => exact .nil
  | cons form forms ih =>
    rw [List.forall_mem_cons] at canonical
    refine .prepend (.space ?_) (lexes_form canonical.1 (ih canonical.2))
    rintro d first
    rcases form with _ | _ | argument <;>
    · cases first
      decide

theorem endsWord_modifiers (forms : List ModifierForm) :
    EndsWord (textOf (modifierLexemes forms)) := by
  cases forms with
  | nil => exact fun _ none => nomatch none
  | cons form forms =>
    rintro d first
    cases first
    decide

theorem not_blankChar_of_letter {c : Char} (begins : letter c = true) : blankChar c = false := by
  cases blank : blankChar c with
  | false => rfl
  | true =>
    simp only [blankChar, Bool.or_eq_true, beq_iff_eq] at blank
    rcases blank with ((rfl | rfl) | rfl) | rfl <;> exact absurd begins (by decide)

/-- A space before a word is a token of its own. -/
theorem Lexes.spaced {name : String} {found others : List Lexeme} (isName : IsIdentifier name)
    (starts : found = ⟨.ident, name⟩ :: others) (next : Lexes (textOf found) found) :
    Lexes (textOf (⟨.whitespace, " "⟩ :: found)) (⟨.whitespace, " "⟩ :: found) := by
  refine .prepend (.space fun d first => ?_) next
  subst starts
  unfold IsIdentifier at isName
  rw [textOf_cons] at first
  cases chars : name.toList with
  | nil =>
    rw [chars] at isName
    exact absurd rfl (all_wordChar isName).1
  | cons c tail =>
    rw [chars] at isName first
    cases first
    exact not_blankChar_of_letter (matches_word.mp isName).1

theorem lexes_list {names : List String} {found : List Lexeme}
    (areNames : ∀ name ∈ names, IsIdentifier name) (ends : EndsWord (textOf found))
    (next : Lexes (textOf found) found) :
    Lexes (textOf (listLexemes names ++ found)) (listLexemes names ++ found) := by
  fun_induction listLexemes names with
  | case1 => exact next
  | case2 name => exact .identifier (areNames name List.mem_cons_self) ends next
  | case3 name names nonempty ih =>
    rw [List.forall_mem_cons] at areNames
    obtain ⟨second, names, rfl⟩ := List.exists_cons_of_ne_nil nonempty
    have starts : ∃ others, listLexemes (second :: names) ++ found = ⟨.ident, second⟩ :: others := by
      cases names <;> exact ⟨_, rfl⟩
    obtain ⟨others, starts⟩ := starts
    refine .identifier areNames.1 ?_ (.punctuation (by decide) (.spaced ?_ starts ?_))
    · rintro d first
      cases first
      decide
    · exact areNames.2 second List.mem_cons_self
    · exact ih areNames.2

namespace BindingStyle

variable {style : BindingStyle}

theorem canonical_forms (declared : ∀ name ∈ style.declaredNames, IsIdentifier name)
    (counted : ∀ count, style.count? = some count → count < UInt32.size) :
    ∀ form ∈ style.forms, form.Canonical := by
  intro form member argument has
  rcases style with _ | names | (count | name)
  · cases member
  · cases member
  · obtain rfl := List.mem_singleton.mp member
    cases has
    exact Or.inr ⟨rfl, count, counted count rfl, rfl⟩
  · obtain rfl := List.mem_singleton.mp member
    cases has
    exact Or.inl ⟨rfl, declared name List.mem_cons_self⟩

theorem declaredNames_of_names {names : List String} (listed : style.names? = some names) :
    style.declaredNames = names := by
  cases style <;> cases listed
  rfl

end BindingStyle

namespace Descriptor

variable {suffix : String} {descriptor : Descriptor}

theorem argument_of_cardinalityForms :
    ∀ form ∈ descriptor.cardinalityForms, form.argument? = none := by
  unfold cardinalityForms
  cases descriptor.cardinality with
  | atMostOne =>
    dsimp only
    split <;> simp
  | _ => simp

theorem Canonical.forms (canonical : descriptor.Canonical suffix) :
    ∀ form ∈ descriptor.forms, form.Canonical := by
  intro form member
  rcases List.mem_append.mp member with member | member
  · exact BindingStyle.canonical_forms canonical.declared
      (fun count counts => (canonical.counted count counts).1) form member
  · intro argument has
    rw [argument_of_cardinalityForms form member] at has
    cases has

/-- A canonical header is cut into its lexemes. -/
theorem Canonical.lexes (canonical : descriptor.Canonical suffix) :
    Lexes (textOf descriptor.lexemes) descriptor.lexemes := by
  have modifiers := lexes_modifiers canonical.forms
  have ends := endsWord_modifiers descriptor.forms
  unfold lexemes BindingStyle.listPart
  cases listed : descriptor.bindingStyle.names? with
  | none => exact .identifier canonical.name ends modifiers
  | some names =>
    have areNames : ∀ name ∈ names, IsIdentifier name := by
      rw [← BindingStyle.declaredNames_of_names listed]
      exact canonical.declared
    dsimp only
    rw [List.cons_append, List.append_assoc, List.singleton_append]
    refine .identifier canonical.name ?_ (.punctuation (by decide) (lexes_list areNames ?_
      (.punctuation (by decide) modifiers)))
    all_goals
      rintro d first
      cases first
      decide

end Descriptor

/-! ## The characters of a canonical header -/

/-- The characters that canonical headers are written with. -/
def headerChar (c : Char) : Bool := wordChar c || "(), ?!\x7b\x7d".toList.contains c

/-- The lexemes are written with characters of canonical headers. -/
def HeaderText (found : List Lexeme) : Prop := (textOf found).all headerChar = true

namespace HeaderText

variable {lexeme : Lexeme} {a b : List Lexeme}

theorem append (first : HeaderText a) (second : HeaderText b) : HeaderText (a ++ b) := by
  unfold HeaderText at *
  rw [textOf_append, List.all_append, first, second]
  rfl

theorem cons (first : lexeme.text.toList.all headerChar = true) (second : HeaderText b) :
    HeaderText (lexeme :: b) := by
  unfold HeaderText at *
  rw [textOf_cons, List.all_append, first, second]
  rfl

theorem of_wordChars {text : String} (words : text.toList.all wordChar = true) :
    text.toList.all headerChar = true := by
  rw [List.all_eq_true] at words ⊢
  exact fun c member => by simp [headerChar, words c member]

theorem of_identifier {name : String} (isName : IsIdentifier name) :
    name.toList.all headerChar = true := of_wordChars (all_wordChar isName).2

theorem form {form : ModifierForm} (canonical : form.Canonical) : HeaderText form.lexemes := by
  rcases form with _ | _ | argument
  · exact .cons (by decide) (.cons (by decide) rfl)
  · exact .cons (by decide) (.cons (by decide) rfl)
  · refine .cons (by decide) (.cons ?_ (.cons (by decide) rfl))
    rcases canonical argument rfl with ⟨_, isName⟩ | ⟨_, count, _, counts⟩
    · exact of_identifier isName
    · rw [counts]
      refine of_wordChars (List.all_eq_true.mpr fun c member => ?_)
      exact wordChar_of_isDigit (isDigit_of_mem_toString member)

theorem modifiers {forms : List ModifierForm} (canonical : ∀ form ∈ forms, form.Canonical) :
    HeaderText (modifierLexemes forms) := by
  induction forms with
  | nil => rfl
  | cons first forms ih =>
    rw [List.forall_mem_cons] at canonical
    exact .cons (by decide) (.append (form canonical.1) (ih canonical.2))

theorem list {names : List String} (areNames : ∀ name ∈ names, IsIdentifier name) :
    HeaderText (listLexemes names) := by
  fun_induction listLexemes names with
  | case1 => rfl
  | case2 name => exact .cons (of_identifier (areNames name List.mem_cons_self)) rfl
  | case3 name names _ ih =>
    rw [List.forall_mem_cons] at areNames
    exact .cons (of_identifier areNames.1) (.cons (by decide) (.cons (by decide) (ih areNames.2)))

end HeaderText

namespace Descriptor

variable {suffix : String} {descriptor : Descriptor}

theorem Canonical.headerText (canonical : descriptor.Canonical suffix) :
    HeaderText descriptor.lexemes := by
  refine .append (.cons (HeaderText.of_identifier canonical.name) ?_)
    (HeaderText.modifiers canonical.forms)
  unfold BindingStyle.listPart
  cases listed : descriptor.bindingStyle.names? with
  | none => rfl
  | some names =>
    refine .append (.cons (by decide) (HeaderText.list ?_)) (.cons (by decide) rfl)
    rw [← BindingStyle.declaredNames_of_names listed]
    exact canonical.declared

/-- A canonical header stands on one line. -/
theorem Canonical.not_mem_display (canonical : descriptor.Canonical suffix) {c : Char}
    (ends : c = '\n' ∨ c = '\r') : c ∉ descriptor.display.toList := by
  intro member
  rw [← textOf_lexemes] at member
  have allowed := List.all_eq_true.mp canonical.headerText c member
  rcases ends with rfl | rfl <;> exact absurd allowed (by decide)

end Descriptor

end AnnotatedSql
