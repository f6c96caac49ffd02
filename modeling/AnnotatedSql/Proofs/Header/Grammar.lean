import AnnotatedSql.Header.Parser

/-!
# The grammar of headers

    header   := name [ '(' [ ident (',' ident)* [','] ] ')' ] modifier*
    modifier := '?{' [ ident | number ] '}' | '!{' '}'

A header that derives from the grammar says something if its parts agree: which of them exclude
each other does not depend on the order of the modifiers, and neither does what it says.
-/

namespace AnnotatedSql

/-! ## Derivations -/

/-- A modifier as written. -/
inductive ModifierForm
  | exact
  | optional (argument : Option Lexeme)
  deriving DecidableEq, Repr

/-- A modifier as written, at its place. -/
structure WrittenModifier where
  form : ModifierForm
  span : Span
  deriving DecidableEq, Repr

/-- A header as written. -/
structure WrittenHeader where
  name : Token
  /-- The names in parentheses, if there are parentheses. -/
  list : Option (List Token)
  modifiers : List WrittenModifier
  deriving DecidableEq, Repr

/-- Names with commas between them. -/
inductive DerivesNames : List Token → List Token → Prop
  | one {name : Token} (ident : name.kind = .ident) : DerivesNames [name] [name]
  | more {name comma : Token} {rest names : List Token} (ident : name.kind = .ident)
      (separates : comma.kind = .comma) (next : DerivesNames rest names) :
      DerivesNames (name :: comma :: rest) (name :: names)

/-- What may stand between parentheses: nothing, or names and perhaps one more comma. -/
inductive DerivesList : List Token → List Token → Prop
  | empty : DerivesList [] []
  | plain {tokens names : List Token} (derives : DerivesNames tokens names) :
      DerivesList tokens names
  | trailing {tokens names : List Token} {comma : Token} (derives : DerivesNames tokens names)
      (ends : comma.kind = .comma) : DerivesList (tokens ++ [comma]) names

/-- The span of a modifier runs from its opening token to its closing brace. -/
inductive DerivesModifier : List Token → WrittenModifier → Prop
  | exact {opening closing : Token} (opens : opening.kind = .exactOpen)
      (closes : closing.kind = .braceClose) :
      DerivesModifier [opening, closing] ⟨.exact, ⟨opening.span.start, closing.span.stop⟩⟩
  | empty {opening closing : Token} (opens : opening.kind = .optionalOpen)
      (closes : closing.kind = .braceClose) :
      DerivesModifier [opening, closing]
        ⟨.optional none, ⟨opening.span.start, closing.span.stop⟩⟩
  | argument {opening argument closing : Token} (opens : opening.kind = .optionalOpen)
      (isArgument : argument.kind = .ident ∨ argument.kind = .number)
      (closes : closing.kind = .braceClose) :
      DerivesModifier [opening, argument, closing]
        ⟨.optional (some argument.toLexeme), ⟨opening.span.start, closing.span.stop⟩⟩

inductive DerivesModifiers : List Token → List WrittenModifier → Prop
  | nil : DerivesModifiers [] []
  | cons {tokens rest : List Token} {modifier : WrittenModifier}
      {modifiers : List WrittenModifier} (first : DerivesModifier tokens modifier)
      (next : DerivesModifiers rest modifiers) :
      DerivesModifiers (tokens ++ rest) (modifier :: modifiers)

/-- The tokens derive from the grammar as the header. -/
inductive DerivesHeader : List Token → WrittenHeader → Prop
  | plain {name : Token} {tokens : List Token} {modifiers : List WrittenModifier}
      (ident : name.kind = .ident) (derives : DerivesModifiers tokens modifiers) :
      DerivesHeader (name :: tokens) ⟨name, none, modifiers⟩
  | listed {name opening closing : Token} {inner names tokens : List Token}
      {modifiers : List WrittenModifier} (ident : name.kind = .ident)
      (opens : opening.kind = .parenOpen) (between : DerivesList inner names)
      (closes : closing.kind = .parenClose) (derives : DerivesModifiers tokens modifiers) :
      DerivesHeader (name :: opening :: inner ++ closing :: tokens) ⟨name, some names, modifiers⟩

/-! ## Parts that agree -/

namespace ModifierForm

def isExact : ModifierForm → Bool
  | exact => true
  | optional _ => false

/-- Whether the modifier is `?{}`. -/
def isEmpty : ModifierForm → Bool
  | optional none => true
  | _ => false

def argument? : ModifierForm → Option Lexeme
  | optional argument => argument
  | exact => none

/-- Whether the modifier is `?{N}`. -/
def isCount (form : ModifierForm) : Bool :=
  match form.argument? with
  | some argument => argument.kind == .number
  | none => false

variable (argument : Option Lexeme) (given : Lexeme)

@[simp, grind =] theorem isExact_exact : exact.isExact = true := rfl

@[simp, grind =] theorem isExact_optional : (optional argument).isExact = false := rfl

@[simp, grind =] theorem isEmpty_exact : exact.isEmpty = false := rfl

@[simp, grind =] theorem isEmpty_optional : (optional argument).isEmpty = argument.isNone := by
  cases argument <;> rfl

@[simp, grind =] theorem argument_exact : exact.argument? = none := rfl

@[simp, grind =] theorem argument_optional : (optional argument).argument? = argument := rfl

@[simp, grind =] theorem isCount_exact : exact.isCount = false := rfl

@[simp, grind =] theorem isCount_none : (optional none).isCount = false := rfl

@[simp, grind =] theorem isCount_some :
    (optional (some given)).isCount = (given.kind == .number) := rfl

end ModifierForm

/-- The number has no fraction and fits in 32 bits. -/
def Lexeme.IsCount (number : Lexeme) : Prop :=
  '.' ∉ number.text.toList ∧ digitsValue 0 number.text.toList < UInt32.size

/-- The modifiers exclude neither each other nor a parameter list beside them. -/
structure Compatible (listed : Bool) (forms : List ModifierForm) : Prop where
  emptyOnce : forms.countP ModifierForm.isEmpty ≤ 1
  exactOnce : forms.countP ModifierForm.isExact ≤ 1
  argumentOnce : forms.countP (·.argument?.isSome) ≤ 1
  noArgument : listed = true → ∀ form ∈ forms, form.argument? = none
  exactAlone : ∀ form ∈ forms, form.isExact = true →
    ∀ other ∈ forms, other.isEmpty = false ∧ other.isCount = false

namespace WrittenHeader

/-- The modifiers without their places. -/
def forms (written : WrittenHeader) : List ModifierForm := written.modifiers.map (·.form)

/-- The names between the parentheses, without their places. -/
def names? (written : WrittenHeader) : Option (List String) := written.list.map (·.map (·.text))

/-- The header says something. -/
structure Valid (written : WrittenHeader) : Prop where
  distinct : ∀ names, written.names? = some names → names.Nodup
  counts : ∀ form ∈ written.forms, ∀ argument, form.argument? = some argument →
    argument.kind = .number → argument.IsCount
  compatible : Compatible written.list.isSome written.forms

end WrittenHeader

/-! ## What a header says -/

/-- What an argument says. -/
def Lexeme.optionalKind (argument : Lexeme) : OptionalKind :=
  if argument.kind == .number then .count (digitsValue 0 argument.text.toList)
  else .named argument.text

theorem Lexeme.optionalKind_number {argument : Lexeme} (isNumber : argument.kind = .number) :
    argument.optionalKind = .count (digitsValue 0 argument.text.toList) :=
  if_pos (beq_iff_eq.mpr isNumber)

theorem Lexeme.optionalKind_name {argument : Lexeme} (noNumber : argument.kind ≠ .number) :
    argument.optionalKind = .named argument.text :=
  if_neg (mt beq_iff_eq.mp noNumber)

namespace WrittenHeader

variable (written : WrittenHeader)

def style : BindingStyle :=
  match written.names?, written.forms.findSome? ModifierForm.argument? with
  | some names, _ => .explicitList names
  | none, some argument => .positionalOptional argument.optionalKind
  | none, none => .implicit

def cardinality : Cardinality :=
  if written.forms.any ModifierForm.isExact then .exactlyOne
  else if written.forms.any ModifierForm.isEmpty || written.forms.any ModifierForm.isCount then
    .atMostOne
  else .many

def descriptor (suffix : String) : Descriptor :=
  { name := written.name.text
    bindingStyle := written.style
    cardinality := written.cardinality
    streaming := isStreamingName suffix written.name.text }

/-- The modifier `?{…}` with an argument: the argument, and the place of the modifier. -/
def argument? : Option (Lexeme × Span) :=
  written.modifiers.findSome? fun modifier => modifier.form.argument?.map (·, modifier.span)

/-- A name between parentheses is declared where it stands, the name in `?{…}` by the whole
modifier. -/
def declaredSpans : List Span :=
  match written.list, written.argument? with
  | some names, _ => names.map (·.span)
  | none, some (argument, span) => if argument.kind == .number then [] else [span]
  | none, none => []

def header (suffix : String) : Header :=
  { descriptor := written.descriptor suffix
    nameSpan := written.name.span
    declaredSpans := written.declaredSpans
    optionalSpan := written.argument?.map Prod.snd }

theorem argument_forms :
    written.argument?.map Prod.fst = written.forms.findSome? ModifierForm.argument? := by
  unfold argument? forms
  rw [List.map_findSome?, List.findSome?_map]
  simp [Function.comp_def]

/-- There is one span for each declared name. -/
theorem declaredSpans_length :
    written.declaredSpans.length = written.style.declaredNames.length := by
  have same := written.argument_forms
  unfold declaredSpans style names?
  cases written.list with
  | some names => simp [BindingStyle.declaredNames]
  | none =>
    cases found : written.argument? with
    | none =>
      rw [found] at same
      rw [← same]
      rfl
    | some both =>
      rw [found] at same
      rw [← same]
      by_cases counts : (both.1.kind == .number) = true <;>
        simp [BindingStyle.declaredNames, Lexeme.optionalKind, counts]

end WrittenHeader

/-! ## The order of the modifiers -/

section

variable {listed : Bool} {forms others : List ModifierForm} {argument : Lexeme}

/-- The only argument is found wherever it stands. -/
theorem findSome_argument (once : forms.countP (·.argument?.isSome) ≤ 1) :
    forms.findSome? ModifierForm.argument? = some argument ↔
      ∃ form ∈ forms, form.argument? = some argument := by
  induction forms with
  | nil => simp
  | cons form forms ih =>
    rw [List.countP_cons] at once
    rw [List.findSome?_cons]
    cases found : form.argument? with
    | none => simpa [found] using ih (by omega)
    | some first =>
      have alone : forms.countP (·.argument?.isSome) = 0 := by
        rw [found] at once
        simpa using once
      rw [List.countP_eq_zero] at alone
      constructor
      · rintro same
        exact ⟨form, List.mem_cons_self, found.trans same⟩
      · rintro ⟨other, member, same⟩
        rcases List.mem_cons.mp member with rfl | member
        · exact found.symm.trans same
        · exact absurd (by simp [same]) (alone other member)

theorem findSome_argument_perm (once : forms.countP (·.argument?.isSome) ≤ 1)
    (reordered : forms.Perm others) :
    others.findSome? ModifierForm.argument? = forms.findSome? ModifierForm.argument? := by
  have onceMore : others.countP (·.argument?.isSome) ≤ 1 := by rwa [← reordered.countP_eq]
  refine Option.ext fun argument => ?_
  rw [findSome_argument once, findSome_argument onceMore]
  simp only [reordered.mem_iff]

theorem Compatible.perm (compatible : Compatible listed forms) (reordered : forms.Perm others) :
    Compatible listed others := by
  obtain ⟨emptyOnce, exactOnce, argumentOnce, noArgument, exactAlone⟩ := compatible
  refine ⟨?_, ?_, ?_, ?_, ?_⟩
  · rwa [← reordered.countP_eq]
  · rwa [← reordered.countP_eq]
  · rwa [← reordered.countP_eq]
  · simpa only [reordered.mem_iff] using noArgument
  · simpa only [reordered.mem_iff] using exactAlone

end

namespace WrittenHeader

variable {written other : WrittenHeader}

/-- A header with its modifiers in another order says the same. -/
theorem Valid.reorder (valid : written.Valid) (sameName : other.name.text = written.name.text)
    (sameNames : other.names? = written.names?) (reordered : written.forms.Perm other.forms) :
    other.Valid ∧ ∀ suffix, other.descriptor suffix = written.descriptor suffix := by
  have sameListed : other.list.isSome = written.list.isSome := by
    simpa [names?] using congrArg Option.isSome sameNames
  refine ⟨⟨?_, ?_, ?_⟩, fun suffix => ?_⟩
  · rw [sameNames]
    exact valid.distinct
  · simpa only [← reordered.mem_iff] using valid.counts
  · rw [sameListed]
    exact valid.compatible.perm reordered
  · have sameArgument := findSome_argument_perm valid.compatible.argumentOnce reordered
    have sameStyle : other.style = written.style := by
      unfold style
      rw [sameNames, sameArgument]
    have sameAny : ∀ p : ModifierForm → Bool, other.forms.any p = written.forms.any p := by
      intro p
      rw [Bool.eq_iff_iff, List.any_eq_true, List.any_eq_true]
      simp only [reordered.mem_iff]
    have sameCardinality : other.cardinality = written.cardinality := by
      unfold cardinality
      rw [sameAny, sameAny, sameAny]
    unfold descriptor
    rw [sameName, sameStyle, sameCardinality]

end WrittenHeader

end AnnotatedSql
