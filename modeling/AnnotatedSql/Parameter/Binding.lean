import AnnotatedSql.Finding
import AnnotatedSql.Parameter.Hint

/-!
# Binding of parameters

The placeholders of a statement are its parameters, one for each key. Positions have to be `$1` to
`$m` without a gap; named parameters come after them. Where the header declares names, it orders
them and every name has to be declared. Binding does not depend on the schema.
-/

namespace AnnotatedSql

/-- An entry of the parameter table. -/
structure Parameter where
  key : ParamKey
  /-- The name in generated code. -/
  name : String
  /-- The position in the rewritten text, from one. -/
  slot : Nat
  declared : Bool
  optional : Bool
  /-- The type of its first cast. -/
  hint : Option TypeName
  /-- The tokens that stand for it, in order. -/
  occurrences : List Nat
  type : DataType := .unresolved
  deriving DecidableEq, Repr

namespace Statement

/-- The parameter that token `i` stands for. -/
def paramKey? (s : Statement) (i : Nat) : Option ParamKey :=
  s.lexemes[i]?.bind ParamKey.ofLexeme?

/-- The placeholders of the statement in order, each with its key. -/
def placeholders (s : Statement) : List (Nat × ParamKey) :=
  (List.range s.size).filterMap fun i => (s.paramKey? i).map (i, ·)

/-- The keys of the placeholders in order of first occurrence. -/
def keys (s : Statement) : List ParamKey := (s.placeholders.map Prod.snd).eraseDups

/-- The tokens that stand for the key. -/
def occurrences (s : Statement) (key : ParamKey) : List Nat :=
  (s.placeholders.filter (·.2 == key)).map Prod.fst

/-- The first token that stands for the key. -/
def firstOccurrence (s : Statement) (key : ParamKey) : Nat := (s.occurrences key).headD 0

/-- The first cast of the key. -/
def hint? (s : Statement) (key : ParamKey) : Option TypeName :=
  (s.occurrences key).findSome? s.castHint?

/-- The positions that are used, each once, in order of first occurrence. -/
def positions (s : Statement) : List Nat := s.keys.filterMap ParamKey.position?

/-- The names that are used, each once, in order of first occurrence. -/
def names (s : Statement) : List String := s.keys.filterMap ParamKey.name?

end Statement

/-- The place of a type name. -/
def TypeName.place (type : TypeName) : Place := .tokens type.lo type.hi

namespace Binding

/-- What is wrong with the placeholder at token `i`, read alone or beside the first cast of its
key. -/
def placeholderFindings (s : Statement) (i : Nat) : List Finding :=
  if s.isParam i then
    match s.paramKey? i with
    | none => [⟨.positionOutOfRange (s.text i), .token i⟩]
    | some key =>
      match s.castHint? i, s.hint? key with
      | some hint, some first =>
        if canonicalType hint.text == canonicalType first.text then []
        else [⟨.conflictingHints key first.text hint.text first.place, hint.place⟩]
      | _, _ => []
  else []

/-- Inserts a number into an ascending list. -/
def insertAscending (number : Nat) : List Nat → List Nat
  | [] => [number]
  | other :: rest =>
    if number ≤ other then number :: other :: rest else other :: insertAscending number rest

/-- The numbers in ascending order. -/
def ascending (numbers : List Nat) : List Nat := numbers.foldr insertAscending []

/-- The gaps in an ascending list of positions, of which `expected` should be the first. -/
def gapFindings (s : Statement) (expected : Nat) : List Nat → List Finding
  | [] => []
  | position :: rest =>
    let place := Place.token (s.firstOccurrence (.positional position))
    if position == 0 then ⟨.positionZero, place⟩ :: gapFindings s expected rest
    else if expected < position then
      ⟨.positionsSkipped expected (position - 1), place⟩ :: gapFindings s (position + 1) rest
    else gapFindings s (position + 1) rest

/-- What is wrong with the positions that are used: they have to be one to some number. -/
def positionFindings (s : Statement) : List Finding := gapFindings s 1 (ascending s.positions)

/-- The names that a parameter list gives to positions: all of them in order, in a body without
named placeholders. -/
def slotNames (style : BindingStyle) (s : Statement) : List String :=
  match style with
  | .explicitList names => if s.names.isEmpty then names else []
  | _ => []

/-- Whether the declared name with the given index has a placeholder. -/
def isUsed (style : BindingStyle) (s : Statement) (index : Nat) (name : String) : Bool :=
  s.keys.contains (.named name) ||
    (decide (index < (slotNames style s).length) && s.keys.contains (.positional (index + 1)))

/-- Names without a declaration, then declarations without a placeholder. -/
def declarationFindings (style : BindingStyle) (s : Statement) : List Finding :=
  if style.checksDeclarations then
    let undeclared := s.names.filter fun name => !style.declaredNames.contains name
    let unused := style.declaredNames.zipIdx.filter fun (name, index) =>
      !isUsed style s index name
    undeclared.map (fun name => ⟨.undeclaredName name, .token (s.firstOccurrence (.named name))⟩) ++
      unused.map fun (name, index) => ⟨.unusedDeclaration name, .declaration index⟩
  else []

/-- A header that fixes the number of parameters has to fix the right one. -/
def countFindings (style : BindingStyle) (s : Statement) : List Finding :=
  match style.count? with
  | some declared =>
    if s.keys.length == declared then []
    else [⟨.countMismatch declared s.keys.length, .optionalModifier⟩]
  | none => []

/-- All that is wrong with the placeholders of a statement under a header. -/
def findings (style : BindingStyle) (s : Statement) : List Finding :=
  (List.range s.size).flatMap (placeholderFindings s) ++ positionFindings s ++
    declarationFindings style s ++ countFindings style s

/-- The names in slot order: as declared if declarations count, by first occurrence if not. -/
def orderedNames (style : BindingStyle) (s : Statement) : List String :=
  if style.checksDeclarations then style.declaredNames.eraseDups.filter s.names.contains
  else s.names

/-- The keys in slot order. -/
def orderedKeys (style : BindingStyle) (s : Statement) : List ParamKey :=
  (ascending s.positions).map .positional ++ (orderedNames style s).map .named

/-- The entry of a key. -/
def parameter (style : BindingStyle) (s : Statement) (key : ParamKey) (slot : Nat) : Parameter :=
  let given := match key with
    | .positional number => (slotNames style s)[number - 1]?
    | .named _ => none
  let name := match key with
    | .positional number => given.getD ("arg" ++ toString number)
    | .named name => name
  let declared := match key with
    | .positional _ => given.isSome
    | .named name => style.declaredNames.contains name
  { key, name, slot
    declared := style.count?.isSome || declared
    optional := style.isOptional
    hint := s.hint? key
    occurrences := s.occurrences key }

/-- The parameter table, in slot order. -/
def table (style : BindingStyle) (s : Statement) : List Parameter :=
  (orderedKeys style s).zipIdx.map fun (key, index) => parameter style s key (index + 1)

end Binding

/-- Binds the placeholders of a statement under a header. -/
def bind (style : BindingStyle) (s : Statement) : Analyzed (List Parameter) :=
  let findings := Binding.findings style s
  ⟨if Findings.hasErrors findings then none else some (Binding.table style s), findings⟩

/-- The slot of a named parameter. -/
def slotOfName? (parameters : List Parameter) (name : String) : Option Nat :=
  (parameters.find? (·.key == .named name)).map Parameter.slot

/-- A lexeme of the body with a named placeholder replaced by its slot. -/
def rewriteLexeme (parameters : List Parameter) (lexeme : Lexeme) : List Char :=
  match lexeme.kind, ParamKey.ofLexeme? lexeme with
  | .namedParam, some (.named name) =>
    match slotOfName? parameters name with
    | some slot => (ParamKey.positional slot).display.toList
    | none => lexeme.text.toList
  | _, _ => lexeme.text.toList

/-- The text with every named placeholder replaced by its slot. -/
def rewriteText (parameters : List Parameter) (text : List Char) : List Char :=
  (lexemes text).flatMap (rewriteLexeme parameters)

/-! ## Queries

The parameters of a query are those of its body, in whose text they are numbered. -/

namespace Query

/-- The body with its tokens in place. -/
def read (query : Query) : Body := .read query.bodySpan.start query.body

/-- The statement in the body. -/
def statement (query : Query) : Statement := query.read.statement

/-- The findings as reports, in order. -/
def reports (query : Query) (findings : List Finding) : List Report :=
  findings.map (Finding.report query query.read)

/-- Binds the placeholders of the body. -/
def bind (query : Query) : Analyzed (List Parameter) :=
  AnnotatedSql.bind query.descriptor.bindingStyle query.statement

/-- The body as written, without blanks around it. -/
def sql (query : Query) : String := String.ofList (trim query.body)

/-- The body with a slot for every named placeholder, without blanks around it. -/
def rewrittenSql (query : Query) (parameters : List Parameter) : String :=
  String.ofList (trim (rewriteText parameters query.body))

end Query

end AnnotatedSql
