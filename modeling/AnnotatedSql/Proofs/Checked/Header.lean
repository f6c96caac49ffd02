import AnnotatedSql.Proofs.Checked.Basic
import AnnotatedSql.Proofs.Header.Reading
import AnnotatedSql.Proofs.Header.Spans

/-!
# Headers read by index

A header is read by an index into its tokens that only grows. The tokens from the index on are what
is left to read, so that every index that is read exists and every range of tokens lies among them.
A modifier ends at the token before the one that is read next, which stands after the token it
begins with.
-/

namespace AnnotatedSql

namespace Checked

/-- The items from `start` to before `stop`. -/
def range {α : Type} (items : List α) (start stop : Nat) : Checked (List α) :=
  if start ≤ stop ∧ stop ≤ items.length then pure ((items.drop start).take (stop - start))
  else throw .noItem

/-- Reads the names of a parameter list from index `next` on, over at most `fuel` tokens. `names` are
those read before. -/
def readList (tokens : List Token) (opening : Span) :
    Nat → List Token → Nat → Checked (Except HeaderFault (List Token × Nat))
  | 0, _, _ => pure (.error (.unclosedList opening))
  | fuel + 1, names, next =>
    match tokens[next]? with
    | none => pure (.error (.unclosedList opening))
    | some token =>
      match token.kind with
      | .parenClose => pure (.ok (names, next + 1))
      | .ident =>
        match names.findIdx? (·.text == token.text) with
        | some index => do
          let first ← get (names.map (·.span)) index
          pure (.error (.duplicate token first))
        | none =>
          let following : Option TokenKind := tokens[next + 1]?.map (·.kind)
          match following with
          | some .comma => readList tokens opening fuel (names ++ [token]) (next + 2)
          | some .parenClose | none => readList tokens opening fuel (names ++ [token]) (next + 1)
          | some _ => do
            let found ← get tokens (next + 1)
            pure (.error (.unexpected found .commaOrClose))
      | _ => pure (.error (.unexpected token .parameterName))

/-- Reads what a modifier says from index `next` on, after its first token. -/
def readMarkerKind (tokens : List Token) (opening : Token) (next : Nat) :
    Checked (Except HeaderFault (MarkerKind × Nat)) := do
  let rest ← range tokens next tokens.length
  match rest.findIdx? (·.kind == .braceClose) with
  | none => pure (.error (.unterminated opening))
  | some distance => do
    let inner ← range tokens next (next + distance)
    if opening.kind == .exactOpen then
      match inner with
      | [] => pure (.ok (.exact, next + distance + 1))
      | token :: _ => pure (.error (.unexpected token .closingBrace))
    else
      match Header.readArgument inner with
      | .error fault => pure (.error fault)
      | .ok argument => pure (.ok (.optional argument, next + distance + 1))

/-- The span of a modifier that ends before index `next`. -/
def markerSpan (tokens : List Token) (opening : Token) (next : Nat) : Checked Span := do
  let last ← sub next 1
  let closing ← get tokens last
  span opening.span.start closing.span.stop

/-- Reads the modifier whose first token has index `next`. -/
def readMarker (tokens : List Token) (opening : Token) (next : Nat) :
    Checked (Except HeaderFault (Marker × Nat)) := do
  match ← readMarkerKind tokens opening (next + 1) with
  | .error fault => pure (.error fault)
  | .ok (kind, next) => do
    let place ← markerSpan tokens opening next
    pure (.ok (⟨kind, place⟩, next))

/-- Reads at most `fuel` modifiers from index `next` on. -/
def readMarkers (tokens : List Token) (list : Option Span) :
    Nat → Modifiers → Nat → Checked (Except HeaderFault Modifiers)
  | 0, modifiers, _ => pure (.ok modifiers)
  | fuel + 1, modifiers, next =>
    match tokens[next]? with
    | none => pure (.ok modifiers)
    | some opening =>
      if opening.kind == .optionalOpen || opening.kind == .exactOpen then do
        match ← readMarker tokens opening next with
        | .error fault => pure (.error fault)
        | .ok (marker, next) =>
          match modifiers.add list marker with
          | .error fault => pure (.error fault)
          | .ok modifiers => readMarkers tokens list fuel modifiers next
      else pure (.error (.unexpected opening .modifier))

/-- Reads the parameter list if there is one at index `next`. -/
def readParameters (tokens : List Token) (next : Nat) :
    Checked (Except HeaderFault (Option (List Token) × Nat)) :=
  match tokens[next]? with
  | none => pure (.ok (none, next))
  | some token =>
    if token.kind == .parenOpen then do
      match ← readList tokens token.span tokens.length [] (next + 1) with
      | .error fault => pure (.error fault)
      | .ok (names, next) => pure (.ok (some names, next))
    else pure (.ok (none, next))

/-- Reads the significant tokens of a header. -/
def header (suffix : String) (tokens : List Token) : Checked (Except HeaderFault Header) :=
  match tokens[0]? with
  | none => pure (.error .unnamed)
  | some name =>
    if name.kind == .ident then do
      match ← readParameters tokens 1 with
      | .error fault => pure (.error fault)
      | .ok (list, next) => do
        let places := list.map fun _ => name.span
        match ← readMarkers tokens places (tokens.length - next) {} next with
        | .error fault => pure (.error fault)
        | .ok modifiers => pure (.ok (Header.assemble suffix name list modifiers))
    else pure (.error .unnamed)

/-! ## No trap is met -/

/-- The outcome of reading up to an index agrees with an outcome that leaves tokens: the faults are
the same, or the values are and the tokens left are those from the index on. -/
def Leaves {α : Type} (tokens : List Token) (outcome : Except HeaderFault (α × Nat))
    (expected : Except HeaderFault (α × List Token)) : Prop :=
  mapBoth id (fun (value, next) => (value, tokens.drop next)) outcome = expected ∧
    ∀ value next, outcome = .ok (value, next) → next ≤ tokens.length

variable {tokens : List Token}

theorem Leaves.error {α : Type} {fault : HeaderFault} :
    Leaves (α := α) tokens (.error fault) (.error fault) :=
  ⟨rfl, fun _ _ impossible => nomatch impossible⟩

theorem Leaves.ok {α : Type} {value : α} {next : Nat} {rest : List Token}
    (left : tokens.drop next = rest) (inside : next ≤ tokens.length) :
    Leaves tokens (.ok (value, next)) (.ok (value, rest)) := by
  refine ⟨by rw [← left]; rfl, fun other last same => ?_⟩
  cases same
  exact inside

end Checked

/-! ## Few names -/

namespace Header

theorem readList_length {opening : Span} {names tokens list after : List Token}
    (read : readList opening names tokens = .ok (list, after)) :
    list.length ≤ names.length + tokens.length := by
  fun_induction readList opening names tokens with
  | case2 names token rest closes =>
    cases read
    rw [List.length_reverse]
    omega
  | case5 names token named fresh next rest separates ih =>
    have further := ih read
    simp only [List.length_cons] at further ⊢
    omega
  | case6 names token named fresh next rest closes =>
    cases read
    simp only [List.length_reverse, List.length_cons]
    omega
  | _ => cases read

theorem readParameters_length {tokens names after : List Token}
    (read : readParameters tokens = .ok (some names, after)) : names.length ≤ tokens.length := by
  cases tokens with
  | nil => cases read
  | cons token rest =>
    rw [readParameters] at read
    split at read
    · cases listed : readList token.span [] rest with
      | error fault =>
        rw [listed] at read
        cases read
      | ok found =>
        rw [listed] at read
        cases read
        have few := readList_length listed
        simp only [List.length_nil, List.length_cons] at few ⊢
        omega
    · cases read

/-- A header declares no more names than it has tokens. -/
theorem ofTokens_declared {suffix : String} {tokens : List Token} {header : Header}
    (read : ofTokens suffix tokens = .ok header) :
    header.descriptor.declaredNames.length ≤ tokens.length := by
  cases tokens with
  | nil => cases read
  | cons name rest =>
    rw [ofTokens] at read
    split at read
    · cases listed : readParameters rest with
      | error fault =>
        rw [listed] at read
        cases read
      | ok found =>
        obtain ⟨list, after⟩ := found
        rw [listed, bind_ok rfl] at read
        dsimp only at read
        cases marked : readMarkers (list.map fun _ => name.span) after.length {} after with
        | error fault =>
          rw [marked] at read
          cases read
        | ok modifiers =>
          rw [marked] at read
          cases read
          rw [List.length_cons]
          cases list with
          | some names =>
            have few := readParameters_length listed
            simp only [assemble, Descriptor.declaredNames, BindingStyle.declaredNames,
              List.length_map]
            omega
          | none =>
            unfold assemble
            rcases modifiers.argument with _ | ⟨_ | _, _⟩ <;>
              simp [Descriptor.declaredNames, BindingStyle.declaredNames]
    · cases read

end Header

end AnnotatedSql
