import AnnotatedSql.Parameter.Binding
import AnnotatedSql.Proofs.Checked.Token

/-!
# Rewriting by position

The body is rewritten from left to right: the text up to a named placeholder is copied, a slot is
written for the placeholder, and copying goes on where it ends. Every cut begins where a token ends,
or at the start of the body, and ends where a token begins, or at the end of the body.
-/

namespace AnnotatedSql

/-- What is written for a lexeme instead of its spelling, if anything. -/
def replacement? (parameters : List Parameter) (lexeme : Lexeme) : Option (List Char) :=
  if lexeme.kind == .namedParam then do
    let key ← ParamKey.ofLexeme? lexeme
    let name ← key.name?
    let slot ← slotOfName? parameters name
    return (ParamKey.positional slot).display.toList
  else none

theorem rewriteLexeme_eq (parameters : List Parameter) (lexeme : Lexeme) :
    rewriteLexeme parameters lexeme =
      (replacement? parameters lexeme).getD lexeme.text.toList := by
  unfold rewriteLexeme replacement?
  by_cases named : lexeme.kind = .namedParam
  · simp only [named, ParamKey.ofLexeme?, BEq.rfl, if_true, Option.bind_eq_bind, Option.bind_some,
      ParamKey.name?]
    cases slotOfName? parameters (String.ofList (lexeme.text.toList.drop 1)) <;> rfl
  · simp only [beq_eq_false_iff_ne.mpr named, Bool.false_eq_true, if_false, Option.getD_none]
    split
    next same _ => exact absurd same named
    · rfl

theorem replacement_trivia {parameters : List Parameter} {lexeme : Lexeme}
    (trivia : lexeme.kind.isTrivia = true) : replacement? parameters lexeme = none := by
  unfold replacement?
  cases kind : lexeme.kind <;> simp_all [TokenKind.isTrivia]

namespace Checked

/-- Rewrites a body that begins at `base` from byte `cursor` on, given its tokens from there on. -/
def rewriteFrom (base : Nat) (text : List Char) (parameters : List Parameter) :
    Nat → List Token → Checked (List Char)
  | cursor, [] => cut text cursor (byteLength text)
  | cursor, token :: tokens =>
    match replacement? parameters token.toLexeme with
    | none => rewriteFrom base text parameters cursor tokens
    | some replacement => do
      let start ← sub token.span.start base
      let stop ← sub token.span.stop base
      let copied ← cut text cursor start
      let rest ← rewriteFrom base text parameters stop tokens
      pure (copied ++ replacement ++ rest)

/-- The body with a slot for every named placeholder. -/
def rewrite (base : Nat) (text : List Char) (parameters : List Parameter) :
    Checked (List Char) := do
  let tokens ← significantAt base text
  rewriteFrom base text parameters 0 tokens

/-- `done` is rewritten already, and `pending` is still to be copied. -/
theorem rewriteFrom_eq {base : Nat} {parameters : List Parameter} {lexemes : List Lexeme}
    {done pending : List Char} {position : Nat}
    (here : position = base + byteLength (done ++ pending)) :
    rewriteFrom base (done ++ pending ++ lexemes.flatMap (·.text.toList)) parameters
        (byteLength done)
        ((AnnotatedSql.place position lexemes).filter fun token => !token.kind.isTrivia) =
      pure (pending ++ lexemes.flatMap (rewriteLexeme parameters)) := by
  induction lexemes generalizing done pending position with
  | nil =>
    have last := cut_append done pending []
    rw [← byteLength_append, List.append_nil] at last
    simpa [rewriteFrom, AnnotatedSql.place] using last
  | cons lexeme rest ih =>
    -- A lexeme that stays as it is comes to what is pending.
    have kept (same : replacement? parameters lexeme = none) :
        rewriteFrom base (done ++ pending ++ (lexeme :: rest).flatMap (·.text.toList)) parameters
            (byteLength done) ((AnnotatedSql.place (position + byteLength lexeme.text.toList) rest).filter
              fun token => !token.kind.isTrivia) =
          pure (pending ++ (lexeme :: rest).flatMap (rewriteLexeme parameters)) := by
      have later := @ih done (pending ++ lexeme.text.toList)
        (position + byteLength lexeme.text.toList) (by simp [here, Nat.add_assoc])
      simpa [rewriteLexeme_eq parameters lexeme, same] using later
    rw [AnnotatedSql.place, List.filter_cons]
    split
    · unfold rewriteFrom
      split
      next same => exact kept same
      next replacement found =>
        have copied := cut_append done pending ((lexeme :: rest).flatMap (·.text.toList))
        have later := @ih (done ++ pending ++ lexeme.text.toList) []
          (position + byteLength lexeme.text.toList) (by simp [here, Nat.add_assoc])
        have start : position - base = byteLength done + byteLength pending := by
          rw [here, byteLength_append, Nat.add_sub_cancel_left]
        have stop : position + byteLength lexeme.text.toList - base =
            byteLength (done ++ pending ++ lexeme.text.toList) := by
          rw [here, byteLength_append, byteLength_append]
          omega
        rw [List.append_nil, List.append_assoc _ lexeme.text.toList] at later
        dsimp only at found ⊢
        rw [sub_eq (by omega), pure_bind, sub_eq (by omega), pure_bind, start, stop, copied,
          pure_bind, List.flatMap_cons, later, pure_bind, List.flatMap_cons,
          rewriteLexeme_eq parameters lexeme, found]
        simp
    next trivia =>
      exact kept (replacement_trivia (by simpa using trivia))

/-- Rewriting meets no trap. -/
theorem rewrite_eq {base : Nat} {text : List Char} (parameters : List Parameter)
    (fits : base + byteLength text < UInt32.size) :
    rewrite base text parameters = pure (rewriteText parameters text) := by
  have rewritten := @rewriteFrom_eq base parameters (AnnotatedSql.lexemes text) [] [] base (by simp)
  rw [List.nil_append, List.nil_append, List.nil_append, lexemes_flatten] at rewritten
  unfold rewrite
  rw [significantAt_eq fits, pure_bind]
  exact rewritten

end Checked

end AnnotatedSql
