import AnnotatedSql.Proofs.Token.Lexing
import AnnotatedSql.Proofs.Token.Reach

/-!
# Cutting any text

Where no token begins there is a fault: an opening tag that is never closed, or all that some rule
was alive for. Tokens and faults, one after another, are the pieces of a text; what follows from the
pieces of its rest holds of the text.
-/

namespace AnnotatedSql

namespace Lexer

variable {rules : List Rule} {text fault rest : List Char}

/-- A scan finds nothing if no rule matches any start of the text. -/
theorem scanFrom_none (rules : List Rule) (count : Nat) (best : Option (Reading × Nat))
    (text : List Char) :
    (scanFrom rules count best text).best = none ↔ best = none ∧ Final rules [] text := by
  induction text generalizing rules count best with
  | nil => exact ⟨fun none => ⟨none, final_nil rules []⟩, And.left⟩
  | cons c text ih =>
    rw [scanFrom_cons, ih, final_cons, final_advance]
    cases firstReading rules [c] <;> simp

theorem reach_le (rules : List Rule) (count : Nat) (best : Option (Reading × Nat))
    (text : List Char) : (scanFrom rules count best text).reach ≤ count + text.length := by
  induction text generalizing rules count best with
  | nil => exact Nat.le_refl _
  | cons c text ih =>
    unfold scanFrom
    split
    · exact Nat.le_add_right _ _
    · rw [List.length_cons]
      refine Nat.le_trans (ih _ _ _) ?_
      omega

/-- The text `fault`, followed by `rest`, is a fault: a tag that opens a string and is not found
again, or what rules are alive for, none of which matches anything. A character that no rule begins
with is a fault by itself. -/
inductive Fails (fault rest : List Char) : Prop
  | unclosed (nonempty : fault ≠ []) (longest : Longest Rule.all .openingTag fault rest)
      (unfound : distanceTo fault rest = none)
  | stuck (nonempty : fault ≠ []) (unmatched : Final Rule.all [] (fault ++ rest))
      (stops : Stops Rule.all fault rest ∨ ∃ c, fault = [c] ∧ ¬Alive Rule.all [c])

theorem Fails.ne_nil (fails : Fails fault rest) : fault ≠ [] := by
  cases fails <;> assumption

theorem exists_fails {length : Nat} (nonempty : text ≠ []) (stepped : step text = (none, length)) :
    ∃ fault rest, text = fault ++ rest ∧ length = fault.length ∧ Fails fault rest := by
  unfold step at stepped
  dsimp only at stepped
  split at stepped
  next => cases stepped
  next found =>
    obtain ⟨tag, others, tagged, rfl, rfl, longest⟩ := scan_best.mp found
    rw [List.take_left, List.drop_left] at stepped
    split at stepped
    next => cases stepped
    next unfound =>
      cases stepped
      exact ⟨tag, others, rfl, rfl, .unclosed tagged longest unfound⟩
  next found =>
    obtain ⟨_, unmatched⟩ := (scanFrom_none _ _ _ _).mp found
    cases stepped
    have bounded := reach_le Rule.all 0 none text
    rw [Nat.zero_add] at bounded
    generalize reached : (scanFrom Rule.all 0 none text).reach = reach at bounded
    obtain ⟨c, tail, rfl⟩ := List.exists_cons_of_ne_nil nonempty
    -- Where no rule gets past the first character, that character alone is the fault.
    by_cases nothing : reach = 0
    · have stops : Stops Rule.all [] (c :: tail) :=
        (scanFrom_reach Rule.all 0 none [] (c :: tail)).mp (reached.trans nothing)
      refine ⟨[c], tail, rfl, by simp [nothing], .stuck (by simp) unmatched (Or.inr ⟨c, rfl, ?_⟩)⟩
      exact stops.ends c tail rfl
    · have parts := List.take_append_drop reach (c :: tail)
      have counted := List.length_take_of_le bounded
      refine ⟨(c :: tail).take reach, (c :: tail).drop reach, parts.symm, by omega, ?_⟩
      refine .stuck (by simp [nothing]) (by rwa [parts]) (Or.inl ?_)
      refine (scanFrom_reach Rule.all 0 none _ _).mp ?_
      rw [parts, reached, counted, Nat.zero_add]

theorem step_of_fails (fails : Fails fault rest) : step (fault ++ rest) = (none, fault.length) := by
  unfold step
  dsimp only
  cases fails with
  | unclosed nonempty longest unfound =>
    rw [scan_best.mpr ⟨fault, rest, nonempty, rfl, rfl, longest⟩]
    simp only [List.take_left, List.drop_left, unfound]
  | stuck nonempty unmatched stops =>
    rw [(scanFrom_none _ _ _ _).mpr ⟨rfl, unmatched⟩]
    have positive := List.length_pos_iff.mpr nonempty
    rcases stops with stops | ⟨c, rfl, dies⟩
    · have reached := (scanFrom_reach Rule.all 0 none fault rest).mpr stops
      rw [Prod.mk.injEq]
      exact ⟨rfl, by omega⟩
    · have stops : Stops Rule.all [] ([c] ++ rest) := by
        refine ⟨fun impossible => absurd rfl impossible, fun d tail same => ?_⟩
        cases same
        exact dies
      have reached := (scanFrom_reach Rule.all 0 none [] ([c] ++ rest)).mpr stops
      rw [List.nil_append, List.length_nil] at reached
      rw [reached]
      rfl

/-! ## Pieces -/

/-- The text is cut into the pieces. -/
inductive Cuts : List Char → List Piece → Prop
  | nil : Cuts [] []
  | token {kind : TokenKind} {token rest : List Char} {pieces : List Piece}
      (begins : Begins kind token rest) (next : Cuts rest pieces) :
      Cuts (token ++ rest) (⟨some kind, token⟩ :: pieces)
  | fault {fault rest : List Char} {pieces : List Piece} (fails : Fails fault rest)
      (next : Cuts rest pieces) : Cuts (fault ++ rest) (⟨none, fault⟩ :: pieces)

theorem cuts_cut {fuel : Nat} (enough : text.length ≤ fuel) : Cuts text (cut fuel text) := by
  induction fuel generalizing text with
  | zero =>
    rw [List.length_eq_zero_iff.mp (Nat.le_zero.mp enough)]
    exact .nil
  | succ fuel ih =>
    cases text with
    | nil => exact .nil
    | cons c text =>
      have shorter : ∀ {piece rest : List Char}, c :: text = piece ++ rest → piece ≠ [] →
          rest.length ≤ fuel := by
        intro piece rest whole nonempty
        have counted := congrArg List.length whole
        have positive := List.length_pos_iff.mpr nonempty
        simp only [List.length_cons, List.length_append] at counted enough
        omega
      unfold cut
      generalize stepped : step (c :: text) = outcome
      obtain ⟨_ | kind, length⟩ := outcome
      · obtain ⟨fault, rest, whole, rfl, fails⟩ := exists_fails (by simp) stepped
        dsimp only
        rw [whole, List.take_left, List.drop_left]
        exact .fault fails (ih (shorter whole fails.ne_nil))
      · obtain ⟨token, rest, whole, rfl, begins⟩ := exists_begins stepped
        dsimp only
        rw [whole, List.take_left, List.drop_left]
        exact .token begins (ih (shorter whole begins.ne_nil))

/-- A text is cut in one way. -/
theorem Cuts.cut_eq {pieces : List Piece} (cuts : Cuts text pieces) {fuel : Nat}
    (enough : text.length ≤ fuel) : cut fuel text = pieces := by
  have cut_of_step : ∀ {piece rest : List Char} {kind fuel}, piece ≠ [] →
      (piece ++ rest).length ≤ fuel → step (piece ++ rest) = (kind, piece.length) →
        ∃ less, rest.length ≤ less ∧ cut fuel (piece ++ rest) = ⟨kind, piece⟩ :: cut less rest := by
    intro piece rest kind fuel nonempty enough stepped
    obtain ⟨c, tail, rfl⟩ := List.exists_cons_of_ne_nil nonempty
    cases fuel with
    | zero => simp at enough
    | succ fuel =>
      refine ⟨fuel, ?_, ?_⟩
      · simp only [List.length_append, List.length_cons] at enough
        omega
      · rw [List.cons_append] at stepped ⊢
        rw [cut, stepped]
        dsimp only
        rw [← List.cons_append, List.take_left, List.drop_left]
  induction cuts generalizing fuel with
  | nil => cases fuel <;> rfl
  | token begins _ ih =>
    obtain ⟨less, enough, cuts⟩ := cut_of_step begins.ne_nil enough (step_of_begins begins)
    rw [cuts, ih enough]
  | fault fails _ ih =>
    obtain ⟨less, enough, cuts⟩ := cut_of_step fails.ne_nil enough (step_of_fails fails)
    rw [cuts, ih enough]

theorem exists_cuts (text : List Char) : ∃ pieces, Cuts text pieces :=
  ⟨_, cuts_cut (Nat.le_refl _)⟩

theorem Cuts.lexemes_eq {pieces : List Piece} (cuts : Cuts text pieces) :
    lexemes text = join [] pieces := by
  unfold lexemes
  rw [cuts.cut_eq (Nat.le_refl _)]

end Lexer

end AnnotatedSql
