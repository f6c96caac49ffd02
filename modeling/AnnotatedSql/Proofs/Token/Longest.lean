import AnnotatedSql.Proofs.Token.Membership
import AnnotatedSql.Token.Lexer

/-!
# The longest match

Running the rules over a text finds the longest start of it that some rule matches, and the first
rule that does.
-/

namespace AnnotatedSql

namespace Lexer

/-- The reading of the first rule that the text belongs to. -/
def firstReading (rules : List Rule) (text : List Char) : Option Reading :=
  (rules.find? (·.pattern.accepts text)).map Rule.reading

/-- No rule matches the text with a start of `rest` added to it. -/
def Final (rules : List Rule) (text rest : List Char) : Prop :=
  ∀ more, more ≠ [] → more <+: rest → firstReading rules (text ++ more) = none

/-- The text is matched, first by a rule of the given reading, and no longer start of it and `rest`
is. -/
structure Longest (rules : List Rule) (reading : Reading) (text rest : List Char) : Prop where
  matched : firstReading rules text = some reading
  final : Final rules text rest

variable {rules : List Rule} {c : Char} {text rest : List Char} {reading : Reading}

theorem accepted_eq (rules : List Rule) : accepted rules = firstReading rules [] := rfl

theorem firstReading_cons (rule : Rule) (rules : List Rule) (text : List Char) :
    firstReading (rule :: rules) text =
      if rule.pattern.accepts text then some rule.reading else firstReading rules text := by
  unfold firstReading
  rw [List.find?_cons]
  cases rule.pattern.accepts text <;> rfl

/-- The rules that a character leaves alive match what is left of a text. -/
theorem firstReading_advance (c : Char) (rules : List Rule) (text : List Char) :
    firstReading (advance c rules) text = firstReading rules (c :: text) := by
  induction rules with
  | nil => rfl
  | cons rule rules ih =>
    have derived : rule.pattern.accepts (c :: text) = (rule.pattern.derive c).accepts text := rfl
    rw [firstReading_cons, derived]
    unfold advance
    cases rest : rule.pattern.derive c with
    | never =>
      have refused : Pattern.never.accepts text = false := by
        rw [Bool.eq_false_iff, ne_eq, Pattern.accepts_iff]
        exact Pattern.matches_never
      simpa [Pattern.isNever, refused] using ih
    | _ => simp [Pattern.isNever, firstReading_cons, ih]

theorem final_advance : Final (advance c rules) text rest ↔ Final rules (c :: text) rest := by
  unfold Final
  simp only [firstReading_advance, List.cons_append]

theorem longest_advance :
    Longest (advance c rules) reading text rest ↔ Longest rules reading (c :: text) rest := by
  constructor
  · rintro ⟨matched, final⟩
    exact ⟨firstReading_advance c rules text ▸ matched, final_advance.mp final⟩
  · rintro ⟨matched, final⟩
    exact ⟨(firstReading_advance c rules text).trans matched, final_advance.mpr final⟩

/-- Nothing is matched by a nonempty text if nothing is by its first character or beyond. -/
theorem final_cons : Final rules [] (c :: rest) ↔
    firstReading rules [c] = none ∧ Final rules [c] rest := by
  constructor
  · intro final
    refine ⟨final [c] (by simp) (by simp), fun more _ starts => ?_⟩
    exact final (c :: more) (by simp) (List.cons_prefix_cons.mpr ⟨rfl, starts⟩)
  · rintro ⟨single, final⟩ more nonempty starts
    cases more with
    | nil => exact absurd rfl nonempty
    | cons d more =>
      obtain ⟨rfl, within⟩ := List.cons_prefix_cons.mp starts
      by_cases last : more = []
      · rw [last]
        exact single
      · exact final more last within

theorem final_nil (rules : List Rule) (text : List Char) : Final rules text [] :=
  fun _ nonempty starts => absurd (List.prefix_nil.mp starts) nonempty

/-- One character on, the match found so far is the one that ends here, if one does. -/
theorem scanFrom_cons (rules : List Rule) (count : Nat) (best : Option (Reading × Nat)) (c : Char)
    (text : List Char) :
    (scanFrom rules count best (c :: text)).best =
      (scanFrom (advance c rules) (count + 1)
        (((firstReading rules [c]).map (·, count + 1)).or best) text).best := by
  have ends : accepted (advance c rules) = firstReading rules [c] := by
    rw [accepted_eq, firstReading_advance]
  rw [scanFrom]
  cases living : advance c rules with
  | nil =>
    have none : firstReading rules [c] = none := by
      rw [← ends, living]
      rfl
    rw [none]
    cases text <;> rfl
  | cons rule others =>
    rw [living] at ends
    dsimp only
    rw [ends]
    cases firstReading rules [c] <;> rfl

/-- What a scan finds: the longest match in the text if there is one, and what was found before
if there is none. -/
theorem scanFrom_best (rules : List Rule) (count : Nat) (best : Option (Reading × Nat))
    (text : List Char) {reading : Reading} {length : Nat} :
    (scanFrom rules count best text).best = some (reading, length) ↔
      (∃ matched rest, matched ≠ [] ∧ text = matched ++ rest ∧ length = count + matched.length ∧
        Longest rules reading matched rest) ∨
      best = some (reading, length) ∧ Final rules [] text := by
  induction text generalizing rules count best with
  | nil =>
    constructor
    · exact fun found => Or.inr ⟨found, final_nil rules []⟩
    · rintro (⟨matched, rest, nonempty, whole, _⟩ | ⟨found, _⟩)
      · exact absurd (List.append_eq_nil_iff.mp whole.symm).1 nonempty
      · exact found
  | cons c text ih =>
    rw [scanFrom_cons, ih, final_cons, final_advance]
    constructor
    · rintro (⟨matched, rest, nonempty, rfl, rfl, longest⟩ | ⟨found, final⟩)
      · refine Or.inl ⟨c :: matched, rest, by simp, rfl, ?_, longest_advance.mp longest⟩
        rw [List.length_cons]
        omega
      · cases single : firstReading rules [c] with
        | none =>
          rw [single] at found
          exact Or.inr ⟨found, rfl, final⟩
        | some first =>
          rw [single] at found
          cases found
          exact Or.inl ⟨[c], text, by simp, rfl, rfl, single, final⟩
    · rintro (⟨matched, rest, nonempty, whole, rfl, longest⟩ | ⟨found, single, final⟩)
      · cases matched with
        | nil => exact absurd rfl nonempty
        | cons d matched =>
          cases whole
          by_cases last : matched = []
          · subst last
            refine Or.inr ⟨?_, longest.final⟩
            rw [longest.matched]
            rfl
          · refine Or.inl ⟨matched, rest, last, rfl, ?_, longest_advance.mpr longest⟩
            rw [List.length_cons]
            omega
      · rw [single]
        exact Or.inr ⟨found, final⟩

end Lexer

end AnnotatedSql
