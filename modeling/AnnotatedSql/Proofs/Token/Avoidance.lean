import AnnotatedSql.Proofs.Token.Longest
import Mathlib.Data.List.Basic

/-!
# Characters that tokens avoid

Which characters a pattern never takes, and which it never ends with, shows from its parts. For
given characters the rules that may take them are found by going through all rules.
-/

namespace AnnotatedSql

namespace Pattern

variable {p : Pattern} {c : Char} {t : List Char}

/-- Whether no text of the pattern contains the character. -/
def avoids (c : Char) : Pattern → Bool
  | never => true
  | empty => true
  | char accepts => !accepts c
  | seq p q => p.avoids c && q.avoids c
  | alt p q => p.avoids c && q.avoids c
  | star p => p.avoids c

/-- Whether no text of the pattern ends with the character. -/
def avoidsLast (c : Char) : Pattern → Bool
  | never => true
  | empty => true
  | char accepts => !accepts c
  | seq p q => q.avoidsLast c && (!q.nullable || p.avoidsLast c)
  | alt p q => p.avoidsLast c && q.avoidsLast c
  | star p => p.avoidsLast c

theorem not_mem_of_avoids (matched : Matches p t) (avoided : p.avoids c = true) : c ∉ t := by
  induction matched with
  | empty => simp
  | char accepted =>
    intro member
    obtain rfl := List.mem_singleton.mp member
    simp [avoids, accepted] at avoided
  | seq _ _ first second =>
    rw [avoids, Bool.and_eq_true] at avoided
    rw [List.mem_append, not_or]
    exact ⟨first avoided.1, second avoided.2⟩
  | altLeft _ ih =>
    rw [avoids, Bool.and_eq_true] at avoided
    exact ih avoided.1
  | altRight _ ih =>
    rw [avoids, Bool.and_eq_true] at avoided
    exact ih avoided.2
  | starNil => simp
  | starCons _ _ first rest =>
    rw [List.mem_append, not_or]
    exact ⟨first avoided, rest avoided⟩

theorem getLast_of_avoids (matched : Matches p t) (avoided : p.avoidsLast c = true) :
    t.getLast? ≠ some c := by
  induction matched with
  | empty => simp
  | @char accepts d accepted =>
    intro last
    obtain rfl : d = c := by simpa using last
    simp [avoidsLast, accepted] at avoided
  | @seq p q a b first second firstLast secondLast =>
    simp only [avoidsLast, Bool.and_eq_true, Bool.or_eq_true, Bool.not_eq_true'] at avoided
    by_cases ends : b = []
    · subst ends
      have nullable := nullable_iff.mpr second
      rw [List.append_nil]
      exact firstLast (avoided.2.resolve_left (by simp [nullable]))
    · rw [List.getLast?_append_of_ne_nil a ends]
      exact secondLast avoided.1
  | altLeft _ ih =>
    rw [avoidsLast, Bool.and_eq_true] at avoided
    exact ih avoided.1
  | altRight _ ih =>
    rw [avoidsLast, Bool.and_eq_true] at avoided
    exact ih avoided.2
  | starNil => simp
  | @starCons p a b _ _ first rest =>
    by_cases ends : b = []
    · subst ends
      rw [List.append_nil]
      exact first avoided
    · rw [List.getLast?_append_of_ne_nil a ends]
      exact rest avoided

end Pattern

namespace Lexer

variable {rules : List Rule} {rule : Rule} {reading : Reading} {text : List Char}

theorem exists_rule (found : firstReading rules text = some reading) :
    ∃ rule ∈ rules, rule.reading = reading ∧ rule.pattern.Matches text := by
  obtain ⟨rule, first, rfl⟩ := Option.map_eq_some_iff.mp found
  have accepts := List.find?_some first
  exact ⟨rule, List.mem_of_find?_eq_some first, rfl, Pattern.accepts_iff.mp accepts⟩

/-- The rules that give a reading are the only ones to match what is read so. -/
theorem exists_among {among : List Rule} (all : Rule.all.filter (·.reading = reading) = among)
    (found : firstReading Rule.all text = some reading) :
    ∃ rule ∈ among, rule.pattern.Matches text := by
  obtain ⟨rule, member, read, matched⟩ := exists_rule found
  refine ⟨rule, ?_, matched⟩
  rw [← all]
  exact List.mem_filter.mpr ⟨member, by simpa using read⟩

/-- What only one rule reads so is a text of that rule. -/
theorem matches_of_only (only : Rule.all.filter (·.reading = reading) = [rule])
    (found : firstReading Rule.all text = some reading) : rule.pattern.Matches text := by
  obtain ⟨other, member, matched⟩ := exists_among only found
  rwa [List.mem_singleton.mp member] at matched

/-- Where some rule matches, there is a first one. -/
theorem firstReading_ne_none (member : rule ∈ rules) (matched : rule.pattern.Matches text) :
    firstReading rules text ≠ none := by
  intro none
  have refused := List.find?_eq_none.mp (Option.map_eq_none_iff.mp none) rule member
  exact refused (Pattern.accepts_iff.mpr matched)

/-- Where no rule matches, there is none. -/
theorem firstReading_eq_none (refused : ∀ rule ∈ rules, ¬rule.pattern.Matches text) :
    firstReading rules text = none := by
  refine Option.map_eq_none_iff.mpr (List.find?_eq_none.mpr fun rule member accepts => ?_)
  exact refused rule member (Pattern.accepts_iff.mp accepts)

/-- The rules with texts that begin with the character. -/
def startingWith (c : Char) : List Rule :=
  Rule.all.filter fun rule => !(rule.pattern.derive c).isNever

theorem mem_startingWith {c : Char} (member : rule ∈ Rule.all)
    (matched : rule.pattern.Matches (c :: text)) : rule ∈ startingWith c := by
  refine List.mem_filter.mpr ⟨member, ?_⟩
  have derived := Pattern.matches_derive.mpr matched
  cases rest : rule.pattern.derive c with
  | never =>
    rw [rest] at derived
    exact absurd derived Pattern.matches_never
  | _ => rfl

/-- A match that begins with the character is one of a rule with such texts. -/
theorem exists_startingWith {c : Char} (found : firstReading Rule.all (c :: text) = some reading) :
    ∃ rule ∈ startingWith c, rule.reading = reading ∧ rule.pattern.Matches (c :: text) := by
  obtain ⟨rule, member, read, matched⟩ := exists_rule found
  exact ⟨rule, mem_startingWith member matched, read, matched⟩

/-- Only rules with texts that begin with the character can match. -/
theorem firstReading_startingWith_eq_none {c : Char}
    (refused : ∀ rule ∈ startingWith c, ¬rule.pattern.Matches (c :: text)) :
    firstReading Rule.all (c :: text) = none :=
  firstReading_eq_none fun rule member matched =>
    refused rule (mem_startingWith member matched) matched

/-- The patterns that may take a dollar sign or a colon. -/
theorem marker_patterns :
    (Rule.all.filter fun rule => !(rule.pattern.avoids '$' && rule.pattern.avoids ':')).map
      Rule.pattern =
    [.text "::".toList, .text ":".toList, .seq (Rule.one '$') (.oneOrMore (.char Char.isDigit)),
      .seq (Rule.one ':') Rule.word, Rule.quoted '"', Rule.quoted '\'', Rule.dollarTag,
      Rule.lineComment, Rule.blockComment] := rfl

end Lexer

end AnnotatedSql
