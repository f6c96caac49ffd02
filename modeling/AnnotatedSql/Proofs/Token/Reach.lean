import AnnotatedSql.Proofs.Token.Longest

/-!
# How far a scan goes

A scan goes on while some rule is alive: while what remains of its pattern is not `never`. No rule
has a part that no text belongs to, so a rule is alive exactly as long as the text read so far
begins a text that the rule matches.
-/

namespace AnnotatedSql

namespace Pattern

variable {p q : Pattern} {c : Char} {t : List Char}

/-- Some text belongs to each part of the pattern. -/
def Sound : Pattern → Prop
  | never => False
  | empty => True
  | char accepts => ∃ c, accepts c = true
  | seq p q => p.Sound ∧ q.Sound
  | alt p q => p.Sound ∧ q.Sound
  | star p => p.Sound

theorem Sound.nonempty (sound : p.Sound) : ∃ t, Matches p t := by
  induction p with
  | never => cases sound
  | empty => exact ⟨[], .empty⟩
  | char accepts =>
    obtain ⟨c, accepted⟩ := sound
    exact ⟨[c], .char accepted⟩
  | seq p q first second =>
    obtain ⟨a, left⟩ := first sound.1
    obtain ⟨b, right⟩ := second sound.2
    exact ⟨a ++ b, .seq left right⟩
  | alt p q first _ =>
    obtain ⟨a, left⟩ := first sound.1
    exact ⟨a, .altLeft left⟩
  | star p _ => exact ⟨[], .starNil⟩

/-- What remains of a sound pattern: nothing, or a sound pattern. -/
def Remains (p : Pattern) : Prop := p = never ∨ p.Sound

theorem Remains.sequence (first : p.Remains) (second : q.Remains) : (sequence p q).Remains := by
  rcases first with rfl | first
  · exact Or.inl rfl
  · rcases second with rfl | second
    · cases p <;> exact Or.inl rfl
    · right
      cases p <;> cases q <;> simp_all [Pattern.sequence, Sound]

theorem Remains.either (first : p.Remains) (second : q.Remains) : (either p q).Remains := by
  rcases first with rfl | first
  · exact second
  · right
    rcases second with rfl | second
    · cases p <;> exact first
    · cases p <;> cases q <;> simp_all [Pattern.either, Sound]

theorem Sound.derive (sound : p.Sound) (c : Char) : (p.derive c).Remains := by
  induction p with
  | never => exact Or.inl rfl
  | empty => exact Or.inl rfl
  | char accepts =>
    unfold Pattern.derive
    split
    · exact Or.inr trivial
    · exact Or.inl rfl
  | seq p q first second =>
    have whole := (first sound.1).sequence (Or.inr sound.2)
    unfold Pattern.derive
    split
    · exact whole.either (second sound.2)
    · exact whole
  | alt p q first second => exact (first sound.1).either (second sound.2)
  | star p item => exact (item sound).sequence (Or.inr sound)

theorem deriveBy_never (t : List Char) : never.deriveBy t = never := by
  induction t with
  | nil => rfl
  | cons c t ih => exact ih

theorem Remains.deriveBy (remains : p.Remains) (t : List Char) : (p.deriveBy t).Remains := by
  induction t generalizing p with
  | nil => exact remains
  | cons c t ih =>
    rcases remains with rfl | sound
    · exact Or.inl (deriveBy_never _)
    · exact ih (sound.derive c)

/-- Something remains of a pattern after a text exactly when the text begins one of the pattern. -/
theorem deriveBy_ne_never (sound : p.Sound) :
    p.deriveBy t ≠ never ↔ ∃ more, Matches p (t ++ more) := by
  simp only [← matches_deriveBy]
  constructor
  · intro remains
    have whole : p.Remains := Or.inr sound
    exact ((whole.deriveBy t).resolve_left remains).nonempty
  · rintro ⟨more, matched⟩ none
    rw [none] at matched
    exact matches_never matched

end Pattern

namespace Pattern

/-- Whether one of the characters is enough for every part of the pattern. -/
def soundOver (chars : List Char) : Pattern → Bool
  | never => false
  | empty => true
  | char accepts => chars.any accepts
  | seq p q => p.soundOver chars && q.soundOver chars
  | alt p q => p.soundOver chars && q.soundOver chars
  | star p => p.soundOver chars

theorem sound_of_soundOver {p : Pattern} {chars : List Char} (checked : p.soundOver chars = true) :
    p.Sound := by
  induction p with
  | never => cases checked
  | empty => trivial
  | char accepts =>
    obtain ⟨c, _, accepted⟩ := List.any_eq_true.mp checked
    exact ⟨c, accepted⟩
  | seq p q first second =>
    rw [soundOver, Bool.and_eq_true] at checked
    exact ⟨first checked.1, second checked.2⟩
  | alt p q first second =>
    rw [soundOver, Bool.and_eq_true] at checked
    exact ⟨first checked.1, second checked.2⟩
  | star p item => exact item checked

end Pattern

/-- Every rule is sound: the visible ASCII characters and the blanks go through all of it. -/
theorem Rule.all_sound {rule : Rule} (member : rule ∈ Rule.all) : rule.pattern.Sound := by
  have checked : (Rule.all.all fun rule =>
      rule.pattern.soundOver ((List.range 127).map Char.ofNat)) = true := by
    decide +kernel
  exact Pattern.sound_of_soundOver (List.all_eq_true.mp checked rule member)

namespace Lexer

/-- Some rule is alive after the text. -/
def Alive (rules : List Rule) (text : List Char) : Prop :=
  ∃ rule ∈ rules, rule.pattern.deriveBy text ≠ .never

/-- Some rule is alive as long as `text` is read, and none is further into `rest`. -/
structure Stops (rules : List Rule) (text rest : List Char) : Prop where
  alive : text ≠ [] → Alive rules text
  ends : ∀ c tail, rest = c :: tail → ¬Alive rules (text ++ [c])

variable {rules : List Rule} {c : Char} {text rest : List Char}

/-- A rule is alive exactly as long as it may still match. -/
theorem alive_iff : Alive Rule.all text ↔
    ∃ rule ∈ Rule.all, ∃ more, rule.pattern.Matches (text ++ more) := by
  unfold Alive
  constructor
  · rintro ⟨rule, member, remains⟩
    exact ⟨rule, member, (Pattern.deriveBy_ne_never (Rule.all_sound member)).mp remains⟩
  · rintro ⟨rule, member, matched⟩
    exact ⟨rule, member, (Pattern.deriveBy_ne_never (Rule.all_sound member)).mpr matched⟩

theorem alive_advance : Alive (advance c rules) text ↔ Alive rules (c :: text) := by
  unfold Alive
  induction rules with
  | nil => simp [advance]
  | cons rule rules ih =>
    unfold advance
    cases rest : rule.pattern.derive c with
    | never => simp [Pattern.isNever, ih, rest, Pattern.deriveBy_never]
    | _ => simp [Pattern.isNever, ih, rest]

/-- A character leaves no rule alive that could not go on. -/
theorem advance_ne_never {rule : Rule} (member : rule ∈ advance c rules) :
    rule.pattern ≠ .never := by
  induction rules with
  | nil => cases member
  | cons first rules ih =>
    unfold advance at member
    dsimp only at member
    split at member
    · exact ih member
    next alive =>
      rcases List.mem_cons.mp member with rfl | member
      · intro none
        dsimp only at none
        rw [none] at alive
        exact alive rfl
      · exact ih member

theorem alive_singleton : Alive rules [c] ↔ advance c rules ≠ [] := by
  rw [← alive_advance]
  constructor
  · rintro ⟨rule, member, _⟩ none
    rw [none] at member
    cases member
  · intro some
    obtain ⟨rule, others, listed⟩ := List.exists_cons_of_ne_nil some
    have member : rule ∈ advance c rules := by
      rw [listed]
      exact List.mem_cons_self
    exact ⟨rule, member, advance_ne_never member⟩

theorem Alive.advance_ne_nil (alive : Alive rules (c :: text)) : advance c rules ≠ [] := by
  obtain ⟨rule, member, _⟩ := alive_advance.mpr alive
  exact List.ne_nil_of_mem member

theorem stops_nil : Stops rules [] (c :: rest) ↔ advance c rules = [] := by
  constructor
  · intro stops
    cases living : advance c rules with
    | nil => rfl
    | cons rule others =>
      have alive : Alive rules [c] := alive_singleton.mpr (by simp [living])
      exact absurd alive (stops.ends c rest rfl)
  · intro dies
    refine ⟨fun impossible => absurd rfl impossible, ?_⟩
    rintro d tail same alive
    cases same
    exact alive_singleton.mp alive dies

theorem stops_cons : Stops rules (c :: text) rest ↔
    advance c rules ≠ [] ∧ Stops (advance c rules) text rest := by
  constructor
  · rintro ⟨alive, ends⟩
    refine ⟨(alive (by simp)).advance_ne_nil, fun _ => ?_, fun d tail same goesOn => ?_⟩
    · exact alive_advance.mpr (alive (by simp))
    · exact ends d tail same (alive_advance.mp goesOn)
  · rintro ⟨some, alive, ends⟩
    refine ⟨fun _ => ?_, fun d tail same goesOn => ?_⟩
    · by_cases last : text = []
      · rw [last]
        exact alive_singleton.mpr some
      · exact alive_advance.mp (alive last)
    · exact ends d tail same (alive_advance.mpr goesOn)

theorem le_reach (rules : List Rule) (count : Nat) (best : Option (Reading × Nat))
    (text : List Char) : count ≤ (scanFrom rules count best text).reach := by
  induction text generalizing rules count best with
  | nil => exact Nat.le_refl _
  | cons c text ih =>
    unfold scanFrom
    split
    · exact Nat.le_refl _
    · exact Nat.le_trans (Nat.le_succ count) (ih _ _ _)

/-- A scan reaches exactly as far as rules are alive. -/
theorem scanFrom_reach (rules : List Rule) (count : Nat) (best : Option (Reading × Nat))
    (text rest : List Char) : (scanFrom rules count best (text ++ rest)).reach =
      count + text.length ↔ Stops rules text rest := by
  induction text generalizing rules count best with
  | nil =>
    cases rest with
    | nil =>
      refine ⟨fun _ => ⟨fun impossible => absurd rfl impossible, fun d tail same => ?_⟩, ?_⟩
      · cases same
      · exact fun _ => rfl
    | cons c rest =>
      rw [stops_nil, List.nil_append, List.length_nil, Nat.add_zero]
      unfold scanFrom
      cases living : advance c rules with
      | nil => simp
      | cons rule others =>
        simp only [reduceCtorEq, iff_false]
        exact Nat.ne_of_gt (le_reach _ (count + 1) _ rest)
  | cons c text ih =>
    rw [stops_cons, List.cons_append, List.length_cons]
    unfold scanFrom
    cases living : advance c rules with
    | nil =>
      simp only [ne_eq, not_true_eq_false, false_and, iff_false]
      omega
    | cons rule others =>
      have counted : count + (text.length + 1) = count + 1 + text.length := by omega
      simp only [counted, ih, ne_eq, reduceCtorEq, not_false_eq_true, true_and]

end Lexer

end AnnotatedSql
