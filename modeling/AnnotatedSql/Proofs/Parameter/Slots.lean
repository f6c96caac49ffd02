import AnnotatedSql.Proofs.Parameter.Acceptance

/-!
# Slots

An accepted body has one parameter for each key that it uses. The positions come first, each in its
own slot, and the names after them, as the header orders them or as they first occur. A parameter
knows all its placeholders, and each placeholder belongs to one parameter.
-/

namespace AnnotatedSql

/-! ## Order of first occurrence -/

theorem eraseDups_sublist {α : Type} [BEq α] [LawfulBEq α] (items : List α) :
    items.eraseDups.Sublist items := by
  match items with
  | [] => exact .slnil
  | item :: rest =>
    rw [List.eraseDups_cons]
    exact .cons_cons item ((eraseDups_sublist _).trans List.filter_sublist)
termination_by items.length
decreasing_by exact Nat.lt_succ_of_le (List.length_filter_le _ _)

/-- Items met in ascending order, without repetitions, are in the order in which they are first
met. -/
theorem eraseDups_ordered {α : Type} [BEq α] [LawfulBEq α] (met : List (Nat × α))
    (ascending : met.Pairwise fun a b => a.1 < b.1) :
    (met.map Prod.snd).eraseDups.Pairwise fun a b =>
      ∃ i, (i, a) ∈ met ∧ ∀ j, (j, b) ∈ met → i < j := by
  match met with
  | [] => exact .nil
  | (i, item) :: rest =>
    rw [List.pairwise_cons] at ascending
    have others : (rest.map Prod.snd).filter (fun other => !other == item) =
        (rest.filter fun pair => !pair.2 == item).map Prod.snd := List.filter_map
    rw [List.map_cons, List.eraseDups_cons, others, List.pairwise_cons]
    have later : ∀ other, other ∈ ((rest.filter fun pair => !pair.2 == item).map
        Prod.snd).eraseDups → other ≠ item := by
      intro other member same
      obtain ⟨pair, listed, rfl⟩ := List.mem_map.mp (List.mem_eraseDups.mp member)
      have different := (List.mem_filter.mp listed).2
      simp [same] at different
    constructor
    · intro other member
      refine ⟨i, List.mem_cons_self, fun j met => ?_⟩
      rcases List.mem_cons.mp met with same | met
      · exact absurd (congrArg Prod.snd same) (later other member)
      · exact ascending.1 (j, other) met
    · have inner := eraseDups_ordered (rest.filter fun pair => !pair.2 == item)
        (ascending.2.filter _)
      refine inner.imp_of_mem fun {a b} _ bMember => ?_
      rintro ⟨j, met, before⟩
      refine ⟨j, List.mem_cons_of_mem _ (List.mem_filter.mp met).1, fun k metToo => ?_⟩
      have different := later b bMember
      rcases List.mem_cons.mp metToo with same | metToo
      · exact absurd (congrArg Prod.snd same) different
      · exact before k (List.mem_filter.mpr ⟨metToo, by simpa using different⟩)
termination_by met.length
decreasing_by exact Nat.lt_succ_of_le (List.length_filter_le _ _)

namespace Statement

variable {s : Statement} {key : ParamKey} {i : Nat}

/-- Some placeholder of the one parameter stands before all those of the other. -/
def OccursBefore (s : Statement) (first second : ParamKey) : Prop :=
  ∃ i, s.paramKey? i = some first ∧ ∀ j, s.paramKey? j = some second → i < j

theorem placeholders_ascending (s : Statement) :
    s.placeholders.Pairwise fun a b => a.1 < b.1 := by
  unfold placeholders
  refine List.Pairwise.filterMap _ ?_ List.pairwise_lt_range
  intro i j before a aFound b bFound
  obtain ⟨_, _, rfl⟩ := Option.map_eq_some_iff.mp aFound
  obtain ⟨_, _, rfl⟩ := Option.map_eq_some_iff.mp bFound
  exact before

theorem keys_ordered (s : Statement) : s.keys.Pairwise s.OccursBefore := by
  refine (eraseDups_ordered s.placeholders s.placeholders_ascending).imp fun {a b} => ?_
  rintro ⟨i, met, before⟩
  exact ⟨i, mem_placeholders.mp met, fun j stands => before j (mem_placeholders.mpr stands)⟩

theorem names_ordered (s : Statement) :
    s.names.Pairwise fun a b => s.OccursBefore (.named a) (.named b) := by
  unfold names
  refine List.Pairwise.filterMap _ ?_ s.keys_ordered
  intro a b before first firstName second secondName
  cases a <;> cases firstName
  cases b <;> cases secondName
  exact before

/-! ## Occurrences -/

theorem occurrences_eq_filter (s : Statement) (key : ParamKey) :
    s.occurrences key = (List.range s.size).filter fun i => s.paramKey? i == some key := by
  unfold occurrences placeholders
  rw [List.filter_filterMap, List.map_filterMap, ← List.filterMap_eq_filter]
  refine List.filterMap_congr fun i _ => ?_
  cases read : s.paramKey? i with
  | none => simp [read, Option.guard]
  | some other =>
    by_cases same : other = key
    · simp [read, same, Option.guard, Option.filter]
    · simp [read, same, Option.guard, Option.filter]

theorem occurrences_ascending (s : Statement) (key : ParamKey) :
    (s.occurrences key).Pairwise (· < ·) := by
  rw [occurrences_eq_filter]
  exact List.pairwise_lt_range.filter _

/-- The first cast of a key is that of the first occurrence with a cast. -/
theorem hint_some {hint : TypeName} (found : s.hint? key = some hint) :
    ∃ i ∈ s.occurrences key, s.castHint? i = some hint ∧
      ∀ j ∈ s.occurrences key, j < i → s.castHint? j = none := by
  obtain ⟨before, i, after, split, cast, uncast⟩ := List.findSome?_eq_some_iff.mp found
  have ordered := s.occurrences_ascending key
  rw [split, List.pairwise_append, List.pairwise_cons] at ordered
  refine ⟨i, by simp [split], cast, fun j occurs earlier => ?_⟩
  rw [split, List.mem_append, List.mem_cons] at occurs
  rcases occurs with occurs | rfl | occurs
  · exact uncast j occurs
  · omega
  · have := ordered.2.1.1 j occurs
    omega

end Statement

/-- The spans of the occurrences are those of the tokens that stand for the parameter, in order. -/
theorem Body.occurrences_spans (body : Body) (key : ParamKey) :
    (body.statement.occurrences key).map body.spanAt =
      (body.tokens.toList.filter fun token => ParamKey.ofLexeme? token.toLexeme == some key).map
        (·.span) := by
  -- The tokens are those at the indices below their number.
  have listed : body.tokens.toList =
      (List.range body.statement.size).map fun i => body.tokens[i]?.getD default := by
    refine List.ext_getElem (by simp [statement, Statement.ofLexemes, Statement.size]) ?_
    intro i inside _
    have bound : i < body.tokens.size := inside
    simp [bound]
  rw [Statement.occurrences_eq_filter, listed, List.filter_map, List.map_map]
  have stands : (List.range body.statement.size).filter (fun i =>
      body.statement.paramKey? i == some key) =
      (List.range body.statement.size).filter ((fun token =>
        ParamKey.ofLexeme? token.toLexeme == some key) ∘ fun i => body.tokens[i]?.getD default) := by
    refine List.filter_congr fun i member => ?_
    have bound : i < body.tokens.size := by
      simpa [statement, Statement.ofLexemes, Statement.size] using member
    simp [statement, Statement.ofLexemes, Statement.paramKey?, bound]
  rw [stands]
  refine List.map_congr_left fun i member => ?_
  have bound : i < body.tokens.size := by
    have inside := List.mem_range.mp (List.mem_filter.mp member).1
    simpa [statement, Statement.ofLexemes, Statement.size] using inside
  simp [spanAt, bound]

/-! ## The table -/

/-- Every placeholder of an accepted statement belongs to one entry. -/
theorem Binding.Accepts.owner {style : BindingStyle} {s : Statement} (accepts : Accepts style s)
    {i : Nat} (isParam : s.isParam i = true) : ∃! p, p ∈ table style s ∧ i ∈ p.occurrences := by
  have owns : ∀ {p}, p ∈ table style s → (i ∈ p.occurrences ↔ s.paramKey? i = some p.key) :=
    fun member => by rw [(table_entry member).1, Statement.mem_occurrences]
  have keyed := (placeholderFindings_nil.mp accepts.placeholderFindings_eq_nil).1 i isParam
  obtain ⟨key, stands⟩ := Option.isSome_iff_exists.mp keyed
  have listed : key ∈ (table style s).map Parameter.key := by
    rw [table_keys, accepts.mem_orderedKeys]
    exact Statement.mem_keys.mpr ⟨i, stands⟩
  obtain ⟨p, member, rfl⟩ := List.mem_map.mp listed
  refine ⟨p, ⟨member, (owns member).mpr stands⟩, ?_⟩
  rintro q ⟨memberToo, occurs⟩
  have sameKey : q.key = p.key :=
    Option.some.inj (((owns memberToo).mp occurs).symm.trans stands)
  have distinct : ((table style s).map Parameter.key).Nodup := by
    rw [table_keys]
    exact orderedKeys_nodup style s
  exact List.inj_on_of_nodup_map distinct memberToo member sameKey

namespace Query

variable {query : Query} {parameters : List Parameter}

/-- The parameters of an accepted query in their slots. -/
structure SlotTable (query : Query) (parameters : List Parameter) : Prop where
  distinct : (parameters.map Parameter.key).Nodup
  keys : ∀ key, key ∈ parameters.map Parameter.key ↔ query.statement.Uses key
  slots : parameters.map Parameter.slot = List.range' 1 parameters.length
  positions : ∀ p ∈ parameters, ∀ number, p.key = .positional number → p.slot = number
  /-- Positions come first, and then names in the order of the header or of the body. -/
  order : ∃ (last : Nat) (names : List String), parameters.map Parameter.key =
      (List.range' 1 last).map .positional ++ names.map .named ∧
    if query.descriptor.bindingStyle.checksDeclarations then
      names.Sublist query.descriptor.declaredNames
    else names.Pairwise fun a b => query.statement.OccursBefore (.named a) (.named b)
  /-- A parameter has all tokens that stand for it, in the order of the text. -/
  occurrences : ∀ p ∈ parameters, p.occurrences.map query.read.spanAt =
    (query.read.tokens.toList.filter fun token =>
      ParamKey.ofLexeme? token.toLexeme == some p.key).map (·.span)
  /-- Every placeholder belongs to one parameter. -/
  owners : ∀ i, query.statement.isParam i = true → ∃! p, p ∈ parameters ∧ i ∈ p.occurrences
  uncast : ∀ p ∈ parameters, p.hint = none → ∀ i ∈ p.occurrences, query.statement.castHint? i = none
  cast : ∀ p ∈ parameters, ∀ hint, p.hint = some hint → ∃ i ∈ p.occurrences,
    query.statement.castHint? i = some hint ∧
      ∀ j ∈ p.occurrences, j < i → query.statement.castHint? j = none

/-- An accepted query has its parameters in their slots. -/
theorem bind_slots (accepted : query.bind.value = some parameters) :
    query.SlotTable parameters := by
  obtain ⟨accepts, rfl⟩ := Binding.bind_value_iff.mp accepted
  refine ⟨?_, fun key => ?_, Binding.table_slots _ _, fun p member number =>
    accepts.slot_of_position member, ?_, fun p member => ?_, fun i => accepts.owner,
    fun p member none i occurs => ?_, fun p member hint found => ?_⟩
  · rw [Binding.table_keys]
    exact Binding.orderedKeys_nodup _ _
  · rw [Binding.table_keys, accepts.mem_orderedKeys, Statement.uses_iff]
  · refine ⟨query.statement.positions.length,
      Binding.orderedNames query.descriptor.bindingStyle query.statement, ?_, ?_⟩
    · rw [Binding.table_keys, Binding.orderedKeys, accepts.positions]
    · unfold Binding.orderedNames
      split
      · exact List.filter_sublist.trans (eraseDups_sublist _)
      · exact query.statement.names_ordered
  · rw [(Binding.table_entry member).1]
    exact query.read.occurrences_spans p.key
  · rw [(Binding.table_entry member).1] at occurs
    rw [(Binding.table_entry member).2] at none
    exact List.findSome?_eq_none_iff.mp none i occurs
  · rw [(Binding.table_entry member).2] at found
    rw [(Binding.table_entry member).1]
    exact Statement.hint_some found

/-- Two positions and two names, which the header orders otherwise than the body. -/
theorem bind_slots_mixed :
    let query : Query :=
      ⟨0, ⟨⟨"q", .explicitList ["b", "a"], .many, false⟩, ⟨3, 4⟩, [⟨5, 6⟩, ⟨7, 8⟩], none⟩, ⟨3, 9⟩,
        "select $2,:a,:b::int4,:a,$1".toList, ⟨10, 37⟩⟩
    let parameters : List Parameter :=
      [⟨.positional 1, "arg1", 1, false, false, none, [11], .unresolved⟩,
        ⟨.positional 2, "arg2", 2, false, false, none, [1], .unresolved⟩,
        ⟨.named "b", "b", 3, true, false, some ⟨"int4", 7, 8⟩, [5], .unresolved⟩,
        ⟨.named "a", "a", 4, true, false, none, [3, 9], .unresolved⟩]
    query ∈ (parseModule 0 "" "--!q(b,a)\nselect $2,:a,:b::int4,:a,$1".toList).queries ∧
      query.bind.value = some parameters ∧ query.SlotTable parameters := by
  intro query parameters
  have accepted : query.bind.value = some parameters := by decide +kernel
  exact ⟨by decide +kernel, accepted, bind_slots accepted⟩

end Query

end AnnotatedSql
