import Mathlib.Data.List.Forall2

/-!
# Steps that may fail

A run of failing steps succeeds only if each step does. An invariant that every successful step
keeps holds at the end of a successful run.
-/

namespace AnnotatedSql

variable {ε α β σ : Type}

/-- A sequence of two steps succeeds through a value of the first. -/
theorem bind_success {first : Except ε α} {next : α → Except ε β} {value : β}
    (success : (first >>= next) = .ok value) : ∃ x, first = .ok x ∧ next x = .ok value := by
  cases first with
  | error fault => cases success
  | ok x => exact ⟨x, rfl, success⟩

/-- A sequence of two steps fails in the first or in the second. -/
theorem bind_error {first : Except ε α} {next : α → Except ε β} {fault : ε}
    (fails : (first >>= next) = .error fault) :
    first = .error fault ∨ ∃ x, first = .ok x ∧ next x = .error fault := by
  cases first with
  | error other =>
    cases fails
    exact Or.inl rfl
  | ok x => exact Or.inr ⟨x, rfl, fails⟩

/-- What each successful step keeps, a successful run keeps. -/
theorem foldlM_keeps {step : σ → α → Except ε σ} (keeps : σ → Prop) {items : List α}
    (stepKeeps : ∀ s t, ∀ item ∈ items, keeps s → step s item = .ok t → keeps t)
    {start final : σ} (begins : keeps start) (success : items.foldlM step start = .ok final) :
    keeps final := by
  induction items generalizing start with
  | nil =>
    cases success
    exact begins
  | cons item rest ih =>
    rw [List.foldlM_cons] at success
    obtain ⟨middle, stepped, success⟩ := bind_success success
    have kept := stepKeeps start middle item (by simp) begins stepped
    exact ih (fun s t other member => stepKeeps s t other (by simp [member])) kept success

/-- Each result of a successful pass comes from an item that the pass accepts. -/
theorem mapM_mem {f : α → Except ε β} {items : List α} {results : List β}
    (success : items.mapM f = .ok results) {result : β} (member : result ∈ results) :
    ∃ item ∈ items, f item = .ok result := by
  induction items generalizing results with
  | nil =>
    cases success
    cases member
  | cons item rest ih =>
    rw [List.mapM_cons] at success
    obtain ⟨head, first, success⟩ := bind_success success
    obtain ⟨tail, others, success⟩ := bind_success success
    cases success
    rcases List.mem_cons.mp member with rfl | member
    · exact ⟨item, by simp, first⟩
    · obtain ⟨source, found, accepted⟩ := ih others member
      exact ⟨source, by simp [found], accepted⟩

/-- A pass without a fault relates each item to the result in its place. -/
theorem forall₂_of_mapM {f : α → Except ε β} {relates : α → β → Prop}
    (related : ∀ item result, f item = .ok result → relates item result) {items : List α}
    {results : List β} (success : items.mapM f = .ok results) :
    List.Forall₂ relates items results := by
  induction items generalizing results with
  | nil =>
    cases success
    exact .nil
  | cons item rest ih =>
    rw [List.mapM_cons] at success
    obtain ⟨head, first, success⟩ := bind_success success
    obtain ⟨tail, others, success⟩ := bind_success success
    cases success
    exact .cons (related item head first) (ih others)

/-- A run that fails does so in one of its steps, after steps that keep what they keep. -/
theorem foldlM_error_keeps {step : σ → α → Except ε σ} (keeps : σ → Prop) {items : List α}
    (stepKeeps : ∀ s t, ∀ item ∈ items, keeps s → step s item = .ok t → keeps t)
    {start : σ} {fault : ε} (begins : keeps start) (fails : items.foldlM step start = .error fault) :
    ∃ state, keeps state ∧ ∃ item ∈ items, step state item = .error fault := by
  induction items generalizing start with
  | nil => cases fails
  | cons item rest ih =>
    rw [List.foldlM_cons] at fails
    rcases bind_error fails with fails | ⟨middle, stepped, fails⟩
    · exact ⟨start, begins, item, by simp, fails⟩
    · have kept := stepKeeps start middle item (by simp) begins stepped
      obtain ⟨state, keptThere, other, member, fails⟩ :=
        ih (fun s t other member => stepKeeps s t other (by simp [member])) kept fails
      exact ⟨state, keptThere, other, by simp [member], fails⟩

theorem foldlM_error {step : σ → α → Except ε σ} {items : List α} {start : σ} {fault : ε}
    (fails : items.foldlM step start = .error fault) :
    ∃ state, ∃ item ∈ items, step state item = .error fault := by
  obtain ⟨state, _, item, member, fails⟩ :=
    foldlM_error_keeps (fun _ => True) (fun _ _ _ _ _ _ => trivial) trivial fails
  exact ⟨state, item, member, fails⟩

/-- A pass that fails does so at one of its items. -/
theorem mapM_error {f : α → Except ε β} {items : List α} {fault : ε}
    (fails : items.mapM f = .error fault) : ∃ item ∈ items, f item = .error fault := by
  induction items with
  | nil => cases fails
  | cons item rest ih =>
    rw [List.mapM_cons] at fails
    rcases bind_error fails with fails | ⟨head, _, fails⟩
    · exact ⟨item, by simp, fails⟩
    · rcases bind_error fails with fails | ⟨tail, _, fails⟩
      · obtain ⟨other, member, fails⟩ := ih fails
        exact ⟨other, by simp [member], fails⟩
      · cases fails

/-- The outcome with its fault and its value both mapped. -/
def mapBoth {ε' : Type} (onFault : ε → ε') (onValue : α → β) : Except ε α → Except ε' β
  | .error fault => .error (onFault fault)
  | .ok value => .ok (onValue value)

/-- Two steps in sequence map as one if each maps. -/
theorem mapBoth_bind {ε' α' β' : Type} {onFault : ε → ε'} {onMiddle : α → α'} {onValue : β → β'}
    {first : Except ε α} {first' : Except ε' α'} {next : α → Except ε β} {next' : α' → Except ε' β'}
    (firstCarries : first' = mapBoth onFault onMiddle first)
    (nextCarries : ∀ x, next' (onMiddle x) = mapBoth onFault onValue (next x)) :
    (first' >>= next') = mapBoth onFault onValue (first >>= next) := by
  rw [firstCarries]
  cases first with
  | error fault => rfl
  | ok x => exact nextCarries x

/-- A choice maps as one if each branch does. The condition may be decided in two ways. -/
theorem mapBoth_ite {ε' : Type} {onFault : ε → ε'} {onValue : α → β} {condition : Prop}
    {decides decides' : Decidable condition} {yes no : Except ε α} {yes' no' : Except ε' β}
    (yesMaps : yes' = mapBoth onFault onValue yes) (noMaps : no' = mapBoth onFault onValue no) :
    @ite _ condition decides' yes' no' =
      mapBoth onFault onValue (@ite _ condition decides yes no) := by
  by_cases holds : condition
  · rw [if_pos holds, if_pos holds, yesMaps]
  · rw [if_neg holds, if_neg holds, noMaps]

/-! ## Outcomes up to their faults -/

section Alike

variable {δ α' β' σ' : Type} {onFault : ε → δ}

/-- Two sequences have the same outcome up to the faults if their steps do. -/
theorem mapBoth_bind_alike {onMiddle : α → α'} {onValue : β → β'} {first : Except ε α}
    {first' : Except ε α'} {next : α → Except ε β} {next' : α' → Except ε β'}
    (firstAlike : mapBoth onFault id first' = mapBoth onFault onMiddle first)
    (nextAlike : ∀ x, first = .ok x →
      mapBoth onFault id (next' (onMiddle x)) = mapBoth onFault onValue (next x)) :
    mapBoth onFault id (first' >>= next') = mapBoth onFault onValue (first >>= next) := by
  cases first with
  | error fault =>
    cases first' with
    | error other => exact congrArg Except.error (Except.error.inj firstAlike)
    | ok _ => cases firstAlike
  | ok x =>
    cases first' with
    | error other => cases firstAlike
    | ok y =>
      obtain rfl : y = onMiddle x := Except.ok.inj firstAlike
      exact nextAlike x rfl

/-- So do two steps whose values are mapped. -/
theorem mapBoth_map_alike {onMiddle : α → α'} {onValue : β → β'} {first : Except ε α}
    {first' : Except ε α'} {change : α → β} {change' : α' → β'}
    (firstAlike : mapBoth onFault id first' = mapBoth onFault onMiddle first)
    (changeAlike : ∀ x, change' (onMiddle x) = onValue (change x)) :
    mapBoth onFault id (first'.map change') = mapBoth onFault onValue (first.map change) := by
  cases first with
  | error fault =>
    cases first' with
    | error other => exact congrArg Except.error (Except.error.inj firstAlike)
    | ok _ => cases firstAlike
  | ok x =>
    cases first' with
    | error other => cases firstAlike
    | ok y =>
      obtain rfl : y = onMiddle x := Except.ok.inj firstAlike
      exact congrArg Except.ok (changeAlike x)

theorem mapBoth_mapM_alike {f g : α → Except ε β} {items : List α}
    (alike : ∀ item ∈ items, mapBoth onFault id (g item) = mapBoth onFault id (f item)) :
    mapBoth onFault id (items.mapM g) = mapBoth onFault id (items.mapM f) := by
  induction items with
  | nil => rfl
  | cons item rest ih =>
    rw [List.mapM_cons, List.mapM_cons]
    refine mapBoth_bind_alike (alike item (by simp)) fun head _ => ?_
    refine mapBoth_bind_alike (ih fun other member => alike other (by simp [member])) ?_
    exact fun _ _ => rfl

/-- So do two runs if each of their steps does, as long as an invariant holds. -/
theorem mapBoth_foldlM_alike {step : σ → α → Except ε σ} {step' : σ' → α' → Except ε σ'}
    {onState : σ → σ'} {onItem : α → α'} (keeps : σ → Prop)
    (stepKeeps : ∀ s t item, keeps s → step s item = .ok t → keeps t) {items : List α}
    (alike : ∀ s item, item ∈ items → keeps s →
      mapBoth onFault id (step' (onState s) (onItem item)) = mapBoth onFault onState (step s item))
    {start : σ} (begins : keeps start) :
    mapBoth onFault id ((items.map onItem).foldlM step' (onState start)) =
      mapBoth onFault onState (items.foldlM step start) := by
  induction items generalizing start with
  | nil => rfl
  | cons item rest ih =>
    rw [List.map_cons, List.foldlM_cons, List.foldlM_cons]
    exact mapBoth_bind_alike (alike start item (by simp) begins) fun middle stepped =>
      ih (fun s other member => alike s other (by simp [member]))
        (stepKeeps start middle item begins stepped)

end Alike

end AnnotatedSql
