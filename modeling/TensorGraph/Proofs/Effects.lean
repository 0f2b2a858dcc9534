import Mathlib.Data.List.Forall2

/-! # Running computations that keep a state and may fault

A computation maps a state to a result and the state after it, which a fault
keeps. Each law says what one building block does at a given state.
-/

namespace TensorGraph.Effects

variable {ε ε' σ α β : Type}

@[simp]
theorem run_pure (value : α) (state : σ) :
    (pure value : ExceptT ε (StateM σ) α) state = (.ok value, state) := rfl

@[simp]
theorem run_get (state : σ) : (get : ExceptT ε (StateM σ) σ) state = (.ok state, state) := rfl

@[simp]
theorem run_ofExcept (result : Except ε α) (state : σ) :
    (ofExcept result : ExceptT ε (StateM σ) α) state = (result, state) := by
  cases result <;> rfl

@[simp]
theorem run_adapt (context : ε → ε') (step : ExceptT ε (StateM σ) α) (state : σ) :
    ExceptT.adapt context step state = ((step state).1.mapError context, (step state).2) := rfl

theorem run_bind (first : ExceptT ε (StateM σ) α) (next : α → ExceptT ε (StateM σ) β)
    (state : σ) :
    (first >>= next) state = match first state with
      | (.ok value, after) => next value after
      | (.error fault, after) => (.error fault, after) := by
  change (match (first state).1 with
    | .ok value => next value
    | .error fault => pure (.error fault) : StateM σ (Except ε β)) (first state).2 = _
  rcases first state with ⟨_ | _, _⟩ <;> rfl

theorem run_bind_ok {first : ExceptT ε (StateM σ) α} {state after : σ} {value : α}
    (hfirst : first state = (.ok value, after)) (next : α → ExceptT ε (StateM σ) β) :
    (first >>= next) state = next value after := by
  rw [run_bind, hfirst]

theorem run_bind_error {first : ExceptT ε (StateM σ) α} {state after : σ} {fault : ε}
    (hfirst : first state = (.error fault, after)) (next : α → ExceptT ε (StateM σ) β) :
    (first >>= next) state = (.error fault, after) := by
  rw [run_bind, hfirst]

/-- One step after the other answers exactly if both do. -/
theorem run_bind_eq_ok_iff {first : ExceptT ε (StateM σ) α} {next : α → ExceptT ε (StateM σ) β}
    {state after : σ} {answer : β} :
    (first >>= next) state = (.ok answer, after) ↔
      ∃ value middle, first state = (.ok value, middle) ∧
        next value middle = (.ok answer, after) := by
  constructor
  · intro hrun
    rcases hfirst : first state with ⟨fault | value, middle⟩
    · rw [run_bind_error hfirst] at hrun
      cases hrun
    · rw [run_bind_ok hfirst] at hrun
      exact ⟨value, middle, rfl, hrun⟩
  · rintro ⟨value, middle, hfirst, hnext⟩
    rw [run_bind_ok hfirst, hnext]

/-- What both steps preserve is preserved by one after the other. -/
theorem run_bind_preserves (invariant : σ → Prop) {first : ExceptT ε (StateM σ) α}
    {next : α → ExceptT ε (StateM σ) β}
    (hfirst : ∀ state, invariant state → invariant (first state).2)
    (hnext : ∀ value state, invariant state → invariant (next value state).2)
    (state : σ) (hstart : invariant state) : invariant ((first >>= next) state).2 := by
  have hmiddle := hfirst state hstart
  rcases hrun : first state with ⟨fault | value, after⟩ <;> rw [hrun] at hmiddle
  · rw [run_bind_error hrun]
    exact hmiddle
  · rw [run_bind_ok hrun]
    exact hnext value after hmiddle

/-- Steps that answer without touching the state answer one after the other. -/
theorem run_mapM_of_forall₂ {step : α → ExceptT ε (StateM σ) β} {state : σ} {items : List α}
    {answers : List β}
    (hsteps : List.Forall₂ (fun item answer => step item state = (.ok answer, state))
      items answers) :
    items.mapM step state = (.ok answers, state) := by
  induction hsteps with
  | nil => rfl
  | cons hstep _ ih =>
      rw [List.mapM_cons, run_bind_ok hstep, run_bind_ok ih]
      rfl

/-- Steps that never touch the state leave it alone together. -/
theorem run_mapM_state {step : α → ExceptT ε (StateM σ) β} {state : σ}
    (hstep : ∀ item, (step item state).2 = state) (items : List α) :
    (items.mapM step state).2 = state := by
  induction items with
  | nil => rfl
  | cons item items ih =>
      have hitem := hstep item
      rw [List.mapM_cons]
      rcases hfirst : step item state with ⟨_ | answer, after⟩
      · rw [run_bind_error hfirst, ← hitem, hfirst]
      · obtain rfl : after = state := by rw [← hitem, hfirst]
        rw [run_bind_ok hfirst]
        rcases hrest : items.mapM step after with ⟨_ | answers, final⟩
        · rw [run_bind_error hrest, ← ih, hrest]
        · rw [run_bind_ok hrest, run_pure, ← ih, hrest]

/-- A run of steps that leave the state alone answers exactly if all of them do. -/
theorem run_mapM_eq_ok_iff {step : α → ExceptT ε (StateM σ) β} {state : σ}
    (hstep : ∀ item, (step item state).2 = state) (items : List α) (answers : List β) :
    (items.mapM step state).1 = .ok answers ↔
      List.Forall₂ (fun item answer => (step item state).1 = .ok answer) items answers := by
  constructor
  · intro hrun
    induction items generalizing answers with
    | nil =>
        cases hrun
        exact .nil
    | cons item items ih =>
        have hitem := hstep item
        rw [List.mapM_cons] at hrun
        rcases hfirst : step item state with ⟨_ | answer, after⟩
        · rw [run_bind_error hfirst] at hrun
          cases hrun
        · obtain rfl : after = state := by rw [← hitem, hfirst]
          rw [run_bind_ok hfirst] at hrun
          rcases hrest : items.mapM step after with ⟨_ | rest, final⟩
          · rw [run_bind_error hrest] at hrun
            cases hrun
          · rw [run_bind_ok hrest, run_pure] at hrun
            cases hrun
            exact .cons (congrArg Prod.fst hfirst) (ih rest (congrArg Prod.fst hrest))
  · intro hall
    have hrun := run_mapM_of_forall₂ (hall.imp fun item answer hanswer =>
      show step item state = (.ok answer, state) from Prod.ext hanswer (hstep item))
    rw [hrun]

section Except

theorem mapM_eq_ok_iff (step : α → Except ε β) (items : List α) (answers : List β) :
    items.mapM step = .ok answers ↔
      List.Forall₂ (fun item answer => step item = .ok answer) items answers := by
  induction items generalizing answers with
  | nil => cases answers <;> simp [pure, Except.pure]
  | cons item items ih =>
      rw [List.mapM_cons]
      cases hstep : step item with
      | error fault => cases answers <;> simp [bind, Except.bind, hstep]
      | ok answer =>
          cases hrest : items.mapM step with
          | error fault => cases answers <;> simp [bind, Except.bind, hstep, ← ih, hrest]
          | ok rest =>
              cases answers <;>
                simp [bind, Except.bind, pure, Except.pure, hstep, ← ih, hrest]

theorem exists_of_mapM_eq_error {step : α → Except ε β} {items : List α} {fault : ε}
    (hrun : items.mapM step = .error fault) : ∃ item ∈ items, step item = .error fault := by
  induction items with
  | nil => cases hrun
  | cons item items ih =>
      rw [List.mapM_cons] at hrun
      cases hstep : step item with
      | error other =>
          rw [hstep] at hrun
          cases hrun
          exact ⟨item, List.mem_cons_self, hstep⟩
      | ok answer =>
          cases hrest : items.mapM step with
          | error other =>
              rw [hstep, hrest] at hrun
              cases hrun
              obtain ⟨found, hmem, hfound⟩ := ih hrest
              exact ⟨found, List.mem_cons_of_mem _ hmem, hfound⟩
          | ok answers =>
              rw [hstep, hrest] at hrun
              cases hrun

theorem mapM_singleton_eq_error {step : α → Except ε β} {item : α} {fault : ε}
    (hrun : [item].mapM step = .error fault) : step item = .error fault := by
  obtain ⟨found, hmem, hfound⟩ := exists_of_mapM_eq_error hrun
  obtain rfl := List.mem_singleton.mp hmem
  exact hfound

/-- A list and one more item fail with the fault of the list, or with that of the item. -/
theorem mapM_concat_eq_error {step : α → Except ε β} {items : List α} {last : α} {fault : ε}
    (hrun : (items ++ [last]).mapM step = .error fault) :
    items.mapM step = .error fault ∨
      ∃ answers, items.mapM step = .ok answers ∧ step last = .error fault := by
  rw [List.mapM_append] at hrun
  cases hitems : items.mapM step with
  | error other =>
      rw [hitems] at hrun
      cases hrun
      exact Or.inl rfl
  | ok answers =>
      rw [hitems] at hrun
      refine Or.inr ⟨answers, rfl, mapM_singleton_eq_error ?_⟩
      cases hlast : [last].mapM step with
      | error other =>
          simp only [bind, Except.bind, hlast, Except.error.injEq] at hrun
          rw [hrun]
      | ok rest => simp [bind, Except.bind, hlast, pure, Except.pure] at hrun

theorem mapM_eq_some_iff (step : α → Option β) (items : List α) (answers : List β) :
    items.mapM step = some answers ↔
      List.Forall₂ (fun item answer => step item = some answer) items answers := by
  induction items generalizing answers with
  | nil => cases answers <;> simp
  | cons item items ih =>
      rw [List.mapM_cons]
      cases hstep : step item with
      | none => cases answers <;> simp [hstep]
      | some answer =>
          cases hrest : items.mapM step with
          | none => cases answers <;> simp [hstep, ← ih, hrest]
          | some rest => cases answers <;> simp [hstep, ← ih, hrest]

theorem mapM_congr_forall₂ {γ : Type} {step : α → Except ε γ} {step' : β → Except ε γ}
    {items : List α} {others : List β}
    (hsteps : List.Forall₂ (fun item other => step item = step' other) items others) :
    items.mapM step = others.mapM step' := by
  induction hsteps with
  | nil => rfl
  | cons hstep _ ih => rw [List.mapM_cons, List.mapM_cons, hstep, ih]

end Except

end TensorGraph.Effects
