import Mathlib.Data.List.Basic

/-! Runs of actions, with the state that each action meets. A part of the state that actions overwrite
follows the last thing written to it. -/
namespace ShaderBundle.History

variable {State Action Value : Type} {next : State → Action → State}

/-- The actions of a run, each with the state that it meets. -/
def moments (next : State → Action → State) : State → List Action → List (State × Action)
  | _, [] => []
  | s, action :: rest => (s, action) :: moments next (next s action) rest

theorem map_snd_moments (next : State → Action → State) (s : State) (actions : List Action) :
    (moments next s actions).map Prod.snd = actions := by
  induction actions generalizing s with
  | nil => rfl
  | cons action rest ih => simp [moments, ih]

theorem mem_of_mem_moments {s t : State} {action : Action} {actions : List Action}
    (member : (t, action) ∈ moments next s actions) : action ∈ actions := by
  rw [← map_snd_moments next s actions]
  exact List.mem_map_of_mem member

/-- What the actions of a run write, in their order. -/
def written (next : State → Action → State) (write : State → Action → Option Value) (s : State)
    (actions : List Action) : List Value :=
  (moments next s actions).filterMap fun (s, action) => write s action

theorem written_cons (write : State → Action → Option Value) (s : State) (action : Action)
    (rest : List Action) : written next write s (action :: rest) =
      (write s action).toList ++ written next write (next s action) rest := by
  cases now : write s action <;> simp [written, moments, now]

/-- A part of the state that follows the last thing written. -/
theorem last_foldl {Follows : State → Option Value → Prop} {write : State → Action → Option Value}
    (step : ∀ s last action, Follows s last → Follows (next s action) ((write s action).or last))
    {s : State} {last : Option Value} (start : Follows s last) (actions : List Action) :
    Follows (actions.foldl next s) ((written next write s actions).getLast?.or last) := by
  induction actions generalizing s last with
  | nil => exact start
  | cons action rest ih =>
    have later := ih (step s last action start)
    rw [written_cons, List.getLast?_append, Option.or_assoc]
    cases now : write s action <;> simpa [now] using later

/-- An action with a property, with no barrier behind it, in a run that one more action ends: that action
itself, or an earlier one if the last action is no barrier. -/
theorem exists_split_concat {Marks : List Action → Action → Prop} {barrier last : Action}
    {front : List Action} :
    (∃ before action after, front ++ [last] = before ++ action :: after ∧ Marks before action ∧
      barrier ∉ after) ↔
    Marks front last ∨ last ≠ barrier ∧ ∃ before action after, front = before ++ action :: after ∧
      Marks before action ∧ barrier ∉ after := by
  constructor
  · rintro ⟨before, action, after, split, marks, free⟩
    rcases List.eq_nil_or_concat after with rfl | ⟨rest, final, rfl⟩
    · obtain ⟨rfl, same⟩ := List.append_inj' split rfl
      obtain rfl : last = action := by simpa using same
      exact .inl marks
    · rw [List.concat_eq_append] at split free
      rw [← List.cons_append, ← List.append_assoc] at split
      obtain ⟨rfl, same⟩ := List.append_inj' split rfl
      obtain rfl : last = final := by simpa using same
      simp only [List.mem_append, List.mem_singleton, not_or] at free
      exact .inr ⟨Ne.symm free.2, before, action, rest, rfl, marks, free.1⟩
  · rintro (marks | ⟨other, before, action, after, rfl, marks, free⟩)
    · exact ⟨front, last, [], rfl, marks, List.not_mem_nil⟩
    · refine ⟨before, action, after ++ [last], by simp, marks, ?_⟩
      simp only [List.mem_append, List.mem_singleton, not_or]
      exact ⟨free, Ne.symm other⟩

end ShaderBundle.History
