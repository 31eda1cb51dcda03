import ShaderBundle.Proofs.DependencyOrder.Order

/-! The sort of a whole table as one run, with the modules that it pushes on its stack on the way. They
are at any time the finished and the open ones, so that none is pushed twice. -/
namespace ShaderBundle.DependencyOrder

open Relation Search

variable {table : ModuleTable} {pushes rest : List Module} {s t : Search}

def Search.pushed (s t : Search) : List Module :=
  (t.stack.take (t.stack.length - s.stack.length)).map (·.entered)

/-- A sort has pushed these modules when it comes to a search with some modules still to visit. -/
inductive Sorts (table : ModuleTable) : List Module → Search → List Module → Prop
  | start : Sorts table [] ⟨[], []⟩ (table.map Prod.snd)
  | pass {pushes finished : List Module} {m : Module} {rest : List Module}
    (before : Sorts table pushes ⟨finished, []⟩ (m :: rest))
    (known : finished.any (·.id == m.id) = true) : Sorts table pushes ⟨finished, []⟩ rest
  | root {pushes finished : List Module} {m : Module} {rest : List Module}
    (before : Sorts table pushes ⟨finished, []⟩ (m :: rest))
    (fresh : finished.any (·.id == m.id) = false) :
    Sorts table (pushes ++ [m]) ⟨finished, [Frame.enter m]⟩ rest
  | advance {pushes : List Module} {s t : Search} {rest : List Module}
    (before : Sorts table pushes s rest) (step : Advance table s t) :
    Sorts table (pushes ++ s.pushed t) t rest

namespace Sorts

theorem run (before : Sorts table pushes s rest) (steps : ReflTransGen (Advance table) s t) :
    ∃ more, Sorts table (pushes ++ more) t rest := by
  induction steps with
  | refl => exact ⟨[], by rwa [List.append_nil]⟩
  | @tail u t _ step ih =>
    obtain ⟨more, reached⟩ := ih
    exact ⟨more ++ u.pushed t, by rw [← List.append_assoc]; exact reached.advance step⟩

/-- From a point between two visits the sort comes to the search that gives its answer. -/
theorem halts {finished : List Module} (before : Sorts table pushes ⟨finished, []⟩ rest) :
    ∃ pushes last left, Sorts table pushes last left ∧
      Halt table last (rest.foldlM (visit table) finished) := by
  induction rest generalizing pushes finished with
  | nil => exact ⟨pushes, _, [], before, .done finished⟩
  | cons m rest ih =>
    rw [List.foldlM_cons]
    cases known : finished.any (·.id == m.id) with
    | true =>
      have passed : visit table finished m = .ok finished := by rw [visit, if_pos known]
      rw [passed]
      exact ih (before.pass known)
    | false =>
      have entered : visit table finished m = settle table ⟨finished, [Frame.enter m]⟩ := by
        rw [visit, if_neg (by simp [known])]
      rw [entered]
      obtain ⟨last, steps, halt⟩ := settle_run table ⟨finished, [Frame.enter m]⟩
      obtain ⟨more, reached⟩ := (before.root known).run steps
      cases outcome : settle table ⟨finished, [Frame.enter m]⟩ with
      | error fault =>
        rw [outcome] at halt
        exact ⟨_, last, rest, reached, halt⟩
      | ok sorted =>
        rw [outcome] at halt
        cases halt with
        | done => exact ih reached

/-- What was pushed is finished or still open. -/
theorem accounts (keyed : table.Keyed) (sorts : Sorts table pushes s rest) :
    Invariant table s ∧ rest ⊆ table.map Prod.snd ∧ pushes.Perm (s.finished ++ s.entered) := by
  induction sorts with
  | start => exact ⟨invariant_start table, List.Subset.refl _, by simp [entered]⟩
  | pass before known ih =>
    obtain ⟨valid, inTable, perm⟩ := ih
    exact ⟨valid, (List.cons_subset.mp inTable).2, perm⟩
  | root before fresh ih =>
    obtain ⟨valid, inTable, perm⟩ := ih
    obtain ⟨here, inTable⟩ := List.cons_subset.mp inTable
    refine ⟨valid.root here fresh, inTable, ?_⟩
    simp only [entered, List.map_nil, List.append_nil] at perm
    exact perm.append_right [_]
  | advance before step ih =>
    obtain ⟨valid, inTable, perm⟩ := ih
    refine ⟨valid.advance keyed step, inTable, ?_⟩
    cases step with
    | finish finished m below => simpa [pushed, entered] using perm
    | skip => simpa [pushed, entered] using perm
    | @enter finished m dep left below target =>
      have opened : Search.pushed ⟨finished, ⟨m, dep :: left⟩ :: below⟩
          ⟨finished, Frame.enter target :: ⟨m, left⟩ :: below⟩ = [target] := by
        simp [pushed, Frame.enter]
      rw [opened]
      exact (perm.append_right [target]).trans
        (List.perm_append_singleton target _ |>.trans List.perm_middle.symm)

/-- No sort pushes a module twice, however far it has come. -/
theorem pushes_distinct (keyed : table.Keyed) (sorts : Sorts table pushes s rest) :
    (pushes.map (·.id)).Nodup ∧ pushes ⊆ table.map Prod.snd := by
  obtain ⟨valid, -, perm⟩ := sorts.accounts keyed
  exact ⟨(perm.map Module.id).nodup_iff.mpr valid.distinct,
    fun m member => valid.members m (perm.mem_iff.mp member)⟩

end Sorts

end ShaderBundle.DependencyOrder
