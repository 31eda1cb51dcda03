import ShaderBundle.Proofs.DependencyOrder.Steps
import Mathlib.Data.List.Chain

/-! What every step of the search keeps. An include that a frame has passed leads to a finished module
or, as long as the frame is suspended, to a module that was opened above it; the open modules form a
path of includes. -/
namespace ShaderBundle.DependencyOrder.Search

open Relation

/-- The passed includes of each frame lead to `done` modules or to modules of the frames above. -/
def Passed (table : ModuleTable) : List Module → List Frame → Prop
  | _, [] => True
  | done, f :: below =>
    (∀ dep ∈ f.entered.dependencies,
      dep ∈ f.left ∨ ∃ n, table.target? dep = some n ∧ n ∈ done) ∧
    Passed table (f.entered :: done) below

theorem Passed.mono {table : ModuleTable} {done more : List Module} {frames : List Frame}
    (passed : Passed table done frames) (subset : done ⊆ more) : Passed table more frames := by
  induction frames generalizing done more with
  | nil => trivial
  | cons f below ih =>
    refine ⟨fun dep member => ?_, ih passed.2 (List.cons_subset_cons _ subset)⟩
    rcases passed.1 dep member with left | ⟨n, found, inside⟩
    · exact .inl left
    · exact .inr ⟨n, found, subset inside⟩

structure Invariant (table : ModuleTable) (s : Search) : Prop where
  members : ∀ m ∈ s.finished ++ s.entered, m ∈ table.map Prod.snd
  distinct : ((s.finished ++ s.entered).map (·.id)).Nodup
  ordered : Ordered table s.finished
  remaining : ∀ f ∈ s.stack, f.left <:+ f.entered.dependencies
  passed : Passed table s.finished s.stack
  path : s.entered.IsChain fun upper lower => table.Includes lower upper

namespace Invariant

variable {table : ModuleTable} {s t : Search}

theorem isFinished_iff (valid : Invariant table s) (keyed : table.Keyed) {n : Module}
    (inTable : n ∈ table.map Prod.snd) : s.isFinished n.id = true ↔ n ∈ s.finished := by
  simp only [isFinished, List.any_eq_true, beq_iff_eq]
  constructor
  · rintro ⟨m, member, same⟩
    have known := valid.members m (List.mem_append_left _ member)
    rwa [← keyed.eq_of_id_eq known inTable same]
  · intro member
    exact ⟨n, member, rfl⟩

theorem isOpen_iff (valid : Invariant table s) (keyed : table.Keyed) {n : Module}
    (inTable : n ∈ table.map Prod.snd) : s.isOpen n.id = true ↔ n ∈ s.entered := by
  simp only [isOpen, List.any_eq_true, beq_iff_eq, entered, List.mem_map]
  constructor
  · rintro ⟨f, member, same⟩
    have known := valid.members f.entered
      (List.mem_append_right _ (List.mem_map_of_mem member))
    exact ⟨f, member, keyed.eq_of_id_eq known inTable same⟩
  · rintro ⟨f, member, rfl⟩
    exact ⟨f, member, rfl⟩

/-- Nothing is left of the top frame: its includes are finished, and so is its module. -/
theorem finish {finished : List Module} {m : Module} {below : List Frame}
    (valid : Invariant table ⟨finished, ⟨m, []⟩ :: below⟩) :
    Invariant table ⟨finished ++ [m], below⟩ where
  members := by simpa [entered] using valid.members
  distinct := by simpa [entered] using valid.distinct
  ordered := by
    refine valid.ordered.concat fun n edge => ?_
    obtain ⟨dep, member, found⟩ := edge
    rcases valid.passed.1 dep member with left | ⟨n', found', inside⟩
    · simp at left
    · obtain rfl : n' = n := Option.some.inj (found'.symm.trans found)
      exact inside
  remaining := fun f member => valid.remaining f (List.mem_cons_of_mem _ member)
  passed := valid.passed.2.mono (by simp)
  path := valid.path.tail

theorem skip {finished : List Module} {m : Module} {dep : Dependency} {left : List Dependency}
    {below : List Frame} {target : Module}
    (valid : Invariant table ⟨finished, ⟨m, dep :: left⟩ :: below⟩)
    (found : table.target? dep = some target) (known : target ∈ finished) :
    Invariant table ⟨finished, ⟨m, left⟩ :: below⟩ where
  members := valid.members
  distinct := valid.distinct
  ordered := valid.ordered
  remaining := by
    intro f member
    rcases List.mem_cons.mp member with rfl | member
    · exact (List.suffix_cons dep left).trans (valid.remaining _ List.mem_cons_self)
    · exact valid.remaining f (List.mem_cons_of_mem _ member)
  passed := by
    refine ⟨fun other member => ?_, valid.passed.2⟩
    rcases valid.passed.1 other member with left | done
    · rcases List.mem_cons.mp left with rfl | left
      · exact .inr ⟨target, found, known⟩
      · exact .inl left
    · exact .inr done
  path := valid.path

theorem enter {finished : List Module} {m : Module} {dep : Dependency} {left : List Dependency}
    {below : List Frame} {target : Module}
    (valid : Invariant table ⟨finished, ⟨m, dep :: left⟩ :: below⟩)
    (found : table.target? dep = some target)
    (fresh : isFinished ⟨finished, ⟨m, dep :: left⟩ :: below⟩ target.id = false)
    (unopened : isOpen ⟨finished, ⟨m, dep :: left⟩ :: below⟩ target.id = false) :
    Invariant table ⟨finished, Frame.enter target :: ⟨m, left⟩ :: below⟩ where
  members := by
    intro n member
    rcases List.mem_append.mp member with member | member
    · exact valid.members n (List.mem_append_left _ member)
    · rcases List.mem_cons.mp member with rfl | member
      · exact ModuleTable.mem_of_target? found
      · exact valid.members n (List.mem_append_right _ member)
  distinct := by
    have new : target.id ∉ (finished ++ entered ⟨finished, ⟨m, dep :: left⟩ :: below⟩).map (·.id) := by
      simp only [isFinished, isOpen, List.any_eq_false, beq_iff_eq] at fresh unopened
      intro member
      obtain ⟨n, member, same⟩ := List.mem_map.mp member
      rcases List.mem_append.mp member with member | member
      · exact fresh n member same
      · obtain ⟨f, inStack, rfl⟩ := List.mem_map.mp member
        exact unopened f inStack same
    have moved : (finished ++ target :: entered ⟨finished, ⟨m, dep :: left⟩ :: below⟩).Perm
        (target :: (finished ++ entered ⟨finished, ⟨m, dep :: left⟩ :: below⟩)) := List.perm_middle
    exact (moved.map Module.id).nodup_iff.mpr (List.nodup_cons.mpr ⟨new, valid.distinct⟩)
  ordered := valid.ordered
  remaining := by
    intro f member
    rcases List.mem_cons.mp member with rfl | member
    · exact List.suffix_refl _
    rcases List.mem_cons.mp member with rfl | member
    · exact (List.suffix_cons dep left).trans (valid.remaining _ List.mem_cons_self)
    · exact valid.remaining f (List.mem_cons_of_mem _ member)
  passed := by
    refine ⟨fun other member => .inl member, fun other member => ?_, valid.passed.2.mono ?_⟩
    · rcases valid.passed.1 other member with left | ⟨n, found', done⟩
      · rcases List.mem_cons.mp left with rfl | left
        · exact .inr ⟨target, found, List.mem_cons_self⟩
        · exact .inl left
      · exact .inr ⟨n, found', List.mem_cons_of_mem _ done⟩
    · exact List.cons_subset_cons _ (List.subset_cons_self _ _)
  path := by
    have inModule : dep ∈ m.dependencies :=
      (valid.remaining _ List.mem_cons_self).subset List.mem_cons_self
    exact List.isChain_cons_cons.mpr ⟨⟨dep, inModule, found⟩, valid.path⟩

/-- One step keeps the invariant. -/
theorem advance (keyed : table.Keyed) (step : Advance table s t) (valid : Invariant table s) :
    Invariant table t := by
  cases step with
  | finish => exact valid.finish
  | skip found known =>
    exact valid.skip found ((valid.isFinished_iff keyed (ModuleTable.mem_of_target? found)).mp known)
  | enter found fresh unopened => exact valid.enter found fresh unopened

/-- So does a run of steps. -/
theorem run (keyed : table.Keyed) (steps : ReflTransGen (Advance table) s t)
    (valid : Invariant table s) : Invariant table t := by
  induction steps with
  | refl => exact valid
  | tail _ step ih => exact ih.advance keyed step

/-- A module of the table that is not finished may be entered when no frame is left. -/
theorem root {finished : List Module} {m : Module} (valid : Invariant table ⟨finished, []⟩)
    (inTable : m ∈ table.map Prod.snd) (fresh : finished.any (·.id == m.id) = false) :
    Invariant table ⟨finished, [Frame.enter m]⟩ where
  members := by
    intro n member
    rcases List.mem_append.mp member with member | member
    · exact valid.members n (List.mem_append_left _ member)
    · obtain rfl : n = m := by simpa [entered, Frame.enter] using member
      exact inTable
  distinct := by
    have before : (finished.map (·.id)).Nodup := by simpa [entered] using valid.distinct
    have new : m.id ∉ finished.map (·.id) := by simpa using fresh
    simpa [entered, Frame.enter, List.nodup_append, before] using new
  ordered := valid.ordered
  remaining := by simp [Frame.enter]
  passed := ⟨fun dep member => .inl member, trivial⟩
  path := by simp [entered]

end Invariant

/-- Finished and open modules never become new again. -/
theorem Advance.subset {table : ModuleTable} {s t : Search} (step : Advance table s t) :
    s.finished ++ s.entered ⊆ t.finished ++ t.entered := by
  cases step with
  | finish => simp [entered]
  | skip => exact List.Subset.refl _
  | enter => exact List.append_subset.mpr ⟨List.subset_append_left .., fun m member =>
      List.mem_append_right _ (List.mem_cons_of_mem _ member)⟩

theorem run_subset {table : ModuleTable} {s t : Search} (steps : ReflTransGen (Advance table) s t) :
    s.finished ++ s.entered ⊆ t.finished ++ t.entered := by
  induction steps with
  | refl => exact List.Subset.refl _
  | tail _ step ih => exact List.Subset.trans ih step.subset

end ShaderBundle.DependencyOrder.Search
