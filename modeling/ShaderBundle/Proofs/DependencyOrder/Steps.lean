import ShaderBundle.Proofs.DependencyOrder.Table

/-! The search as a sequence of steps: the top frame is finished, skips an include or enters a module.
Each step keeps an invariant that ties the finished modules to the suspended frames, and the search
ends with a state in which no step is left. -/
namespace ShaderBundle.DependencyOrder

open Relation

namespace Search

/-- The open modules, innermost first. -/
def entered (s : Search) : List Module := s.stack.map (·.entered)

theorem mem_path_iff {s : Search} {id : String} : id ∈ s.path ↔ s.isOpen id = true := by
  simp [path, isOpen]

inductive Advance (table : ModuleTable) : Search → Search → Prop
  | finish (finished : List Module) (m : Module) (below : List Frame) :
    Advance table ⟨finished, ⟨m, []⟩ :: below⟩ ⟨finished ++ [m], below⟩
  | skip {finished : List Module} {m : Module} {dep : Dependency} {left : List Dependency}
    {below : List Frame} {target : Module} (found : table.target? dep = some target)
    (known : isFinished ⟨finished, ⟨m, dep :: left⟩ :: below⟩ target.id = true) :
    Advance table ⟨finished, ⟨m, dep :: left⟩ :: below⟩ ⟨finished, ⟨m, left⟩ :: below⟩
  | enter {finished : List Module} {m : Module} {dep : Dependency} {left : List Dependency}
    {below : List Frame} {target : Module} (found : table.target? dep = some target)
    (fresh : isFinished ⟨finished, ⟨m, dep :: left⟩ :: below⟩ target.id = false)
    (unopened : isOpen ⟨finished, ⟨m, dep :: left⟩ :: below⟩ target.id = false) :
    Advance table ⟨finished, ⟨m, dep :: left⟩ :: below⟩
      ⟨finished, Frame.enter target :: ⟨m, left⟩ :: below⟩

inductive Halt (table : ModuleTable) : Search → Except OrderFault (List Module) → Prop
  | done (finished : List Module) : Halt table ⟨finished, []⟩ (.ok finished)
  | missing {finished : List Module} {m : Module} {dep : Dependency} {left : List Dependency}
    {below : List Frame} (absent : table.target? dep = none) :
    Halt table ⟨finished, ⟨m, dep :: left⟩ :: below⟩ (.error (.unresolved dep.resolved))
  | closing {finished : List Module} {m : Module} {dep : Dependency} {left : List Dependency}
    {below : List Frame} {target : Module} (found : table.target? dep = some target)
    (opened : isOpen ⟨finished, ⟨m, dep :: left⟩ :: below⟩ target.id = true) :
    Halt table ⟨finished, ⟨m, dep :: left⟩ :: below⟩
      (.error (.cycle (chain ⟨finished, ⟨m, dep :: left⟩ :: below⟩ target.id)))

end Search

open Search

/-- Every search takes steps to a state that gives its answer. -/
theorem settle_run (table : ModuleTable) (s : Search) :
    ∃ last, ReflTransGen (Advance table) s last ∧ Halt table last (settle table s) := by
  fun_induction settle table s with
  | case1 s empty =>
    obtain ⟨finished, stack⟩ := s
    subst empty
    exact ⟨_, .refl, .done finished⟩
  | case2 s m below top ih =>
    obtain ⟨finished, stack⟩ := s
    subst top
    obtain ⟨last, steps, halt⟩ := ih
    exact ⟨last, .head (.finish finished m below) steps, halt⟩
  | case3 s m dep left below top absent =>
    obtain ⟨finished, stack⟩ := s
    subst top
    exact ⟨_, .refl, .missing absent⟩
  | case4 s m dep left below top target found known ih =>
    obtain ⟨finished, stack⟩ := s
    subst top
    obtain ⟨last, steps, halt⟩ := ih
    exact ⟨last, .head (.skip found known) steps, halt⟩
  | case5 s m dep left below top target found fresh opened =>
    obtain ⟨finished, stack⟩ := s
    subst top
    exact ⟨_, .refl, .closing found opened⟩
  | case6 s m dep left below top target found fresh unopened ih =>
    obtain ⟨finished, stack⟩ := s
    subst top
    obtain ⟨last, steps, halt⟩ := ih
    exact ⟨last, .head (.enter found (by simpa using fresh) (by simpa using unopened)) steps, halt⟩

/-- Every module stands behind all modules that it includes. -/
def Ordered (table : ModuleTable) (ms : List Module) : Prop :=
  ∀ before m after, ms = before ++ m :: after → ∀ n, table.Includes m n → n ∈ before

theorem Ordered.nil (table : ModuleTable) : Ordered table [] := by
  intro before m after split
  simp at split

theorem Ordered.concat {table : ModuleTable} {ms : List Module} {m : Module}
    (ordered : Ordered table ms) (included : ∀ n, table.Includes m n → n ∈ ms) :
    Ordered table (ms ++ [m]) := by
  intro before x after split n edge
  rcases List.eq_nil_or_concat after with rfl | ⟨front, z, rfl⟩
  · obtain ⟨rfl, same⟩ := List.append_inj' split rfl
    obtain rfl : m = x := by simpa using same
    exact included n edge
  · have split' : ms ++ [m] = (before ++ x :: front) ++ [z] := by simpa using split
    obtain ⟨rfl, -⟩ := List.append_inj' split' rfl
    exact ordered before x front rfl n edge

/-- In an ordered list of different modules an include leads strictly towards the front. -/
theorem Ordered.idxOf_lt {table : ModuleTable} {ms : List Module} (ordered : Ordered table ms)
    {m n : Module} (path : TransGen table.Includes m n) (member : m ∈ ms) :
    n ∈ ms ∧ ms.idxOf n < ms.idxOf m := by
  have edge {m n : Module} (edge : table.Includes m n) (member : m ∈ ms) :
      n ∈ ms ∧ ms.idxOf n < ms.idxOf m := by
    obtain ⟨before, after, rfl, first⟩ := List.eq_append_cons_of_mem member
    have inside : n ∈ before := ordered before m after rfl n edge
    refine ⟨List.mem_append_left _ inside, ?_⟩
    rw [List.idxOf_append_of_mem inside, List.idxOf_append_of_notMem first]
    exact Nat.lt_of_lt_of_le (List.idxOf_lt_length_of_mem inside) (Nat.le_add_right _ _)
  induction path with
  | single last => exact edge last member
  | tail _ last ih =>
    obtain ⟨inside, before⟩ := ih
    obtain ⟨inside', before'⟩ := edge last inside
    exact ⟨inside', Nat.lt_trans before' before⟩

end ShaderBundle.DependencyOrder
