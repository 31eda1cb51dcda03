import ShaderBundle.Proofs.DependencyOrder.Order

/-! The order of a table as a recursive search gives it. A module is white until it is met, grey while
the modules that it includes are visited, and black from the moment it is listed. The search with a
stack takes the same way: its frames are what the recursion has left to do. -/
namespace ShaderBundle.DependencyOrder

inductive Colour
  | white
  | grey
  | black
  deriving DecidableEq, Repr

namespace Recursive

/-- The colour of a module while the modules of a trail are being visited. -/
def colour (trail : List String) (listed : List Module) (id : String) : Colour :=
  if listed.any (·.id == id) then .black
  else if trail.contains id then .grey
  else .white

def offTrail (table : ModuleTable) (trail : List String) : List Module :=
  (table.map Prod.snd).filter (·.id ∉ trail)

theorem length_offTrail_lt {table : ModuleTable} {trail : List String} {m : Module}
    (member : m ∈ table.map Prod.snd) (outside : m.id ∉ trail) :
    (offTrail table (trail ++ [m.id])).length < (offTrail table trail).length := by
  have further : offTrail table (trail ++ [m.id]) = (offTrail table trail).filter (·.id ≠ m.id) := by
    simp [offTrail, List.filter_filter, and_comm]
  rw [further, List.length_filter_lt_length_iff_exists]
  exact ⟨m, List.mem_filter.mpr ⟨member, by simpa using outside⟩, by simp⟩

theorem not_mem_of_white {trail : List String} {listed : List Module} {id : String}
    (white : colour trail listed id = .white) : id ∉ trail := by
  unfold colour at white
  split at white
  · simp at white
  split at white
  · simp at white
  · simp_all

set_option linter.unusedVariables false in
def visitIncludes (table : ModuleTable) (trail : List String) :
    List Dependency → List Module → Except OrderFault (List Module)
  | [], listed => .ok listed
  | dep :: rest, listed =>
    match found : table.target? dep with
    | none => .error (.unresolved dep.resolved)
    | some target =>
      match met : colour trail listed target.id with
      | .black => visitIncludes table trail rest listed
      | .grey => .error (.cycle (trail.dropWhile (· ≠ target.id) ++ [target.id]))
      | .white => do
        let listed ← visitIncludes table (trail ++ [target.id]) target.dependencies listed
        visitIncludes table trail rest (listed ++ [target])
termination_by deps => ((offTrail table trail).length, deps.length)
decreasing_by
  · exact Prod.Lex.right _ (Nat.lt_succ_self _)
  · exact Prod.Lex.left _ _
      (length_offTrail_lt (ModuleTable.mem_of_target? found) (not_mem_of_white met))
  · exact Prod.Lex.right _ (Nat.lt_succ_self _)

/-- Visits a module unless it is listed, and lists it behind all that it includes. -/
def visit (table : ModuleTable) (listed : List Module) (m : Module) :
    Except OrderFault (List Module) :=
  if colour [] listed m.id = .black then .ok listed
  else do
    let listed ← visitIncludes table [m.id] m.dependencies listed
    return listed ++ [m]

def sort (table : ModuleTable) : Except OrderFault (List Module) :=
  (table.map Prod.snd).foldlM (visit table) []

end Recursive

open Recursive

variable {table : ModuleTable}

theorem colour_path (s : Search) (id : String) :
    colour s.path s.finished id =
      if s.isFinished id then .black else if s.isOpen id then .grey else .white := by
  have opened : s.path.contains id = s.isOpen id := by
    rw [Bool.eq_iff_iff, List.contains_iff_mem, Search.mem_path_iff]
  rw [colour, opened]
  rfl

theorem settle_finish (listed : List Module) (m : Module) (below : List Frame) :
    settle table ⟨listed, ⟨m, []⟩ :: below⟩ = settle table ⟨listed ++ [m], below⟩ := by
  conv_lhs => rw [settle]

/-- What the stack search does at the next include of its top frame, told by colours. -/
theorem settle_include (listed : List Module) (m : Module) (dep : Dependency)
    (left : List Dependency) (below : List Frame) :
    let s : Search := ⟨listed, ⟨m, dep :: left⟩ :: below⟩
    settle table s = match table.target? dep with
      | none => .error (.unresolved dep.resolved)
      | some target =>
        match colour s.path listed target.id with
        | .black => settle table ⟨listed, ⟨m, left⟩ :: below⟩
        | .grey => .error (.cycle (s.chain target.id))
        | .white => settle table ⟨listed, Frame.enter target :: ⟨m, left⟩ :: below⟩ := by
  intro s
  conv_lhs => rw [settle]
  dsimp only [s]
  split
  · rename_i absent
    rw [show table.target? dep = none from absent]
  · rename_i target found
    have told := colour_path s target.id
    rw [show table.target? dep = some target from found]
    dsimp only
    rw [show colour s.path listed target.id = _ from told]
    split
    · rfl
    split
    · rfl
    · rfl

/-- The stack search does what the recursion does with the includes of its top frame, and goes on with
the frames below. -/
theorem settle_eq_visitIncludes {trail : List String} {deps : List Dependency} {listed : List Module}
    (m : Module) (below : List Frame) (way : trail = Search.path ⟨listed, ⟨m, deps⟩ :: below⟩) :
    settle table ⟨listed, ⟨m, deps⟩ :: below⟩ =
      visitIncludes table trail deps listed >>= fun listed => settle table ⟨listed ++ [m], below⟩ := by
  fun_induction visitIncludes table trail deps listed generalizing m below with
  | case1 trail listed => exact settle_finish listed m below
  | case2 trail dep rest listed absent =>
    rw [settle_include, absent]
    rfl
  | case3 trail dep rest listed target found black ih =>
    rw [settle_include, found]
    dsimp only
    rw [← way, black]
    exact ih m below way
  | case4 trail dep rest listed target found grey =>
    rw [settle_include, found]
    dsimp only
    rw [← way, grey, Search.chain, ← way]
    rfl
  | case5 trail dep rest listed target found white inner outer =>
    have entered : settle table ⟨listed, ⟨m, dep :: rest⟩ :: below⟩ =
        settle table ⟨listed, Frame.enter target :: ⟨m, rest⟩ :: below⟩ := by
      rw [settle_include, found]
      dsimp only
      rw [← way, white]
    have down := inner target (⟨m, rest⟩ :: below) (by simp [way, Search.path])
    rw [entered, bind_assoc]
    refine down.trans (congrArg _ (funext fun listed => ?_))
    exact outer listed m below way

theorem visit_eq_recursive (listed : List Module) (m : Module) :
    visit table listed m = Recursive.visit table listed m := by
  unfold visit Recursive.visit colour
  by_cases known : listed.any (·.id == m.id) = true
  · rw [if_pos known, if_pos known, if_pos rfl]
  · rw [if_neg known, if_neg known, if_neg (by simp)]
    have down : settle table ⟨listed, [Frame.enter m]⟩ =
        visitIncludes table [m.id] m.dependencies listed >>= fun listed =>
          settle table ⟨listed ++ [m], []⟩ := settle_eq_visitIncludes m [] rfl
    refine down.trans (congrArg _ (funext fun listed => ?_))
    rw [settle]
    rfl

namespace Recursive

/-- An include that leads nowhere is one of those being visited or belongs to a module of the table. -/
theorem visitIncludes_unresolved {trail : List String} {deps : List Dependency}
    {listed : List Module} {key : Option String}
    (failed : visitIncludes table trail deps listed = .error (.unresolved key)) :
    ∃ dep, (dep ∈ deps ∨ ∃ m ∈ table.map Prod.snd, dep ∈ m.dependencies) ∧
      dep.resolved = key ∧ table.target? dep = none := by
  fun_induction visitIncludes table trail deps listed with
  | case1 => simp at failed
  | case2 trail dep rest listed absent =>
    exact ⟨dep, .inl List.mem_cons_self, by simpa using failed, absent⟩
  | case3 trail dep rest listed target found black ih =>
    obtain ⟨missing, place, named⟩ := ih failed
    exact ⟨missing, place.imp_left (List.mem_cons_of_mem _), named⟩
  | case4 => simp at failed
  | case5 trail dep rest listed target found white inner outer =>
    have inTable := ModuleTable.mem_of_target? found
    cases down : visitIncludes table (trail ++ [target.id]) target.dependencies listed with
    | error fault =>
      obtain rfl : fault = .unresolved key := by simpa [down, bind, Except.bind] using failed
      obtain ⟨missing, place, named⟩ := inner down
      exact ⟨missing, .inr (place.elim (fun inTarget => ⟨target, inTable, inTarget⟩) id), named⟩
    | ok later =>
      obtain ⟨missing, place, named⟩ := outer later (by simpa [down, bind, Except.bind] using failed)
      exact ⟨missing, place.imp_left (List.mem_cons_of_mem _), named⟩

theorem visit_unresolved {listed : List Module} {m : Module} {key : Option String}
    (inTable : m ∈ table.map Prod.snd) (failed : visit table listed m = .error (.unresolved key)) :
    ∃ n ∈ table.map Prod.snd, ∃ dep ∈ n.dependencies,
      dep.resolved = key ∧ table.target? dep = none := by
  unfold visit at failed
  split at failed
  · simp at failed
  · cases down : visitIncludes table [m.id] m.dependencies listed with
    | ok later => simp [down, bind, Except.bind, pure, Except.pure] at failed
    | error fault =>
      obtain rfl : fault = .unresolved key := by simpa [down, bind, Except.bind] using failed
      obtain ⟨dep, inModule | ⟨n, member, inModule⟩, named⟩ := visitIncludes_unresolved down
      · exact ⟨m, inTable, dep, inModule, named⟩
      · exact ⟨n, member, dep, inModule, named⟩

theorem foldlM_visit_unresolved {ms listed : List Module} {key : Option String}
    (inTable : ms ⊆ table.map Prod.snd)
    (failed : ms.foldlM (visit table) listed = .error (.unresolved key)) :
    ∃ m ∈ table.map Prod.snd, ∃ dep ∈ m.dependencies,
      dep.resolved = key ∧ table.target? dep = none := by
  induction ms generalizing listed with
  | nil => simp [pure, Except.pure] at failed
  | cons m rest ih =>
    obtain ⟨head, tail⟩ := List.cons_subset.mp inTable
    rw [List.foldlM_cons] at failed
    cases first : visit table listed m with
    | error fault =>
      obtain rfl : fault = .unresolved key := by simpa [first, bind, Except.bind] using failed
      exact visit_unresolved head first
    | ok next => exact ih tail (by simpa [first, bind, Except.bind] using failed)

end Recursive

/-- The search with a stack gives the answer of the recursive search: the same list, the same cycle or
the same key that leads nowhere, which some module of the table includes. -/
theorem sort_eq_recursive (table : ModuleTable) :
    sort table = Recursive.sort table ∧
    ∀ key, Recursive.sort table = .error (.unresolved key) →
      ∃ m ∈ table.map Prod.snd, ∃ dep ∈ m.dependencies,
        dep.resolved = key ∧ table.target? dep = none := by
  refine ⟨?_, fun key failed => foldlM_visit_unresolved (List.Subset.refl _) failed⟩
  have same : visit table = Recursive.visit table :=
    funext fun listed => funext fun m => visit_eq_recursive listed m
  rw [sort, Recursive.sort, same]

/-- A key that leads nowhere, below a module that is listed already. -/
theorem sort_eq_recursive_of_gap :
    let table := ModuleTable.ofIncludes [("top", ["base", "left"]), ("base", []), ("left", ["gone"])]
    Recursive.sort table = .error (.unresolved (some "gone")) ∧
    sort table = .error (.unresolved (some "gone")) ∧
    ∃ m ∈ table.map Prod.snd, ∃ dep ∈ m.dependencies,
      dep.resolved = some "gone" ∧ table.target? dep = none := by
  intro table
  have failed : sort table = .error (.unresolved (some "gone")) := by cbv
  obtain ⟨same, located⟩ := sort_eq_recursive table
  have recursive := same.symm.trans failed
  exact ⟨recursive, failed, located _ recursive⟩

end ShaderBundle.DependencyOrder
