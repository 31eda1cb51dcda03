import ShaderBundle.Proofs.DependencyOrder.Recursion

/-! The first visit of a sort. It lists all that the visited module leads to, and that module last; so where
the first module of a table leads to all others, no visit behind it has anything left to do. -/
namespace ShaderBundle.DependencyOrder

open Recursive Relation Search

variable {table other : ModuleTable} {listed sorted ms : List Module} {m n : Module}

namespace Recursive

theorem visitIncludes_cons (table : ModuleTable) (trail : List String) (dep : Dependency)
    (rest : List Dependency) (listed : List Module) :
    visitIncludes table trail (dep :: rest) listed = match table.target? dep with
      | none => .error (.unresolved dep.resolved)
      | some target =>
        match colour trail listed target.id with
        | .black => visitIncludes table trail rest listed
        | .grey => .error (.cycle (trail.dropWhile (· ≠ target.id) ++ [target.id]))
        | .white => visitIncludes table (trail ++ [target.id]) target.dependencies listed >>=
            fun listed => visitIncludes table trail rest (listed ++ [target]) := by
  rw [visitIncludes]
  split
  · rename_i absent
    rw [absent]
  · rename_i target found
    rw [found]
    dsimp only
    split <;> rename_i met <;> rw [met]

/-- A visit that succeeds takes the same way in every table that finds the same modules. -/
theorem visitIncludes_mono (finds : ∀ key m, table.find? key = some m → other.find? key = some m)
    {trail : List String} {deps : List Dependency}
    (ok : visitIncludes table trail deps listed = .ok sorted) :
    visitIncludes other trail deps listed = .ok sorted := by
  have targets {dep : Dependency} {target : Module} (found : table.target? dep = some target) :
      other.target? dep = some target := by
    obtain ⟨key, noted, found⟩ := Option.bind_eq_some_iff.mp found
    exact Option.bind_eq_some_iff.mpr ⟨key, noted, finds key target found⟩
  fun_induction visitIncludes table trail deps listed generalizing sorted with
  | case1 => rwa [visitIncludes]
  | case2 => simp at ok
  | case3 trail dep rest listed target found black ih =>
    rw [visitIncludes_cons, targets found]
    dsimp only
    rw [black]
    exact ih ok
  | case4 => simp at ok
  | case5 trail dep rest listed target found white inner outer =>
    obtain ⟨middle, down, on⟩ : ∃ middle,
        visitIncludes table (trail ++ [target.id]) target.dependencies listed = .ok middle ∧
        visitIncludes table trail rest (middle ++ [target]) = .ok sorted := by
      cases down : visitIncludes table (trail ++ [target.id]) target.dependencies listed with
      | error fault => simp [down, bind, Except.bind] at ok
      | ok middle => exact ⟨middle, rfl, by simpa [down, bind, Except.bind] using ok⟩
    rw [visitIncludes_cons, targets found]
    dsimp only
    rw [white]
    dsimp only
    rw [inner down]
    exact outer middle on

end Recursive

/-- A module that is not listed yet is visited by its includes, and is listed behind them. -/
theorem visit_fresh (fresh : listed.any (·.id == m.id) = false) :
    visit table listed m =
      visitIncludes table [m.id] m.dependencies listed >>= fun before => .ok (before ++ [m]) := by
  have white : colour [] listed m.id ≠ .black := by simp [colour, fresh]
  rw [visit_eq_recursive, Recursive.visit, if_neg white]
  rfl

theorem visit_fresh_ok (fresh : listed.any (·.id == m.id) = false)
    (ok : visit table listed m = .ok sorted) : ∃ before,
      visitIncludes table [m.id] m.dependencies listed = .ok before ∧ sorted = before ++ [m] := by
  rw [visit_fresh fresh] at ok
  cases down : visitIncludes table [m.id] m.dependencies listed with
  | error fault => simp [down, bind, Except.bind] at ok
  | ok before =>
    refine ⟨before, rfl, ?_⟩
    simpa [down, bind, Except.bind, eq_comm] using ok

theorem visit_mono (finds : ∀ key m, table.find? key = some m → other.find? key = some m)
    (ok : visit table [] m = .ok sorted) : visit other [] m = .ok sorted := by
  obtain ⟨before, down, rfl⟩ := visit_fresh_ok rfl ok
  rw [visit_fresh rfl, visitIncludes_mono finds down]
  rfl

/-- All that a listed module leads to is listed. -/
theorem Ordered.mem_of_path (ordered : Ordered table sorted) (path : ReflTransGen table.Includes m n)
    (member : m ∈ sorted) : n ∈ sorted := by
  induction path with
  | refl => exact member
  | tail _ edge ih => exact (ordered.idxOf_lt (.single edge) ih).1

theorem foldlM_visit_of_listed (all : ∀ m ∈ ms, m ∈ listed) :
    ms.foldlM (visit table) listed = .ok listed := by
  induction ms with
  | nil => rfl
  | cons m rest ih =>
    obtain ⟨known, later⟩ := List.forall_mem_cons.mp all
    have passed : visit table listed m = .ok listed := by
      rw [visit, if_pos (List.any_eq_true.mpr ⟨m, known, by simp⟩)]
    rw [List.foldlM_cons, passed]
    exact ih later

/-- A sort that starts at a module which leads to all others is done with its first visit. -/
theorem visit_of_sort (keyed : table.Keyed) {rest : List Module} (order : table.map Prod.snd = m :: rest)
    (leads : ∀ n ∈ rest, ReflTransGen table.Includes m n) (ok : sort table = .ok sorted) :
    visit table [] m = .ok sorted := by
  rw [sort, order, List.foldlM_cons] at ok
  cases first : visit table [] m with
  | error fault => simp [first, bind, Except.bind] at ok
  | ok listed =>
    have inTable : m ∈ table.map Prod.snd := order ▸ List.mem_cons_self
    obtain ⟨valid, -, member⟩ := visit_ok keyed (invariant_start table) inTable first
    have all : ∀ n ∈ rest, n ∈ listed :=
      fun n inRest => valid.ordered.mem_of_path (leads n inRest) member
    rw [first] at ok
    exact (foldlM_visit_of_listed all).symm.trans ok

/-- A first visit that lists all modules of a table decides its sort. -/
theorem sort_of_visit {rest : List Module} (order : table.map Prod.snd = m :: rest)
    (first : visit table [] m = .ok sorted) (all : ∀ n ∈ rest, n ∈ sorted) : sort table = .ok sorted := by
  rw [sort, order, List.foldlM_cons, first]
  exact foldlM_visit_of_listed all

end ShaderBundle.DependencyOrder
