import ShaderBundle.Proofs.Assembly.Result
import ShaderBundle.Proofs.DependencyOrder.FirstVisit

/-! A table that is in order already. When a module is visited all that it includes is listed, so no visit
enters another module, and the sort lists the modules as they stand. -/
namespace ShaderBundle.DependencyOrder

open Recursive

variable {table : ModuleTable} {listed rest ms : List Module} {m : Module}

/-- Includes of listed modules are passed over. -/
theorem Recursive.visitIncludes_of_listed {trail : List String} {deps : List Dependency}
    (known : ∀ dep ∈ deps, ∃ n ∈ listed, table.target? dep = some n) :
    visitIncludes table trail deps listed = .ok listed := by
  induction deps with
  | nil => rw [visitIncludes]
  | cons dep rest ih =>
    obtain ⟨⟨n, inListed, found⟩, later⟩ := List.forall_mem_cons.mp known
    have black : colour trail listed n.id = .black :=
      if_pos (List.any_eq_true.mpr ⟨n, inListed, by simp⟩)
    rw [visitIncludes_cons, found]
    dsimp only
    rw [black]
    exact ih later

/-- A module whose includes are listed is listed next. -/
theorem visit_of_included (closed : table.Closed) (inTable : m ∈ table.map Prod.snd)
    (fresh : m.id ∉ listed.map (·.id)) (included : ∀ n, table.Includes m n → n ∈ listed) :
    visit table listed m = .ok (listed ++ [m]) := by
  have known : ∀ dep ∈ m.dependencies, ∃ n ∈ listed, table.target? dep = some n := by
    intro dep inModule
    obtain ⟨n, found⟩ := closed.target?_isSome inTable inModule
    exact ⟨n, included n ⟨dep, inModule, found⟩, found⟩
  rw [visit_fresh (by simpa using fresh), visitIncludes_of_listed known]
  rfl

/-- The visits behind the listed modules list the rest of the table in its order. -/
theorem foldlM_visit_of_ordered (closed : table.Closed) (ordered : Ordered table (table.map Prod.snd))
    (order : table.map Prod.snd = listed ++ rest) :
    rest.foldlM (visit table) listed = .ok (listed ++ rest) := by
  induction rest generalizing listed with
  | nil => exact congrArg Except.ok (List.append_nil _).symm
  | cons m rest ih =>
    have inTable : m ∈ table.map Prod.snd := by simp [order]
    have fresh : m.id ∉ listed.map (·.id) := by
      have distinct := closed.ids_distinct
      rw [order, List.map_append, List.map_cons] at distinct
      exact fun again => (List.nodup_append.mp distinct).2.2 _ again _ List.mem_cons_self rfl
    have next := visit_of_included closed inTable fresh (ordered listed m rest order)
    have behind : rest.foldlM (visit table) (listed ++ [m]) = .ok (listed ++ [m] ++ rest) :=
      ih (by simp [order])
    rw [List.append_assoc] at behind
    rw [List.foldlM_cons, next]
    exact behind

/-- A sort of a table in order changes nothing. -/
theorem sort_of_ordered (closed : table.Closed) (ordered : Ordered table (table.map Prod.snd)) :
    sort table = .ok (table.map Prod.snd) :=
  foldlM_visit_of_ordered closed ordered rfl

/-! ### The modules of a table in another order -/

section Rebuilt

variable (closed : table.Closed) (perm : ms.Perm (table.map Prod.snd))

include closed perm

theorem keyed_tableOf : (Assembly.tableOf ms).Keyed where
  named := by
    intro entry member
    obtain ⟨m, -, rfl⟩ := List.mem_map.mp member
    rfl
  distinct := by
    rw [Assembly.map_fst_tableOf]
    exact (perm.map Module.id).nodup_iff.mpr closed.ids_distinct

theorem find?_tableOf_perm (key : String) : (Assembly.tableOf ms).find? key = table.find? key := by
  refine Option.ext fun m => ?_
  rw [(keyed_tableOf closed perm).find?_eq_some_iff, closed.find?_eq_some_iff,
    Assembly.map_snd_tableOf, perm.mem_iff]

theorem target?_tableOf_perm (dep : Dependency) :
    (Assembly.tableOf ms).target? dep = table.target? dep :=
  congrArg dep.resolved.bind (funext (find?_tableOf_perm closed perm))

theorem closed_tableOf : (Assembly.tableOf ms).Closed where
  toKeyed := keyed_tableOf closed perm
  resolved := by
    intro entry member dep inModule
    have inTable : entry.2 ∈ table.map Prod.snd := by
      rw [← perm.mem_iff, ← Assembly.map_snd_tableOf ms]
      exact List.mem_map_of_mem member
    obtain ⟨original, known, same⟩ := List.mem_map.mp inTable
    obtain ⟨key, isKey, resolved⟩ := closed.resolved original known dep (same ▸ inModule)
    refine ⟨key, ?_, resolved⟩
    rw [Assembly.map_fst_tableOf, (perm.map Module.id).mem_iff, closed.ids]
    exact isKey

theorem Ordered.rebuilt {order : List Module} (ordered : Ordered table order) :
    Ordered (Assembly.tableOf ms) order := by
  rintro before m after split n ⟨dep, inModule, found⟩
  rw [target?_tableOf_perm closed perm] at found
  exact ordered before m after split n ⟨dep, inModule, found⟩

end Rebuilt

/-- The sort of a table is the table's own order exactly if that has every module behind all modules that it
includes. So a sort of what was sorted changes nothing. -/
theorem sort_fixes_ordered (closed : table.Closed) :
    ((∀ before m after, table.map Prod.snd = before ++ m :: after →
        ∀ n, table.Includes m n → n ∈ before) ↔ sort table = .ok (table.map Prod.snd)) ∧
    (¬ table.Cyclic → ∃ sorted, sort table = .ok sorted ∧ sorted.Perm (table.map Prod.snd) ∧
      sort (Assembly.tableOf sorted) = .ok sorted) := by
  refine ⟨⟨sort_of_ordered closed, fun ok => (sort_ok closed.toKeyed ok).2⟩, fun acyclic => ?_⟩
  cases ok : sort table with
  | error fault => exact absurd (sort_cyclic closed ok).1 acyclic
  | ok sorted =>
    obtain ⟨perm, ordered⟩ := sort_ok closed.toKeyed ok
    have again := sort_of_ordered (closed_tableOf closed perm)
      ((Assembly.map_snd_tableOf sorted).symm ▸ ordered.rebuilt closed perm)
    rw [Assembly.map_snd_tableOf] at again
    exact ⟨sorted, rfl, perm, again⟩

/-- A table in order, in which one module is included twice, and one that is not in order. -/
theorem sort_fixes_ordered_of_shared :
    let ordered := ModuleTable.ofIncludes [("base", []), ("top", ["base", "base"])]
    let reversed := ModuleTable.ofIncludes
      [("top", ["left", "right"]), ("left", ["base"]), ("base", []), ("right", ["base"])]
    (ordered.Closed ∧ Ordered ordered (ordered.map Prod.snd) ∧
      sort ordered = .ok (ordered.map Prod.snd)) ∧
    reversed.Closed ∧ ¬ reversed.Cyclic ∧ ∃ sorted, sort reversed = .ok sorted ∧
      sorted.map (·.id) = ["base", "left", "right", "top"] ∧
      sort (Assembly.tableOf sorted) = .ok sorted := by
  intro ordered reversed
  have orderedClosed : ordered.Closed := ⟨⟨by decide, by decide⟩, by decide⟩
  have reversedClosed : reversed.Closed := ⟨⟨by decide, by decide⟩, by decide⟩
  have inOrder : Ordered ordered (ordered.map Prod.snd) := by
    refine ((Ordered.nil ordered).concat (m := ⟨"base", [], [], []⟩) ?_).concat ?_
    · rintro n ⟨dep, inModule, -⟩
      simp at inModule
    · rintro n ⟨dep, inModule, found⟩
      obtain rfl : dep = ⟨"base", 0, .relative, some "base"⟩ := by simpa using inModule
      obtain rfl : (⟨"base", [], [], []⟩ : Module) = n := Option.some.inj found
      exact List.mem_singleton_self _
  have ids : (sort reversed).toOption.map (·.map (·.id)) = some ["base", "left", "right", "top"] := by
    cbv
  refine ⟨⟨orderedClosed, inOrder, (sort_fixes_ordered orderedClosed).1.mp inOrder⟩,
    reversedClosed, ?_⟩
  cases result : sort reversed with
  | error fault => simp [result, Except.toOption] at ids
  | ok sorted =>
    obtain ⟨perm, behind⟩ := sort_ok reversedClosed.toKeyed result
    have acyclic := behind.acyclic perm.symm.subset
    obtain ⟨again, ok, -, fixed⟩ := (sort_fixes_ordered reversedClosed).2 acyclic
    obtain rfl : sorted = again := Except.ok.inj (result.symm.trans ok)
    exact ⟨acyclic, sorted, rfl, by simpa [result, Except.toOption] using ids, fixed⟩

end ShaderBundle.DependencyOrder
