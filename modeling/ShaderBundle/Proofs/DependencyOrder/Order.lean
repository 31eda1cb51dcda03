import ShaderBundle.Proofs.DependencyOrder.Invariant
import Mathlib.Data.List.Permutation

/-! The order of a whole table. A sort of a closed table succeeds exactly if no module includes itself
along some path; it then lists every module once, behind all modules that it includes. -/
namespace ShaderBundle.DependencyOrder

open Relation Search

variable {table : ModuleTable}

/-- Along the open modules every lower one includes, in the end, the top one. -/
theorem includes_top {top : Module} {rest : List Module}
    (path : (top :: rest).IsChain fun upper lower => table.Includes lower upper) {m : Module}
    (member : m ∈ top :: rest) : ReflTransGen table.Includes m top := by
  induction rest generalizing top with
  | nil =>
    obtain rfl : m = top := by simpa using member
    exact .refl
  | cons next rest ih =>
    obtain ⟨edge, path⟩ := List.isChain_cons_cons.mp path
    rcases List.mem_cons.mp member with rfl | member
    · exact .refl
    · exact (ih path member).tail edge

/-- An include that leads to an open module closes a cycle. -/
theorem cyclic_of_halt {s : Search} {chain : List String} (keyed : table.Keyed)
    (valid : Invariant table s) (halt : Halt table s (.error (.cycle chain))) : table.Cyclic := by
  cases halt with
  | closing found opened =>
    rename_i finished m dep left below target
    have inTable := ModuleTable.mem_of_target? found
    have opened : target ∈ entered ⟨finished, ⟨m, dep :: left⟩ :: below⟩ :=
      (valid.isOpen_iff keyed inTable).mp opened
    have inModule : dep ∈ m.dependencies :=
      (valid.remaining _ List.mem_cons_self).subset List.mem_cons_self
    exact ⟨target, .tail' (includes_top valid.path opened) ⟨dep, inModule, found⟩⟩

/-- An include that leads nowhere belongs to a module of the table. -/
theorem missing_of_halt {s : Search} {key : Option String} (valid : Invariant table s)
    (halt : Halt table s (.error (.unresolved key))) :
    ∃ m ∈ table.map Prod.snd, ∃ dep ∈ m.dependencies,
      dep.resolved = key ∧ table.target? dep = none := by
  cases halt with
  | missing absent =>
    rename_i finished m dep left below
    refine ⟨m, valid.members m (List.mem_append_right _ List.mem_cons_self), dep, ?_, rfl, absent⟩
    exact (valid.remaining _ List.mem_cons_self).subset List.mem_cons_self

theorem visit_ok {finished sorted : List Module} {m : Module} (keyed : table.Keyed)
    (valid : Invariant table ⟨finished, []⟩) (inTable : m ∈ table.map Prod.snd)
    (ok : visit table finished m = .ok sorted) :
    Invariant table ⟨sorted, []⟩ ∧ finished ⊆ sorted ∧ m ∈ sorted := by
  unfold visit at ok
  split at ok
  · rename_i known
    obtain rfl : finished = sorted := Except.ok.inj ok
    exact ⟨valid, List.Subset.refl _, (valid.isFinished_iff keyed inTable).mp known⟩
  · rename_i fresh
    obtain ⟨last, steps, halt⟩ := settle_run table ⟨finished, [Frame.enter m]⟩
    have final := (valid.root inTable (by simpa using fresh)).run keyed steps
    have kept := run_subset steps
    rw [ok] at halt
    cases halt
    simp only [entered, Frame.enter, List.map_cons, List.map_nil, List.append_nil] at kept
    exact ⟨final, fun n member => kept (List.mem_append_left _ member), kept (by simp)⟩

theorem visit_error {finished : List Module} {m : Module} {fault : OrderFault}
    (keyed : table.Keyed) (valid : Invariant table ⟨finished, []⟩)
    (inTable : m ∈ table.map Prod.snd) (failed : visit table finished m = .error fault) :
    ∃ s, Invariant table s ∧ Halt table s (.error fault) := by
  unfold visit at failed
  split at failed
  · simp at failed
  · rename_i fresh
    obtain ⟨last, steps, halt⟩ := settle_run table ⟨finished, [Frame.enter m]⟩
    rw [failed] at halt
    exact ⟨last, (valid.root inTable (by simpa using fresh)).run keyed steps, halt⟩

/-- Entering the modules one after the other keeps the invariant between two of them. -/
theorem foldlM_visit_ok {ms finished sorted : List Module} (keyed : table.Keyed)
    (valid : Invariant table ⟨finished, []⟩) (inTable : ms ⊆ table.map Prod.snd)
    (ok : ms.foldlM (visit table) finished = .ok sorted) :
    Invariant table ⟨sorted, []⟩ ∧ finished ++ ms ⊆ sorted := by
  induction ms generalizing finished with
  | nil =>
    obtain rfl : finished = sorted := Except.ok.inj ok
    exact ⟨valid, by simp⟩
  | cons m rest ih =>
    obtain ⟨inTable, restInTable⟩ := List.cons_subset.mp inTable
    rw [List.foldlM_cons] at ok
    cases first : visit table finished m with
    | error fault => simp [first, bind, Except.bind] at ok
    | ok next =>
      obtain ⟨valid, kept, listed⟩ := visit_ok keyed valid inTable first
      obtain ⟨final, all⟩ := ih valid restInTable (by simpa [first, bind, Except.bind] using ok)
      obtain ⟨earlier, later⟩ := List.append_subset.mp all
      exact ⟨final, List.append_subset.mpr ⟨fun n member => earlier (kept member),
        List.cons_subset.mpr ⟨earlier listed, later⟩⟩⟩

theorem foldlM_visit_error {ms finished : List Module} {fault : OrderFault} (keyed : table.Keyed)
    (valid : Invariant table ⟨finished, []⟩) (inTable : ms ⊆ table.map Prod.snd)
    (failed : ms.foldlM (visit table) finished = .error fault) :
    ∃ s, Invariant table s ∧ Halt table s (.error fault) := by
  induction ms generalizing finished with
  | nil => simp [pure, Except.pure] at failed
  | cons m rest ih =>
    obtain ⟨inTable, restInTable⟩ := List.cons_subset.mp inTable
    rw [List.foldlM_cons] at failed
    cases first : visit table finished m with
    | error other =>
      obtain rfl : other = fault := by simpa [first, bind, Except.bind] using failed
      exact visit_error keyed valid inTable first
    | ok next =>
      obtain ⟨valid, -, -⟩ := visit_ok keyed valid inTable first
      exact ih valid restInTable (by simpa [first, bind, Except.bind] using failed)

theorem invariant_start (table : ModuleTable) : Invariant table ⟨[], []⟩ where
  members := by simp [entered]
  distinct := by simp [entered]
  ordered := .nil table
  remaining := by simp
  passed := trivial
  path := by simp [entered]

/-- A sorted list holds the modules of its table, each once and behind all that it includes. -/
theorem sort_ok {sorted : List Module} (keyed : table.Keyed) (ok : sort table = .ok sorted) :
    sorted.Perm (table.map Prod.snd) ∧ Ordered table sorted := by
  obtain ⟨valid, all⟩ := foldlM_visit_ok keyed (invariant_start table) (List.Subset.refl _) ok
  have distinct : (sorted.map (·.id)).Nodup := by simpa [entered] using valid.distinct
  refine ⟨?_, valid.ordered⟩
  refine (List.perm_ext_iff_of_nodup (.of_map _ distinct) (.of_map _ keyed.ids_distinct)).mpr ?_
  intro m
  constructor
  · intro member
    exact valid.members m (List.mem_append_left _ member)
  · intro member
    exact all (by simpa using member)

/-- A sort fails at an include that leads nowhere or at one that closes a cycle. -/
theorem sort_error {fault : OrderFault} (keyed : table.Keyed) (failed : sort table = .error fault) :
    ∃ s, Invariant table s ∧ Halt table s (.error fault) :=
  foldlM_visit_error keyed (invariant_start table) (List.Subset.refl _) failed

theorem Ordered.acyclic {sorted : List Module} (ordered : Ordered table sorted)
    (all : table.map Prod.snd ⊆ sorted) : ¬ table.Cyclic := by
  rintro ⟨m, cycle⟩
  obtain ⟨n, -, last⟩ := TransGen.tail'_iff.mp cycle
  have member : m ∈ sorted := all (ModuleTable.mem_of_includes last)
  exact Nat.lt_irrefl _ (ordered.idxOf_lt cycle member).2

theorem sort_cyclic (closed : table.Closed) {fault : OrderFault}
    (failed : sort table = .error fault) : table.Cyclic ∧ ∃ chain, fault = .cycle chain := by
  obtain ⟨s, valid, halt⟩ := sort_error closed.toKeyed failed
  cases fault with
  | cycle chain => exact ⟨cyclic_of_halt closed.toKeyed valid halt, chain, rfl⟩
  | unresolved key =>
    obtain ⟨m, inTable, dep, inModule, -, absent⟩ := missing_of_halt valid halt
    obtain ⟨n, found⟩ := closed.target?_isSome inTable inModule
    simp [absent] at found

/-- The sort decides whether the includes of a closed table are acyclic, and orders them if so. -/
theorem sort_of_closed (closed : table.Closed) :
    ((∃ sorted, sort table = .ok sorted) ↔ ¬ table.Cyclic) ∧
    (∀ sorted, sort table = .ok sorted →
      sorted.Perm (table.map Prod.snd) ∧ (sorted.map (·.id)).Nodup ∧
      ∀ before m after, sorted = before ++ m :: after → ∀ n, table.Includes m n → n ∈ before) ∧
    (table.Cyclic → ∃ chain, sort table = .error (.cycle chain)) := by
  refine ⟨⟨?_, ?_⟩, ?_, ?_⟩
  · rintro ⟨sorted, ok⟩
    obtain ⟨perm, ordered⟩ := sort_ok closed.toKeyed ok
    exact ordered.acyclic perm.symm.subset
  · intro acyclic
    cases result : sort table with
    | ok sorted => exact ⟨sorted, rfl⟩
    | error fault => exact absurd (sort_cyclic closed result).1 acyclic
  · intro sorted ok
    obtain ⟨perm, ordered⟩ := sort_ok closed.toKeyed ok
    exact ⟨perm, (perm.map Module.id).nodup_iff.mpr closed.ids_distinct, ordered⟩
  · intro cyclic
    cases result : sort table with
    | ok sorted =>
      obtain ⟨perm, ordered⟩ := sort_ok closed.toKeyed result
      exact absurd cyclic (ordered.acyclic perm.symm.subset)
    | error fault =>
      obtain ⟨-, chain, rfl⟩ := sort_cyclic closed result
      exact ⟨chain, rfl⟩

theorem sort_of_diamond_and_loop :
    let diamond := ModuleTable.ofIncludes
      [("top", ["left", "right"]), ("left", ["base", "base"]), ("right", ["base"]), ("base", [])]
    let loop := ModuleTable.ofIncludes [("top", ["left"]), ("left", ["left"])]
    (diamond.Closed ∧ ¬ diamond.Cyclic ∧
      (sort diamond).map (·.map (·.id)) = .ok ["base", "left", "right", "top"]) ∧
    loop.Closed ∧ loop.Cyclic ∧ sort loop = .error (.cycle ["left", "left"]) := by
  intro diamond loop
  have ordered : sort diamond = .ok [⟨"base", [], [], []⟩,
      ⟨"left", [], [⟨"base", 0, .relative, some "base"⟩, ⟨"base", 0, .relative, some "base"⟩], []⟩,
      ⟨"right", [], [⟨"base", 0, .relative, some "base"⟩], []⟩,
      ⟨"top", [], [⟨"left", 0, .relative, some "left"⟩, ⟨"right", 0, .relative, some "right"⟩],
        []⟩] := by cbv
  have failed : sort loop = .error (.cycle ["left", "left"]) := by cbv
  have diamondClosed : diamond.Closed := ⟨⟨by decide, by decide⟩, by decide⟩
  have loopClosed : loop.Closed := ⟨⟨by decide, by decide⟩, by decide⟩
  refine ⟨⟨diamondClosed, (sort_of_closed diamondClosed).1.mp ⟨_, ordered⟩, ?_⟩, loopClosed, ?_,
    failed⟩
  · rw [ordered]
    rfl
  · by_contra acyclic
    obtain ⟨sorted, ok⟩ := (sort_of_closed loopClosed).1.mpr acyclic
    simp [failed] at ok

end ShaderBundle.DependencyOrder
