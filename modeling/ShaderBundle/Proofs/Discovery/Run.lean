import ShaderBundle.Proofs.Discovery.Steps
import Mathlib.Logic.Relation

/-! What a discovery keeps while it runs: the ids found so far are those mentioned by the root and by
the expanded modules, each at its first mention, and each was asked for once. -/
namespace ShaderBundle.Discovery

open Relation

variable {lib : Library} {includeRoot root owner : String} {d last : Discovery}

/-- What some includes that lead to the ids `named` do to a discovery. -/
structure Grown (lib : Library) (d last : Discovery) (named : List String) : Prop where
  expanded : last.expanded = d.expanded
  waiting : ∃ found, last.waiting = d.waiting ++ found ∧ ∀ m ∈ found, lib.Holds m ∧ m.id ∈ named
  ids : ∀ mentioned, d.ids = mentioned.eraseDups → last.ids = (mentioned ++ named).eraseDups
  requests : d.requests = d.ids → last.requests = last.ids

theorem Grown.refl (lib : Library) (d : Discovery) : Grown lib d d [] where
  expanded := rfl
  waiting := ⟨[], by simp, by simp⟩
  ids := by simp
  requests := id

theorem Grown.trans {mid : Discovery} {named more : List String} (first : Grown lib d mid named)
    (second : Grown lib mid last more) : Grown lib d last (named ++ more) where
  expanded := second.expanded.trans first.expanded
  waiting := by
    obtain ⟨found, waiting, held⟩ := first.waiting
    obtain ⟨found', waiting', held'⟩ := second.waiting
    refine ⟨found ++ found', by rw [waiting', waiting, List.append_assoc], ?_⟩
    intro m member
    rcases List.mem_append.mp member with member | member
    · exact ⟨(held m member).1, List.mem_append_left _ (held m member).2⟩
    · exact ⟨(held' m member).1, List.mem_append_right _ (held' m member).2⟩
  ids := by
    intro mentioned now
    rw [← List.append_assoc]
    exact second.ids _ (first.ids mentioned now)
  requests := fun now => second.requests (first.requests now)

theorem grown_of_holds {id : String} (known : d.holds id = true) : Grown lib d d [id] where
  expanded := rfl
  waiting := ⟨[], by simp, by simp⟩
  ids := by
    intro mentioned now
    have inside : id ∈ mentioned := by
      rw [← List.mem_eraseDups, ← now]
      exact holds_iff.mp known
    rw [eraseDups_concat_of_mem inside, now]
  requests := fun now => now

theorem grown_of_meet {includer : Option (String × Nat)} {id : String}
    (fresh : d.holds id = false) (ok : d.meet lib includer id = .ok last) :
    Grown lib d last [id] := by
  obtain ⟨m, loaded, rfl, rfl⟩ := meet_ok ok
  have held : lib.Holds m := (Library.load_ok loaded).2
  refine ⟨rfl, ⟨[m], rfl, by simpa using held⟩, ?_, ?_⟩
  · intro mentioned now
    have outside : m.id ∉ mentioned := by
      rw [← List.mem_eraseDups, ← now, ← holds_iff, fresh]
      simp
    rw [ids_await, now, eraseDups_concat_of_not_mem outside]
  · intro now
    rw [ids_await, ← now]
    rfl

/-- Following includes notes where each leads and finds what they mention. -/
theorem follow_ok {deps followed : List Dependency}
    (ok : follow lib includeRoot owner deps d = .ok (followed, last)) :
    List.Forall₂ (fun dep dep' => ∃ id, lib.Leads includeRoot owner dep id ∧
      dep' = { dep with resolved := some id }) deps followed ∧
    Grown lib d last (followed.filterMap (·.resolved)) := by
  induction deps generalizing d followed with
  | nil =>
    obtain ⟨rfl, rfl⟩ := Prod.mk.inj (Except.ok.inj ok)
    exact ⟨.nil, .refl lib d⟩
  | cons dep rest ih =>
    unfold follow at ok
    split at ok
    · simp at ok
    · rename_i id resolved
      split at ok
      · simp at ok
      · rename_i met reached
        split at ok
        · simp at ok
        · rename_i followed' last' later
          obtain ⟨rfl, rfl⟩ := Prod.mk.inj (Except.ok.inj ok)
          obtain ⟨linked, grown⟩ := ih later
          have step : Grown lib d met [id] := by
            split at reached
            · rename_i known
              obtain rfl := Except.ok.inj reached
              exact grown_of_holds known
            · rename_i fresh
              exact grown_of_meet (by simpa using fresh) reached
          exact ⟨.cons ⟨id, Library.leads_iff.mpr resolved, rfl⟩ linked, step.trans grown⟩

structure Invariant (lib : Library) (includeRoot root : String) (d : Discovery) : Prop where
  order : d.ids = (root :: d.expanded.flatMap Module.targets).eraseDups
  requests : d.requests = d.ids
  followed : ∀ m ∈ d.expanded, ∃ read, lib.Holds read ∧ read.FollowedAs lib includeRoot m
  held : ∀ m ∈ d.waiting, lib.Holds m
  reached : ∀ id ∈ d.ids, ReflTransGen (lib.Includes includeRoot) root id

theorem meet_root (ok : start.meet lib none root = .ok d) : Invariant lib includeRoot root d := by
  have grown := grown_of_meet (by simp [holds, modules, start]) ok
  obtain ⟨found, waiting, held⟩ := grown.waiting
  have ids : d.ids = [root] := by
    simpa [List.eraseDups_cons] using grown.ids [] (by simp [Discovery.ids, modules, start])
  have expanded : d.expanded = [] := grown.expanded
  refine ⟨?_, grown.requests rfl, by simp [expanded], ?_, ?_⟩
  · simp [ids, expanded, List.eraseDups_cons]
  · intro m member
    rw [waiting] at member
    exact (held m (by simpa [start] using member)).1
  · intro id member
    obtain rfl : id = root := by simpa [ids] using member
    exact .refl

/-- A waiting module is expanded: what its includes mention is found and waits behind the others. -/
theorem Invariant.expandFirst {first : Module} {rest : List Module} {next : Discovery}
    (valid : Invariant lib includeRoot root d) (front : d.waiting = first :: rest)
    (ok : Discovery.expandFirst lib includeRoot first d = .ok next) :
    Invariant lib includeRoot root next := by
  obtain ⟨followed, met, outcome, rfl⟩ := expandFirst_ok ok
  obtain ⟨linked, grown⟩ := follow_ok outcome
  obtain ⟨found, waiting, foundHeld⟩ := grown.waiting
  have mentioned := grown.ids _ valid.order
  have firstHeld : lib.Holds first := valid.held first (by simp [front])
  have front' : met.waiting = first :: (rest ++ found) := by simp [waiting, front]
  have same : (met.promote { first with dependencies := followed }).ids = met.ids :=
    ids_promote front' rfl
  refine ⟨?_, ?_, ?_, ?_, ?_⟩
  · rw [same, mentioned]
    simp [grown.expanded, Module.targets]
  · rw [same]
    exact grown.requests valid.requests
  · intro m member
    rcases List.mem_append.mp member with member | member
    · exact valid.followed m (grown.expanded ▸ member)
    · obtain rfl := List.mem_singleton.mp member
      exact ⟨first, firstHeld, followed, linked, rfl⟩
  · intro m member
    rw [waiting_promote, front', List.tail_cons] at member
    rcases List.mem_append.mp member with member | member
    · exact valid.held m (by simp [front, member])
    · exact (foundHeld m member).1
  · intro id member
    rw [same, mentioned, List.mem_eraseDups] at member
    rcases List.mem_append.mp member with known | new
    · exact valid.reached id (by rwa [valid.order, List.mem_eraseDups])
    · obtain ⟨dep, inFirst, leads⟩ := (mem_filterMap_resolved linked).mp new
      have start := valid.reached first.id (by simp [Discovery.ids, modules, front])
      exact start.tail ⟨first, firstHeld, rfl, dep, inFirst, leads⟩

theorem run_ok (ok : run lib includeRoot root = .ok d) :
    Invariant lib includeRoot root d ∧ d.waiting = [] := by
  unfold run at ok
  split at ok
  · simp at ok
  · refine expandAll_ok (fun d first rest next valid front expanded => ?_) (meet_root ‹_›) ok
    exact valid.expandFirst front expanded

end ShaderBundle.Discovery
