import ShaderBundle.Proofs.Discovery.Agreement

/-! The ids that a discovery asks for, whatever it comes to: no id twice, and all but the last one were
handed out. -/
namespace ShaderBundle.Discovery

open Relation

variable {lib : Library} {includeRoot root : String}

/-- A course loads no id twice. -/
theorem Course.distinct {count : Nat} {loaded : List Module}
    (course : Course lib includeRoot root count (.ok loaded)) : (loaded.map (·.id)).Nodup := by
  generalize answer : Except.ok loaded = outcome at course
  induction course generalizing loaded with
  | start request =>
    obtain ⟨m, rfl, rfl⟩ := conclude_eq_ok answer.symm
    simp
  | turn before next turn ih =>
    cases turn with
    | astray => simp at answer
    | known =>
      obtain rfl := Except.ok.inj answer
      exact ih rfl
    | asked leads fresh request =>
      obtain ⟨m, rfl, rfl⟩ := conclude_eq_ok answer.symm
      obtain ⟨rfl, -⟩ := request.holds
      rw [List.map_append, List.map_cons, List.map_nil, ← List.concat_eq_append]
      exact (ih rfl).concat fresh

/-- The root leads to whatever a course loads. -/
theorem Course.reached {count : Nat} {loaded : List Module}
    (course : Course lib includeRoot root count (.ok loaded)) :
    ∀ m ∈ loaded, ReflTransGen (lib.Includes includeRoot) root m.id := by
  generalize answer : Except.ok loaded = outcome at course
  induction course generalizing loaded with
  | start request =>
    obtain ⟨m, rfl, rfl⟩ := conclude_eq_ok answer.symm
    obtain ⟨rfl, -⟩ := request.holds
    simp [ReflTransGen.refl]
  | @turn count before owner dep _ course next turn ih =>
    cases turn with
    | astray => simp at answer
    | known =>
      obtain rfl := Except.ok.inj answer
      exact ih rfl
    | asked leads fresh request =>
      obtain ⟨m, rfl, rfl⟩ := conclude_eq_ok answer.symm
      obtain ⟨rfl, -⟩ := request.holds
      obtain ⟨first, member, paired⟩ := List.mem_flatMap.mp (List.mem_of_getElem? next)
      obtain ⟨inModule, same⟩ : dep ∈ first.dependencies ∧ first = owner := by simpa using paired
      subst same
      have edge : lib.Includes includeRoot first.id m.id :=
        ⟨first, course.holds first member, rfl, dep, inModule, leads⟩
      intro n inMore
      rcases List.mem_append.mp inMore with earlier | new
      · exact ih rfl n earlier
      · obtain rfl := List.mem_singleton.mp new
        exact (ih rfl first member).tail edge

/-- The requests of a course that failed: those of the modules it has loaded and perhaps one more. -/
theorem Fails.requests {stop : Stop} (fails : Fails lib includeRoot root stop) :
    ∃ loaded : List Module, (loaded.map (·.id)).Nodup ∧ (∀ m ∈ loaded, lib.Holds m) ∧
      (∀ m ∈ loaded, ReflTransGen (lib.Includes includeRoot) root m.id) ∧
      (stop.requests = loaded.map (·.id) ∨
        ∃ id ∉ loaded.map (·.id), stop.requests = loaded.map (·.id) ++ [id]) := by
  rcases fails.cases with ⟨e, -, rfl⟩ | ⟨count, loaded, owner, dep, course, -, -, turn⟩
  · exact ⟨[], by simp, by simp, by simp, .inr ⟨root, by simp, rfl⟩⟩
  · refine ⟨loaded, course.distinct, course.holds, course.reached, ?_⟩
    rcases turn with ⟨_, -, rfl⟩ | ⟨id, e, -, fresh, -, rfl⟩
    · exact .inl rfl
    · exact .inr ⟨id, fresh, rfl⟩

structure Got (lib : Library) (includeRoot root : String) (ids : List String) : Prop where
  distinct : ids.Nodup
  fetched : ∀ id ∈ ids, ∃ text, lib.fetch id = .ok text
  reached : ∀ id ∈ ids, ReflTransGen (lib.Includes includeRoot) root id

theorem Invariant.got {d : Discovery} (valid : Invariant lib includeRoot root d) :
    Got lib includeRoot root d.ids where
  distinct := valid.ids_distinct
  fetched _ found := valid.fetched found
  reached := valid.reached

/-- No id is asked for twice, and at most one that is asked for is not handed out. -/
theorem asked_distinct (lib : Library) (includeRoot root : String) :
    (asked (run lib includeRoot root)).Nodup ∧
    ∃ ids, Got lib includeRoot root ids ∧
      (asked (run lib includeRoot root)).length ≤ ids.length + 1 := by
  have ofInvariant {d : Discovery} (valid : Invariant lib includeRoot root d) :
      d.ids.Nodup ∧ ∃ ids, Got lib includeRoot root ids ∧ d.ids.length ≤ ids.length + 1 :=
    ⟨valid.ids_distinct, d.ids, valid.got, Nat.le_succ _⟩
  cases outcome : run lib includeRoot root with
  | ok d =>
    obtain ⟨valid, -⟩ := run_ok outcome
    rw [show asked (.ok d) = d.ids from valid.requests]
    exact ofInvariant valid
  | error stop =>
    rcases run_error outcome with fails | ⟨d, valid, -, rfl⟩
    · obtain ⟨loaded, distinct, held, reached, requests⟩ := fails.requests
      have got : Got lib includeRoot root (loaded.map (·.id)) := by
        refine ⟨distinct, fun id member => ?_, fun id member => ?_⟩
        · obtain ⟨m, inLoaded, rfl⟩ := List.mem_map.mp member
          obtain ⟨text, fetched, -⟩ := held m inLoaded
          exact ⟨text, fetched⟩
        · obtain ⟨m, inLoaded, rfl⟩ := List.mem_map.mp member
          exact reached m inLoaded
      refine ⟨?_, _, got, ?_⟩
      · rcases requests with same | ⟨id, fresh, same⟩
        · rwa [asked, same]
        · rw [asked, same, ← List.concat_eq_append]
          exact distinct.concat fresh
      · rcases requests with same | ⟨id, -, same⟩
        · rw [asked, same]
          exact Nat.le_succ _
        · rw [asked, same, List.length_append]
          exact Nat.le_refl _
    · exact ofInvariant valid

end ShaderBundle.Discovery
