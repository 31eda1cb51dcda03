import ShaderBundle.Proofs.Path.Canonical

/-! Joining on a disk beside joining by text alone. From a relative base the first never fails, and it
gives the normal form of what the second one gives. -/
namespace ShaderBundle.Path

variable {segments way : List Segment}

theorem spell_eq_render (some : segments ≠ []) (all : ∀ s ∈ segments, IsStep s) :
    spell 0 segments = render false segments := by
  have printed : List.intercalate ['/'] segments ≠ [] := by
    intro empty
    have back := steps_intercalate all
    rw [empty] at back
    exact some back.symm
  simp only [spell, List.replicate_zero, List.nil_append, render, Bool.false_eq_true, if_false]

theorem normal_relative {path : String} (relative : isAbsolute path.toList = false) :
    normal path = String.ofList (spell 0 (resolve false (steps path.toList))) := by
  rw [normal, normalChars, leadingSlashes_relative relative, relative, resolve]

section Resolved

variable (all : ∀ s ∈ way, IsStep s)

include all

theorem isStep_resolve : ∀ s ∈ resolve false way, IsStep s := isStep_settle all

theorem steps_spell_resolve : steps (spell 0 (resolve false way)) = resolve false way :=
  steps_spell (isStep_resolve all)

theorem isAbsolute_spell_resolve : isAbsolute (spell 0 (resolve false way)) = false :=
  isAbsolute_spell (isStep_resolve all)

theorem meaning_spell_resolve :
    meaning (spell 0 (resolve false way)) = (false, resolve false way) := by
  rw [meaning, isAbsolute_spell_resolve all, steps_spell_resolve all, resolve_resolve]

/-- What is printed from resolved segments is in normal form. -/
theorem normal_spell_resolve :
    normal (String.ofList (spell 0 (resolve false way))) =
      String.ofList (spell 0 (resolve false way)) := by
  have relative := isAbsolute_spell_resolve all
  rw [← String.toList_ofList (l := spell 0 (resolve false way))] at relative
  rw [normal_relative relative, String.toList_ofList, steps_spell_resolve all, resolve_resolve]

theorem canonical_spell_resolve :
    spell 0 (resolve false way) = ['.'] ∨
      ∃ count, Canonical count (spell 0 (resolve false way)) := by
  by_cases none : resolve false way = []
  · rw [none]
    exact .inl rfl
  · obtain ⟨count, names, split, free⟩ := exists_resolve_eq way
    rw [spell_eq_render none (isStep_resolve all)]
    exact .inr ⟨count, canonical_render (isStep_resolve all) split free⟩

end Resolved

section Joins

variable {base name path : String} (relative : isAbsolute base.toList = false)
  (ok : join base name = .ok path)

include relative ok

theorem normal_of_join : normal path =
    String.ofList (spell 0 (resolve false (steps base.toList ++ steps name.toList))) := by
  have denoted := meaning_join ok
  rw [meaning, relative] at denoted
  obtain ⟨kind, resolved⟩ := Prod.mk.inj denoted
  rw [kind] at resolved
  rw [normal_relative kind, resolved]

/-- Where the climbs of the base stand in front, a joined path is in normal form but for the empty one. -/
theorem normal_of_join_eq (front : ClimbsInFront base.toList) (some : path ≠ "") :
    normal path = path := by
  obtain ⟨count, names, split, free⟩ := front
  have resolved := steps_join ok split free (by simp [relative])
  have text := join_text ok
  rw [relative] at resolved text
  have filled : steps path.toList ≠ [] := by
    intro none
    rw [none] at text
    exact some (String.toList_inj.mp text)
  rw [normal_of_join relative ok, ← resolved,
    spell_eq_render filled fun s member => isStep_of_mem member, ← text, String.ofList_toList]

end Joins

/-- From a relative base a join on a disk leads to the normal form of what the two parts denote in a row.
That is the normal form of what a join by text leads to, if it is not refused, and the two are the same path
unless a climb stands behind a name of the base or nothing is left but the place itself. -/
theorem joinOnDisk_extends_join {base : String} (relative : isAbsolute base.toList = false)
    (name : String) : ∃ path, joinOnDisk base name = .ok path ∧
      normal path = path ∧ (path = "." ∨ ∃ count, Canonical count path.toList) ∧
      meaning path.toList = (false, resolve false (steps base.toList ++ steps name.toList)) ∧
      ∀ joined, join base name = .ok joined →
        path = normal joined ∧ (joined = "" → path = ".") ∧
        (path ≠ joined → joined = "" ∨ ¬ ClimbsInFront base.toList) := by
  have all : ∀ s ∈ steps base.toList ++ steps name.toList, IsStep s :=
    fun s member => (List.mem_append.mp member).elim isStep_of_mem isStep_of_mem
  refine ⟨_, joinOnDisk_relative relative name, normal_spell_resolve all, ?_, ?_, ?_⟩
  · rw [← String.toList_inj, String.toList_ofList]
    exact canonical_spell_resolve all
  · rw [String.toList_ofList]
    exact meaning_spell_resolve all
  · intro joined ok
    have same := normal_of_join relative ok
    refine ⟨same.symm, ?_, ?_⟩
    · rintro rfl
      exact same.symm
    · intro different
      by_contra both
      obtain ⟨some, front⟩ := not_or.mp both
      exact different (same.symm.trans (normal_of_join_eq relative ok (not_not.mp front) some))

theorem joinOnDisk_extends_join_of_detour :
    isAbsolute "lib/../gl//".toList = false ∧ joinOnDisk "lib/../gl//" "//a/.././x" = .ok "gl/x" ∧
    join "lib/../gl//" "//a/.././x" = .ok "lib/../gl/x" ∧ "gl/x" = normal "lib/../gl/x" := by
  have relative : isAbsolute "lib/../gl//".toList = false := by decide
  have joined : join "lib/../gl//" "//a/.././x" = .ok "lib/../gl/x" := by decide
  have onDisk : joinOnDisk "lib/../gl//" "//a/.././x" = .ok "gl/x" := by decide
  obtain ⟨path, ok, -, -, -, follows⟩ := joinOnDisk_extends_join relative "//a/.././x"
  obtain rfl : path = "gl/x" := Except.ok.inj (ok.symm.trans onDisk)
  exact ⟨relative, onDisk, joined, (follows _ joined).1⟩

end ShaderBundle.Path
