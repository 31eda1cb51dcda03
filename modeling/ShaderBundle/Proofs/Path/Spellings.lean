import ShaderBundle.Proofs.Path.Resolution

/-! Spellings of one base. A base may denote more names than a join can leave, if a climb stands behind
one of its names; two spellings of it are as good as each other if a join can leave as many names of each. -/
namespace ShaderBundle.Path

variable {left right name : String}

inductive Alike : Except Fault String → Except Fault String → Prop
  | refused (fault fault' : Fault) : Alike (.error fault) (.error fault')
  | joined {path path' : String} (same : meaning path.toList = meaning path'.toList) :
    Alike (.ok path) (.ok path')

theorem depth_congr {left right : List Char} (same : meaning left = meaning right) :
    depth left = depth right := by
  rw [depth, depth, same]

theorem meaning_join_congr {path path' : String}
    (same : meaning left.toList = meaning right.toList) (ok : join left name = .ok path)
    (ok' : join right name = .ok path') : meaning path.toList = meaning path'.toList := by
  obtain ⟨kind, resolved⟩ := meaning_eq_iff.mp same
  rw [kind] at resolved
  rw [meaning_join ok, meaning_join ok', kind, resolve_congr resolved]

theorem alike_join_iff (same : meaning left.toList = meaning right.toList) :
    Alike (join left name) (join right name) ↔
      (Escapes (reach left.toList) (steps name.toList) ↔
        Escapes (reach right.toList) (steps name.toList)) := by
  rw [← join_eq_error_iff, ← join_eq_error_iff]
  rcases join_cases left name with ⟨path, ok⟩ | refused <;>
    rcases join_cases right name with ⟨path', ok'⟩ | refused'
  · simp only [ok, ok', reduceCtorEq, iff_self, iff_true]
    exact .joined (meaning_join_congr same ok ok')
  · simp only [ok, refused', reduceCtorEq, iff_true]
    exact ⟨nofun, nofun⟩
  · simp only [refused, ok', reduceCtorEq, iff_false]
    exact ⟨nofun, nofun⟩
  · simp only [refused, refused', iff_self, iff_true]
    exact .refused _ _

theorem exists_climbing (count : Nat) :
    ∃ name : String, steps name.toList = List.replicate count climb := by
  refine ⟨String.ofList (List.intercalate ['/'] (List.replicate count climb)), ?_⟩
  rw [String.toList_ofList, steps_intercalate]
  intro s member
  rw [List.eq_of_mem_replicate member]
  exact isStep_climb

/-- A climbing name is refused by the one of two bases that it climbs out of sooner. -/
theorem reach_eq_of_alike (same : meaning left.toList = meaning right.toList)
    (alike : ∀ name, Alike (join left name) (join right name)) :
    reach left.toList = reach right.toList := by
  have meet (count : Nat) : reach left.toList < count ↔ reach right.toList < count := by
    obtain ⟨name, climbs⟩ := exists_climbing count
    have both := (alike_join_iff same).mp (alike name)
    rwa [climbs, escapes_replicate, escapes_replicate] at both
  have atLeft := meet (reach left.toList)
  have atRight := meet (reach right.toList)
  omega

theorem reach_eq_depth_of_refused
    (only : ∀ name, join left name = .error (.escapes name left) →
      Escapes (depth left.toList) (steps name.toList)) : reach left.toList = depth left.toList := by
  obtain ⟨name, climbs⟩ := exists_climbing (reach left.toList + 1)
  have refused : join left name = .error (.escapes name left) := by
    rw [join_eq_error_iff, climbs, escapes_replicate]
    omega
  have above := only name refused
  rw [climbs, escapes_replicate] at above
  have below := reach_le_depth left.toList
  omega

/-- Two spellings of one base are alike to every name exactly if as many names of each can be left. If
they are not, one of them refuses names that the other one joins; but they never join a name to different
paths, and both refuse a name that climbs above what they denote. A base refuses no other names exactly if
all the names that it denotes can be left, as they can be where it climbs in front only. -/
theorem alike_iff_reach (same : meaning left.toList = meaning right.toList) :
    ((∀ name, Alike (join left name) (join right name)) ↔
      reach left.toList = reach right.toList) ∧
    (∀ name path path', join left name = .ok path → join right name = .ok path' →
      meaning path.toList = meaning path'.toList) ∧
    (∀ name, join left name = .error (.escapes name left) ↔
      Escapes (reach left.toList) (steps name.toList)) ∧
    (∀ name, Escapes (depth left.toList) (steps name.toList) →
      join left name = .error (.escapes name left) ∧
      join right name = .error (.escapes name right)) ∧
    ((∀ name, join left name = .error (.escapes name left) →
      Escapes (depth left.toList) (steps name.toList)) ↔
      reach left.toList = depth left.toList) ∧
    (ClimbsInFront left.toList → reach left.toList = depth left.toList) := by
  refine ⟨⟨reach_eq_of_alike same, ?_⟩, ?_, fun _ => join_eq_error_iff, ?_,
    ⟨reach_eq_depth_of_refused, ?_⟩, ClimbsInFront.reach_eq_depth⟩
  · intro equal name
    rw [alike_join_iff same, equal]
  · intro name path path'
    exact meaning_join_congr same
  · intro name above
    rw [join_eq_error_iff, join_eq_error_iff]
    refine ⟨above.mono (reach_le_depth _), Escapes.mono ?_ (reach_le_depth _)⟩
    rwa [← depth_congr same]
  · intro equal name refused
    rwa [join_eq_error_iff, equal] at refused

theorem alike_iff_reach_of_spellings :
    meaning "lib/../gl//./x".toList = meaning "gl/x".toList ∧
    reach "lib/../gl//./x".toList = reach "gl/x".toList ∧
    ∀ name, Alike (join "lib/../gl//./x" name) (join "gl/x" name) := by
  have same : meaning "lib/../gl//./x".toList = meaning "gl/x".toList := by decide
  have equal : reach "lib/../gl//./x".toList = reach "gl/x".toList := by decide
  exact ⟨same, equal, (alike_iff_reach same).1.mpr equal⟩

/-- A climb behind a name hides the names before it. -/
theorem spellings_told_apart :
    isBare "a/b/.." = true ∧ isBare "a" = true ∧
    meaning "a/b/..".toList = meaning "a".toList ∧
    join "a" "../x" = .ok "x" ∧ join "a/b/.." "../x" = .error (.escapes "../x" "a/b/..") ∧
    ¬ Escapes (depth "a/b/..".toList) (steps "../x".toList) ∧
    ¬ Alike (join "a/b/.." "../x") (join "a" "../x") := by
  have joined : join "a" "../x" = .ok "x" := by decide
  have refused : join "a/b/.." "../x" = .error (.escapes "../x" "a/b/..") := by decide
  refine ⟨by decide, by decide, by decide, joined, refused, by decide, ?_⟩
  rw [joined, refused]
  nofun

end ShaderBundle.Path
