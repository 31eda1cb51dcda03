import ShaderBundle.Proofs.Path.Resolution

/-! Canonical paths: nothing in their text could be left out. From a base that climbs in front only, a
join is refused if its name climbs above it and is canonical otherwise. -/
namespace ShaderBundle.Path

variable {kind : Bool} {count : Nat} {names segments : List Segment}

def behindRoot (path : List Char) : List Char := if isAbsolute path then path.tail else path

structure Canonical (count : Nat) (path : List Char) : Prop where
  /-- Between slashes there is something, and no point alone. -/
  pieces : behindRoot path = [] ∨
    ∀ piece ∈ (behindRoot path).splitOn '/', piece ≠ [] ∧ piece ≠ ['.']
  ends : path.getLast? = some '/' → path = ['/']
  /-- So many climbs stand in front, and none behind them. -/
  front : ∃ names, steps path = List.replicate count climb ++ names ∧ climb ∉ names

theorem behindRoot_render (all : ∀ s ∈ segments, IsStep s) :
    behindRoot (render kind segments) = List.intercalate ['/'] segments := by
  rw [behindRoot, isAbsolute_render all]
  cases kind <;> rfl

theorem getLast?_render {front : List Segment} {s : Segment} (step : IsStep s) :
    (render kind (front ++ [s])).getLast? ≠ some '/' := by
  obtain ⟨before, printed, -⟩ := intercalate_concat front s
  rw [render, printed, ← List.append_assoc, List.getLast?_append_of_ne_nil _ step.some]
  intro slash
  exact step.whole (List.mem_of_getLast? slash)

theorem canonical_render (all : ∀ s ∈ segments, IsStep s)
    (split : segments = List.replicate count climb ++ names) (free : climb ∉ names) :
    Canonical count (render kind segments) where
  pieces := by
    rw [behindRoot_render all]
    by_cases none : segments = []
    · subst none
      exact .inl rfl
    · rw [List.splitOn_intercalate '/' (fun s member => (all s member).whole) none]
      exact .inr fun s member => ⟨(all s member).some, (all s member).moves⟩
  ends := by
    intro slash
    rcases List.eq_nil_or_concat segments with rfl | ⟨front, s, rfl⟩
    · cases kind with
      | true => rfl
      | false => simp [render] at slash
    · rw [List.concat_eq_append] at all slash
      have step : IsStep s := all s (List.mem_append_right _ List.mem_cons_self)
      exact absurd slash (getLast?_render step)
  front := ⟨names, (steps_render all).trans split, free⟩

section Joins

variable {base name path : String} (ok : join base name = .ok path)

include ok

theorem isAbsolute_join : isAbsolute path.toList = isAbsolute base.toList := by
  obtain ⟨last, walked, text⟩ := join_ok ok
  rw [text, isAbsolute_render (isStep_walk walked)]

variable (split : steps base.toList = List.replicate count climb ++ names) (free : climb ∉ names)

include split free

/-- The walk keeps the climbs in front of the base, and behind them it leaves names only. -/
theorem steps_join_eq_front :
    ∃ kept, steps path.toList = List.replicate count climb ++ kept ∧ climb ∉ kept := by
  obtain ⟨last, walked, text⟩ := join_ok ok
  obtain ⟨kept, ends, clear⟩ := stem_append last.reverse
  have front : stem last.reverse = List.replicate count climb := by
    rw [stem_walk walked, List.reverse_reverse, split, stem_append_names _ free, stem_replicate]
  rw [front] at ends
  exact ⟨kept, by rw [text, steps_render (isStep_walk walked), ends], clear⟩

theorem canonical_join : Canonical count path.toList := by
  obtain ⟨kept, ends, clear⟩ := steps_join_eq_front ok split free
  rw [join_text ok]
  exact canonical_render (fun s member => isStep_of_mem member) ends clear

theorem steps_join (rooted : isAbsolute base.toList = true → count = 0) : steps path.toList =
    resolve (isAbsolute base.toList) (steps base.toList ++ steps name.toList) := by
  obtain ⟨kept, ends, clear⟩ := steps_join_eq_front ok split free
  obtain ⟨kind, resolved⟩ := Prod.mk.inj (meaning_join ok)
  rw [kind, ends, resolve_front clear rooted] at resolved
  rw [ends, resolved]

end Joins

/-- Of a base that climbs in front only, the names in it can be left and no more. A name that does not
climb above them is joined to the canonical text of what the two denote in a row. -/
theorem join_canonical {base name : String}
    (split : steps base.toList = List.replicate count climb ++ names) (free : climb ∉ names)
    (rooted : isAbsolute base.toList = true → count = 0) :
    (join base name = .error (.escapes name base) ↔ Escapes names.length (steps name.toList)) ∧
    (¬ Escapes names.length (steps name.toList) → ∃ path, join base name = .ok path ∧
      isAbsolute path.toList = isAbsolute base.toList ∧
      steps path.toList =
        resolve (isAbsolute base.toList) (steps base.toList ++ steps name.toList) ∧
      Canonical count path.toList) := by
  have refused : join base name = .error (.escapes name base) ↔
      Escapes names.length (steps name.toList) := by
    rw [join_eq_error_iff, reach_eq_of_front split free]
  refine ⟨refused, fun stays => ?_⟩
  obtain ⟨path, ok⟩ : ∃ path, join base name = .ok path :=
    (join_cases base name).resolve_right (refused.not.mpr stays)
  exact ⟨path, ok, isAbsolute_join ok, steps_join ok split free rooted, canonical_join ok split free⟩

theorem join_canonical_of_climbing :
    steps "../lib/./gl//".toList = List.replicate 1 climb ++ ["lib".toList, "gl".toList] ∧
    climb ∉ ["lib".toList, "gl".toList] ∧ (isAbsolute "../lib/./gl//".toList = true → 1 = 0) ∧
    join "../lib/./gl//" "../../../x" = .error (.escapes "../../../x" "../lib/./gl//") ∧
    join "../lib/./gl//" "a/.././../x" = .ok "../lib/x" ∧ Canonical 1 "../lib/x".toList := by
  have split : steps "../lib/./gl//".toList =
      List.replicate 1 climb ++ ["lib".toList, "gl".toList] := by decide
  have free : climb ∉ ["lib".toList, "gl".toList] := by decide
  have rooted : isAbsolute "../lib/./gl//".toList = true → 1 = 0 := by decide
  have above : Escapes 2 (steps "../../../x".toList) := by decide
  have stays : ¬ Escapes 2 (steps "a/.././../x".toList) := by decide
  have joined : join "../lib/./gl//" "a/.././../x" = .ok "../lib/x" := by decide
  obtain ⟨path, ok, -, -, canonical⟩ := (join_canonical split free rooted).2 stays
  obtain rfl : path = "../lib/x" := Except.ok.inj (ok.symm.trans joined)
  exact ⟨split, free, rooted, (join_canonical split free rooted).1.mpr above, joined, canonical⟩

end ShaderBundle.Path
