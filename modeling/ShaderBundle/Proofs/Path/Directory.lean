import ShaderBundle.Proofs.Path.Canonical
import ShaderBundle.Proofs.Path.Composition

/-! Canonical paths as names of what they denote. Each is the only canonical text for it, and so are its
directory and whatever is joined to it. -/
namespace ShaderBundle.Path

variable {kind : Bool} {count : Nat} {s : Segment} {names segments : List Segment}

/-- A canonical path; of an absolute one no climb is left. -/
def IsCanonical (path : List Char) : Prop :=
  ∃ count, Canonical count path ∧ (isAbsolute path = true → count = 0)

/-! ### The text of a canonical path -/

theorem steps_behindRoot (path : List Char) : steps (behindRoot path) = steps path := by
  unfold behindRoot
  split
  · rename_i absolute
    cases path with
    | nil => rfl
    | cons c rest =>
      obtain rfl : c = '/' := by simpa [isAbsolute] using absolute
      exact (steps_slash rest).symm
  · rfl

theorem root_append_behindRoot (path : List Char) :
    (if isAbsolute path then ['/'] else []) ++ behindRoot path = path := by
  unfold behindRoot
  split
  · rename_i absolute
    cases path with
    | nil => simp [isAbsolute] at absolute
    | cons c rest =>
      obtain rfl : c = '/' := by simpa [isAbsolute] using absolute
      rfl
  · rfl

/-- Between the slashes of a canonical path stand its segments. -/
theorem Canonical.text {path : List Char} (canonical : Canonical count path) :
    path = render (isAbsolute path) (steps path) := by
  have segments : List.intercalate ['/'] (steps path) = behindRoot path := by
    rcases canonical.pieces with empty | pieces
    · rw [← steps_behindRoot, empty]
      rfl
    · have all : steps (behindRoot path) = (behindRoot path).splitOn '/' := by
        refine List.filter_eq_self.mpr fun piece member => ?_
        simp [pieces piece member]
      rw [← steps_behindRoot, all, List.intercalate_splitOn]
  rw [render, segments, root_append_behindRoot]

theorem isCanonical_render (all : ∀ s ∈ segments, IsStep s)
    (split : segments = List.replicate count climb ++ names) (free : climb ∉ names)
    (rooted : kind = true → count = 0) : IsCanonical (render kind segments) := by
  refine ⟨count, canonical_render all split free, ?_⟩
  rwa [isAbsolute_render all]

namespace IsCanonical

variable {left right path : List Char}

theorem text (canonical : IsCanonical path) : path = render (isAbsolute path) (steps path) := by
  obtain ⟨count, canonical, -⟩ := canonical
  exact canonical.text

/-- Nothing in a canonical path is left to resolve. -/
theorem meaning_eq (canonical : IsCanonical path) : meaning path = (isAbsolute path, steps path) := by
  obtain ⟨count, canonical, rooted⟩ := canonical
  obtain ⟨names, split, free⟩ := canonical.front
  rw [meaning, split, resolve_front free rooted]

/-- What a path denotes has one canonical text. -/
theorem eq_of_meaning (canonical : IsCanonical left) (canonical' : IsCanonical right)
    (same : meaning left = meaning right) : left = right := by
  rw [canonical.meaning_eq, canonical'.meaning_eq, Prod.mk.injEq] at same
  rw [canonical.text, canonical'.text, same.1, same.2]

end IsCanonical

/-! ### Directories -/

theorem intercalate_append_singleton {front : List Segment} (some : front ≠ []) (s : Segment) :
    List.intercalate ['/'] (front ++ [s]) = List.intercalate ['/'] front ++ '/' :: s := by
  induction front with
  | nil => exact absurd rfl some
  | cons first rest ih =>
    by_cases last : rest = []
    · subst last
      simp [List.intercalate_cons_of_ne_nil]
    · rw [List.cons_append, List.intercalate_cons_of_ne_nil (by simp), ih last,
        List.intercalate_cons_of_ne_nil last, List.append_assoc _ _ ('/' :: s)]

theorem upToSlash_append {front : List Char} (whole : '/' ∉ s)
    (apart : front = [] ∨ ∃ before, front = before ++ ['/']) : upToSlash (front ++ s) = front := by
  have parts := upToSlash_append_lastSegment (front ++ s)
  rwa [lastSegment_append whole apart, List.append_left_inj] at parts

/-- The directory of a printed path is what is printed of it without the last segment. -/
theorem directoryChars_render {front : List Segment} (all : ∀ s ∈ front, IsStep s) (whole : '/' ∉ s) :
    directoryChars (render kind (front ++ [s])) = render kind front := by
  unfold directoryChars
  by_cases none : front = []
  · subst none
    cases kind with
    | true =>
      have root : render true ([] ++ [s]) = ['/'] ++ s := by simp [render]
      have slash : upToSlash (['/'] ++ s) = ['/'] := upToSlash_append whole (.inr ⟨[], rfl⟩)
      rw [root, slash]
      rfl
    | false =>
      have bare : render false ([] ++ [s]) = [] ++ s := by simp [render]
      have nothing : upToSlash ([] ++ s) = [] := upToSlash_append whole (.inl rfl)
      rw [bare, nothing]
      rfl
  · have printed : render kind (front ++ [s]) = (render kind front ++ ['/']) ++ s := by
      rw [render, render, intercalate_append_singleton none]
      simp
    have filled : render kind front ≠ [] := by
      intro empty
      have back : steps (render kind front) = front := steps_render all
      rw [empty] at back
      exact none back.symm
    rw [printed, upToSlash_append whole (.inr ⟨_, rfl⟩)]
    split
    · rename_i empty
      simp at empty
    · rename_i root
      simp [filled] at root
    · exact List.dropLast_concat

namespace IsCanonical

variable {path : List Char}

/-- The directory of a canonical path holds its segments but for the last one. -/
theorem directoryChars_eq (canonical : IsCanonical path) :
    directoryChars path = render (isAbsolute path) (steps path).dropLast := by
  have text := canonical.text
  rcases List.eq_nil_or_concat (steps path) with none | ⟨front, s, split⟩
  · rw [none] at text ⊢
    conv_lhs => rw [text]
    cases isAbsolute path <;> rfl
  · rw [List.concat_eq_append] at split
    have all : ∀ s ∈ steps path, IsStep s := fun s member => isStep_of_mem member
    rw [split, List.forall_mem_append, List.forall_mem_singleton] at all
    rw [split] at text ⊢
    conv_lhs => rw [text]
    rw [directoryChars_render all.1 all.2.whole, List.dropLast_concat]

theorem directory (canonical : IsCanonical path) : IsCanonical (directoryChars path) := by
  rw [canonical.directoryChars_eq]
  obtain ⟨count, canonical, rooted⟩ := canonical
  obtain ⟨names, split, free⟩ := canonical.front
  have all : ∀ s ∈ (steps path).dropLast, IsStep s :=
    fun s member => isStep_of_mem (List.mem_of_mem_dropLast member)
  rcases List.eq_nil_or_concat names with rfl | ⟨before, last, rfl⟩
  · have fewer : (steps path).dropLast = List.replicate (count - 1) climb ++ [] := by
      rw [split, List.append_nil, List.append_nil, List.dropLast_replicate]
    exact isCanonical_render all fewer List.not_mem_nil fun absolute => by rw [rooted absolute]
  · rw [List.concat_eq_append] at split free
    rw [← List.append_assoc] at split
    refine isCanonical_render all (by rw [split, List.dropLast_concat]) ?_ rooted
    exact fun inside => free (List.mem_append_left _ inside)

end IsCanonical

/-! ### Joins -/

/-- What a name denotes as seen from a base: what the two denote in a row. -/
def meaningFrom (base name : List Char) : Bool × List Segment :=
  (isAbsolute base, resolve (isAbsolute base) (steps base ++ steps name))

namespace IsCanonical

variable {base base' name name' path path' : String}

theorem join (canonical : IsCanonical base.toList) (ok : Path.join base name = .ok path) :
    IsCanonical path.toList := by
  obtain ⟨count, canonical, rooted⟩ := canonical
  obtain ⟨names, split, free⟩ := canonical.front
  refine ⟨count, canonical_join ok split free, ?_⟩
  rwa [isAbsolute_join ok]

/-- Canonical bases join two names to one path exactly if the names denote one path from there. -/
theorem join_eq_iff (canonical : IsCanonical base.toList) (canonical' : IsCanonical base'.toList)
    (ok : Path.join base name = .ok path) (ok' : Path.join base' name' = .ok path') :
    path = path' ↔ meaningFrom base.toList name.toList = meaningFrom base'.toList name'.toList := by
  rw [meaningFrom, meaningFrom, ← meaning_join ok, ← meaning_join ok']
  constructor
  · rintro rfl
    rfl
  · intro same
    exact String.toList_inj.mp ((canonical.join ok).eq_of_meaning (canonical'.join ok') same)

/-- From the directory of a canonical path its last segment leads back to it. -/
theorem join_lastSegment (canonical : IsCanonical path.toList) (step : IsStep (lastSegment path.toList))
    (down : lastSegment path.toList ≠ climb) (last : name.toList = lastSegment path.toList) :
    Path.join (Path.directory path) name = .ok path := by
  have split := steps_eq_concat step
  have base : (Path.directory path).toList = directoryChars path.toList := String.toList_ofList
  rw [join_eq_ok_iff, joinChars, base, last, step.steps_eq, isAbsolute_directory]
  have entered : walk (steps (directoryChars path.toList)).reverse [lastSegment path.toList] =
      some (steps path.toList).reverse := by
    rw [split, List.reverse_append]
    simp [walk, down]
  rw [entered, Option.map_some, List.reverse_reverse, ← canonical.text]

end IsCanonical

end ShaderBundle.Path
