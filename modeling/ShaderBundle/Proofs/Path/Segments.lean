import ShaderBundle.Proofs.Path.Characters
import Mathlib.Data.List.TakeWhile

/-! The segments of a path against its text. A path that is printed from its segments has these segments,
and what is put behind a slash adds its own. -/
namespace ShaderBundle.Path

open Text

structure IsStep (s : Segment) : Prop where
  some : s ≠ []
  moves : s ≠ ['.']
  whole : '/' ∉ s

theorem isStep_of_mem {path : List Char} {s : Segment} (member : s ∈ steps path) : IsStep s := by
  unfold steps at member
  obtain ⟨piece, moves⟩ := List.mem_filter.mp member
  refine ⟨?_, ?_, (mem_splitOn piece).1⟩
  · rintro rfl
    simp at moves
  · rintro rfl
    simp at moves

theorem isStep_climb : IsStep climb := ⟨by decide, by decide, by decide⟩

/-! ### Texts into segments -/

@[simp] theorem steps_nil : steps [] = [] := rfl

theorem steps_append (front back : List Char) :
    steps (front ++ '/' :: back) = steps front ++ steps back := by
  unfold steps List.splitOn
  rw [List.splitOnP_append_cons _ _ (by simp), List.filter_append]

@[simp] theorem steps_slash (path : List Char) : steps ('/' :: path) = steps path :=
  steps_append [] path

theorem steps_concat_slash (path : List Char) : steps (path ++ ['/']) = steps path := by
  rw [steps_append, steps_nil, List.append_nil]

theorem steps_dropSlashes (path : List Char) : steps (path.dropWhile (· = '/')) = steps path := by
  induction path with
  | nil => rfl
  | cons c rest ih =>
    by_cases slash : c = '/'
    · subst slash
      rw [List.dropWhile_cons_of_pos (by simp), ih, steps_slash]
    · rw [List.dropWhile_cons_of_neg (by simpa using slash)]

theorem steps_of_whole {s : Segment} (whole : '/' ∉ s) :
    steps s = if s = [] ∨ s = ['.'] then [] else [s] := by
  have single : s.splitOn '/' = [s] := by
    have joined : (List.intercalate ['/'] [s]).splitOn '/' = [s] :=
      List.splitOn_intercalate '/' (by simpa using whole) (by simp)
    rwa [List.intercalate_singleton] at joined
  unfold steps
  rw [single]
  by_cases skipped : s = [] ∨ s = ['.']
  · rw [if_pos skipped]
    rcases skipped with rfl | rfl <;> rfl
  · rw [if_neg skipped]
    rw [not_or] at skipped
    simp [skipped]

theorem IsStep.steps_eq {s : Segment} (step : IsStep s) : steps s = [s] := by
  rw [steps_of_whole step.whole, if_neg (by simp [step.some, step.moves])]

/-! ### Segments into texts -/

theorem steps_intercalate {segments : List Segment} (all : ∀ s ∈ segments, IsStep s) :
    steps (List.intercalate ['/'] segments) = segments := by
  by_cases none : segments = []
  · subst none
    rfl
  · unfold steps
    rw [List.splitOn_intercalate '/' (fun s member => (all s member).whole) none]
    refine List.filter_eq_self.mpr fun s member => ?_
    simp [(all s member).some, (all s member).moves]

theorem steps_replicate_slash (slashes : Nat) (path : List Char) :
    steps (List.replicate slashes '/' ++ path) = steps path := by
  induction slashes with
  | zero => rfl
  | succ slashes ih =>
    rw [List.replicate_succ, List.cons_append, steps_slash, ih]

theorem steps_spell {slashes : Nat} {segments : List Segment} (all : ∀ s ∈ segments, IsStep s) :
    steps (spell slashes segments) = segments := by
  have printed : steps (List.replicate slashes '/' ++ List.intercalate ['/'] segments) = segments :=
    (steps_replicate_slash ..).trans (steps_intercalate all)
  unfold spell
  split
  · rename_i empty
    rw [empty] at printed
    exact printed
  · exact printed

theorem head?_intercalate {segments : List Segment} (all : ∀ s ∈ segments, IsStep s) :
    (List.intercalate ['/'] segments).head? ≠ some '/' := by
  cases segments with
  | nil => simp
  | cons first rest =>
    obtain ⟨c, cs, rfl⟩ := List.exists_cons_of_ne_nil (all first List.mem_cons_self).some
    have different : c ≠ '/' := by
      rintro rfl
      exact (all _ List.mem_cons_self).whole List.mem_cons_self
    by_cases last : rest = []
    · subst last
      simpa using different
    · rw [List.intercalate_cons_of_ne_nil last]
      simpa using different

theorem IsStep.isAbsolute_eq {s : Segment} (step : IsStep s) : isAbsolute s = false := by
  have front := @head?_intercalate [s] (by simpa using step)
  rw [List.intercalate_singleton] at front
  simpa [isAbsolute] using front

theorem isAbsolute_spell {slashes : Nat} {segments : List Segment}
    (all : ∀ s ∈ segments, IsStep s) :
    isAbsolute (spell slashes segments) = decide (slashes ≠ 0) := by
  unfold spell
  cases slashes with
  | succ slashes => simp [List.replicate_succ, isAbsolute]
  | zero =>
    rw [List.replicate_zero, List.nil_append]
    split
    · rfl
    · simpa [isAbsolute] using head?_intercalate all

theorem steps_render {absolute : Bool} {segments : List Segment} (all : ∀ s ∈ segments, IsStep s) :
    steps (render absolute segments) = segments := by
  cases absolute with
  | true => exact (steps_slash _).trans (steps_intercalate all)
  | false => exact steps_intercalate all

theorem isAbsolute_render {absolute : Bool} {segments : List Segment}
    (all : ∀ s ∈ segments, IsStep s) : isAbsolute (render absolute segments) = absolute := by
  cases absolute with
  | true => rfl
  | false => simpa [isAbsolute, render] using head?_intercalate all

/-- A path without an empty segment or a point in it, but for the one slash in front of an absolute
path: it is told by its segments. -/
def Plain (path : List Char) : Prop := path = spell (if isAbsolute path then 1 else 0) (steps path)

instance (path : List Char) : Decidable (Plain path) := inferInstanceAs (Decidable (_ = _))

theorem Plain.eq_of_steps {left right : List Char} (plain : Plain left) (plain' : Plain right)
    (kind : isAbsolute left = isAbsolute right) (same : steps left = steps right) : left = right := by
  rw [plain, plain', kind, same]

/-! ### Paths behind a directory -/

theorem steps_appendChars {base name : List Char} (relative : isAbsolute name = false) :
    steps (appendChars base name) = steps base ++ steps name := by
  unfold appendChars
  rw [if_neg (by simp [relative])]
  split
  · rename_i joins
    rw [Bool.or_eq_true, decide_eq_true_eq, decide_eq_true_eq] at joins
    rcases joins with rfl | slash
    · rfl
    · obtain ⟨front, rfl⟩ := List.getLast?_eq_some_iff.mp slash
      rw [steps_concat_slash, List.append_assoc, List.singleton_append, steps_append]
  · exact steps_append base name

theorem isAbsolute_appendChars {base name : List Char} (relative : isAbsolute name = false) :
    isAbsolute (appendChars base name) = isAbsolute base := by
  unfold appendChars
  rw [if_neg (by simp [relative])]
  cases base with
  | nil => exact relative
  | cons c rest =>
    by_cases slash : (c :: rest).getLast? = some '/'
    · rw [if_pos (by simp [slash])]
      rfl
    · rw [if_neg (by simp [slash])]
      rfl

theorem upToSlash_append_lastSegment (path : List Char) :
    upToSlash path ++ lastSegment path = path := by
  have split := List.takeWhile_append_dropWhile (p := (· ≠ '/')) (l := path.reverse)
  have reversed := congrArg List.reverse split
  rwa [List.reverse_append, List.reverse_reverse] at reversed

theorem slash_not_mem_lastSegment (path : List Char) : '/' ∉ lastSegment path := by
  unfold lastSegment
  rw [List.mem_reverse]
  intro member
  simpa using List.mem_takeWhile_imp member

/-- The directory of a path is all up to its last slash, without that slash if anything is left. -/
theorem directoryChars_cases (path : List Char) :
    (upToSlash path = [] ∧ directoryChars path = []) ∨
    (upToSlash path = ['/'] ∧ directoryChars path = ['/']) ∨
    ∃ front, front ≠ [] ∧ upToSlash path = front ++ ['/'] ∧ directoryChars path = front := by
  have ends : upToSlash path = [] ∨ ∃ front, upToSlash path = front ++ ['/'] := by
    unfold upToSlash
    cases rest : path.reverse.dropWhile (· ≠ '/') with
    | nil => exact .inl rfl
    | cons c back =>
      have stops := List.head?_dropWhile_not (· ≠ '/') path.reverse
      rw [rest] at stops
      obtain rfl : c = '/' := by simpa using stops
      exact .inr ⟨back.reverse, by simp⟩
  unfold directoryChars
  rcases ends with none | ⟨front, some⟩
  · exact .inl ⟨none, by rw [none]⟩
  · cases front with
    | nil =>
      rw [List.nil_append] at some
      exact .inr (.inl ⟨some, by rw [some]; rfl⟩)
    | cons c rest =>
      refine .inr (.inr ⟨c :: rest, by simp, some, ?_⟩)
      rw [some]
      split
      · rename_i empty
        simp at empty
      · rename_i root
        simp at root
      · exact List.dropLast_concat

/-- A path is its directory and its last segment, if that names something. -/
theorem steps_eq_directory (path : List Char) :
    steps path = steps (directoryChars path) ++ steps (lastSegment path) := by
  have parts := upToSlash_append_lastSegment path
  rcases directoryChars_cases path with ⟨none, directory⟩ | ⟨root, directory⟩ |
    ⟨front, -, ends, directory⟩
  · rw [none, List.nil_append] at parts
    rw [directory, parts]
    rfl
  · rw [root, List.singleton_append] at parts
    have behind : steps path = steps (lastSegment path) := by
      conv_lhs => rw [← parts, steps_slash]
    rw [behind, directory]
    rfl
  · rw [ends, List.append_assoc, List.singleton_append] at parts
    rw [directory, ← steps_append, parts]

/-- Where the last segment moves, the directory of a path is what stands before it. -/
theorem steps_eq_concat {path : List Char} (ends : IsStep (lastSegment path)) :
    steps path = steps (directoryChars path) ++ [lastSegment path] := by
  rw [steps_eq_directory, ends.steps_eq]

/-- What stands at the start or behind a slash is the last segment. -/
theorem lastSegment_append {front : List Char} {s : Segment} (whole : '/' ∉ s)
    (apart : front = [] ∨ ∃ before, front = before ++ ['/']) : lastSegment (front ++ s) = s := by
  have inside : ∀ c ∈ s.reverse, decide (c ≠ '/') = true := by
    intro c member
    rw [decide_eq_true_eq]
    rintro rfl
    exact whole (List.mem_reverse.mp member)
  unfold lastSegment
  rw [List.reverse_append, List.takeWhile_append_of_pos inside]
  rcases apart with rfl | ⟨before, rfl⟩
  · simp
  · simp

theorem intercalate_concat (front : List Segment) (s : Segment) :
    ∃ before, List.intercalate ['/'] (front ++ [s]) = before ++ s ∧
      (before = [] ∨ ∃ further, before = further ++ ['/']) := by
  induction front with
  | nil => exact ⟨[], by simp, .inl rfl⟩
  | cons first rest ih =>
    obtain ⟨before, printed, apart⟩ := ih
    refine ⟨first ++ '/' :: before, ?_, .inr ?_⟩
    · rw [List.cons_append, List.intercalate_cons_of_ne_nil (by simp), printed]
      simp
    · rcases apart with rfl | ⟨further, rfl⟩
      · exact ⟨first, rfl⟩
      · exact ⟨first ++ '/' :: further, by simp⟩

theorem lastSegment_spell {slashes : Nat} {front : List Segment} {s : Segment} (step : IsStep s) :
    lastSegment (spell slashes (front ++ [s])) = s := by
  obtain ⟨before, printed, apart⟩ := intercalate_concat front s
  have text : spell slashes (front ++ [s]) = List.replicate slashes '/' ++ before ++ s := by
    unfold spell
    rw [printed, ← List.append_assoc]
    split
    · rename_i empty
      exact absurd (List.append_eq_nil_iff.mp empty).2 step.some
    · rfl
  rw [text]
  refine lastSegment_append step.whole ?_
  rcases apart with rfl | ⟨further, rfl⟩
  · cases slashes with
    | zero => exact .inl rfl
    | succ slashes => exact .inr ⟨List.replicate slashes '/', by rw [List.replicate_succ']; simp⟩
  · exact .inr ⟨List.replicate slashes '/' ++ further, by simp⟩

theorem Plain.lastSegment_eq {path : List Char} (plain : Plain path) {front : List Segment}
    {s : Segment} (split : steps path = front ++ [s]) : lastSegment path = s := by
  have step : IsStep s := isStep_of_mem (split ▸ List.mem_append_right _ List.mem_cons_self)
  rw [plain, split]
  exact lastSegment_spell step

theorem isAbsolute_directory (path : List Char) :
    isAbsolute (directoryChars path) = isAbsolute path := by
  have parts := upToSlash_append_lastSegment path
  have whole := slash_not_mem_lastSegment path
  rcases directoryChars_cases path with ⟨none, directory⟩ | ⟨root, directory⟩ |
    ⟨front, some, ends, directory⟩
  · rw [none, List.nil_append] at parts
    rw [parts] at whole
    rw [directory]
    cases path with
    | nil => rfl
    | cons c rest =>
      have different : c ≠ '/' := by
        rintro rfl
        exact whole List.mem_cons_self
      simp [isAbsolute, different]
  · rw [directory, ← parts, root]
    rfl
  · obtain ⟨c, rest, rfl⟩ := List.exists_cons_of_ne_nil some
    rw [directory, ← parts, ends]
    rfl

end ShaderBundle.Path
