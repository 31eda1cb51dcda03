import ShaderBundle.Proofs.Path.Segments

/-! Where a path leads. Joining and normalising rewrite a path but keep where it leads, from every place;
two paths that agree up to their last climb lead to different places unless they are the same. -/
namespace ShaderBundle.Path

/-- Takes one segment after the other, outermost first. A climb at the root stays there. -/
def arrive (place way : List Segment) : List Segment :=
  way.foldl (fun place s => if s = climb then place.dropLast else place ++ [s]) place

variable {place way names : List Segment}

@[simp] theorem arrive_nil (place : List Segment) : arrive place [] = place := rfl

theorem arrive_append (place front back : List Segment) :
    arrive place (front ++ back) = arrive (arrive place front) back := List.foldl_append

theorem arrive_cons (place : List Segment) (s : Segment) (way : List Segment) :
    arrive place (s :: way) = arrive (arrive place [s]) way := rfl

theorem arrive_climb (place : List Segment) : arrive place [climb] = place.dropLast := rfl

theorem arrive_name (place : List Segment) {s : Segment} (name : s ≠ climb) :
    arrive place [s] = place ++ [s] := by
  simp [arrive, name]

theorem arrive_names (place : List Segment) (all : climb ∉ names) :
    arrive place names = place ++ names := by
  induction names generalizing place with
  | nil => simp
  | cons s rest ih =>
    rw [List.mem_cons, not_or] at all
    rw [arrive_cons, arrive_name place (Ne.symm all.1), ih _ all.2, List.append_assoc,
      List.singleton_append]

/-- A climb out of what was just entered. -/
theorem arrive_back (place front way : List Segment) {s : Segment} (name : s ≠ climb) :
    arrive place (front ++ s :: climb :: way) = arrive place (front ++ way) := by
  rw [arrive_append, arrive_append, arrive_cons, arrive_name _ name, arrive_cons, arrive_climb,
    List.dropLast_concat]

/-! ### Normal forms lead where the path leads -/

/-- A place without climbs, innermost segment first, is walked on from as it is arrived at. -/
theorem settle_absolute {inner : List Segment} (free : climb ∉ inner) :
    settle true inner way = (arrive inner.reverse way).reverse := by
  induction way generalizing inner with
  | nil => simp [settle]
  | cons s rest ih =>
    unfold settle
    rw [arrive_cons]
    by_cases up : s = climb
    · subst up
      rw [if_pos rfl, arrive_climb]
      cases inner with
      | nil =>
        dsimp only
        rw [if_pos rfl]
        exact ih free
      | cons top below =>
        rw [List.mem_cons, not_or] at free
        dsimp only
        rw [if_neg (Ne.symm free.1), ih free.2, List.reverse_cons, List.dropLast_concat]
    · have free' : climb ∉ s :: inner := by
        rw [List.mem_cons, not_or]
        exact ⟨Ne.symm up, free⟩
      rw [if_neg up, arrive_name _ up, ih free', List.reverse_cons]

theorem arrive_settle (place inner way : List Segment) :
    arrive place (settle false inner way).reverse = arrive place (inner.reverse ++ way) := by
  induction way generalizing inner with
  | nil => simp [settle]
  | cons s rest ih =>
    unfold settle
    by_cases up : s = climb
    · subst up
      rw [if_pos rfl]
      cases inner with
      | nil =>
        dsimp only
        rw [if_neg (by simp), ih]
        rfl
      | cons top below =>
        dsimp only
        split
        · rename_i same
          subst same
          rw [ih]
          simp
        · rename_i name
          rw [ih, List.reverse_cons, List.append_assoc, List.singleton_append,
            arrive_back _ _ _ name]
    · rw [if_neg up, ih]
      simp

theorem arrive_walk {inner last : List Segment} (place : List Segment)
    (ok : walk inner way = some last) :
    arrive place last.reverse = arrive place (inner.reverse ++ way) := by
  induction way generalizing inner with
  | nil =>
    obtain rfl := Option.some.inj ok
    simp
  | cons s rest ih =>
    unfold walk at ok
    split at ok
    · rename_i up
      subst up
      cases inner with
      | nil => simp at ok
      | cons top below =>
        dsimp only at ok
        split at ok
        · simp at ok
        · rename_i name
          rw [ih ok, List.reverse_cons, List.append_assoc, List.singleton_append,
            arrive_back _ _ _ name]
    · rw [ih ok]
      simp

/-! ### The stem of a path -/

def stem (way : List Segment) : List Segment := (way.reverse.dropWhile (· ≠ climb)).reverse

/-- Behind its stem a path has names only. -/
theorem stem_append (way : List Segment) : ∃ names, way = stem way ++ names ∧ climb ∉ names := by
  refine ⟨(way.reverse.takeWhile (· ≠ climb)).reverse, ?_, ?_⟩
  · have split := List.takeWhile_append_dropWhile (p := (· ≠ climb)) (l := way.reverse)
    have reversed := congrArg List.reverse split
    rw [List.reverse_append, List.reverse_reverse] at reversed
    exact reversed.symm
  · rw [List.mem_reverse]
    intro member
    simpa using List.mem_takeWhile_imp member

theorem stem_append_names (way : List Segment) (all : climb ∉ names) :
    stem (way ++ names) = stem way := by
  unfold stem
  rw [List.reverse_append, List.dropWhile_append_of_pos]
  intro s member
  have name : s ≠ climb := by
    rintro rfl
    exact all (List.mem_reverse.mp member)
  simpa using name

theorem stem_concat_climb (way : List Segment) : stem (way ++ [climb]) = way ++ [climb] := by
  simp [stem]

theorem stem_replicate (count : Nat) :
    stem (List.replicate count climb) = List.replicate count climb := by
  cases count with
  | zero => rfl
  | succ count => rw [List.replicate_succ', stem_concat_climb]

theorem stem_eq_nil_iff : stem way = [] ↔ climb ∉ way := by
  constructor
  · intro none
    obtain ⟨names, split, all⟩ := stem_append way
    rwa [split, none]
  · exact fun all => stem_append_names [] all

/-- A place and the stem tell the path. -/
theorem eq_of_arrive {other : List Segment} (same : stem way = stem other)
    (meet : arrive place way = arrive place other) : way = other := by
  obtain ⟨names, split, all⟩ := stem_append way
  obtain ⟨names', split', all'⟩ := stem_append other
  rw [split, split', arrive_append, arrive_append, arrive_names _ all, arrive_names _ all', same] at meet
  rw [split, split', same, List.append_cancel_left meet]

theorem stem_walk {inner last : List Segment} (ok : walk inner way = some last) :
    stem last.reverse = stem inner.reverse := by
  induction way generalizing inner with
  | nil => rw [Option.some.inj ok]
  | cons s rest ih =>
    have behind {s : Segment} (name : s ≠ climb) (inner : List Segment) :
        stem (s :: inner).reverse = stem inner.reverse := by
      rw [List.reverse_cons]
      exact stem_append_names _ (by simpa using Ne.symm name)
    unfold walk at ok
    split at ok
    · cases inner with
      | nil => simp at ok
      | cons top below =>
        dsimp only at ok
        split at ok
        · simp at ok
        · rename_i name
          rw [ih ok, behind name]
    · rename_i name
      rw [ih ok, behind name]

/-- Where a path starts and how it climbs. -/
def anchor (path : List Char) : Bool × List Segment := (isAbsolute path, stem (steps path))

theorem anchor_eq_iff {left right : List Char} : anchor left = anchor right ↔
    isAbsolute left = isAbsolute right ∧ stem (steps left) = stem (steps right) := by
  rw [anchor, anchor, Prod.mk.injEq]

theorem anchor_directory {path : List Char} (ends : IsStep (lastSegment path))
    (down : lastSegment path ≠ climb) : anchor (directoryChars path) = anchor path := by
  unfold anchor
  rw [isAbsolute_directory, steps_eq_concat ends, stem_append_names _ (by simpa using Ne.symm down)]

def climbs (path : List Char) : Nat := ((steps path).takeWhile (· = climb)).length

theorem climbs_eq {path : List Char} {count : Nat}
    (front : stem (steps path) = List.replicate count climb) : climbs path = count := by
  obtain ⟨names, split, free⟩ := stem_append (steps path)
  have stops : names.takeWhile (· = climb) = [] := by
    cases names with
    | nil => rfl
    | cons name rest =>
      rw [List.mem_cons, not_or] at free
      exact List.takeWhile_cons_of_neg (by simpa using Ne.symm free.1)
  unfold climbs
  rw [split, front, List.takeWhile_append_of_pos (by simp), stops, List.append_nil,
    List.length_replicate]

/-- Paths of one anchor meet only where they are one path. -/
theorem Plain.eq_of_arrive {left right : List Char} (plain : Plain left) (plain' : Plain right)
    (together : anchor left = anchor right)
    (meet : arrive place (steps left) = arrive place (steps right)) : left = right := by
  obtain ⟨kind, same⟩ := anchor_eq_iff.mp together
  exact plain.eq_of_steps plain' kind (Path.eq_of_arrive same meet)

/-- Climbs stand in front only; the innermost segment comes first. -/
def Tidy (inner : List Segment) : Prop :=
  ∃ count names, inner.reverse = List.replicate count climb ++ names ∧ climb ∉ names

theorem Tidy.settle {inner : List Segment} (tidy : Tidy inner) : Tidy (settle false inner way) := by
  induction way generalizing inner with
  | nil => exact tidy
  | cons s rest ih =>
    obtain ⟨count, names, split, all⟩ := tidy
    unfold Path.settle
    by_cases up : s = climb
    · rw [if_pos up]
      cases inner with
      | nil => exact ih ⟨1, [], rfl, by simp⟩
      | cons top below =>
        rw [List.reverse_cons] at split
        dsimp only
        rcases List.eq_nil_or_concat names with rfl | ⟨front, s', rfl⟩
        · rw [List.append_nil] at split
          have top_climb : top = climb :=
            List.eq_of_mem_replicate (split ▸ List.mem_append_right _ List.mem_cons_self)
          rw [if_pos top_climb]
          refine ih ⟨count + 1, [], ?_, by simp⟩
          rw [List.reverse_cons, List.reverse_cons, split, List.replicate_succ']
          simp
        · rw [List.concat_eq_append] at split all
          rw [← List.append_assoc] at split
          obtain ⟨shorter, same⟩ := List.append_inj' split rfl
          obtain rfl : top = s' := by simpa using same
          rw [List.mem_append, not_or] at all
          rw [if_neg (fun same => all.2 (by simp [same]))]
          exact ih ⟨count, front, shorter, all.1⟩
    · rw [if_neg up]
      refine ih ⟨count, names ++ [s], ?_, ?_⟩
      · rw [List.reverse_cons, split, List.append_assoc]
      · rw [List.mem_append, not_or]
        exact ⟨all, by simpa using Ne.symm up⟩

end ShaderBundle.Path
