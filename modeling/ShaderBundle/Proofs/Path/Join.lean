import ShaderBundle.Proofs.Path.Climbing

/-! What a join on a disk keeps: it leads where its parts lead one after the other, and it starts where
its base starts. -/
namespace ShaderBundle.Path

structure Joined (base name path : List Char) : Prop where
  plain : Plain path
  kind : isAbsolute path = isAbsolute base
  leads : ∀ place, arrive place (steps path) = arrive (arrive place (steps base)) (steps name)
  /-- An absolute base passes its anchor on. -/
  anchored : isAbsolute base = true → anchor path = anchor base
  /-- Behind a relative base the climbs come in front. -/
  climbing : isAbsolute base = false → ∃ count, anchor path = (false, List.replicate count climb)

theorem plain_spell {slashes : Nat} {segments : List Segment} (one : slashes ≤ 1)
    (all : ∀ s ∈ segments, IsStep s) : Plain (spell slashes segments) := by
  unfold Plain
  rw [isAbsolute_spell all, steps_spell all]
  congr 1
  rcases Nat.le_one_iff_eq_zero_or_eq_one.mp one with rfl | rfl <;> rfl

theorem render_absolute (segments : List Segment) : render true segments = spell 1 segments := rfl

theorem leadingSlashes_relative {path : List Char} (relative : isAbsolute path = false) :
    leadingSlashes path = 0 := by
  unfold leadingSlashes
  split
  all_goals first | rfl | simp [isAbsolute] at relative

/-- A name is looked up as it is written. -/
theorem spelled_name {name : String} (step : IsStep name.toList) : spelled name = name := by
  rw [spelled, step.steps_eq, leadingSlashes_relative step.isAbsolute_eq, ← String.toList_inj,
    String.toList_ofList]
  unfold spell
  rw [List.replicate_zero, List.nil_append, List.intercalate_singleton]
  split
  · rename_i empty
    exact absurd empty step.some
  · rfl

theorem joinOnDisk_absolute {base name path : String} (absolute : isAbsolute base.toList = true)
    (ok : joinOnDisk base name = .ok path) :
    ∃ last, walk (steps base.toList).reverse (steps name.toList) = some last ∧
      path.toList = spell 1 last.reverse := by
  rw [joinOnDisk, if_pos absolute] at ok
  obtain ⟨last, walked, text⟩ := join_ok ok
  rw [absolute, render_absolute] at text
  exact ⟨last, walked, text⟩

/-- From a relative base a join never fails. -/
theorem joinOnDisk_relative {base : String} (relative : isAbsolute base.toList = false)
    (name : String) : joinOnDisk base name = .ok (String.ofList
      (spell 0 (settle false [] (steps base.toList ++ steps name.toList)).reverse)) := by
  have inside : isAbsolute (name.toList.dropWhile (· = '/')) = false := by
    have stops := List.head?_dropWhile_not (· = '/') name.toList
    unfold isAbsolute
    cases front : (name.toList.dropWhile (· = '/')).head? with
    | none => rfl
    | some c =>
      rw [front] at stops
      simpa using stops
  have start : isAbsolute (if base.toList = [] then ['.'] else base.toList) = false := by
    split
    · rfl
    · exact relative
  have same : steps (if base.toList = [] then ['.'] else base.toList) = steps base.toList := by
    split
    · rename_i empty
      rw [empty]
      rfl
    · rfl
  unfold joinOnDisk normalChars
  rw [if_neg (by simp [relative])]
  dsimp only
  rw [leadingSlashes_relative ((isAbsolute_appendChars inside).trans start),
    isAbsolute_appendChars inside, start, steps_appendChars inside, same, steps_dropSlashes]

theorem isStep_walk {base name : List Char} {last : List Segment}
    (ok : walk (steps base).reverse (steps name) = some last) : ∀ s ∈ last.reverse, IsStep s := by
  intro s member
  rcases List.mem_append.mp (walk_subset ok (List.mem_reverse.mp member)) with old | new
  · exact isStep_of_mem (List.mem_reverse.mp old)
  · exact isStep_of_mem new

theorem isStep_settle {absolute : Bool} {way : List Segment} (all : ∀ s ∈ way, IsStep s) :
    ∀ s ∈ (settle absolute [] way).reverse, IsStep s := by
  intro s member
  have way := settle_subset _ _ _ (List.mem_reverse.mp member)
  rw [List.singleton_append, List.mem_cons] at way
  rcases way with rfl | step
  · exact isStep_climb
  · exact all s step

theorem joined_of_joinOnDisk {base name path : String} (ok : joinOnDisk base name = .ok path) :
    Joined base.toList name.toList path.toList := by
  cases kind : isAbsolute base.toList with
  | true =>
    obtain ⟨last, walked, spelled⟩ := joinOnDisk_absolute kind ok
    have all := isStep_walk walked
    refine ⟨?_, ?_, fun place => ?_, fun _ => ?_, fun relative => by simp [kind] at relative⟩
    · rw [spelled]
      exact plain_spell (Nat.le_refl 1) all
    · rw [spelled, isAbsolute_spell all, kind]
      rfl
    · rw [spelled, steps_spell all, arrive_walk place walked, List.reverse_reverse, arrive_append]
    · unfold anchor
      rw [spelled, isAbsolute_spell all, steps_spell all, stem_walk walked, List.reverse_reverse, kind]
      rfl
  | false =>
    rw [joinOnDisk_relative kind] at ok
    obtain rfl := Except.ok.inj ok
    have all : ∀ s ∈ (settle false [] (steps base.toList ++ steps name.toList)).reverse, IsStep s :=
      isStep_settle fun s member => (List.mem_append.mp member).elim isStep_of_mem isStep_of_mem
    rw [String.toList_ofList]
    refine ⟨plain_spell (Nat.zero_le 1) all, ?_, fun place => ?_,
      fun absolute => by simp [kind] at absolute, fun _ => ?_⟩
    · rw [isAbsolute_spell all, kind]
      rfl
    · rw [steps_spell all, arrive_settle, List.reverse_nil, List.nil_append, arrive_append]
    · have tidy : Tidy (settle false [] (steps base.toList ++ steps name.toList)) :=
        Tidy.settle ⟨0, [], rfl, by simp⟩
      obtain ⟨count, names, split, free⟩ := tidy
      refine ⟨count, ?_⟩
      unfold anchor
      rw [isAbsolute_spell all, steps_spell all, split, stem_append_names _ free, stem_replicate]
      rfl

/-- Climbs that nothing can take back are kept. -/
theorem settle_climbs (outer count : Nat) (way : List Segment) :
    settle false (List.replicate outer climb) (List.replicate count climb ++ way) =
      settle false (List.replicate (outer + count) climb) way := by
  induction count generalizing outer with
  | zero => rfl
  | succ count ih =>
    have one : settle false (List.replicate outer climb)
        (climb :: (List.replicate count climb ++ way)) =
        settle false (List.replicate (outer + 1) climb) (List.replicate count climb ++ way) := by
      cases outer <;> rfl
    rw [List.replicate_succ, List.cons_append, one, ih, Nat.add_right_comm, Nat.add_assoc]

/-! ### Absolute forms -/

theorem steps_normalChars {path : List Char} (absolute : isAbsolute path = true) :
    steps (normalChars path) = arrive [] (steps path) := by
  unfold normalChars
  rw [steps_spell (isStep_settle fun s member => isStep_of_mem member), absolute,
    settle_absolute (by simp), List.reverse_nil, List.reverse_reverse]

theorem steps_absolute {workingDirectory : String}
    (rooted : isAbsolute workingDirectory.toList = true) (path : String) :
    steps (absolute workingDirectory path).toList =
      arrive (arrive [] (if isAbsolute path.toList then [] else steps workingDirectory.toList))
        (steps path.toList) := by
  rw [absolute, String.toList_ofList]
  cases kind : isAbsolute path.toList with
  | true =>
    have itself : appendChars workingDirectory.toList path.toList = path.toList := by
      simp [appendChars, kind]
    rw [itself, steps_normalChars kind]
    rfl
  | false =>
    rw [steps_normalChars ((isAbsolute_appendChars kind).trans rooted), steps_appendChars kind,
      arrive_append]
    rfl

/-- The absolute form tells plain paths of one anchor apart. -/
theorem eq_of_absolute {workingDirectory left right : String}
    (rooted : isAbsolute workingDirectory.toList = true) (plain : Plain left.toList)
    (plain' : Plain right.toList) (together : anchor left.toList = anchor right.toList)
    (same : absolute workingDirectory left = absolute workingDirectory right) : left = right := by
  have meet := congrArg (fun path : String => steps path.toList) same
  have kind : isAbsolute left.toList = isAbsolute right.toList := (anchor_eq_iff.mp together).1
  rw [steps_absolute rooted, steps_absolute rooted, kind] at meet
  exact String.toList_inj.mp (plain.eq_of_arrive plain' together meet)

end ShaderBundle.Path
