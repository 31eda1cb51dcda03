import ShaderBundle.Path.Normal
import ShaderBundle.Proofs.Text.Lines

/-! The characters of joined paths: those of the two parts, slashes, and on a disk points. -/
namespace ShaderBundle.Path

open Text

theorem mem_intercalate {c : Char} {sep : List Char} {xs : List (List Char)}
    (member : c ∈ List.intercalate sep xs) : c ∈ sep ∨ ∃ x ∈ xs, c ∈ x := by
  induction xs with
  | nil => simp [List.intercalate_nil] at member
  | cons x rest ih =>
    by_cases last : rest = []
    · subst last
      exact .inr ⟨x, List.mem_cons_self, by simpa using member⟩
    · rw [List.intercalate_cons_of_ne_nil last] at member
      rcases List.mem_append.mp member with front | later
      · rcases List.mem_append.mp front with first | between
        · exact .inr ⟨x, List.mem_cons_self, first⟩
        · exact .inl between
      · rcases ih later with between | ⟨y, inRest, inside⟩
        · exact .inl between
        · exact .inr ⟨y, List.mem_cons_of_mem _ inRest, inside⟩

theorem subset_of_mem_steps {path : List Char} {s : Segment} (member : s ∈ steps path) : s ⊆ path :=
  (mem_splitOn (List.mem_of_mem_filter member)).2

/-- A walk ends in segments of its start and of its way. -/
theorem walk_subset {place way last : List Segment} (ok : walk place way = some last) :
    last ⊆ place ++ way := by
  induction way generalizing place with
  | nil =>
    obtain rfl := Option.some.inj ok
    simp
  | cons s rest ih =>
    unfold walk at ok
    split at ok
    · cases place with
      | nil => simp at ok
      | cons top below =>
        dsimp only at ok
        split at ok
        · simp at ok
        · intro x member
          have inside := ih ok member
          simp only [List.mem_append, List.mem_cons] at inside ⊢
          tauto
    · intro x member
      have inside := ih ok member
      simp only [List.mem_append, List.mem_cons] at inside ⊢
      tauto

/-- So does the walk to a normal form, but for the climbs that it keeps. -/
theorem settle_subset (absolute : Bool) (place way : List Segment) :
    settle absolute place way ⊆ climb :: place ++ way := by
  fun_induction settle absolute place way with
  | case1 => simp
  | case2 | case3 | case4 | case5 | case6 =>
    rename_i ih
    intro x member
    have inside := ih member
    simp only [List.mem_append, List.mem_cons, List.not_mem_nil] at inside ⊢
    tauto

theorem mem_render {c : Char} {absolute : Bool} {segments : List Segment}
    (member : c ∈ render absolute segments) : c = '/' ∨ ∃ s ∈ segments, c ∈ s := by
  unfold render at member
  rcases List.mem_append.mp member with front | inside
  · split at front
    · exact .inl (by simpa using front)
    · simp at front
  · rcases mem_intercalate inside with between | found
    · exact .inl (by simpa using between)
    · exact .inr found

theorem mem_spell {c : Char} {slashes : Nat} {segments : List Segment}
    (member : c ∈ spell slashes segments) : c = '.' ∨ c = '/' ∨ ∃ s ∈ segments, c ∈ s := by
  unfold spell at member
  split at member
  · exact .inl (by simpa using member)
  · rcases List.mem_append.mp member with front | inside
    · exact .inr (.inl (List.eq_of_mem_replicate front))
    · rcases mem_intercalate inside with between | found
      · exact .inr (.inl (by simpa using between))
      · exact .inr (.inr found)

/-- A joined path is made of the characters of its parts and slashes. -/
theorem mem_join {c : Char} {base name path : String} (ok : join base name = .ok path)
    (member : c ∈ path.toList) : c = '/' ∨ c ∈ base.toList ∨ c ∈ name.toList := by
  unfold join joinChars at ok
  cases arrived : walk (steps base.toList).reverse (steps name.toList) with
  | none => simp [arrived] at ok
  | some place =>
    obtain rfl : String.ofList (render (isAbsolute base.toList) place.reverse) = path := by
      simpa [arrived] using ok
    rw [String.toList_ofList] at member
    rcases mem_render member with slash | ⟨s, found, inside⟩
    · exact .inl slash
    · rcases List.mem_append.mp (walk_subset arrived (List.mem_reverse.mp found)) with old | new
      · exact .inr (.inl (subset_of_mem_steps (List.mem_reverse.mp old) inside))
      · exact .inr (.inr (subset_of_mem_steps new inside))

theorem mem_normalChars {c : Char} {path : List Char} (member : c ∈ normalChars path) :
    c = '.' ∨ c = '/' ∨ c ∈ path := by
  rcases mem_spell member with point | slash | ⟨s, found, inside⟩
  · exact .inl point
  · exact .inr (.inl slash)
  · have way := settle_subset _ _ _ (List.mem_reverse.mp found)
    rw [List.singleton_append, List.mem_cons] at way
    rcases way with rfl | step
    · exact .inl (by simpa [climb] using inside)
    · exact .inr (.inr (subset_of_mem_steps step inside))

theorem mem_appendChars {c : Char} {base name : List Char} (member : c ∈ appendChars base name) :
    c = '/' ∨ c ∈ base ∨ c ∈ name := by
  unfold appendChars at member
  split at member
  · exact .inr (.inr member)
  · split at member
    · exact .inr (List.mem_append.mp member)
    · rw [List.mem_append, List.mem_cons] at member
      tauto

/-- On a disk points may come in, for the place itself and for climbs. -/
theorem mem_joinOnDisk {c : Char} {base name path : String} (ok : joinOnDisk base name = .ok path)
    (member : c ∈ path.toList) : c = '.' ∨ c = '/' ∨ c ∈ base.toList ∨ c ∈ name.toList := by
  unfold joinOnDisk at ok
  split at ok
  · exact .inr (mem_join ok member)
  · obtain rfl := Except.ok.inj ok
    rw [String.toList_ofList] at member
    rcases mem_normalChars member with point | slash | inside
    · exact .inl point
    · exact .inr (.inl slash)
    · rcases mem_appendChars inside with slash | front | inName
      · exact .inr (.inl slash)
      · split at front
        · exact .inl (by simpa using front)
        · exact .inr (.inr (.inl front))
      · exact .inr (.inr (.inr (List.dropWhile_subset _ inName)))

theorem upToSlash_subset (path : List Char) : upToSlash path ⊆ path := by
  intro c member
  exact List.mem_reverse.mp (List.dropWhile_subset _ (List.mem_reverse.mp member))

theorem mem_directory {c : Char} {path : String} (member : c ∈ (directory path).toList) :
    c ∈ path.toList := by
  rw [directory, String.toList_ofList, directoryChars] at member
  refine upToSlash_subset _ ?_
  split at member
  · simp at member
  · rename_i root
    exact root ▸ member
  · exact List.dropLast_subset _ member

end ShaderBundle.Path
