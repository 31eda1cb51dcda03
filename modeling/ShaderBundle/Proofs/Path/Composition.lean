import ShaderBundle.Proofs.Path.Join

/-! Joining as an action of names on bases. A walk can be broken off anywhere: what is printed where it
pauses is split again into the segments that it paused at, and on the same side of the root. -/
namespace ShaderBundle.Path

theorem walk_append (place front back : List Segment) :
    walk place (front ++ back) = (walk place front).bind fun middle => walk middle back := by
  induction front generalizing place with
  | nil => rfl
  | cons s rest ih =>
    by_cases up : s = climb
    · subst up
      cases place with
      | nil => simp [walk]
      | cons top below =>
        by_cases stuck : top = climb
        · simp [walk, stuck]
        · simp [walk, stuck, ih]
    · simp [walk, up, ih]

/-- From a printed place a join walks on as if it had not been printed. -/
theorem joinChars_render {kind : Bool} {place : List Segment} (all : ∀ s ∈ place.reverse, IsStep s)
    (name : List Char) : joinChars (render kind place.reverse) name =
      (walk place (steps name)).map fun last => render kind last.reverse := by
  rw [joinChars, steps_render all, isAbsolute_render all, List.reverse_reverse]

theorem joinChars_slash (base front back : List Char) :
    joinChars base (front ++ '/' :: back) =
      (joinChars base front).bind fun middle => joinChars middle back := by
  unfold joinChars
  rw [steps_append, walk_append]
  cases walked : walk (steps base).reverse (steps front) with
  | none => rfl
  | some place => exact (joinChars_render (isStep_walk walked) back).symm

theorem join_eq_ok_iff {base name path : String} :
    join base name = .ok path ↔ joinChars base.toList name.toList = some path.toList := by
  unfold join
  cases joined : joinChars base.toList name.toList with
  | none => simp
  | some text => simp [← String.toList_inj]

theorem exists_join_eq_error_iff {base name : String} :
    (∃ fault, join base name = .error fault) ↔ ∀ path, join base name ≠ .ok path := by
  cases join base name <;> simp

/-- A name in two parts is joined part by part: the whole leads to a path exactly if the first part leads
somewhere and the second one leads from there to that path. So it is refused exactly if one of them is. -/
theorem join_slash (base front back : String) :
    ((∃ fault, join base (front ++ "/" ++ back) = .error fault) ↔
      (∃ fault, join base front = .error fault) ∨
      ∃ middle, join base front = .ok middle ∧ ∃ fault, join middle back = .error fault) ∧
    ∀ path, join base (front ++ "/" ++ back) = .ok path ↔
      ∃ middle, join base front = .ok middle ∧ join middle back = .ok path := by
  have parts (path : String) : join base (front ++ "/" ++ back) = .ok path ↔
      ∃ middle, join base front = .ok middle ∧ join middle back = .ok path := by
    have text : (front ++ "/" ++ back).toList = front.toList ++ '/' :: back.toList := by simp
    simp only [join_eq_ok_iff, text, joinChars_slash, Option.bind_eq_some_iff]
    constructor
    · rintro ⟨middle, first, second⟩
      exact ⟨String.ofList middle, by simpa using first, by simpa using second⟩
    · rintro ⟨middle, first, second⟩
      exact ⟨middle.toList, first, second⟩
  refine ⟨?_, parts⟩
  simp only [exists_join_eq_error_iff, ne_eq, parts, not_exists, not_and]
  cases first : join base front with
  | error fault => simp
  | ok middle => simp

example : join "/lib" ("../gl" ++ "/" ++ "../../x") = .error (.escapes "../gl/../../x" "/lib") ∧
    join "/lib" "../gl" = .ok "/gl" ∧ join "/gl" "../../x" = .error (.escapes "../../x" "/gl") := by
  decide

end ShaderBundle.Path
