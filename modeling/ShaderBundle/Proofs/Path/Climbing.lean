import ShaderBundle.Proofs.Path.Arrival
import Mathlib.Data.List.Infix

/-! When a join is refused. A walk may leave the names that it has entered and those behind the last climb
of its start; what counts is how far each front of its way climbs beyond them. -/
namespace ShaderBundle.Path

variable {level lower : Nat} {s : Segment} {place way names : List Segment}

/-- Some front of the way climbs more often than there are names to leave, from that many on. -/
def Escapes (level : Nat) (way : List Segment) : Prop :=
  ∃ front, front <+: way ∧ level + front.countP (· ≠ climb) < front.count climb

instance (level : Nat) (way : List Segment) : Decidable (Escapes level way) :=
  decidable_of_iff
    (∃ front ∈ way.inits, level + front.countP (· ≠ climb) < front.count climb)
    (by simp [Escapes])

theorem not_escapes_nil (level : Nat) : ¬ Escapes level [] := by simp [Escapes]

theorem escapes_cons_iff : Escapes level (s :: way) ↔ ∃ front, front <+: way ∧
    level + (s :: front).countP (· ≠ climb) < (s :: front).count climb := by
  constructor
  · rintro ⟨front, before, high⟩
    rcases List.prefix_cons_iff.mp before with rfl | ⟨rest, rfl, inside⟩
    · simp at high
    · exact ⟨rest, inside, high⟩
  · rintro ⟨front, inside, high⟩
    exact ⟨s :: front, List.cons_prefix_cons.mpr ⟨rfl, inside⟩, high⟩

@[simp] theorem escapes_climb_zero (way : List Segment) : Escapes 0 (climb :: way) :=
  ⟨[climb], by simp, by decide⟩

@[simp] theorem escapes_climb_succ : Escapes (level + 1) (climb :: way) ↔ Escapes level way := by
  rw [escapes_cons_iff, Escapes]
  apply exists_congr
  intro front
  apply and_congr_right
  intro inside
  rw [List.countP_cons_of_neg (by simp), List.count_cons_self]
  omega

theorem escapes_name (name : s ≠ climb) : Escapes level (s :: way) ↔ Escapes (level + 1) way := by
  rw [escapes_cons_iff, Escapes]
  apply exists_congr
  intro front
  apply and_congr_right
  intro inside
  rw [List.countP_cons_of_pos (by simpa using name), List.count_cons_of_ne name]
  omega

theorem Escapes.mono (high : Escapes level way) (below : lower ≤ level) : Escapes lower way := by
  obtain ⟨front, before, climbs⟩ := high
  exact ⟨front, before, by omega⟩

theorem escapes_replicate (count : Nat) :
    Escapes level (List.replicate count climb) ↔ level < count := by
  induction count generalizing level with
  | zero => simp [not_escapes_nil]
  | succ count ih =>
    rw [List.replicate_succ]
    cases level with
    | zero => simp
    | succ level =>
      rw [escapes_climb_succ, ih]
      omega

/-! ### What a walk can leave -/

def height (place : List Segment) : Nat := (place.takeWhile (· ≠ climb)).length

@[simp] theorem height_nil : height [] = 0 := rfl

@[simp] theorem height_climb (below : List Segment) : height (climb :: below) = 0 := by
  simp [height]

theorem height_name (name : s ≠ climb) (below : List Segment) :
    height (s :: below) = height below + 1 := by
  simp [height, name]

theorem height_names (free : climb ∉ names) (below : List Segment) :
    height (names ++ below) = names.length + height below := by
  induction names with
  | nil => simp
  | cons s rest ih =>
    rw [List.mem_cons, not_or] at free
    rw [List.cons_append, height_name (Ne.symm free.1), ih free.2, List.length_cons]
    omega

theorem walk_eq_none_iff : walk place way = none ↔ Escapes (height place) way := by
  induction way generalizing place with
  | nil => simp [walk, not_escapes_nil]
  | cons s rest ih =>
    by_cases up : s = climb
    · subst up
      cases place with
      | nil => simp [walk]
      | cons top below =>
        by_cases stuck : top = climb
        · simp [walk, stuck]
        · simp [walk, stuck, height_name stuck, ih]
    · rw [escapes_name up, ← height_name up, ← ih]
      simp [walk, up]

/-- How many names of a base a join can leave. -/
def reach (base : List Char) : Nat := height (steps base).reverse

theorem reach_eq_of_stem {base : List Char} (split : steps base = stem (steps base) ++ names)
    (free : climb ∉ names) : reach base = names.length := by
  have top : height (stem (steps base)).reverse = 0 := by
    rw [stem, List.reverse_reverse]
    cases ends : (steps base).reverse.dropWhile (· ≠ climb) with
    | nil => rfl
    | cons s below =>
      have stops := List.head?_dropWhile_not (· ≠ climb) (steps base).reverse
      rw [ends] at stops
      obtain rfl : s = climb := by simpa using stops
      exact height_climb below
  rw [reach, split, List.reverse_append, height_names (by simpa using free), top,
    List.length_reverse, Nat.add_zero]

theorem reach_eq_of_front {base : List Char} {count : Nat}
    (split : steps base = List.replicate count climb ++ names) (free : climb ∉ names) :
    reach base = names.length := by
  apply reach_eq_of_stem _ free
  rw [split, stem_append_names _ free, stem_replicate]

/-! ### Refused joins -/

variable {base name path : String}

/-- A join is refused exactly if its name climbs out of more than its base lets it leave. -/
theorem join_eq_error_iff :
    join base name = .error (.escapes name base) ↔
      Escapes (reach base.toList) (steps name.toList) := by
  rw [reach, ← walk_eq_none_iff]
  cases walked : walk (steps base.toList).reverse (steps name.toList) <;>
    simp [join, joinChars, walked]

theorem join_cases (base name : String) :
    (∃ path, join base name = .ok path) ∨ join base name = .error (.escapes name base) := by
  unfold join
  split
  · exact .inl ⟨_, rfl⟩
  · exact .inr rfl

/-- A joined path is printed from where the walk ends. -/
theorem join_ok (ok : join base name = .ok path) :
    ∃ last, walk (steps base.toList).reverse (steps name.toList) = some last ∧
      path.toList = render (isAbsolute base.toList) last.reverse := by
  cases walked : walk (steps base.toList).reverse (steps name.toList) with
  | none => simp [join, joinChars, walked] at ok
  | some last =>
    obtain rfl : String.ofList (render (isAbsolute base.toList) last.reverse) = path := by
      simpa [join, joinChars, walked] using ok
    exact ⟨last, rfl, String.toList_ofList⟩

end ShaderBundle.Path
