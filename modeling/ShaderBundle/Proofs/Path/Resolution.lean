import ShaderBundle.Proofs.Path.Join

/-! What a path denotes by its text alone. A walk that ends has taken back only what the resolution of
its way takes back as well, so that it keeps what the way denotes. -/
namespace ShaderBundle.Path

variable {kind : Bool} {s : Segment} {place way names : List Segment} {count : Nat}

/-- The segments that are left when every climb has taken back the name before it. A climb at the root
counts for nothing, and the climbs that leave a relative start come first. -/
def resolve (absolute : Bool) (way : List Segment) : List Segment := (settle absolute [] way).reverse

/-- What a path denotes, whatever there is on a disk. -/
def meaning (path : List Char) : Bool × List Segment :=
  (isAbsolute path, resolve (isAbsolute path) (steps path))

theorem meaning_eq_iff {left right : List Char} : meaning left = meaning right ↔
    isAbsolute left = isAbsolute right ∧
    resolve (isAbsolute left) (steps left) = resolve (isAbsolute right) (steps right) := by
  rw [meaning, meaning, Prod.mk.injEq]

/-! ### Settling part by part -/

theorem settle_name (name : s ≠ climb) :
    settle kind place (s :: way) = settle kind (s :: place) way := by
  simp [settle, name]

theorem settle_leave (name : s ≠ climb) :
    settle kind (s :: place) (climb :: way) = settle kind place way := by
  simp [settle, name]

theorem settle_append (kind : Bool) (place front back : List Segment) :
    settle kind place (front ++ back) = settle kind (settle kind place front) back := by
  induction front generalizing place with
  | nil => rfl
  | cons s rest ih =>
    rw [List.cons_append]
    by_cases up : s = climb
    · subst up
      cases place with
      | nil => cases kind <;> simp [settle, ih]
      | cons top below =>
        by_cases stuck : top = climb
        · simp [settle, stuck, ih]
        · rw [settle_leave stuck, settle_leave stuck, ih]
    · rw [settle_name up, settle_name up, ih]

theorem settle_names (free : climb ∉ names) (place : List Segment) :
    settle kind place names = names.reverse ++ place := by
  induction names generalizing place with
  | nil => rfl
  | cons s rest ih =>
    rw [List.mem_cons, not_or] at free
    rw [settle_name (Ne.symm free.1), ih free.2, List.reverse_cons, List.append_assoc,
      List.singleton_append]

theorem resolve_append_names (free : climb ∉ names) (front : List Segment) :
    resolve kind (front ++ names) = resolve kind front ++ names := by
  simp [resolve, settle_append, settle_names free]

theorem resolve_append (front back : List Segment) :
    resolve kind (front ++ back) = (settle kind (resolve kind front).reverse back).reverse := by
  simp [resolve, settle_append]

theorem resolve_congr {front front' : List Segment} (same : resolve kind front = resolve kind front')
    (back : List Segment) : resolve kind (front ++ back) = resolve kind (front' ++ back) := by
  rw [resolve_append, resolve_append, same]

theorem resolve_climbs (kind : Bool) (count : Nat) :
    resolve kind (List.replicate count climb) = List.replicate (if kind then 0 else count) climb := by
  cases kind with
  | true =>
    induction count with
    | zero => rfl
    | succ count ih => exact ih
  | false =>
    have kept := settle_climbs 0 count []
    rw [List.append_nil, Nat.zero_add] at kept
    rw [resolve, show settle false [] (List.replicate count climb) = _ from kept, settle,
      List.reverse_replicate]
    rfl

/-- What climbs in front only is resolved as it stands. -/
theorem resolve_front (free : climb ∉ names) (rooted : kind = true → count = 0) :
    resolve kind (List.replicate count climb ++ names) = List.replicate count climb ++ names := by
  rw [resolve_append_names free, resolve_climbs]
  cases kind with
  | true => rw [rooted rfl]; rfl
  | false => rfl

theorem resolve_walk (kind : Bool) {last : List Segment} (ok : walk place way = some last) :
    resolve kind last.reverse = resolve kind (place.reverse ++ way) := by
  induction way generalizing place with
  | nil =>
    obtain rfl := Option.some.inj ok
    rw [List.append_nil]
  | cons s rest ih =>
    by_cases up : s = climb
    · subst up
      cases place with
      | nil => simp [walk] at ok
      | cons top below =>
        by_cases stuck : top = climb
        · simp [walk, stuck] at ok
        · have left : walk below rest = some last := by simpa [walk, stuck] using ok
          rw [ih left]
          simp only [resolve, List.reverse_cons, List.append_assoc, List.singleton_append,
            settle_append, settle_name stuck, settle_leave stuck]
    · have entered : walk (s :: place) rest = some last := by simpa [walk, up] using ok
      rw [ih entered, List.reverse_cons, List.append_assoc, List.singleton_append]

/-- A resolved relative path climbs in front only. -/
theorem exists_resolve_eq (way : List Segment) :
    ∃ count names, resolve false way = List.replicate count climb ++ names ∧ climb ∉ names :=
  Tidy.settle ⟨0, [], rfl, by simp⟩

theorem resolve_resolve (way : List Segment) :
    resolve false (resolve false way) = resolve false way := by
  obtain ⟨count, names, split, free⟩ := exists_resolve_eq way
  rw [split]
  exact resolve_front free (by simp)

/-! ### Joined paths -/

section Joins

variable {base name path : String} (ok : join base name = .ok path)

include ok

/-- A joined path holds its segments and nothing else. -/
theorem join_text : path.toList = render (isAbsolute base.toList) (steps path.toList) := by
  obtain ⟨last, walked, text⟩ := join_ok ok
  rw [text, steps_render (isStep_walk walked)]

/-- A joined path denotes what its parts denote in a row. -/
theorem meaning_join : meaning path.toList =
    (isAbsolute base.toList,
      resolve (isAbsolute base.toList) (steps base.toList ++ steps name.toList)) := by
  obtain ⟨last, walked, text⟩ := join_ok ok
  have all := isStep_walk walked
  rw [meaning, text, isAbsolute_render all, steps_render all, resolve_walk _ walked,
    List.reverse_reverse]

end Joins

/-! ### What there is to climb out of -/

def depth (path : List Char) : Nat := (meaning path).2.countP (· ≠ climb)

theorem countP_names (free : climb ∉ names) : names.countP (· ≠ climb) = names.length := by
  rw [List.countP_eq_length]
  intro s member
  rw [decide_eq_true_eq]
  rintro rfl
  exact free member

/-- A join never leaves more than there is. -/
theorem reach_le_depth (base : List Char) : reach base ≤ depth base := by
  obtain ⟨names, split, free⟩ := stem_append (steps base)
  rw [reach_eq_of_stem split free, depth, meaning, split, resolve_append_names free,
    List.countP_append, countP_names free]
  exact Nat.le_add_left _ _

def ClimbsInFront (path : List Char) : Prop :=
  ∃ count names, steps path = List.replicate count climb ++ names ∧ climb ∉ names

theorem ClimbsInFront.reach_eq_depth {base : List Char} (front : ClimbsInFront base) :
    reach base = depth base := by
  obtain ⟨count, names, split, free⟩ := front
  have none : (List.replicate (if isAbsolute base then 0 else count) climb).countP (· ≠ climb) = 0 := by
    simp [List.countP_replicate]
  rw [reach_eq_of_front split free, depth, meaning, split, resolve_append_names free,
    resolve_climbs, List.countP_append, countP_names free, none, Nat.zero_add]

end ShaderBundle.Path
