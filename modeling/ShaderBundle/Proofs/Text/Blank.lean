import ShaderBundle.Text.Blank
import Mathlib.Data.List.Basic
import Mathlib.Data.List.TakeWhile

/-! Trimming. A text is its trimmed part between blanks, and that part neither begins nor ends with one;
of all parts it is the only one like that. -/
namespace ShaderBundle.Text

variable {c : Char} {front core back : List Char}

theorem isBlank_of_graphic (low : 33 ≤ c.toNat) (high : c.toNat ≤ 126) : isBlank c = false := by
  simp [isBlank]
  omega

theorem trimStart_subset (cs : List Char) : trimStart cs ⊆ cs := List.dropWhile_subset _

theorem trim_subset (cs : List Char) : trim cs ⊆ cs := by
  intro c member
  have inside := trimStart_subset _ (List.mem_reverse.mp member)
  exact trimStart_subset cs (List.mem_reverse.mp inside)

theorem trimStart_cons (cs : List Char) (solid : isBlank c = false) :
    trimStart (c :: cs) = c :: cs := by
  simp [trimStart, solid]

theorem trimStart_concat (cs : List Char) (solid : isBlank c = false) :
    trimStart (cs ++ [c]) = trimStart cs ++ [c] := by
  unfold trimStart
  rw [List.dropWhile_append]
  split
  · rename_i blank
    simp [List.isEmpty_iff.mp blank, solid]
  · rfl

def AllBlank (cs : List Char) : Prop := ∀ c ∈ cs, isBlank c = true

structure Solid (cs : List Char) : Prop where
  first : ∀ c ∈ cs.head?, isBlank c = false
  last : ∀ c ∈ cs.getLast?, isBlank c = false

theorem AllBlank.append (left : AllBlank front) (right : AllBlank back) : AllBlank (front ++ back) :=
  fun c member => (List.mem_append.mp member).elim (left c) (right c)

theorem AllBlank.reverse (blank : AllBlank front) : AllBlank front.reverse :=
  fun c member => blank c (List.mem_reverse.mp member)

theorem trimStart_blanks (blank : AllBlank front) (cs : List Char) :
    trimStart (front ++ cs) = trimStart cs :=
  List.dropWhile_append_of_pos blank

theorem trimStart_eq_self {cs : List Char} (solid : ∀ c ∈ cs.head?, isBlank c = false) :
    trimStart cs = cs := by
  cases cs with
  | nil => rfl
  | cons c rest => exact trimStart_cons rest (solid c rfl)

theorem Solid.reverse (solid : Solid core) : Solid core.reverse where
  first := by simpa using solid.last
  last := by simpa using solid.first

/-- What stands between blanks and is solid is the trimmed part. -/
theorem trim_padded (before : AllBlank front) (behind : AllBlank back) (solid : Solid core) :
    trim (front ++ (core ++ back)) = core := by
  unfold trim
  rw [trimStart_blanks before]
  by_cases none : core = []
  · subst none
    have all : trimStart back = [] := by
      rw [← List.append_nil back, trimStart_blanks behind]
      rfl
    rw [List.nil_append, all]
    rfl
  · have first : ∀ c ∈ (core ++ back).head?, isBlank c = false := by
      rw [List.head?_append_of_ne_nil _ none]
      exact solid.first
    rw [trimStart_eq_self first, List.reverse_append, trimStart_blanks behind.reverse,
      trimStart_eq_self solid.reverse.first, List.reverse_reverse]

theorem trim_eq_self (solid : Solid core) : trim core = core := by
  have nothing : AllBlank [] := by simp [AllBlank]
  have padded := trim_padded nothing nothing solid
  simpa using padded

theorem head?_trimStart (cs : List Char) : ∀ c ∈ (trimStart cs).head?, isBlank c = false := by
  intro c first
  have stops := List.head?_dropWhile_not isBlank cs
  rw [show (cs.dropWhile isBlank).head? = some c from first] at stops
  exact stops

/-- Behind the trimmed part only blanks are left. -/
theorem exists_trimStart_eq (cs : List Char) : ∃ back, AllBlank back ∧ trimStart cs = trim cs ++ back := by
  refine ⟨((trimStart cs).reverse.takeWhile isBlank).reverse, ?_, ?_⟩
  · exact AllBlank.reverse fun c member => List.mem_takeWhile_imp member
  · have split := List.takeWhile_append_dropWhile (p := isBlank) (l := (trimStart cs).reverse)
    have reversed := congrArg List.reverse split
    rw [List.reverse_append, List.reverse_reverse] at reversed
    exact reversed.symm

theorem solid_trim (cs : List Char) : Solid (trim cs) where
  last := by
    unfold trim
    rw [List.getLast?_reverse]
    exact head?_trimStart _
  first := by
    intro c first
    obtain ⟨back, -, split⟩ := exists_trimStart_eq cs
    have some : trim cs ≠ [] := by
      rintro none
      simp [none] at first
    refine head?_trimStart cs c ?_
    rwa [split, List.head?_append_of_ne_nil _ some]

/-- A text is its trimmed part between blanks. -/
theorem exists_padding (cs : List Char) :
    ∃ front back, AllBlank front ∧ AllBlank back ∧ cs = front ++ (trim cs ++ back) := by
  obtain ⟨back, blank, split⟩ := exists_trimStart_eq cs
  refine ⟨cs.takeWhile isBlank, back, fun c member => List.mem_takeWhile_imp member, blank, ?_⟩
  rw [← split]
  exact List.takeWhile_append_dropWhile.symm

/-- Of a text behind a solid one blanks can be left at most, and its own trimmed part. -/
theorem exists_trim_append {head : List Char} (before : AllBlank front) (behind : AllBlank back)
    (solid : Solid head) (some : head ≠ []) (message : List Char) :
    ∃ gap, AllBlank gap ∧ trim (front ++ (head ++ message ++ back)) = head ++ (gap ++ trim message) := by
  obtain ⟨left, right, blank, blank', split⟩ := exists_padding message
  by_cases none : trim message = []
  · rw [none, List.nil_append] at split
    refine ⟨[], by simp [AllBlank], ?_⟩
    rw [none, split, List.append_nil, List.append_nil, List.append_assoc]
    exact trim_padded before ((blank.append blank').append behind) solid
  · refine ⟨left, blank, ?_⟩
    have whole : Solid (head ++ (left ++ trim message)) := by
      constructor
      · rw [List.head?_append_of_ne_nil _ some]
        exact solid.first
      · rw [← List.append_assoc, List.getLast?_append_of_ne_nil _ none]
        exact (solid_trim message).last
    have parts : head ++ message ++ back = head ++ (left ++ trim message) ++ (right ++ back) := by
      conv_lhs => rw [split]
      simp
    rw [parts]
    exact trim_padded before (blank'.append behind) whole

end ShaderBundle.Text
