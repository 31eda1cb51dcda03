import ShaderBundle.Proofs.Module.Reading
import ShaderBundle.Proofs.Text.Blank

/-! What a second reading makes of the lines that a module keeps. Comments stay comments, so that nothing
is left of an include or a hoisted line but the record that the first reading took of it. -/
namespace ShaderBundle

namespace Text

/-- The slashes of a comment are no blanks, so that trimming leaves them where they are. -/
theorem trim_slashes (cs : List Char) :
    trim ('/' :: '/' :: cs) = '/' :: '/' :: (trimStart cs.reverse).reverse := by
  have solid : isBlank '/' = false := by decide
  unfold trim
  rw [trimStart_cons _ solid, List.reverse_cons, List.reverse_cons, trimStart_concat _ solid,
    trimStart_concat _ solid]
  simp

end Text

theorem LineRole.inert_of_slashes {line : String} (slashes : ['/', '/'] <+: line.toList) :
    LineRole.of line = .inert := by
  obtain ⟨rest, begins⟩ := slashes
  unfold LineRole.of LineRole.ofTrimmed
  rw [← begins, List.cons_append, List.cons_append, Text.trim_slashes]
  rfl

theorem LineRole.inert_of_empty : LineRole.of "" = .inert := by decide

namespace Module

theorem inert_comment (line : String) : LineRole.of (comment line) = .inert := by
  have begins : ['/', '/'] <+: "// ".toList := by decide
  apply LineRole.inert_of_slashes
  rw [comment, String.toList_append]
  exact begins.trans (List.prefix_append _ _)

theorem inert_marker (m : Module) : LineRole.of m.marker = .inert := by
  have begins : ['/', '/'] <+: "// MODULE BEGIN: ".toList := by decide
  apply LineRole.inert_of_slashes
  change _ <+: ("// MODULE BEGIN: " ++ m.id).toList
  rw [String.toList_append]
  exact begins.trans (List.prefix_append _ _)

/-- What the first reading gave a role to is a comment by now. -/
theorem inert_kept {line : String} (named : LineRole.of line ≠ .emptyInclusion) :
    LineRole.of (kept line) = .inert := by
  unfold kept
  cases role : LineRole.of line with
  | inert => exact role
  | inclusion kind target => exact inert_comment line
  | emptyInclusion => exact absurd role named
  | hoisted => exact inert_comment line

section Read

variable {id source : String} {m : Module}

theorem inert_of_mem_lines (read : ofSource id source = .ok m) {line : String}
    (member : line ∈ m.lines) : LineRole.of line = .inert := by
  obtain ⟨named, rfl⟩ := ofSource_eq_ok_iff.mp read
  obtain ⟨raw, inSource, rfl⟩ := List.mem_map.mp member
  exact inert_kept (named raw inSource)

theorem role_of_mem_hoisted (read : ofSource id source = .ok m) {h : HoistedLine}
    (member : h ∈ m.hoisted) : LineRole.of h.text = .hoisted := by
  obtain ⟨-, rfl⟩ := ofSource_eq_ok_iff.mp read
  exact (mem_hoisted_ofLines.mp member).2

end Read

section Parts

variable {id : String} {lines front back : List String}

def hoistedFrom (start : Nat) (lines : List String) : List HoistedLine :=
  (lines.zipIdx start).filterMap fun (line, index) => hoisted? line index

theorem hoistedFrom_cons (start : Nat) (line : String) (rest : List String) :
    hoistedFrom start (line :: rest) =
      (hoisted? line start).toList ++ hoistedFrom (start + 1) rest := by
  cases record : hoisted? line start <;> simp [hoistedFrom, record]

theorem hoistedFrom_append (start : Nat) (front back : List String) :
    hoistedFrom start (front ++ back) =
      hoistedFrom start front ++ hoistedFrom (start + front.length) back := by
  simp [hoistedFrom, List.zipIdx_append]

theorem hoistedFrom_of_hoisted (all : ∀ line ∈ lines, LineRole.of line = .hoisted) (start : Nat) :
    hoistedFrom start lines = lines.mapIdx fun index text => ⟨text, start + index⟩ := by
  induction lines generalizing start with
  | nil => rfl
  | cons line rest ih =>
    obtain ⟨head, tail⟩ := List.forall_mem_cons.mp all
    have record : hoisted? line start = some ⟨line, start⟩ := by rw [hoisted?, if_pos head]
    rw [hoistedFrom_cons, record, ih tail, List.mapIdx_cons]
    simp [Nat.add_assoc, Nat.add_comm 1]

theorem hoistedFrom_of_inert (inert : ∀ line ∈ lines, LineRole.of line = .inert) (start : Nat) :
    hoistedFrom start lines = [] := by
  induction lines generalizing start with
  | nil => rfl
  | cons line rest ih =>
    obtain ⟨head, tail⟩ := List.forall_mem_cons.mp inert
    have record : hoisted? line start = none := by rw [hoisted?, if_neg (by simp [head])]
    rw [hoistedFrom_cons, record, ih tail]
    rfl

/-- Lines to hoist in front of inert ones are what a module of them hoists. -/
theorem hoisted_ofLines_append (first : ∀ line ∈ front, LineRole.of line = .hoisted)
    (inert : ∀ line ∈ back, LineRole.of line = .inert) :
    (ofLines id (front ++ back)).hoisted = front.mapIdx fun index text => ⟨text, index⟩ := by
  change hoistedFrom 0 (front ++ back) = _
  rw [hoistedFrom_append, hoistedFrom_of_hoisted first, hoistedFrom_of_inert inert, List.append_nil]
  simp only [Nat.zero_add]

theorem dependencies_ofLines_eq_nil
    (none : ∀ line ∈ lines, LineRole.of line = .hoisted ∨ LineRole.of line = .inert) :
    (ofLines id lines).dependencies = [] := by
  refine List.eq_nil_iff_forall_not_mem.mpr fun dep member => ?_
  obtain ⟨line, atIndex, role, -⟩ := mem_dependencies_ofLines.mp member
  rcases none line (List.mem_of_getElem? atIndex) with other | other
  all_goals simp [role] at other

end Parts

end Module

end ShaderBundle
