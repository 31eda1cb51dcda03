import ShaderBundle.Proofs.Module.Directives
import ShaderBundle.Proofs.Module.Lines
import ShaderBundle.Proofs.Module.Roles

/-! A module as an account of the lines that it was read from: what it has on record of each line, how the
lines are told from it again, and that reading its own lines changes nothing. -/
namespace ShaderBundle.Module

variable {id source : String} {lines : List String} {m : Module} {index : Nat} {line : String}

/-! ### Refused texts -/

structure FirstLacking (lines : List String) (index : Nat) : Prop where
  lacks : ∃ line, lines[index]? = some line ∧ LineRole.LacksPath line
  least : ∀ earlier line, earlier < index → lines[earlier]? = some line → ¬ LineRole.LacksPath line

theorem FirstLacking.unique {other : Nat} (first : FirstLacking lines index)
    (first' : FirstLacking lines other) : index = other := by
  obtain ⟨line, atIndex, lacks⟩ := first.lacks
  obtain ⟨line', atOther, lacks'⟩ := first'.lacks
  rcases Nat.lt_trichotomy index other with before | same | behind
  · exact absurd lacks (first'.least index line before atIndex)
  · exact same
  · exact absurd lacks' (first.least other line' behind atOther)

theorem firstLacking_of_error {fault : MalformedInclude} (refused : ofSource id source = .error fault) :
    fault.moduleId = id ∧ FirstLacking (Text.splitLines source) fault.line := by
  obtain ⟨named, ⟨line, atIndex, empty⟩, least⟩ := ofSource_error refused
  simp only [ne_eq, LineRole.of_eq_emptyInclusion_iff] at empty least
  exact ⟨named, ⟨line, atIndex, empty⟩, least⟩

theorem exists_ofSource_eq_ok_iff :
    (∃ m, ofSource id source = .ok m) ↔
      ∀ line ∈ Text.splitLines source, ¬ LineRole.LacksPath line := by
  simp only [ofSource_eq_ok_iff, ne_eq, LineRole.of_eq_emptyInclusion_iff, exists_and_left, exists_eq,
    and_true]

theorem ofSource_eq_error_iff {fault : MalformedInclude} : ofSource id source = .error fault ↔
    fault.moduleId = id ∧ FirstLacking (Text.splitLines source) fault.line := by
  refine ⟨firstLacking_of_error, ?_⟩
  rintro ⟨named, first⟩
  cases read : ofSource id source with
  | ok m =>
    obtain ⟨line, atIndex, lacks⟩ := first.lacks
    exact absurd lacks (exists_ofSource_eq_ok_iff.mp ⟨m, read⟩ line (List.mem_of_getElem? atIndex))
  | error other =>
    obtain ⟨named', first'⟩ := firstLacking_of_error read
    obtain ⟨moduleId, line⟩ := fault
    obtain ⟨moduleId', line'⟩ := other
    dsimp only at named named' first first'
    rw [named, named', first.unique first']

/-! ### Records by line -/

def includesAt (m : Module) (index : Nat) : List Dependency := m.dependencies.filter (·.line = index)

def hoistsAt (m : Module) (index : Nat) : List HoistedLine := m.hoisted.filter (·.line = index)

/-- How a module keeps a line: as the include of one dependency or as one hoisted line, commented out
either way, or as it is and without a record. -/
inductive Keeps (m : Module) (index : Nat) (line : String) : LineRole → Prop
  | inclusion {kind : IncludeKind} {target : String} (kept : m.lines[index]? = some (comment line))
    (included : m.includesAt index = [⟨target, index, kind, none⟩]) (unhoisted : m.hoistsAt index = []) :
    Keeps m index line (.inclusion kind target)
  | hoisted (kept : m.lines[index]? = some (comment line)) (unincluded : m.includesAt index = [])
    (hoisted : m.hoistsAt index = [⟨line, index⟩]) : Keeps m index line .hoisted
  | inert (kept : m.lines[index]? = some line) (unincluded : m.includesAt index = [])
    (unhoisted : m.hoistsAt index = []) : Keeps m index line .inert

section Filter

variable {α : Type} {record : String → Nat → Option α} {place : α → Nat}
  (named : ∀ text index a, record text index = some a → place a = index)

include named

theorem filter_records_of_lt (lines : List String) {start index : Nat} (before : index < start) :
    ((lines.zipIdx start).filterMap fun (text, index) => record text index).filter
      (place · = index) = [] := by
  refine List.filter_eq_nil_iff.mpr fun a member => ?_
  obtain ⟨⟨text, position⟩, inside, recorded⟩ := List.mem_filterMap.mp member
  have behind : start ≤ position := (List.mem_zipIdx inside).1
  rw [decide_eq_true_eq, named text position a recorded]
  omega

/-- Of all records the only one of a line is the one that its own text gives. -/
theorem filter_records (lines : List String) (start index : Nat) :
    ((lines.zipIdx start).filterMap fun (text, index) => record text index).filter
      (place · = start + index) = (lines[index]?.bind (record · (start + index))).toList := by
  induction lines generalizing start index with
  | nil => rfl
  | cons text rest ih =>
    have later := filter_records_of_lt named rest (Nat.lt_succ_self start)
    cases index with
    | zero =>
      cases recorded : record text start with
      | none => simp [recorded, later]
      | some a => simp [recorded, later, named text start a recorded]
    | succ index =>
      have behind := ih (start + 1) index
      rw [Nat.add_right_comm, Nat.add_assoc] at behind
      cases recorded : record text start with
      | none => simp [recorded, behind]
      | some a => simp [recorded, behind, named text start a recorded]

end Filter

/-- What is on record of a line tells its role. -/
theorem Keeps.unique {role role' : LineRole} (keeps : m.Keeps index line role)
    (keeps' : m.Keeps index line role') : role = role' := by
  cases keeps with
  | inclusion _ included unhoisted =>
    cases keeps' with
    | inclusion _ included' _ =>
      have same := included.symm.trans included'
      rw [List.cons.injEq, Dependency.mk.injEq] at same
      rw [same.1.1, same.1.2.2.1]
    | hoisted _ unincluded _ => simp [included] at unincluded
    | inert _ unincluded _ => simp [included] at unincluded
  | hoisted _ unincluded hoisted =>
    cases keeps' with
    | inclusion _ included _ => simp [unincluded] at included
    | hoisted => rfl
    | inert _ _ unhoisted => simp [hoisted] at unhoisted
  | inert _ unincluded unhoisted =>
    cases keeps' with
    | inclusion _ included _ => simp [unincluded] at included
    | hoisted _ _ hoisted => simp [unhoisted] at hoisted
    | inert => rfl

section Lines

variable (id) (atIndex : lines[index]? = some line)

include atIndex

theorem includesAt_ofLines :
    (ofLines id lines).includesAt index = (dependency? line index).toList := by
  have records : (ofLines id lines).includesAt (0 + index) = _ :=
    filter_records line_of_dependency? lines 0 index
  rwa [Nat.zero_add, atIndex] at records

theorem hoistsAt_ofLines : (ofLines id lines).hoistsAt index = (hoisted? line index).toList := by
  have records : (ofLines id lines).hoistsAt (0 + index) = _ :=
    filter_records line_of_hoisted? lines 0 index
  rwa [Nat.zero_add, atIndex] at records

theorem getElem?_lines_ofLines : (ofLines id lines).lines[index]? = some (kept line) := by
  simp [ofLines, atIndex]

theorem keeps_role (named : LineRole.of line ≠ .emptyInclusion) :
    (ofLines id lines).Keeps index line (LineRole.of line) := by
  have included := includesAt_ofLines id atIndex
  have hoists := hoistsAt_ofLines id atIndex
  have text := getElem?_lines_ofLines id atIndex
  cases role : LineRole.of line with
  | inert =>
    simp only [dependency?, hoisted?, kept, role] at included hoists text
    exact .inert text included hoists
  | inclusion kind target =>
    simp only [dependency?, hoisted?, kept, role] at included hoists text
    exact .inclusion text included hoists
  | emptyInclusion => exact absurd role named
  | hoisted =>
    simp only [dependency?, hoisted?, kept, role] at included hoists text
    exact .hoisted text included hoists

end Lines

/-! ### The lines told from their module -/

def uncommented (line : String) : String := String.ofList (line.toList.drop 3)

theorem uncommented_comment (line : String) : uncommented (comment line) = line := by
  simp [uncommented, comment]

/-- The lines that a module was read from: what is on record of a line tells whether it was commented out. -/
def originals (m : Module) : List String :=
  m.lines.mapIdx fun index line =>
    if m.includesAt index = [] ∧ m.hoistsAt index = [] then line else uncommented line

theorem getElem?_originals {role : LineRole} (keeps : m.Keeps index line role) :
    m.originals[index]? = some line := by
  cases keeps with
  | inclusion kept included unhoisted => simp [originals, kept, included, uncommented_comment]
  | hoisted kept unincluded hoisted => simp [originals, kept, hoisted, uncommented_comment]
  | inert kept unincluded unhoisted => simp [originals, kept, unincluded, unhoisted]

theorem originals_ofLines (named : ∀ line ∈ lines, LineRole.of line ≠ .emptyInclusion) :
    (ofLines id lines).originals = lines := by
  apply List.ext_getElem?
  intro index
  cases atIndex : lines[index]? with
  | none =>
    rw [List.getElem?_eq_none_iff] at atIndex ⊢
    simpa [originals, ofLines] using atIndex
  | some line =>
    exact getElem?_originals (keeps_role id atIndex (named line (List.mem_of_getElem? atIndex)))

/-! ### A second reading -/

theorem kept_of_inert (role : LineRole.of line = .inert) : kept line = line := by
  simp [kept, role]

theorem ofLines_of_inert (inert : ∀ line ∈ lines, LineRole.of line = .inert) :
    ofLines id lines = ⟨id, lines, [], []⟩ := by
  have same : lines.map kept = lines := by
    conv_rhs => rw [← List.map_id lines]
    exact List.map_congr_left fun line member => kept_of_inert (inert line member)
  have unincluded : (ofLines id lines).dependencies = [] :=
    dependencies_ofLines_eq_nil fun line member => .inr (inert line member)
  have unhoisted : (ofLines id lines).hoisted = [] := hoistedFrom_of_inert inert 0
  change Module.mk id (lines.map kept) (ofLines id lines).dependencies (ofLines id lines).hoisted = _
  rw [same, unincluded, unhoisted]

/-- The lines of a module ask for nothing any more, so that a second reading leaves them as they are. -/
theorem reread (read : ofSource id source = .ok m) (other : String) :
    ofSource other (Text.endLines m.lines) = .ok ⟨other, m.lines, [], []⟩ := by
  have inert : ∀ line ∈ m.lines, LineRole.of line = .inert := fun _ => inert_of_mem_lines read
  have free : ∀ line ∈ m.lines, Text.OneLine line := by
    obtain ⟨-, rfl⟩ := ofSource_eq_ok_iff.mp read
    intro line member
    obtain ⟨raw, inSource, rfl⟩ := List.mem_map.mp member
    exact oneLine_kept (Text.oneLine_of_mem_splitLines inSource)
  rw [ofSource_eq_ok_iff, Text.splitLines_endLines free, ofLines_of_inert inert]
  refine ⟨?_, rfl⟩
  intro line member
  simp [inert line member]

/-! ### The account -/

structure Accounts (m : Module) (lines : List String) : Prop where
  length : m.lines.length = lines.length
  /-- Each line is kept in one role, and it is its text that tells in which. -/
  keeps : ∀ index line, lines[index]? = some line →
    ∀ role, m.Keeps index line role ↔ role = LineRole.of line
  /-- Nothing else is on record. -/
  inside : (∀ dep ∈ m.dependencies, dep.line < lines.length) ∧
    ∀ h ∈ m.hoisted, h.line < lines.length
  increasing : m.dependencies.Pairwise (·.line < ·.line) ∧ m.hoisted.Pairwise (·.line < ·.line)
  originals : m.originals = lines
  reread : ∀ id, ofSource id (Text.endLines m.lines) = .ok ⟨id, m.lines, [], []⟩

theorem accounts_of_read (read : ofSource id source = .ok m) :
    m.Accounts (Text.splitLines source) := by
  have again := Module.reread read
  obtain ⟨named, rfl⟩ := ofSource_eq_ok_iff.mp read
  refine ⟨List.length_map .., ?_, ⟨?_, ?_⟩, ⟨?_, hoisted_ofLines_increasing _ _⟩,
    originals_ofLines named, again⟩
  · intro index line atIndex role
    have keeps := keeps_role id atIndex (named line (List.mem_of_getElem? atIndex))
    constructor
    · intro other
      exact other.unique keeps
    · rintro rfl
      exact keeps
  · intro dep member
    obtain ⟨line, atIndex, -⟩ := mem_dependencies_ofLines.mp member
    exact (List.getElem?_eq_some_iff.mp atIndex).1
  · intro h member
    obtain ⟨atIndex, -⟩ := mem_hoisted_ofLines.mp member
    exact (List.getElem?_eq_some_iff.mp atIndex).1
  · exact pairwise_filterMap_zipIdx line_of_dependency?

/-- A text is refused exactly for the first of its lines that is an include without a path. Any other
text is read into an account of its lines. -/
theorem reading_accounts (id source : String) :
    (∀ fault, ofSource id source = .error fault ↔
      fault.moduleId = id ∧ FirstLacking (Text.splitLines source) fault.line) ∧
    ((∃ m, ofSource id source = .ok m) ↔
      ∀ line ∈ Text.splitLines source, ¬ LineRole.LacksPath line) ∧
    ∀ m, ofSource id source = .ok m → m.id = id ∧ m.Accounts (Text.splitLines source) :=
  ⟨fun _ => ofSource_eq_error_iff, exists_ofSource_eq_ok_iff,
    fun _ read => ⟨ofSource_id read, accounts_of_read read⟩⟩

theorem reading_accounts_of_mixed :
    FirstLacking (Text.splitLines "x\n // #include <>\n\t#include \"\"\n#include <>") 2 ∧
    ∃ m, ofSource "m" "#version 330\n #include <lib/a>\n// precision\n" = .ok m ∧
      m.Accounts ["#version 330", " #include <lib/a>", "// precision"] := by
  have refused : ofSource "m" "x\n // #include <>\n\t#include \"\"\n#include <>" = .error ⟨"m", 2⟩ := by
    decide
  have read : ofSource "m" "#version 330\n #include <lib/a>\n// precision\n" =
      .ok ⟨"m", ["// #version 330", "//  #include <lib/a>", "// precision"],
        [⟨"lib/a", 1, .absolute, none⟩], [⟨"#version 330", 0⟩]⟩ := by decide
  have lines : Text.splitLines "#version 330\n #include <lib/a>\n// precision\n" =
      ["#version 330", " #include <lib/a>", "// precision"] := by decide
  refine ⟨((reading_accounts _ _).1 _ |>.mp refused).2, _, read, ?_⟩
  rw [← lines]
  exact ((reading_accounts _ _).2.2 _ read).2

end ShaderBundle.Module
