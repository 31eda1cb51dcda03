import ShaderBundle.Proofs.Module.Directives
import ShaderBundle.Proofs.Module.Reading

/-! Where an include directive is closed. A quoted one ends its line at the first quote that is not escaped.
An angled one is held to the same rule of quotes and not to one of its own, so that it goes on to the last
bracket of its line, over any other that closed it before. -/
namespace ShaderBundle

open Text

namespace Directive

variable {kind : IncludeKind} {c d : Char} {target rest line text front cs : List Char}

/-- Every such character stands directly behind a backslash. -/
def Guarded (c : Char) (text : List Char) : Prop :=
  ∀ before after, text = before ++ c :: after → before.getLast? = some '\\'

theorem guarded_concat (different : d ≠ c) : Guarded c (text ++ [d]) ↔ Guarded c text := by
  constructor
  · rintro guarded before after rfl
    exact guarded before (after ++ [d]) (by simp)
  · intro guarded before after split
    rcases List.eq_nil_or_concat after with rfl | ⟨inner, last, rfl⟩
    · obtain ⟨-, same⟩ := List.append_inj' split rfl
      exact absurd (List.cons.inj same).1 different
    · have split' : text ++ [d] = (before ++ c :: inner) ++ [last] := by simpa using split
      obtain ⟨same, -⟩ := List.append_inj' split' rfl
      exact guarded before inner same

/-- The check goes along a text with what stands in front of it in mind. -/
theorem quotesEscaped_iff_behind : quotesEscaped (front.getLast? == some '\\') cs = true ↔
    ∀ before after, cs = before ++ '"' :: after → (front ++ before).getLast? = some '\\' := by
  induction cs generalizing front with
  | nil => simp [quotesEscaped]
  | cons c rest ih =>
    have behind : (c == '\\') = ((front ++ [c]).getLast? == some '\\') := by simp
    rw [quotesEscaped, behind, Bool.and_eq_true, ih]
    constructor
    · rintro ⟨here, later⟩ before after split
      rcases List.cons_eq_append_iff.mp split with ⟨rfl, same⟩ | ⟨inner, rfl, inRest⟩
      · obtain ⟨rfl, -⟩ := List.cons.inj same
        simpa using here
      · simpa using later inner after inRest
    · intro all
      refine ⟨?_, fun before after split => ?_⟩
      · by_cases quote : c = '"'
        · subst quote
          simpa using all [] rest rfl
        · simp [quote]
      · simpa using all (c :: before) after (by rw [split]; rfl)

theorem quotesEscaped_iff : quotesEscaped false text = true ↔ Guarded '"' text :=
  @quotesEscaped_iff_behind [] text

theorem Includes.guarded (included : Includes kind target line) : Guarded '"' target :=
  quotesEscaped_iff.mp included.escaped

theorem Includes.unique_kind {kind' : IncludeKind} {target' : List Char}
    (included : Includes kind target line) (included' : Includes kind' target' line) : kind = kind' := by
  have same := (include?_eq_some_iff.mpr included).symm.trans (include?_eq_some_iff.mpr included')
  exact (Prod.mk.inj (Option.some.inj same)).1

/-- An include directive that is closed with more of the line behind it: the bracket or quote that closes
its target is not escaped. -/
structure Overruns (kind : IncludeKind) (target rest line : List Char) : Prop where
  unescaped : target.getLast? ≠ some '\\'
  more : rest ≠ []
  written : ∃ gap, gap ≠ [] ∧ AllBlank gap ∧
    line = "#include".toList ++ (gap ++ kind.opening :: (target ++ kind.closing :: rest))

theorem delimited_unique {kind' : IncludeKind} {gap gap' body body' : List Char} (blank : AllBlank gap)
    (blank' : AllBlank gap') (same : gap ++ kind.opening :: body = gap' ++ kind'.opening :: body') :
    kind = kind' ∧ body = body' := by
  have trimmed := congrArg trimStart same
  rw [trimStart_blanks blank, trimStart_blanks blank', trimStart_cons _ (isBlank_opening kind),
    trimStart_cons _ (isBlank_opening kind')] at trimmed
  obtain ⟨opening, rfl⟩ := List.cons.inj trimmed
  refine ⟨?_, rfl⟩
  cases kind <;> cases kind' <;> first | rfl | exact absurd opening (by decide)

/-- What goes on behind its closing bracket is an include only of the whole that is left of its line. -/
theorem Overruns.includes_iff {kind' : IncludeKind} {target' : List Char}
    (overruns : Overruns kind target rest line) : Includes kind' target' line ↔
      kind = .absolute ∧ kind' = .absolute ∧ target' ++ ['>'] = target ++ '>' :: rest ∧
      Guarded '"' target' := by
  obtain ⟨gap, some, blank, written⟩ := overruns.written
  constructor
  · intro included
    obtain ⟨gap', -, blank', written'⟩ := included.written
    rw [written, List.append_cancel_left_eq] at written'
    obtain ⟨rfl, body⟩ := delimited_unique blank blank' written'
    cases kind with
    | absolute => exact ⟨rfl, rfl, body.symm, included.guarded⟩
    | relative =>
      obtain ⟨inner, last, ends⟩ := (List.eq_nil_or_concat rest).resolve_left overruns.more
      have split : target' = target ++ '"' :: inner := by
        have whole : target' ++ ['"'] = (target ++ '"' :: inner) ++ [last] := by
          simpa [ends, IncludeKind.closing] using body.symm
        exact (List.append_inj' whole rfl).1
      exact absurd (included.guarded target inner split) overruns.unescaped
  · rintro ⟨rfl, rfl, body, guarded⟩
    have whole : target' ++ [IncludeKind.absolute.closing] =
        target ++ IncludeKind.absolute.closing :: rest := body
    exact ⟨quotesEscaped_iff.mpr guarded, gap, some, blank, by rw [written, whole]⟩

end Directive

namespace LineRole

open Directive

theorem not_slashes_of_includes {kind : IncludeKind} {target line : List Char}
    (included : Includes kind target line) : ¬ "//".toList <+: line := by
  obtain ⟨gap, -, -, rfl⟩ := included.written
  simp

theorem of_eq_inclusion_iff {line target : String} {kind : IncludeKind} :
    of line = .inclusion kind target ↔ target ≠ "" ∧ Includes kind target.toList (trim line.toList) := by
  have asks : Asks (trim line.toList) (of line) := asks_of line
  generalize of line = role at asks ⊢
  constructor
  · rintro rfl
    cases asks with
    | inclusion _ included some =>
      rw [String.toList_ofList, ← String.toList_inj.ne, String.toList_ofList]
      exact ⟨some, included⟩
  · rintro ⟨some, included⟩
    cases asks with
    | comment slashes => exact absurd slashes (not_slashes_of_includes included)
    | emptyInclusion _ other =>
      rw [← String.toList_inj.ne, included.unique other] at some
      exact absurd rfl some
    | inclusion _ other _ =>
      rw [included.unique_kind other, ← included.unique other, String.ofList_toList]
    | hoisted _ excluded _ => exact absurd included (excluded kind target.toList)
    | inert _ excluded _ => exact absurd included (excluded kind target.toList)

end LineRole

namespace Module

open Directive

variable {id source : String} {m : Module} {index : Nat} {line : String}

theorem mem_dependencies_iff (read : ofSource id source = .ok m) {dep : Dependency} :
    dep ∈ m.dependencies ↔ ∃ line, (splitLines source)[dep.line]? = some line ∧ dep.target ≠ "" ∧
      Includes dep.kind dep.target.toList (trim line.toList) ∧ dep.resolved = none := by
  obtain ⟨-, rfl⟩ := ofSource_eq_ok_iff.mp read
  simp only [mem_dependencies_ofLines, LineRole.of_eq_inclusion_iff, and_assoc]

/-- A line that goes on behind a closing bracket or quote is on record exactly if that is a bracket, another
one ends the line, and no quote in between is without a backslash. -/
theorem exists_dependency_iff_of_overruns (read : ofSource id source = .ok m)
    (atIndex : (splitLines source)[index]? = some line) {kind : IncludeKind} {target rest : List Char}
    (overruns : Overruns kind target rest (trim line.toList)) :
    (∃ dep ∈ m.dependencies, dep.line = index) ↔
      kind = .absolute ∧ rest.getLast? = some '>' ∧ Guarded '"' (target ++ '>' :: rest) := by
  constructor
  · rintro ⟨dep, member, rfl⟩
    obtain ⟨line', atIndex', -, included, -⟩ := (mem_dependencies_iff read).mp member
    obtain rfl := Option.some.inj (atIndex.symm.trans atIndex')
    obtain ⟨angled, -, body, guarded⟩ := overruns.includes_iff.mp included
    refine ⟨angled, ?_, ?_⟩
    · have last := congrArg List.getLast? body
      rw [List.getLast?_concat, List.getLast?_append_of_ne_nil _ (List.cons_ne_nil _ _),
        List.getLast?_cons_of_ne_nil overruns.more] at last
      exact last.symm
    · rwa [← body, guarded_concat (by decide)]
  · rintro ⟨angled, ends, guarded⟩
    obtain ⟨tail, rfl⟩ := List.getLast?_eq_some_iff.mp ends
    have body : target ++ '>' :: (tail ++ ['>']) = (target ++ '>' :: tail) ++ ['>'] := by simp
    rw [body, guarded_concat (by decide)] at guarded
    have included : Includes .absolute (target ++ '>' :: tail) (trim line.toList) :=
      overruns.includes_iff.mpr ⟨angled, rfl, body.symm, guarded⟩
    refine ⟨⟨String.ofList (target ++ '>' :: tail), index, .absolute, none⟩, ?_, rfl⟩
    refine (mem_dependencies_iff read).mpr ⟨line, atIndex, ?_, ?_, rfl⟩
    · rw [← String.toList_inj.ne, String.toList_ofList]
      simp
    · rwa [String.toList_ofList]

/-- An include on record takes up its line to the end, and each quote in its target is escaped. So it is the
first quote without a backslash that closes a quoted include, and nothing follows it. A bracket closes an
angled one only at the end of the line: where the line goes on behind an earlier bracket to another one, and
no bare quote stands on the way, all that lies between the first bracket and the last is the target. -/
theorem dependencies_closed (read : ofSource id source = .ok m) :
    (∀ dep ∈ m.dependencies, ∃ line gap, (splitLines source)[dep.line]? = some line ∧
      gap ≠ [] ∧ AllBlank gap ∧ trim line.toList = "#include".toList ++
        (gap ++ dep.kind.opening :: (dep.target.toList ++ [dep.kind.closing])) ∧
      Guarded '"' dep.target.toList ∧
      (dep.kind = .relative → Guarded dep.kind.closing dep.target.toList)) ∧
    ∀ index line kind target rest, (splitLines source)[index]? = some line →
      Overruns kind target rest (trim line.toList) →
      ((∃ dep ∈ m.dependencies, dep.line = index) ↔
        kind = .absolute ∧ rest.getLast? = some '>' ∧ Guarded '"' (target ++ '>' :: rest)) ∧
      ∀ dep ∈ m.dependencies, dep.line = index →
        dep.kind = .absolute ∧ dep.target.toList ++ ['>'] = target ++ '>' :: rest := by
  refine ⟨fun dep member => ?_, fun index line kind target rest atIndex overruns =>
    ⟨exists_dependency_iff_of_overruns read atIndex overruns, ?_⟩⟩
  · obtain ⟨line, atIndex, -, included, -⟩ := (mem_dependencies_iff read).mp member
    obtain ⟨gap, some, blank, written⟩ := included.written
    refine ⟨line, gap, atIndex, some, blank, written, included.guarded, fun quoted => ?_⟩
    rw [quoted]
    exact included.guarded
  · rintro dep member rfl
    obtain ⟨line', atIndex', -, included, -⟩ := (mem_dependencies_iff read).mp member
    obtain rfl := Option.some.inj (atIndex.symm.trans atIndex')
    obtain ⟨-, angled, body, -⟩ := overruns.includes_iff.mp included
    exact ⟨angled, body⟩

/-- A quote that is escaped, and three comments behind an include. -/
theorem dependencies_closed_of_comments :
    let source := "#include \"a\\\"b\"\n#include \"a\" // \"b\"\n#include <a> // b\n#include <a> // <b>"
    ∃ m, ofSource "m" source = .ok m ∧
      (∃ dep ∈ m.dependencies, dep.line = 0 ∧ Guarded '"' dep.target.toList) ∧
      (¬ ∃ dep ∈ m.dependencies, dep.line = 1) ∧ (¬ ∃ dep ∈ m.dependencies, dep.line = 2) ∧
      ∃ dep ∈ m.dependencies, dep.line = 3 := by
  intro source
  have read : ofSource "m" source = .ok ⟨"m", ["// #include \"a\\\"b\"", "#include \"a\" // \"b\"",
      "#include <a> // b", "// #include <a> // <b>"],
      [⟨"a\\\"b", 0, .relative, none⟩, ⟨"a> // <b", 3, .absolute, none⟩], []⟩ := by decide
  obtain ⟨closed, overrun⟩ := dependencies_closed read
  have blank : AllBlank [' '] := by simp [AllBlank, isBlank]
  refine ⟨_, read, ⟨_, List.mem_cons_self, rfl, ?_⟩, ?_, ?_, ?_⟩
  · obtain ⟨line, gap, -, -, -, -, guarded, -⟩ := closed _ List.mem_cons_self
    exact guarded
  · rw [(overrun 1 "#include \"a\" // \"b\"" .relative "a".toList " // \"b\"".toList (by decide)
      ⟨by decide, by decide, [' '], by decide, blank, by decide⟩).1]
    simp
  · rw [(overrun 2 "#include <a> // b" .absolute "a".toList " // b".toList (by decide)
      ⟨by decide, by decide, [' '], by decide, blank, by decide⟩).1]
    simp
  · rw [(overrun 3 "#include <a> // <b>" .absolute "a".toList " // <b>".toList (by decide)
      ⟨by decide, by decide, [' '], by decide, blank, by decide⟩).1]
    exact ⟨rfl, by decide, quotesEscaped_iff.mp (by decide)⟩

/-- A bracket behind the end of an angled include becomes its end. -/
theorem dependency_overruns :
    ∃ m line, ofSource "m" "#include <a> // see <b>" = .ok m ∧
      (splitLines "#include <a> // see <b>")[0]? = some line ∧
      Overruns .absolute "a".toList " // see <b>".toList (trim line.toList) ∧
      ∃ dep ∈ m.dependencies, dep.line = 0 ∧ dep.kind = .absolute ∧ dep.target = "a> // see <b" ∧
        ¬ Guarded '>' dep.target.toList := by
  have blank : AllBlank [' '] := by simp [AllBlank, isBlank]
  refine ⟨⟨"m", ["// #include <a> // see <b>"], [⟨"a> // see <b", 0, .absolute, none⟩], []⟩, _,
    by decide, rfl, ⟨by decide, by decide, [' '], by decide, blank, by decide⟩,
    _, List.mem_cons_self, rfl, rfl, rfl, ?_⟩
  intro guarded
  have behind := guarded "a".toList " // see <b".toList (by decide)
  exact absurd behind (by decide)

end Module

end ShaderBundle
