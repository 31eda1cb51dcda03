import ShaderBundle.Proofs.CompilerLog.Legible
import ShaderBundle.Proofs.CompilerLog.Pattern
import ShaderBundle.Proofs.Shader.Layout

/-! A log line by line. A line is rewritten exactly if its diagnostic leads to a module, and a rewritten line
begins with a place, so that it has no shape that is read. -/
namespace ShaderBundle

open Text

theorem Severity.unbreakable_word (severity : Severity) : Unbreakable severity.word := by
  cases severity <;> simp [Severity.word, Unbreakable, isLineBreak]

namespace Diagnostic

variable {d : Diagnostic} {id : String} {j : Nat}

theorem unbreakable_colon : Unbreakable ":" := by simp [Unbreakable, isLineBreak]

theorem unbreakable_gap : Unbreakable ": " := by simp [Unbreakable, isLineBreak]

theorem toList_text (leads : d.origin = some (id, (j : Int))) :
    d.text.toList = id.toList ++ ':' :: (Nat.toDigits 10 (j + 1) ++ ':' :: ' ' ::
      (d.severity.word.toList ++ ':' :: ' ' :: d.message.toList)) := by
  have number : toString ((j : Int) + 1) = toString (j + 1) := rfl
  rw [text, place, leads]
  dsimp only
  rw [number]
  simp

/-- The printed place of a message is no log line. -/
theorem of?_text (leads : d.origin = some (id, (j : Int))) (free : ':' ∉ id.toList) :
    LogEntry.of? d.text = none := by
  obtain ⟨front, blank, split⟩ := LogEntry.exists_gap id.toList
  let head := trimStart id.toList ++ ':' :: (Nat.toDigits 10 (j + 1) ++ ':' :: ' ' ::
    d.severity.word.toList) ++ [':']
  have parts : d.text.toList = front ++ (head ++ ' ' :: d.message.toList ++ []) := by
    rw [toList_text leads]
    conv_lhs => rw [split]
    simp [head]
  have solid : Solid head := by
    constructor
    · intro c first
      cases start : trimStart id.toList with
      | nil =>
        obtain rfl : ':' = c := by simpa [head, start] using first
        decide
      | cons x rest =>
        obtain rfl : x = c := by simpa [head, start] using first
        exact head?_trimStart id.toList x (by rw [start]; rfl)
    · rw [List.getLast?_concat]
      simp [isBlank]
  have nothing : AllBlank [] := by simp [AllBlank]
  obtain ⟨gap, -, trims⟩ :=
    exists_trim_append blank nothing solid (by simp [head]) (' ' :: d.message.toList)
  have nameFree : ':' ∉ trimStart id.toList := fun member => free (trimStart_subset _ member)
  rw [LogEntry.of?, parts, trims]
  cases read : LogEntry.ofTrimmed? (head ++ (gap ++ trim (' ' :: d.message.toList))) with
  | none => rfl
  | some entry =>
    obtain ⟨pattern, spelled⟩ := LogEntry.spells_of_ofTrimmed? read
    simp only [head, List.append_assoc, List.cons_append] at spelled
    exact absurd spelled (LogEntry.not_spells_place nameFree)

end Diagnostic

namespace CompilerLog

inductive Becomes (s : Shader) (line : String) : String → Prop
  | unrecognised (unread : LogEntry.of? line = none) : Becomes s line line
  | unmapped {d : Diagnostic} (found : diagnostic? s line = .ok (some d)) (nowhere : d.origin = none) :
    Becomes s line line
  | rewritten {d : Diagnostic} {id : String} {j : Int} (found : diagnostic? s line = .ok (some d))
    (leads : d.origin = some (id, j)) : Becomes s line d.text

/-- The diagnostic of a line that leads to a module. -/
def located? (s : Shader) (line : String) : Option Diagnostic :=
  match diagnostic? s line with
  | .ok (some d) => if d.origin.isSome then some d else none
  | _ => none

def remapped (s : Shader) (line : String) : String := ((located? s line).map Diagnostic.text).getD line

variable {s : Shader} {line : String} {lines : List String} {d : Diagnostic}

theorem diagnostic?_of_unread (unread : LogEntry.of? line = none) : diagnostic? s line = .ok none := by
  rw [diagnostic?, unread]

/-- A diagnostic leads where the line map leads, and its message stands in its line. -/
theorem diagnostic?_ok (found : diagnostic? s line = .ok (some d)) :
    d.origin = (s.mapLine d.bundledLine).map (fun place => (place.1.id, place.2)) ∧
      d.message.toList ⊆ line.toList := by
  unfold diagnostic? at found
  cases read : LogEntry.of? line with
  | none => simp [read] at found
  | some entry =>
    rw [read] at found
    dsimp only at found
    split at found
    · simp at found
    · obtain rfl := Option.some.inj (Except.ok.inj found)
      obtain ⟨pattern, spelled⟩ := LogEntry.spells_of_ofTrimmed? read
      refine ⟨rfl, ?_⟩
      rw [String.toList_ofList]
      exact List.Subset.trans spelled.message_subset (trim_subset _)

theorem located?_of_found (found : diagnostic? s line = .ok (some d)) :
    located? s line = if d.origin.isSome then some d else none := by
  rw [located?, found]

theorem located?_of_unread (unread : LogEntry.of? line = none) : located? s line = none := by
  rw [located?, diagnostic?_of_unread unread]

/-- Of a legible line the diagnostic can be made, if it is recognised at all. -/
theorem Legible.cases (legible : Legible line) (s : Shader) :
    LogEntry.of? line = none ∨ ∃ d, diagnostic? s line = .ok (some d) := by
  cases read : LogEntry.of? line with
  | none => exact .inl rfl
  | some entry =>
    obtain ⟨found, met⟩ :=
      (settled_diagnostic? s line).returns ((excess?_eq_none_iff line).mpr legible)
    cases found with
    | some d => exact .inr ⟨d, met⟩
    | none =>
      rw [diagnostic?, read] at met
      dsimp only at met
      split at met <;> simp at met

/-- A legible line becomes what it is said to become. -/
theorem Legible.becomes (legible : Legible line) (s : Shader) :
    Becomes s line (remapped s line) ∧ remapLine s line = .ok (remapped s line) := by
  rcases legible.cases s with unread | ⟨d, found⟩
  · have same : remapped s line = line := by rw [remapped, located?_of_unread unread]; rfl
    rw [same, remapLine, diagnostic?_of_unread unread]
    exact ⟨.unrecognised unread, rfl⟩
  · have same : remapped s line = if d.origin.isSome then d.text else line := by
      rw [remapped, located?_of_found found]
      split <;> rfl
    rw [same, remapLine, found]
    refine ⟨?_, rfl⟩
    cases leads : d.origin with
    | none => exact .unmapped found leads
    | some place => exact .rewritten found leads

theorem remapLines_eq (legible : ∀ line ∈ lines, Legible line) (s : Shader) :
    remapLines s lines = .ok (lines.map (remapped s)) := by
  induction lines with
  | nil => rfl
  | cons line rest ih =>
    obtain ⟨head, tail⟩ := List.forall_mem_cons.mp legible
    rw [remapLines, (head.becomes s).2, ih tail]
    rfl

/-- The diagnostics of a log that lead to a module are those of its lines that do. -/
theorem diagnosticsOf_eq (legible : ∀ line ∈ lines, Legible line) (s : Shader) :
    ∃ ds, diagnosticsOf s lines = .ok ds ∧
      ds.filter (·.origin.isSome) = lines.filterMap (located? s) ∧
      ∀ d ∈ ds, ∃ line ∈ lines, diagnostic? s line = .ok (some d) := by
  induction lines with
  | nil => exact ⟨[], rfl, rfl, by simp⟩
  | cons line rest ih =>
    obtain ⟨head, tail⟩ := List.forall_mem_cons.mp legible
    obtain ⟨ds, others, located, origins⟩ := ih tail
    rcases head.cases s with unread | ⟨d, found⟩
    · refine ⟨ds, ?_, ?_, fun d member => ?_⟩
      · rw [diagnosticsOf, diagnostic?_of_unread unread, others]
        rfl
      · rw [List.filterMap_cons_none (located?_of_unread unread), located]
      · obtain ⟨line', inRest, found⟩ := origins d member
        exact ⟨line', List.mem_cons_of_mem _ inRest, found⟩
    · refine ⟨d :: ds, ?_, ?_, List.forall_mem_cons.mpr ⟨⟨line, List.mem_cons_self, found⟩, ?_⟩⟩
      · rw [diagnosticsOf, found, others]
        rfl
      · rw [List.filter_cons, List.filterMap_cons, located?_of_found found, located]
        split <;> rfl
      · intro d' member
        obtain ⟨line', inRest, found⟩ := origins d' member
        exact ⟨line', List.mem_cons_of_mem _ inRest, found⟩

/-- The rewritten lines are the texts of the diagnostics that lead to a module. -/
theorem rewritten_eq (s : Shader) (lines : List String) :
    (((lines.zip (lines.map (remapped s))).filter fun pair => (located? s pair.1).isSome).map
      Prod.snd) = (lines.filterMap (located? s)).map Diagnostic.text := by
  induction lines with
  | nil => rfl
  | cons line rest ih =>
    rw [List.map_cons, List.zip_cons_cons, List.filter_cons, List.filterMap_cons]
    cases located : located? s line with
    | none => simpa using ih
    | some d =>
      have rewritten : remapped s line = d.text := by rw [remapped, located]; rfl
      simpa [rewritten] using ih

theorem remapLine_of_unread (unread : LogEntry.of? line = none) : remapLine s line = .ok line := by
  rw [remapLine, diagnostic?_of_unread unread]

theorem remapLines_eq_self (fixed : ∀ line ∈ lines, remapLine s line = .ok line) :
    remapLines s lines = .ok lines := by
  induction lines with
  | nil => rfl
  | cons line rest ih =>
    obtain ⟨head, tail⟩ := List.forall_mem_cons.mp fixed
    rw [remapLines, head, ih tail]
    rfl

section Named

variable (laid : s.Laid)
  (named : ∀ m ∈ s.modules, ':' ∉ m.id.toList ∧ ∀ c ∈ m.id.toList, isLineBreak c = false)

include laid

/-- A diagnostic that leads somewhere leads to a line that its module has. -/
theorem exists_line_of_origin {id : String} {j : Int} (found : diagnostic? s line = .ok (some d))
    (leads : d.origin = some (id, j)) :
    ∃ m ∈ s.sorted, m.id = id ∧ s.mapLine d.bundledLine = some (m, j) ∧
      ∃ k : Nat, j = k ∧ k < m.lines.length := by
  obtain ⟨⟨m, line⟩, mapped, same⟩ :=
    Option.map_eq_some_iff.mp ((diagnostic?_ok found).1.symm.trans leads)
  obtain ⟨rfl, rfl⟩ := Prod.mk.inj same
  obtain ⟨member, k, rfl, inside⟩ := laid.line_of_mapLine mapped
  exact ⟨m, member, rfl, mapped, k, rfl, inside⟩

include named

theorem of?_text_of_found {id : String} {j : Int} (found : diagnostic? s line = .ok (some d))
    (leads : d.origin = some (id, j)) : LogEntry.of? d.text = none := by
  obtain ⟨m, member, rfl, -, k, rfl, -⟩ := exists_line_of_origin laid found leads
  exact Diagnostic.of?_text leads (named m (laid.modules.mem_iff.mp member)).1

/-- What has become of a line stays. -/
theorem Becomes.fixed {new : String} (becomes : Becomes s line new) : remapLine s new = .ok new := by
  cases becomes with
  | unrecognised unread => exact remapLine_of_unread unread
  | unmapped found nowhere =>
    rw [remapLine, found]
    simp [nowhere]
  | rewritten found leads => exact remapLine_of_unread (of?_text_of_found laid named found leads)

/-- No line of a remapped log breaks. -/
theorem Becomes.unbreakable {new : String} (becomes : Becomes s line new) (whole : Unbreakable line) :
    Unbreakable new := by
  cases becomes with
  | unrecognised unread => exact whole
  | unmapped found nowhere => exact whole
  | @rewritten d id j found leads =>
    obtain ⟨m, member, rfl, -, k, rfl, -⟩ := exists_line_of_origin laid found leads
    have name : Unbreakable m.id := (named m (laid.modules.mem_iff.mp member)).2
    have message : Unbreakable d.message := fun c inMessage =>
      whole c ((diagnostic?_ok found).2 inMessage)
    have place : Unbreakable d.place := by
      rw [Diagnostic.place, leads]
      exact (name.append Diagnostic.unbreakable_colon).append (unbreakable_toString_nat (k + 1))
    exact (((place.append Diagnostic.unbreakable_gap).append d.severity.unbreakable_word).append
      Diagnostic.unbreakable_gap).append message

end Named

/-- A log is remapped line by line: a line that is not recognised or leads to no module stays, and any other
becomes the text of its diagnostic. These are the diagnostics of the log that lead to a module, in their
order, each to a line that the module has. Their texts are no log lines, so that a second turn over the lines
changes nothing. -/
theorem remap_line_by_line {lib : Library} {root includeRoot : String}
    (ok : (assemble lib root includeRoot).result = .ok s)
    (named : ∀ m ∈ s.modules, ':' ∉ m.id.toList ∧ ∀ c ∈ m.id.toList, isLineBreak c = false)
    {log : String} (legible : ∀ line ∈ breakLines log, Legible line) :
    ∃ lines ds, remap s log = .ok (joinLines lines) ∧ diagnostics s log = .ok ds ∧
      List.Forall₂ (Becomes s) (breakLines log) lines ∧
      (((breakLines log).zip lines).filter fun pair => (located? s pair.1).isSome).map Prod.snd =
        (ds.filter (·.origin.isSome)).map Diagnostic.text ∧
      (∀ d ∈ ds, ∀ id j, d.origin = some (id, j) → LogEntry.of? d.text = none ∧
        ∃ m ∈ s.sorted, m.id = id ∧ s.mapLine d.bundledLine = some (m, j) ∧
          1 ≤ j + 1 ∧ j + 1 ≤ m.lines.length) ∧
      remapLines s lines = .ok lines ∧
      remap s (endLines lines) = .ok (joinLines lines) ∧
      (lines.getLast? ≠ some "" → remap s (joinLines lines) = .ok (joinLines lines)) := by
  have laid := laid_of_assemble ok
  obtain ⟨ds, read, located, origins⟩ := diagnosticsOf_eq legible s
  let lines := (breakLines log).map (remapped s)
  have becomes : List.Forall₂ (Becomes s) (breakLines log) lines :=
    List.forall₂_map_right_iff.mpr (List.forall₂_same.mpr fun line member =>
      ((legible line member).becomes s).1)
  have each {new : String} (member : new ∈ lines) : ∃ line ∈ breakLines log, Becomes s line new := by
    obtain ⟨line, inLog, rfl⟩ := List.mem_map.mp member
    exact ⟨line, inLog, ((legible line inLog).becomes s).1⟩
  have fixed : remapLines s lines = .ok lines := by
    refine remapLines_eq_self fun new member => ?_
    obtain ⟨line, -, becomes⟩ := each member
    exact becomes.fixed laid named
  have whole : ∀ new ∈ lines, Unbreakable new := by
    intro new member
    obtain ⟨line, inLog, becomes⟩ := each member
    exact becomes.unbreakable laid named (unbreakable_of_mem_breakLines inLog)
  refine ⟨lines, ds, ?_, read, becomes, ?_, fun d member id j leads => ?_, fixed, ?_, fun ends => ?_⟩
  · rw [remap, remapLines_eq legible]
    rfl
  · rw [located]
    exact rewritten_eq s (breakLines log)
  · obtain ⟨line, -, found⟩ := origins d member
    obtain ⟨m, inSorted, same, mapped, k, rfl, inside⟩ := exists_line_of_origin laid found leads
    exact ⟨of?_text_of_found laid named found leads, m, inSorted, same, mapped, by omega, by omega⟩
  · rw [remap, breakLines_endLines whole, fixed]
    rfl
  · rw [remap, breakLines_joinLines whole ends, fixed]
    rfl

/-- A message about a module line that looks like a log line itself, between one about a marker and two
lines that say nothing. -/
theorem remap_line_by_line_of_pair :
    ∃ s, (assemble MemoryStore.pair.library "m" "").result = .ok s ∧
      (∀ m ∈ s.modules, ':' ∉ m.id.toList ∧ ∀ c ∈ m.id.toList, isLineBreak c = false) ∧
      let log := "ERROR: 0:2: m\nlinking\r\n0:3(1): error: ERROR: 0:1: x\ndone"
      let text := "ERROR: 0:2: m\nlinking\na:1: error: ERROR: 0:1: x\ndone"
      (∀ line ∈ breakLines log, Legible line) ∧
      ∃ lines, remap s log = .ok (joinLines lines) ∧ joinLines lines = text ∧
        List.Forall₂ (Becomes s) (breakLines log) lines ∧
        LogEntry.of? "a:1: error: ERROR: 0:1: x" = none ∧ remapLines s lines = .ok lines := by
  let s := Shader.ofSorted "m" MemoryStore.pairModules MemoryStore.pairModules.reverse
  let log := "ERROR: 0:2: m\nlinking\r\n0:3(1): error: ERROR: 0:1: x\ndone"
  let text := "ERROR: 0:2: m\nlinking\na:1: error: ERROR: 0:1: x\ndone"
  have named : ∀ m ∈ s.modules, ':' ∉ m.id.toList ∧ ∀ c ∈ m.id.toList, isLineBreak c = false := by
    simp [s, Shader.ofSorted, MemoryStore.pairModules, isLineBreak]
  have legible : ∀ line ∈ breakLines log, Legible line :=
    (findSome?_excess?_eq_none_iff _).mp (by decide +kernel)
  have whole : remap s log = .ok text := by decide +kernel
  let d : Diagnostic := ⟨.error, 2, "ERROR: 0:1: x", some ("a", 0)⟩
  have found : diagnostics s log = .ok [⟨.error, 1, "m", none⟩, d] := by decide +kernel
  obtain ⟨lines, ds, read, met, becomes, -, origins, fixed, -⟩ :=
    remap_line_by_line assemble_pair named legible
  obtain rfl : _ = ds := Except.ok.inj (found.symm.trans met)
  have same : joinLines lines = text := Except.ok.inj (read.symm.trans whole)
  have unread : LogEntry.of? d.text = none := (origins d (by simp) "a" 0 rfl).1
  have printed : d.text = "a:1: error: ERROR: 0:1: x" := by decide +kernel
  rw [printed] at unread
  exact ⟨s, assemble_pair, named, legible, lines, read, same, becomes, unread, fixed⟩

end CompilerLog

end ShaderBundle
