import ShaderBundle.Proofs.CompilerLog.Shape
import ShaderBundle.Proofs.Text.Breaks
import Mathlib.Algebra.Group.Nat.Defs

/-! What of a log can be read. A log is given up at its first recognised line whose line number has too
many digits, whatever shader it is about; every other log is read to its end. -/
namespace ShaderBundle.CompilerLog

open Text

/-- The count of digits of a line number that has too many. -/
def excess? (line : String) : Option Nat :=
  (LogEntry.of? line).bind fun entry =>
    if digitLimit < entry.number.length then some entry.number.length else none

/-- Of a recognised line the number can be read. -/
def Legible (line : String) : Prop :=
  ∀ entry ∈ LogEntry.of? line, entry.number.length ≤ digitLimit

theorem excess?_eq_none_iff (line : String) : excess? line = none ↔ Legible line := by
  unfold excess? Legible
  cases LogEntry.of? line <;> simp

theorem findSome?_excess?_eq_none_iff (lines : List String) :
    lines.findSome? excess? = none ↔ ∀ line ∈ lines, Legible line := by
  simp only [List.findSome?_eq_none_iff, excess?_eq_none_iff]

theorem lt_of_excess? {line : String} {n : Nat} (met : excess? line = some n) : digitLimit < n := by
  obtain ⟨entry, -, long⟩ := Option.bind_eq_some_iff.mp met
  split at long
  · rename_i excessive
    cases long
    exact excessive
  · cases long

/-- The line number of a printed line is in excess if it has too many digits. -/
theorem excess?_print (shape : LogShape) (severity : Severity) (file number : Nat) {message : String}
    (long : digitLimit < (toString number).length) (oneLine : OneLine message) :
    excess? (shape.print severity file number message) = some (toString number).length := by
  have none : AllBlank "".toList := by simp [AllBlank]
  have entry := LogEntry.of?_print shape severity file number oneLine none none
  rw [String.empty_append, String.append_empty] at entry
  rw [length_toString] at long ⊢
  simp [excess?, entry, long]

def unreadable : String := LogShape.severityFirst.print .error 0 (10 ^ digitLimit) "too big"

theorem excess?_unreadable : excess? unreadable = some (digitLimit + 1) := by
  have length := length_toString_pow digitLimit
  have oneLine : OneLine "too big" := by simp [OneLine]
  rw [unreadable, excess?_print _ _ _ _ (by omega) oneLine, length]

theorem breakLines_unreadable : breakLines unreadable = [unreadable] := by
  have parts : unreadable.toList =
      "ERROR: 0:".toList ++ (Nat.toDigits 10 (10 ^ digitLimit) ++ ": too big".toList) := by
    simp [unreadable, LogShape.print, LogShape.header, Severity.capitals]
  have front : ∀ c ∈ "ERROR: 0:".toList, isLineBreak c = false := by simp [isLineBreak]
  have back : ∀ c ∈ ": too big".toList, isLineBreak c = false := by simp [isLineBreak]
  refine breakLines_eq_singleton ?_ fun c member => ?_
  · rw [← String.toList_inj.ne, parts]
    simp
  · rw [parts] at member
    rcases List.mem_append.mp member with inside | inside
    · exact front c inside
    · rcases List.mem_append.mp inside with inside | inside
      · exact isLineBreak_of_mem_toDigits inside
      · exact back c inside

/-- An outcome is settled by the excess that is met, if there is one. -/
structure Settled {α : Type} (outcome : Except TooManyDigits α) (excess : Option Nat) : Prop where
  fails : ∀ n, excess = some n → outcome = .error ⟨n⟩
  returns : excess = none → ∃ a, outcome = .ok a

variable {α β : Type} {first : Except TooManyDigits α} {next : α → Except TooManyDigits β}
  {m n : Option Nat}

theorem Settled.ok (a : α) : Settled (.ok a) none := ⟨nofun, fun _ => ⟨a, rfl⟩⟩

theorem Settled.bind (settled : Settled first m) (later : ∀ a, Settled (next a) n) :
    Settled (first >>= next) (m.or n) where
  fails count met := by
    cases m with
    | none =>
      obtain ⟨a, rfl⟩ := settled.returns rfl
      exact (later a).fails count met
    | some m =>
      rw [settled.fails count met]
      rfl
  returns free := by
    obtain ⟨left, right⟩ := Option.or_eq_none_iff.mp free
    obtain ⟨a, rfl⟩ := settled.returns left
    exact (later a).returns right

theorem Settled.map (f : α → β) (settled : Settled first m) : Settled (first.map f) m where
  fails count met := by
    rw [settled.fails count met]
    rfl
  returns free := by
    obtain ⟨a, rfl⟩ := settled.returns free
    exact ⟨f a, rfl⟩

theorem Settled.eq_error_iff (settled : Settled first m) (e : TooManyDigits) :
    first = .error e ↔ m = some e.count := by
  constructor
  · intro failed
    cases m with
    | none =>
      obtain ⟨a, returned⟩ := settled.returns rfl
      simp [failed] at returned
    | some n =>
      have same := settled.fails n rfl
      rw [failed] at same
      injection same with same
      rw [same]
  · exact settled.fails e.count

theorem Settled.exists_ok_iff (settled : Settled first m) : (∃ a, first = .ok a) ↔ m = none := by
  refine ⟨?_, settled.returns⟩
  rintro ⟨a, returned⟩
  cases m with
  | none => rfl
  | some n => simp [settled.fails n rfl] at returned

theorem settled_diagnostic? (s : Shader) (line : String) :
    Settled (diagnostic? s line) (excess? line) := by
  unfold diagnostic? excess? naturalOf
  cases LogEntry.of? line with
  | none => exact .ok none
  | some entry =>
    by_cases long : digitLimit < entry.number.length
    · exact ⟨by simp [long], by simp [long]⟩
    · exact ⟨by simp [long], by simp [long]⟩

theorem settled_remapLine (s : Shader) (line : String) : Settled (remapLine s line) (excess? line) where
  fails n met := by
    rw [remapLine, (settled_diagnostic? s line).fails n met]
  returns free := by
    obtain ⟨found, read⟩ := (settled_diagnostic? s line).returns free
    rw [remapLine, read]
    cases found <;> exact ⟨_, rfl⟩

theorem findSome?_cons_eq_or (f : α → Option β) (a : α) (rest : List α) :
    (a :: rest).findSome? f = (f a).or (rest.findSome? f) := by
  cases found : f a <;> simp [found]

theorem settled_diagnosticsOf (s : Shader) (lines : List String) :
    Settled (diagnosticsOf s lines) (lines.findSome? excess?) := by
  induction lines with
  | nil => exact .ok []
  | cons line rest ih =>
    rw [findSome?_cons_eq_or]
    exact (settled_diagnostic? s line).bind fun found => ih.map (found.toList ++ ·)

theorem settled_remapLines (s : Shader) (lines : List String) :
    Settled (remapLines s lines) (lines.findSome? excess?) := by
  induction lines with
  | nil => exact .ok []
  | cons line rest ih =>
    rw [findSome?_cons_eq_or]
    exact (settled_remapLine s line).bind fun first => ih.map (first :: ·)

theorem settled_diagnostics (s : Shader) (log : String) :
    Settled (diagnostics s log) ((breakLines log).findSome? excess?) :=
  settled_diagnosticsOf s (breakLines log)

theorem settled_remap (s : Shader) (log : String) :
    Settled (remap s log) ((breakLines log).findSome? excess?) :=
  (settled_remapLines s (breakLines log)).map joinLines

end ShaderBundle.CompilerLog
