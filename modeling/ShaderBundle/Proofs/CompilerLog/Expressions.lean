import ShaderBundle.CompilerLog
import ShaderBundle.Proofs.CompilerLog.Decomposition
import ShaderBundle.Proofs.Text.Regex

/-! The three shapes of a log line as regular expressions. A trimmed line is matched by one of them at most,
and all the ways to match it say the same; so it does not matter which expression is tried first, nor in which
order the ways of an expression are tried. -/
namespace ShaderBundle

open Text
open Text.Regex (Accepts Matches matches_all_cons_iff matches_either_iff matches_optional_iff)

inductive LogGroup
  | severity
  | file
  | line
  | column
  | code
  | message
  deriving DecidableEq, Repr

def Severity.ofText? (text : List Char) : Option Severity :=
  [Severity.error, .warning].find? fun severity => text.map Char.toLower == severity.word.toList

namespace LogPattern

def severity (word : Severity → String) : Regex LogGroup :=
  .group .severity (.either (.word (word .error)) (.word (word .warning)))

def number (group : LogGroup) : Regex LogGroup := .group group (.some (.one isDigit))

def blanks : Regex LogGroup := .many (.one isBlank)

def message : Regex LogGroup := .group .message (.many .dot)

def vendor : Regex LogGroup := .all [.one fun c => 'A' ≤ c && c ≤ 'Z', .some (.one isDigit)]

def code : Regex LogGroup := .optional (.all [.some (.one isBlank), .group .code vendor])

def expression : LogPattern → Regex LogGroup
  | .severityFirst =>
    .all [severity Severity.capitals, .char ':', blanks, number .file, .char ':', number .line, .char ':',
      blanks, message]
  | .columnInParentheses =>
    .all [number .file, .char ':', number .line, .char '(', number .column, .char ')', .char ':', blanks,
      severity Severity.word, .char ':', blanks, message]
  | .lineInParentheses =>
    .all [number .file, .char '(', number .line, .char ')', blanks, .char ':', blanks,
      severity Severity.word, code, .char ':', blanks, message]

end LogPattern

def LogEntry.ofGroups? (groups : List (LogGroup × List Char)) : Option LogEntry := do
  let severity ← (groups.lookup .severity).bind Severity.ofText?
  let number ← groups.lookup .line
  let message ← groups.lookup .message
  return ⟨severity, number, trim message⟩

namespace LogPattern

open LogEntry

variable {pattern : LogPattern} {word : Severity → String} {group : LogGroup} {rest : List (Regex LogGroup)}
  {cs : List Char} {gs : List (LogGroup × List Char)} {entry : LogEntry}

theorem matches_severity_cons_iff : Matches (.all (severity word :: rest)) cs gs ↔
    ∃ s back hs, Matches (.all rest) back hs ∧ cs = (word s).toList ++ back ∧
      gs = hs ++ [(.severity, (word s).toList)] := by
  have plain (cs : List Char) (gs : List (LogGroup × List Char)) :
      Matches (.either (.word (word .error)) (.word (word .warning))) cs gs ↔
        (∃ s, cs = (word s).toList) ∧ gs = [] := by
    rw [matches_either_iff, Regex.matches_word_iff, Regex.matches_word_iff, ← or_and_right]
    refine and_congr_left fun _ => ⟨?_, ?_⟩
    · rintro (same | same)
      · exact ⟨.error, same⟩
      · exact ⟨.warning, same⟩
    · rintro ⟨s, same⟩
      cases s with
      | error => exact .inl same
      | warning => exact .inr same
  rw [severity, Regex.matches_group_cons_iff plain]
  constructor
  · rintro ⟨_, back, hs, ⟨s, rfl⟩, matched, rfl, rfl⟩
    exact ⟨s, back, hs, matched, rfl, rfl⟩
  · rintro ⟨s, back, hs, matched, rfl, rfl⟩
    exact ⟨_, back, hs, ⟨s, rfl⟩, matched, rfl, rfl⟩

theorem matches_number_cons_iff : Matches (.all (number group :: rest)) cs gs ↔
    ∃ ds back hs, IsNumeral ds ∧ Matches (.all rest) back hs ∧ cs = ds ++ back ∧
      gs = hs ++ [(group, ds)] :=
  Regex.matches_group_cons_iff fun cs gs => by
    rw [Regex.matches_some_one_iff, ← and_assoc]
    exact and_congr_left fun _ => ⟨fun numeral => ⟨numeral.1, numeral.2⟩, fun numeral =>
      ⟨numeral.some, numeral.digits⟩⟩

theorem matches_blanks_cons_iff : Matches (.all (blanks :: rest)) cs gs ↔
    ∃ gap back, AllBlank gap ∧ Matches (.all rest) back gs ∧ cs = gap ++ back :=
  Regex.matches_many_cons_iff

theorem matches_message_iff :
    Matches (.all [message]) cs gs ↔ '\n' ∉ cs ∧ gs = [(.message, cs)] := by
  have plain (cs : List Char) (gs : List (LogGroup × List Char)) :
      Matches (.many .dot) cs gs ↔ '\n' ∉ cs ∧ gs = [] := by
    rw [Regex.dot, Regex.matches_many_one_iff]
    refine and_congr_left fun _ => ⟨fun all feed => ?_, fun free c member => ?_⟩
    · exact absurd (all _ feed) (by decide)
    · rw [bne_iff_ne]
      rintro rfl
      exact free member
  rw [message, Regex.matches_group_cons_iff plain]
  constructor
  · rintro ⟨tail, _, _, oneLine, done, rfl, rfl⟩
    obtain ⟨rfl, rfl⟩ := Regex.matches_all_nil_iff.mp done
    rw [List.append_nil]
    exact ⟨oneLine, rfl⟩
  · rintro ⟨oneLine, rfl⟩
    exact ⟨cs, [], [], oneLine, .nothing, (List.append_nil cs).symm, rfl⟩

theorem matches_vendor_iff :
    Matches vendor cs gs ↔
      (∃ letter ds, ('A' ≤ letter ∧ letter ≤ 'Z') ∧ IsNumeral ds ∧ cs = letter :: ds) ∧ gs = [] := by
  constructor
  · intro matched
    obtain ⟨_, _, _, _, capital, fromDigits, rfl, rfl⟩ := matches_all_cons_iff.mp matched
    obtain ⟨letter, isCapital, rfl, rfl⟩ := Regex.matches_one_iff.mp capital
    obtain ⟨ds, _, ⟨filled, digits⟩, done, rfl⟩ := Regex.matches_some_cons_iff.mp fromDigits
    obtain ⟨rfl, rfl⟩ := Regex.matches_all_nil_iff.mp done
    exact ⟨⟨letter, ds, by simpa using isCapital, ⟨filled, digits⟩, by simp⟩, rfl⟩
  · rintro ⟨⟨letter, ds, capital, numeral, rfl⟩, rfl⟩
    refine matches_all_cons_iff.mpr ⟨[letter], [], ds, [], .one (by simpa using capital), ?_, rfl, rfl⟩
    exact Regex.matches_some_cons_iff.mpr
      ⟨ds, [], ⟨numeral.some, numeral.digits⟩, .nothing, (List.append_nil ds).symm⟩

/-- A code says nothing of the other groups. -/
theorem codePart_of_matches (matched : Matches code cs gs) :
    CodePart cs ∧ ∀ name ≠ LogGroup.code, gs.lookup name = none := by
  rcases matches_optional_iff.mp matched with given | ⟨rfl, rfl⟩
  · obtain ⟨gap, _, ⟨filled, blank⟩, fromLetter, rfl⟩ := Regex.matches_some_cons_iff.mp given
    obtain ⟨_, _, _, ⟨letter, ds, capital, numeral, rfl⟩, done, rfl, rfl⟩ :=
      (Regex.matches_group_cons_iff fun _ _ => matches_vendor_iff).mp fromLetter
    obtain ⟨rfl, rfl⟩ := Regex.matches_all_nil_iff.mp done
    rw [List.append_nil]
    refine ⟨.code filled blank capital numeral, fun name other => ?_⟩
    have different : (name == LogGroup.code) = false := by simpa using other
    simp [List.lookup_cons, different]
  · exact ⟨.none, fun _ _ => rfl⟩

theorem ofText?_word (s : Severity) : Severity.ofText? s.word.toList = some s := by
  cases s <;> decide

theorem ofText?_capitals (s : Severity) : Severity.ofText? s.capitals.toList = some s := by
  cases s <;> decide

theorem ofGroups?_eq {s : Severity} {text number tail : List Char}
    (named : gs.lookup .severity = some text) (same : Severity.ofText? text = some s)
    (numbered : gs.lookup .line = some number) (said : gs.lookup .message = some tail) :
    ofGroups? gs = some ⟨s, number, trim tail⟩ := by
  rw [ofGroups?, named, numbered, said, Option.bind_some, same]
  rfl

theorem lookup_silent {name : LogGroup} {front silent back : List (LogGroup × List Char)}
    (none : silent.lookup name = none) :
    (front ++ silent ++ back).lookup name = (front ++ back).lookup name := by
  simp [List.lookup_append, none]

/-- Every match is made of the parts of its shape, and says what they say. -/
theorem spells_of_matches (matched : Matches pattern.expression cs gs) :
    ∃ entry, Spells pattern cs entry ∧ ofGroups? gs = some entry := by
  cases pattern with
  | severityFirst =>
    obtain ⟨s, _, _, fromColon, rfl, rfl⟩ := matches_severity_cons_iff.mp matched
    obtain ⟨_, fromGap, rfl⟩ := Regex.matches_char_cons_iff.mp fromColon
    obtain ⟨gap, _, blank, fromFile, rfl⟩ := matches_blanks_cons_iff.mp fromGap
    obtain ⟨file, _, _, isFile, fromSecond, rfl, rfl⟩ := matches_number_cons_iff.mp fromFile
    obtain ⟨_, fromNumber, rfl⟩ := Regex.matches_char_cons_iff.mp fromSecond
    obtain ⟨number, _, _, isNumber, fromThird, rfl, rfl⟩ := matches_number_cons_iff.mp fromNumber
    obtain ⟨_, fromInner, rfl⟩ := Regex.matches_char_cons_iff.mp fromThird
    obtain ⟨inner, tail, blank', fromTail, rfl⟩ := matches_blanks_cons_iff.mp fromInner
    obtain ⟨oneLine, rfl⟩ := matches_message_iff.mp fromTail
    refine ⟨_, .severityFirst blank isFile isNumber (.message blank' oneLine), ?_⟩
    exact ofGroups?_eq rfl (ofText?_capitals s) rfl rfl
  | columnInParentheses =>
    obtain ⟨file, _, _, isFile, fromColon, rfl, rfl⟩ := matches_number_cons_iff.mp matched
    obtain ⟨_, fromNumber, rfl⟩ := Regex.matches_char_cons_iff.mp fromColon
    obtain ⟨number, _, _, isNumber, fromOpening, rfl, rfl⟩ := matches_number_cons_iff.mp fromNumber
    obtain ⟨_, fromColumn, rfl⟩ := Regex.matches_char_cons_iff.mp fromOpening
    obtain ⟨column, _, _, isColumn, fromClosing, rfl, rfl⟩ := matches_number_cons_iff.mp fromColumn
    obtain ⟨_, fromSecond, rfl⟩ := Regex.matches_char_cons_iff.mp fromClosing
    obtain ⟨_, fromGap, rfl⟩ := Regex.matches_char_cons_iff.mp fromSecond
    obtain ⟨gap, _, blank, fromSeverity, rfl⟩ := matches_blanks_cons_iff.mp fromGap
    obtain ⟨s, _, _, fromThird, rfl, rfl⟩ := matches_severity_cons_iff.mp fromSeverity
    obtain ⟨_, fromInner, rfl⟩ := Regex.matches_char_cons_iff.mp fromThird
    obtain ⟨inner, tail, blank', fromTail, rfl⟩ := matches_blanks_cons_iff.mp fromInner
    obtain ⟨oneLine, rfl⟩ := matches_message_iff.mp fromTail
    refine ⟨_, .columnInParentheses isFile isNumber isColumn blank (.message blank' oneLine), ?_⟩
    exact ofGroups?_eq rfl (ofText?_word s) rfl rfl
  | lineInParentheses =>
    obtain ⟨file, _, _, isFile, fromOpening, rfl, rfl⟩ := matches_number_cons_iff.mp matched
    obtain ⟨_, fromNumber, rfl⟩ := Regex.matches_char_cons_iff.mp fromOpening
    obtain ⟨number, _, _, isNumber, fromClosing, rfl, rfl⟩ := matches_number_cons_iff.mp fromNumber
    obtain ⟨_, fromBefore, rfl⟩ := Regex.matches_char_cons_iff.mp fromClosing
    obtain ⟨before, _, blankBefore, fromColon, rfl⟩ := matches_blanks_cons_iff.mp fromBefore
    obtain ⟨_, fromBehind, rfl⟩ := Regex.matches_char_cons_iff.mp fromColon
    obtain ⟨behind, _, blankBehind, fromSeverity, rfl⟩ := matches_blanks_cons_iff.mp fromBehind
    obtain ⟨s, _, _, fromCode, rfl, rfl⟩ := matches_severity_cons_iff.mp fromSeverity
    obtain ⟨suffix, _, _, _, given, fromSecond, rfl, rfl⟩ := matches_all_cons_iff.mp fromCode
    obtain ⟨isCode, silent⟩ := codePart_of_matches given
    obtain ⟨_, fromInner, rfl⟩ := Regex.matches_char_cons_iff.mp fromSecond
    obtain ⟨inner, tail, blank', fromTail, rfl⟩ := matches_blanks_cons_iff.mp fromInner
    obtain ⟨oneLine, rfl⟩ := matches_message_iff.mp fromTail
    refine ⟨_, .lineInParentheses isFile isNumber blankBefore blankBehind isCode (.message blank' oneLine), ?_⟩
    rw [List.append_assoc, List.append_assoc]
    exact ofGroups?_eq (lookup_silent (silent .severity (by decide))) (ofText?_word s)
      (lookup_silent (silent .line (by decide))) (lookup_silent (silent .message (by decide)))

/-! ### All that is spelled is matched -/

theorem accepts_severity (word : Severity → String) (s : Severity) : Accepts (severity word) (word s).toList := by
  have whole : Matches (.word (word s) : Regex LogGroup) (word s).toList [] :=
    Regex.matches_word_iff.mpr ⟨rfl, rfl⟩
  cases s with
  | error => exact ⟨_, .group (.first whole)⟩
  | warning => exact ⟨_, .group (.second whole)⟩

theorem accepts_number (group : LogGroup) {ds : List Char} (numeral : IsNumeral ds) :
    Accepts (number group) ds :=
  ⟨_, .group (Regex.matches_some_one_iff.mpr ⟨numeral.some, numeral.digits, rfl⟩)⟩

theorem accepts_blanks {gap : List Char} (blank : AllBlank gap) : Accepts blanks gap :=
  ⟨[], Regex.matches_many_one_iff.mpr ⟨blank, rfl⟩⟩

theorem accepts_code {suffix : List Char} (part : CodePart suffix) : Accepts code suffix := by
  cases part with
  | none => exact ⟨[], matches_optional_iff.mpr (.inr ⟨rfl, rfl⟩)⟩
  | @code gap digits letter filled blank capital numeral =>
    have fromLetter : Accepts (.all [.group .code vendor]) (letter :: digits ++ []) :=
      Accepts.cons ⟨_, .group (matches_vendor_iff.mpr ⟨⟨letter, digits, capital, numeral, rfl⟩, rfl⟩)⟩
        ⟨[], .nothing⟩
    rw [List.append_nil] at fromLetter
    have fromGap : Accepts (.some (.one isBlank) : Regex LogGroup) gap :=
      ⟨[], Regex.matches_some_one_iff.mpr ⟨filled, blank, rfl⟩⟩
    obtain ⟨gs, given⟩ := fromGap.cons fromLetter
    exact ⟨gs, matches_optional_iff.mpr (.inl given)⟩

theorem accepts_message {tail message : List Char} (part : MessagePart tail message) :
    Accepts (.all [blanks, LogPattern.message]) tail := by
  obtain ⟨blank, oneLine⟩ := part
  exact (accepts_blanks blank).cons ⟨_, matches_message_iff.mpr ⟨oneLine, rfl⟩⟩

/-- What is spelled in a shape is matched by its expression. -/
theorem accepts_of_spells (spelled : Spells pattern cs entry) : Accepts pattern.expression cs := by
  cases spelled with
  | @severityFirst s gap file number tail message blank isFile isNumber isMessage =>
    have fromNumber := (accepts_number .line isNumber).cons ((accepts_message isMessage).behind ':')
    have fromFile := (accepts_number .file isFile).cons (fromNumber.behind ':')
    have fromGap := (accepts_blanks blank).cons fromFile
    exact (accepts_severity Severity.capitals s).cons (fromGap.behind ':')
  | @columnInParentheses s file number column gap tail message isFile isNumber isColumn blank isMessage =>
    have fromSeverity := (accepts_severity Severity.word s).cons ((accepts_message isMessage).behind ':')
    have fromGap := (accepts_blanks blank).cons fromSeverity
    have fromColumn := (accepts_number .column isColumn).cons ((fromGap.behind ':').behind ')')
    have fromNumber := (accepts_number .line isNumber).cons (fromColumn.behind '(')
    exact (accepts_number .file isFile).cons (fromNumber.behind ':')
  | @lineInParentheses s file number before behind suffix tail message isFile isNumber blankBefore blankBehind
      isCode isMessage =>
    have fromCode := (accepts_code isCode).cons ((accepts_message isMessage).behind ':')
    have fromSeverity := (accepts_severity Severity.word s).cons fromCode
    have fromBehind := (accepts_blanks blankBehind).cons fromSeverity
    have fromBefore := (accepts_blanks blankBefore).cons (fromBehind.behind ':')
    have fromNumber := (accepts_number .line isNumber).cons (fromBefore.behind ')')
    exact (accepts_number .file isFile).cons (fromNumber.behind '(')

section Solid

variable {w : Way LogGroup} (solid : Solid cs)

include solid

theorem spells_of_mem_matchings (member : w ∈ pattern.expression.matchings cs) :
    ∃ entry, Spells pattern cs entry ∧ ofGroups? w.groups = some entry :=
  spells_of_matches ((Regex.mem_matchings_iff solid).mp member).2.2

theorem exists_matching_of_spells (spelled : Spells pattern cs entry) :
    ∃ w, w ∈ pattern.expression.matchings cs := by
  obtain ⟨gs, matched⟩ := accepts_of_spells spelled
  exact ⟨⟨cs, gs, []⟩, (Regex.mem_matchings_iff solid).mpr ⟨rfl, rfl, matched⟩⟩

/-- Whichever match is met first, it says what is read of the line. -/
theorem ofTrimmed?_of_mem_matchings (member : w ∈ pattern.expression.matchings cs) :
    ofGroups? w.groups = ofTrimmed? cs ∧ (ofTrimmed? cs).isSome = true := by
  obtain ⟨entry, spelled, said⟩ := spells_of_mem_matchings solid member
  have read : ofTrimmed? cs = some entry := ofTrimmed?_eq_some_iff.mpr ⟨pattern, spelled⟩
  exact ⟨said.trans read.symm, by rw [read]; rfl⟩

end Solid

end LogPattern

/-- What the first match says if the shapes are tried in this order, and the ways of each in that one. -/
def LogEntry.readBy (order : List LogPattern) (explore : LogPattern → List (Way LogGroup)) : Option LogEntry :=
  (order.findSome? fun pattern => (explore pattern).head?).bind fun w => ofGroups? w.groups

theorem LogEntry.readBy_eq_ofTrimmed? {cs : List Char} (solid : Solid cs) {order : List LogPattern}
    (complete : ∀ pattern, pattern ∈ order) {explore : LogPattern → List (Way LogGroup)}
    (explored : ∀ pattern, (explore pattern).Perm (pattern.expression.matchings cs)) :
    readBy order explore = ofTrimmed? cs := by
  unfold readBy
  cases search : order.findSome? fun pattern => (explore pattern).head? with
  | none =>
    refine (Option.eq_none_iff_forall_ne_some.mpr fun entry read => ?_).symm
    obtain ⟨pattern, spelled⟩ := spells_of_ofTrimmed? read
    obtain ⟨w, member⟩ := LogPattern.exists_matching_of_spells solid spelled
    have nothing := List.findSome?_eq_none_iff.mp search pattern (complete pattern)
    rw [List.head?_eq_none_iff] at nothing
    rw [← (explored pattern).mem_iff, nothing] at member
    exact List.not_mem_nil member
  | some w =>
    obtain ⟨pattern, -, first⟩ := List.exists_of_findSome?_eq_some search
    have member := (explored pattern).mem_iff.mp (List.mem_of_head? first)
    exact (LogPattern.ofTrimmed?_of_mem_matchings solid member).1

namespace CompilerLog

open LogEntry

def diagnosed (s : Shader) : Option LogEntry → Except TooManyDigits (Option Diagnostic)
  | none => .ok none
  | some entry => (naturalOf entry.number).map fun (number : Nat) =>
    let bundledLine : Int := (number : Int) - 1
    some ⟨entry.severity, bundledLine, String.ofList entry.message,
      (s.mapLine bundledLine).map fun (m, line) => (m.id, line)⟩

theorem diagnostic?_eq_diagnosed (s : Shader) (line : String) :
    diagnostic? s line = diagnosed s (LogEntry.of? line) := by
  unfold diagnostic? diagnosed
  cases LogEntry.of? line with
  | none => rfl
  | some entry =>
    dsimp only
    cases naturalOf entry.number <;> rfl

/-- Of a trimmed line one of the three expressions is matched at most, and however it is matched, its groups
say the same, which is what is read of the line. So the order in which the expressions are tried and the order
in which the ways of each are tried come to one reading, and to one diagnostic. -/
theorem read_in_any_order (line : String) :
    let cs := trim line.toList
    (∀ p q : LogPattern, ∀ w ∈ p.expression.matchings cs, ∀ v ∈ q.expression.matchings cs,
      p = q ∧ ofGroups? w.groups = ofGroups? v.groups) ∧
    (∀ p : LogPattern, ∀ w ∈ p.expression.matchings cs, ∃ entry, ofGroups? w.groups = some entry ∧
      LogEntry.of? line = some entry) ∧
    ∀ order : List LogPattern, (∀ p, p ∈ order) → ∀ explore : LogPattern → List (Way LogGroup),
      (∀ p, (explore p).Perm (p.expression.matchings cs)) →
      readBy order explore = LogEntry.of? line ∧
      ∀ s, diagnostic? s line = diagnosed s (readBy order explore) := by
  intro cs
  have solid : Solid cs := solid_trim line.toList
  refine ⟨fun p q w inLeft v inRight => ?_, fun p w member => ?_, fun order complete explore explored => ?_⟩
  · obtain ⟨entry, spelled, said⟩ := LogPattern.spells_of_mem_matchings solid inLeft
    obtain ⟨entry', spelled', said'⟩ := LogPattern.spells_of_mem_matchings solid inRight
    obtain ⟨same, rfl⟩ := spelled.unique spelled'
    exact ⟨same, said.trans said'.symm⟩
  · obtain ⟨said, read⟩ := LogPattern.ofTrimmed?_of_mem_matchings solid member
    obtain ⟨entry, read⟩ := Option.isSome_iff_exists.mp read
    exact ⟨entry, said.trans read, read⟩
  · have read : readBy order explore = LogEntry.of? line := readBy_eq_ofTrimmed? solid complete explored
    exact ⟨read, fun s => by rw [read, diagnostic?_eq_diagnosed]⟩

/-- A message that looks like a log line itself, tried from the last shape and from the last way on. -/
theorem read_in_any_order_of_reversed :
    let cs := trim "0(3) : error C1:  ERROR: 0:1: x ".toList
    readBy [.lineInParentheses, .columnInParentheses, .severityFirst]
      (fun p => (p.expression.matchings cs).reverse) = some ⟨.error, ['3'], "ERROR: 0:1: x".toList⟩ := by
  intro cs
  have read : LogEntry.of? "0(3) : error C1:  ERROR: 0:1: x " =
      some ⟨.error, ['3'], "ERROR: 0:1: x".toList⟩ := by decide
  obtain ⟨-, -, ordered⟩ := read_in_any_order "0(3) : error C1:  ERROR: 0:1: x "
  obtain ⟨reversed, -⟩ := ordered [.lineInParentheses, .columnInParentheses, .severityFirst]
    (fun p => by cases p <;> decide) _ (fun p => List.reverse_perm _)
  exact reversed.trans read

end CompilerLog

end ShaderBundle
