import ShaderBundle.Proofs.CompilerLog.Pattern

/-! A log line that is made of the parts of a shape is read in that shape, however its parts are told apart.
As the three shapes begin differently, a line says one thing at most. -/
namespace ShaderBundle.LogEntry

open Text

variable {pattern pattern' : LogPattern} {cs gap code tail message rest ds : List Char} {c : Char}
  {entry entry' : LogEntry} {severity : Severity}

theorem digits?_stops (numeral : IsNumeral ds) (stops : isDigit c = false) :
    digits? (ds ++ c :: rest) = some (ds, c :: rest) :=
  digits?_numeral numeral (by simpa using stops)

theorem trimStart_numeral (blank : AllBlank gap) (numeral : IsNumeral ds) :
    trimStart (gap ++ (ds ++ rest)) = ds ++ rest := by
  obtain ⟨digit, others, rfl⟩ := List.exists_cons_of_ne_nil numeral.some
  rw [trimStart_blanks blank]
  exact trimStart_cons _ (isBlank_of_digit (numeral.digits digit List.mem_cons_self))

theorem trimStart_colon (blank : AllBlank gap) : trimStart (gap ++ ':' :: rest) = ':' :: rest := by
  rw [trimStart_blanks blank]
  exact trimStart_cons rest (by decide)

theorem trimStart_word (blank : AllBlank gap) :
    trimStart (gap ++ (severity.word.toList ++ rest)) = severity.word.toList ++ rest := by
  rw [trimStart_blanks blank]
  cases severity <;> simp [trimStart, Severity.word, isBlank]

theorem trim_blanks (blank : AllBlank gap) (cs : List Char) : trim (gap ++ cs) = trim cs := by
  rw [trim, trim, trimStart_blanks blank]

theorem trim_trimStart (cs : List Char) : trim (trimStart cs) = trim cs := by
  obtain ⟨gap, blank, split⟩ := exists_gap cs
  conv_rhs => rw [split, trim_blanks blank]

/-- A message is read whatever part of the blanks in front of it is told apart from it. -/
theorem message?_of_messagePart (part : MessagePart cs message) : message? cs = some message := by
  cases part with
  | message blank oneLine =>
    have free : '\n' ∉ trimStart _ := fun feed => oneLine (trimStart_subset _ feed)
    unfold message?
    rw [trimStart_blanks blank]
    simp [free, trim_trimStart]

theorem behindCode_of_codePart (part : CodePart code) : behindCode (code ++ ':' :: tail) = some tail := by
  cases part with
  | none => exact behindCode_colon tail
  | @code gap digits letter filled blank capital numeral =>
    obtain ⟨first, others, rfl⟩ := List.exists_cons_of_ne_nil filled
    have isBlankFirst : isBlank first = true := blank first List.mem_cons_self
    have other : first ≠ ':' := by
      rintro rfl
      exact absurd isBlankFirst (by decide)
    have solid : isBlank letter = false := by
      have low : 65 ≤ letter.toNat := capital.1
      have high : letter.toNat ≤ 90 := capital.2
      exact isBlank_of_graphic (by omega) (by omega)
    have start : trimStart (first :: (others ++ letter :: (digits ++ ':' :: tail))) =
        letter :: (digits ++ ':' :: tail) := by
      rw [← List.cons_append, trimStart_blanks blank, trimStart_cons _ solid]
    have number : digits? (digits ++ ':' :: tail) = some (digits, ':' :: tail) :=
      digits?_stops numeral isDigit_colon
    have parts : first :: others ++ letter :: digits ++ ':' :: tail =
        first :: (others ++ letter :: (digits ++ ':' :: tail)) := by simp
    rw [parts]
    unfold behindCode
    split
    · rename_i colon
      exact absurd (List.cons.inj colon).1 other
    · rename_i c tail' _ same
      obtain ⟨rfl, rfl⟩ := List.cons.inj same
      simp [isBlankFirst, start, capital, number]
    · rename_i none
      cases none

def read? : LogPattern → List Char → Option LogEntry
  | .severityFirst => severityFirst?
  | .columnInParentheses => columnInParentheses?
  | .lineInParentheses => lineInParentheses?

/-- What is spelled in a shape is read in it. -/
theorem read?_of_spells (spelled : Spells pattern cs entry) : read? pattern cs = some entry := by
  cases spelled with
  | severityFirst blank isFile isNumber isMessage =>
    simp only [read?, severityFirst?, severity?_capitals, behind_cons, trimStart_numeral blank isFile,
      digits?_stops isFile isDigit_colon, digits?_stops isNumber isDigit_colon,
      message?_of_messagePart isMessage, Option.bind_eq_bind, Option.bind_some]
    rfl
  | columnInParentheses isFile isNumber isColumn blank isMessage =>
    simp only [read?, columnInParentheses?, severity?_word, behind_cons, trimStart_word blank,
      digits?_stops isFile isDigit_colon, digits?_stops isNumber isDigit_opening,
      digits?_stops isColumn isDigit_closing, message?_of_messagePart isMessage, Option.bind_eq_bind,
      Option.bind_some]
    rfl
  | lineInParentheses isFile isNumber blankBefore blankBehind isCode isMessage =>
    simp only [read?, lineInParentheses?, severity?_word, behind_cons, trimStart_colon blankBefore,
      trimStart_word blankBehind, digits?_stops isFile isDigit_opening,
      digits?_stops isNumber isDigit_closing, behindCode_of_codePart isCode,
      message?_of_messagePart isMessage, Option.bind_eq_bind, Option.bind_some]
    rfl

/-- The shape that a line can have, told from what stands behind the digits it begins with. -/
def told? (cs : List Char) : Option LogPattern :=
  match digits? cs with
  | none => some .severityFirst
  | some (_, ':' :: _) => some .columnInParentheses
  | some (_, '(' :: _) => some .lineInParentheses
  | some _ => none

theorem told?_of_spells (spelled : Spells pattern cs entry) : told? cs = some pattern := by
  cases spelled with
  | @severityFirst severity => cases severity <;> rfl
  | columnInParentheses isFile => rw [told?, digits?_stops isFile isDigit_colon]; rfl
  | lineInParentheses isFile => rw [told?, digits?_stops isFile isDigit_opening]; rfl

/-- A line is spelled in one shape at most, and says one thing. -/
theorem Spells.unique (left : Spells pattern cs entry) (right : Spells pattern' cs entry') :
    pattern = pattern' ∧ entry = entry' := by
  obtain rfl : pattern = pattern' :=
    Option.some.inj ((told?_of_spells left).symm.trans (told?_of_spells right))
  exact ⟨rfl, Option.some.inj ((read?_of_spells left).symm.trans (read?_of_spells right))⟩

theorem exists_ofTrimmed?_of_read? (read : read? pattern cs = some entry) :
    ∃ found, ofTrimmed? cs = some found := by
  rw [← Option.isSome_iff_exists, ofTrimmed?]
  cases pattern with
  | severityFirst => rw [show severityFirst? cs = some entry from read]; rfl
  | columnInParentheses =>
    rw [show columnInParentheses? cs = some entry from read]
    cases severityFirst? cs <;> rfl
  | lineInParentheses =>
    rw [show lineInParentheses? cs = some entry from read]
    cases severityFirst? cs <;> cases columnInParentheses? cs <;> rfl

/-- A trimmed line is read exactly as it is spelled. -/
theorem ofTrimmed?_eq_some_iff : ofTrimmed? cs = some entry ↔ ∃ pattern, Spells pattern cs entry := by
  refine ⟨spells_of_ofTrimmed?, ?_⟩
  rintro ⟨pattern, spelled⟩
  obtain ⟨found, read⟩ := exists_ofTrimmed?_of_read? (read?_of_spells spelled)
  obtain ⟨pattern', spelled'⟩ := spells_of_ofTrimmed? read
  rw [read, (spelled.unique spelled').2]

end ShaderBundle.LogEntry
