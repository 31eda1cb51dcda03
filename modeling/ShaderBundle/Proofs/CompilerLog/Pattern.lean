import ShaderBundle.Proofs.CompilerLog.Shape

/-! The shapes of a log line told without a reader: which parts stand one behind the other. A line that is
read in a shape is made of its parts. No shape begins with the place of a diagnostic: behind a name and a
number it goes on with a blank, where the shapes that begin like that go on with a digit or a parenthesis. -/
namespace ShaderBundle

open Text

inductive LogPattern
  | severityFirst
  | columnInParentheses
  | lineInParentheses
  deriving DecidableEq, Repr

namespace LogEntry

inductive CodePart : List Char → Prop
  | none : CodePart []
  | code {gap digits : List Char} {letter : Char} (some : gap ≠ []) (blank : AllBlank gap)
    (capital : 'A' ≤ letter ∧ letter ≤ 'Z') (numeral : IsNumeral digits) :
    CodePart (gap ++ letter :: digits)

inductive MessagePart : List Char → List Char → Prop
  | message {gap tail : List Char} (blank : AllBlank gap) (oneLine : '\n' ∉ tail) :
    MessagePart (gap ++ tail) (trim tail)

/-- All that a line can be made of to say what an entry says. -/
inductive Spells : LogPattern → List Char → LogEntry → Prop
  | severityFirst {severity : Severity} {gap file number tail message : List Char} (blank : AllBlank gap)
    (isFile : IsNumeral file) (isNumber : IsNumeral number) (isMessage : MessagePart tail message) :
    Spells .severityFirst
      (severity.capitals.toList ++ ':' :: (gap ++ (file ++ ':' :: (number ++ ':' :: tail))))
      ⟨severity, number, message⟩
  | columnInParentheses {severity : Severity} {file number column gap tail message : List Char}
    (isFile : IsNumeral file) (isNumber : IsNumeral number) (isColumn : IsNumeral column)
    (blank : AllBlank gap) (isMessage : MessagePart tail message) :
    Spells .columnInParentheses
      (file ++ ':' :: (number ++ '(' :: (column ++ ')' :: ':' ::
        (gap ++ (severity.word.toList ++ ':' :: tail)))))
      ⟨severity, number, message⟩
  | lineInParentheses {severity : Severity} {file number before behind code tail message : List Char}
    (isFile : IsNumeral file) (isNumber : IsNumeral number) (blankBefore : AllBlank before)
    (blankBehind : AllBlank behind) (isCode : CodePart code) (isMessage : MessagePart tail message) :
    Spells .lineInParentheses
      (file ++ '(' :: (number ++ ')' :: (before ++ ':' :: (behind ++
        (severity.word.toList ++ (code ++ ':' :: tail))))))
      ⟨severity, number, message⟩

variable {cs ds rest : List Char}

theorem behind_eq_some_iff {c : Char} : behind c cs = some rest ↔ cs = c :: rest := by
  cases cs with
  | nil => simp [behind]
  | cons head tail =>
    simp only [behind, Option.ite_none_right_eq_some, Option.some.injEq, List.cons.injEq]

theorem digits?_eq_some_iff : digits? cs = some (ds, rest) ↔
    IsNumeral ds ∧ cs = ds ++ rest ∧ ∀ c ∈ rest.head?, isDigit c = false := by
  constructor
  · intro read
    unfold digits? at read
    rw [List.span_eq_takeWhile_dropWhile] at read
    split at read
    · simp at read
    · rename_i front back nonempty split
      obtain ⟨rfl, rfl⟩ := Prod.mk.inj (Option.some.inj read)
      obtain ⟨rfl, rfl⟩ := Prod.mk.inj split
      refine ⟨⟨fun none => nonempty (by rw [none]), fun c member => List.mem_takeWhile_imp member⟩,
        List.takeWhile_append_dropWhile.symm, fun c first => ?_⟩
      have stops := List.head?_dropWhile_not isDigit cs
      rw [show (cs.dropWhile isDigit).head? = some c from first] at stops
      exact stops
  · rintro ⟨numeral, rfl, stops⟩
    exact digits?_numeral numeral stops

theorem severity?_eq_some {word : Severity → String} {severity : Severity}
    (read : severity? word cs = some (severity, rest)) : cs = (word severity).toList ++ rest := by
  unfold severity? at read
  split at read
  · rename_i found
    obtain ⟨rfl, rfl⟩ := Prod.mk.inj (Option.some.inj read)
    exact (List.isPrefixOf?_eq_some_iff_append_eq.mp found).symm
  · obtain ⟨found, isPrefix, same⟩ := Option.map_eq_some_iff.mp read
    obtain ⟨rfl, rfl⟩ := Prod.mk.inj same
    exact (List.isPrefixOf?_eq_some_iff_append_eq.mp isPrefix).symm

theorem exists_gap (cs : List Char) : ∃ gap, AllBlank gap ∧ cs = gap ++ trimStart cs :=
  ⟨cs.takeWhile isBlank, fun _ member => List.mem_takeWhile_imp member,
    List.takeWhile_append_dropWhile.symm⟩

theorem messagePart_of_message? {message : List Char} (read : message? cs = some message) :
    MessagePart cs message := by
  unfold message? at read
  dsimp only at read
  split at read
  · simp at read
  · rename_i oneLine
    obtain ⟨gap, blank, split⟩ := exists_gap cs
    obtain rfl := Option.some.inj read
    have part : MessagePart (gap ++ trimStart cs) (trim (trimStart cs)) :=
      .message blank (by simpa using oneLine)
    rwa [← split] at part

theorem exists_codePart (read : behindCode cs = some rest) :
    ∃ code, CodePart code ∧ cs = code ++ ':' :: rest := by
  unfold behindCode at read
  split at read
  · obtain rfl := Option.some.inj read
    exact ⟨[], .none, rfl⟩
  · rename_i first tail noColon
    split at read
    · simp at read
    · rename_i blank
      split at read
      · rename_i letter behindLetter start
        split at read
        · rename_i capital
          obtain ⟨⟨digits, tail'⟩, number, colon⟩ := Option.bind_eq_some_iff.mp read
          obtain ⟨numeral, rfl, -⟩ := digits?_eq_some_iff.mp number
          obtain rfl := behind_eq_some_iff.mp colon
          obtain ⟨gap, allBlank, split⟩ := exists_gap (first :: tail)
          have some : gap ≠ [] := by
            rintro rfl
            rw [List.nil_append, start] at split
            obtain ⟨rfl, -⟩ := List.cons.inj split
            have solid := head?_trimStart (first :: tail) first (by rw [start]; rfl)
            simp [solid] at blank
          refine ⟨gap ++ letter :: digits, .code some allBlank (by simpa using capital) numeral, ?_⟩
          rw [split, start]
          simp
        · simp at read
      · simp at read
  · simp at read

theorem MessagePart.subset {tail message : List Char} (part : MessagePart tail message) :
    message ⊆ tail := by
  cases part with
  | message => exact List.Subset.trans (trim_subset _) (List.subset_append_right ..)

theorem Spells.message_subset {pattern : LogPattern} {entry : LogEntry}
    (spelled : Spells pattern cs entry) : entry.message ⊆ cs := by
  intro c member
  cases spelled with
  | severityFirst _ _ _ isMessage => simp [isMessage.subset member]
  | columnInParentheses _ _ _ _ isMessage => simp [isMessage.subset member]
  | lineInParentheses _ _ _ _ _ isMessage => simp [isMessage.subset member]

/-! ### What is read is spelled -/

variable {entry : LogEntry}

theorem spells_of_severityFirst? (read : severityFirst? cs = some entry) :
    Spells .severityFirst cs entry := by
  simp only [severityFirst?, bind, Option.bind_eq_some_iff, Prod.exists, pure, Option.some.injEq] at read
  obtain ⟨severity, afterSeverity, word, afterColon, colon, file, afterFile, digits, beforeNumber,
    colon', number, afterNumber, digits', tail, colon'', message, said, rfl⟩ := read
  obtain rfl := severity?_eq_some word
  obtain rfl := behind_eq_some_iff.mp colon
  obtain ⟨gap, blank, split⟩ := exists_gap afterColon
  obtain ⟨isFile, file, -⟩ := digits?_eq_some_iff.mp digits
  obtain rfl := behind_eq_some_iff.mp colon'
  obtain ⟨isNumber, rfl, -⟩ := digits?_eq_some_iff.mp digits'
  obtain rfl := behind_eq_some_iff.mp colon''
  rw [split, file]
  exact .severityFirst blank isFile isNumber (messagePart_of_message? said)

theorem spells_of_columnInParentheses? (read : columnInParentheses? cs = some entry) :
    Spells .columnInParentheses cs entry := by
  simp only [columnInParentheses?, bind, Option.bind_eq_some_iff, Prod.exists, pure,
    Option.some.injEq] at read
  obtain ⟨file, afterFile, digits, beforeNumber, colon, number, afterNumber, digits', beforeColumn,
    opening, column, afterColumn, digits'', behindColumn, closing, beforeSeverity, colon', severity,
    afterSeverity, word, tail, colon'', message, said, rfl⟩ := read
  obtain ⟨isFile, rfl, -⟩ := digits?_eq_some_iff.mp digits
  obtain rfl := behind_eq_some_iff.mp colon
  obtain ⟨isNumber, rfl, -⟩ := digits?_eq_some_iff.mp digits'
  obtain rfl := behind_eq_some_iff.mp opening
  obtain ⟨isColumn, rfl, -⟩ := digits?_eq_some_iff.mp digits''
  obtain rfl := behind_eq_some_iff.mp closing
  obtain rfl := behind_eq_some_iff.mp colon'
  obtain ⟨gap, blank, split⟩ := exists_gap beforeSeverity
  have start := severity?_eq_some word
  obtain rfl := behind_eq_some_iff.mp colon''
  rw [split, start]
  exact .columnInParentheses isFile isNumber isColumn blank (messagePart_of_message? said)

theorem spells_of_lineInParentheses? (read : lineInParentheses? cs = some entry) :
    Spells .lineInParentheses cs entry := by
  simp only [lineInParentheses?, bind, Option.bind_eq_some_iff, Prod.exists, pure,
    Option.some.injEq] at read
  obtain ⟨file, afterFile, digits, beforeNumber, opening, number, afterNumber, digits', beforeColon,
    closing, behindColon, colon, severity, afterSeverity, word, tail, suffix, message, said, rfl⟩ := read
  obtain ⟨isFile, rfl, -⟩ := digits?_eq_some_iff.mp digits
  obtain rfl := behind_eq_some_iff.mp opening
  obtain ⟨isNumber, rfl, -⟩ := digits?_eq_some_iff.mp digits'
  obtain rfl := behind_eq_some_iff.mp closing
  obtain ⟨before, blankBefore, split⟩ := exists_gap beforeColon
  have trimmed := behind_eq_some_iff.mp colon
  obtain ⟨behind, blankBehind, split'⟩ := exists_gap behindColon
  have start := severity?_eq_some word
  obtain ⟨code, isCode, rfl⟩ := exists_codePart suffix
  rw [split, trimmed, split', start]
  exact .lineInParentheses isFile isNumber blankBefore blankBehind isCode (messagePart_of_message? said)

/-- What is read of a trimmed line is spelled there in one of the three shapes. -/
theorem spells_of_ofTrimmed? (read : ofTrimmed? cs = some entry) :
    ∃ pattern, Spells pattern cs entry := by
  unfold ofTrimmed? at read
  cases first : severityFirst? cs with
  | some found =>
    obtain rfl : found = entry := by simpa [first] using read
    exact ⟨_, spells_of_severityFirst? first⟩
  | none =>
    cases second : columnInParentheses? cs with
    | some found =>
      obtain rfl : found = entry := by simpa [first, second] using read
      exact ⟨_, spells_of_columnInParentheses? second⟩
    | none =>
      have third : lineInParentheses? cs = some entry := by simpa [first, second] using read
      exact ⟨_, spells_of_lineInParentheses? third⟩

/-! ### Where the parts end -/

variable {front : List Char}

theorem colon_not_mem_of_blank (blank : AllBlank front) : ':' ∉ front := by
  intro member
  exact absurd (blank _ member) (by decide)

theorem colon_not_mem_of_numeral (numeral : IsNumeral front) : ':' ∉ front := by
  intro member
  exact absurd (numeral.digits _ member) (by decide)

variable {pattern : LogPattern} {name : List Char} {n : Nat}

/-- No shape begins with a name, a number, and a colon and a blank behind the number. -/
theorem not_spells_place (free : ':' ∉ name) :
    ¬ Spells pattern (name ++ ':' :: (Nat.toDigits 10 n ++ ':' :: ' ' :: rest)) entry := by
  have numeral := isNumeral_toDigits n
  generalize place : name ++ ':' :: (Nat.toDigits 10 n ++ ':' :: ' ' :: rest) = cs
  intro spelled
  cases spelled with
  | @severityFirst severity gap file number tail message blank isFile isNumber =>
    have word : ':' ∉ severity.capitals.toList := by cases severity <;> decide
    obtain ⟨-, behind⟩ := colon_unique free word place
    have fileFree : ':' ∉ gap ++ file := by
      rw [List.mem_append, not_or]
      exact ⟨colon_not_mem_of_blank blank, colon_not_mem_of_numeral isFile⟩
    rw [← List.append_assoc] at behind
    obtain ⟨-, behind⟩ := colon_unique (colon_not_mem_of_numeral numeral) fileFree behind
    obtain ⟨digit, digits, rfl⟩ := List.exists_cons_of_ne_nil isNumber.some
    obtain ⟨rfl, -⟩ := List.cons.inj behind
    exact absurd (isNumber.digits _ List.mem_cons_self) (by decide)
  | @columnInParentheses severity file number column gap tail message isFile isNumber isColumn blank =>
    obtain ⟨-, behind⟩ := colon_unique free (colon_not_mem_of_numeral isFile) place
    have digits {ds : List Char} (numeral : IsNumeral ds) : ∀ c ∈ ds, (!isDigit c) = false := by
      intro c member
      simp [numeral.digits c member]
    obtain ⟨-, stops, -⟩ := split_unique (digits numeral) (digits isNumber) (by decide) (by decide) behind
    exact absurd stops (by decide)
  | @lineInParentheses severity file number before after code tail message isFile isNumber blank blank' =>
    have front : ':' ∉ file ++ '(' :: (number ++ ')' :: before) := by
      simp [colon_not_mem_of_numeral isFile, colon_not_mem_of_numeral isNumber,
        colon_not_mem_of_blank blank]
    obtain ⟨-, behind⟩ := colon_unique free front (by simpa using place)
    obtain ⟨digit, digits, begins⟩ := List.exists_cons_of_ne_nil numeral.some
    have ascii : digit.isDigit = true :=
      isDigit_of_mem_toDigits (n := n) (by rw [begins]; exact List.mem_cons_self)
    rw [begins] at behind
    cases after with
    | nil => cases severity <;> simp [Severity.word] at behind <;> simp [behind.1] at ascii
    | cons first others =>
      obtain ⟨rfl, -⟩ := List.cons.inj behind
      exact absurd (blank' _ List.mem_cons_self) (by simp [isBlank_of_ascii ascii])

end LogEntry

end ShaderBundle
