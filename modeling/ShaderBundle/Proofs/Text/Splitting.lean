import ShaderBundle.Proofs.Text.Breaks
import ShaderBundle.Proofs.Text.Rows

/-! A text against its lines. Its lines are its rows without an empty one at the end, and that row is there
exactly if the text ends in a line feed; so neither side loses more than this one line feed. -/
namespace ShaderBundle.Text

variable {lines front : List String} {text last : String}

theorem rows_ne_nil (text : String) : rows text ≠ [] := by
  simp [rows, List.splitOn_ne_nil]

theorem joinLines_rows (text : String) : joinLines (rows text) = text := by
  rw [joinLines, rows, List.map_map, ← String.toList_inj, String.toList_ofList]
  have same : String.toList ∘ String.ofList = id := funext fun cs => String.toList_ofList
  rw [same, List.map_id, List.intercalate_splitOn]

/-- The lines are the rows, but for an empty row at the end. -/
theorem splitLines_eq_rows (text : String) :
    splitLines text = if (rows text).getLast? = some "" then (rows text).dropLast else rows text := by
  have last : (rows text).getLast? = some "" ↔ (text.toList.splitOn '\n').getLast? = some [] := by
    simp [rows]
  unfold splitLines
  dsimp only
  by_cases empty : (text.toList.splitOn '\n').getLast? = some []
  · rw [if_pos empty, if_pos (last.mpr empty), rows, List.map_dropLast]
  · rw [if_neg empty, if_neg (last.not.mpr empty), rows]

/-- The last row is what stands behind the last line feed. -/
theorem getLast?_eq_feed_iff (split : rows text = front ++ [last]) :
    text.toList.getLast? = some '\n' ↔ last = "" ∧ front ≠ [] := by
  have member : last ∈ rows text := by simp [split]
  have free : '\n' ∉ last.toList := oneLine_of_mem_rows member
  have whole := joinLines_rows text
  rw [split] at whole
  by_cases bare : front = []
  · subst bare
    have single : joinLines [last] = last := by simp [joinLines]
    obtain rfl : last = text := single.symm.trans whole
    refine ⟨fun ends => absurd (List.mem_of_getLast? ends) free, ?_⟩
    rintro ⟨-, some⟩
    exact absurd rfl some
  · constructor
    · intro ends
      refine ⟨?_, bare⟩
      by_contra filled
      rw [← whole, joinLines_append bare (List.cons_ne_nil last []), String.toList_append] at ends
      have single : joinLines [last] = last := by simp [joinLines]
      have some : last.toList ≠ [] := by simpa using filled
      rw [single, List.getLast?_append_of_ne_nil _ some] at ends
      exact free (List.mem_of_getLast? ends)
    · rintro ⟨rfl, -⟩
      rw [← whole]
      exact getLast?_joinLines bare

/-- A text is the join of its lines, with a line feed behind them if it ends in one. -/
theorem joinLines_splitLines (text : String) :
    joinLines (splitLines text) ++ (if text.toList.getLast? = some '\n' then "\n" else "") = text := by
  obtain ⟨front, last, split⟩ := (List.eq_nil_or_concat' (rows text)).resolve_left (rows_ne_nil text)
  have ends := getLast?_eq_feed_iff split
  have whole := joinLines_rows text
  rw [splitLines_eq_rows, split]
  rw [split] at whole
  by_cases empty : last = ""
  · subst empty
    rw [List.getLast?_concat, if_pos rfl, List.dropLast_concat]
    by_cases bare : front = []
    · subst bare
      rw [if_neg (by simp [ends]), ← whole]
      rfl
    · rw [if_pos (ends.mpr ⟨rfl, bare⟩)]
      rw [joinLines_append bare (List.cons_ne_nil "" [])] at whole
      have nothing : joinLines [""] = "" := rfl
      rwa [nothing, String.append_empty] at whole
  · rw [List.getLast?_concat, if_neg (by simp [empty]), if_neg (by simp [ends, empty]), whole,
      String.append_empty]

theorem splitLines_eq_nil_iff : splitLines text = [] ↔ text = "" := by
  constructor
  · intro none
    have whole := joinLines_splitLines text
    rw [none] at whole
    by_cases ends : text.toList.getLast? = some '\n'
    · rw [if_pos ends] at whole
      rw [← whole] at none
      exact absurd none (by decide)
    · rw [if_neg ends] at whole
      exact whole.symm
  · rintro rfl
    decide

/-- Lines without line feeds are read back from their join, unless the last one is empty. -/
theorem splitLines_joinLines_of_ends (free : ∀ line ∈ lines, OneLine line)
    (ends : lines.getLast? ≠ some "") : splitLines (joinLines lines) = lines := by
  by_cases none : lines = []
  · subst none
    decide
  · have split := rows_joinLines none
    rw [flatMap_rows_eq_self_iff.mpr free] at split
    rw [splitLines_eq_rows, split, if_neg ends]

/-- What is left of ended lines without their last line feed is their join. -/
theorem eq_joinLines_of_append_feed (ended : text ++ "\n" = endLines lines) : text = joinLines lines := by
  have some : lines ≠ [] := by
    rintro rfl
    exact absurd (congrArg String.length ended) (by simp [endLines])
  rw [endLines_eq_joinLines, joinLines_append some (List.cons_ne_nil "" [])] at ended
  have nothing : joinLines [""] = "" := rfl
  rw [nothing, String.append_empty, ← String.toList_inj, String.toList_append, String.toList_append,
    List.append_cancel_right_eq] at ended
  exact String.toList_inj.mp ended

/-- Lines without line feeds are read back from the text in which each of them is ended, and also from that
text without its last line feed, unless the last line is empty, which is then lost. Of every text the lines
hold no line feed, and the text is their join, ended if it ends in a line feed; only the empty text has no
lines. -/
theorem splitLines_inverse (free : ∀ line ∈ lines, OneLine line) :
    splitLines (endLines lines) = lines ∧
    (∀ text, text ++ "\n" = endLines lines →
      (splitLines text = lines ↔ lines.getLast? ≠ some "") ∧
      (lines.getLast? = some "" → splitLines text = lines.dropLast)) ∧
    ∀ text,
      joinLines (splitLines text) ++ (if text.toList.getLast? = some '\n' then "\n" else "") = text ∧
      (∀ line ∈ splitLines text, OneLine line) ∧ (splitLines text = [] ↔ text = "") := by
  refine ⟨splitLines_endLines free, fun text ended => ?_, fun text => ?_⟩
  · obtain rfl := eq_joinLines_of_append_feed ended
    have dropped (last : lines.getLast? = some "") : splitLines (joinLines lines) = lines.dropLast :=
      splitLines_joinLines free (by simp [last])
    refine ⟨⟨fun same last => ?_, splitLines_joinLines_of_ends free⟩, dropped⟩
    rw [dropped last] at same
    have shorter := congrArg List.length same
    rw [List.length_dropLast] at shorter
    have some := List.length_pos_of_mem (List.mem_of_getLast? last)
    omega
  · exact ⟨joinLines_splitLines text, fun line => oneLine_of_mem_splitLines, splitLines_eq_nil_iff⟩

/-- An empty line between two others and one at the end. -/
theorem splitLines_inverse_of_empty :
    (∀ line ∈ ["a", "", "b", ""], OneLine line) ∧ splitLines "a\n\nb\n\n" = ["a", "", "b", ""] ∧
      splitLines "a\n\nb\n" = ["a", "", "b"] ∧
      joinLines (splitLines "\n\nb") ++ (if "\n\nb".toList.getLast? = some '\n' then "\n" else "") =
        "\n\nb" := by
  have free : ∀ line ∈ ["a", "", "b", ""], OneLine line := by simp [OneLine]
  obtain ⟨ended, unended, texts⟩ := splitLines_inverse free
  have last : ["a", "", "b", ""].getLast? = some "" := rfl
  exact ⟨free, ended, (unended "a\n\nb\n" (by decide)).2 last, (texts "\n\nb").1⟩

end ShaderBundle.Text
