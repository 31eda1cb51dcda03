import ShaderBundle.Proofs.Text.Lines

/-! Rows. A line of a join takes up one row of it, and one more for each line feed in it; so lines without
line feeds are read back from their join, and any such line is a row, further down than its number by the
line feeds of the lines before it. -/
namespace ShaderBundle.Text

/-- The rows that a text takes up, one if it is empty. -/
def rows (text : String) : List String := (text.toList.splitOn '\n').map String.ofList

variable {lines : List String} {text : String}

theorem oneLine_iff : OneLine text ↔ breaks text = 0 := List.count_eq_zero.symm

theorem length_rows (text : String) : (rows text).length = breaks text + 1 := by
  rw [rows, List.length_map, length_splitOn, breaks]

theorem rows_eq_singleton (free : OneLine text) : rows text = [text] := by
  rw [rows, List.splitOn_eq_singleton free, List.map_singleton, String.ofList_toList]

theorem oneLine_of_mem_rows {row : String} (member : row ∈ rows text) : OneLine row := by
  obtain ⟨piece, inPieces, rfl⟩ := List.mem_map.mp member
  rw [OneLine, String.toList_ofList]
  exact (mem_splitOn inPieces).1

theorem pieces_eq_rows (some : text ≠ "") : pieces text = rows text := if_neg some

/-- A join has the rows of its lines. -/
theorem rows_joinLines (some : lines ≠ []) : rows (joinLines lines) = lines.flatMap rows := by
  induction lines with
  | nil => contradiction
  | cons line rest ih =>
    by_cases last : rest = []
    · subst last
      simp [joinLines]
    · rw [rows, toList_joinLines_cons line last, List.splitOn_append_cons_self, List.map_append,
        List.flatMap_cons, ← ih last]
      rfl

/-- The pieces of a join are the rows of its lines, but for a single empty line. -/
theorem pieces_joinLines_eq_rows (content : lines ≠ [""]) :
    pieces (joinLines lines) = lines.flatMap rows := by
  cases lines with
  | nil => rfl
  | cons line rest =>
    have filled : joinLines (line :: rest) ≠ "" := by
      by_cases last : rest = []
      · subst last
        simpa [joinLines] using content
      · rw [← String.toList_inj.ne, toList_joinLines_cons line last]
        simp
    rw [pieces_eq_rows filled, rows_joinLines (List.cons_ne_nil line rest)]

theorem length_flatMap_rows (lines : List String) :
    (lines.flatMap rows).length = lines.length + (lines.map breaks).sum := by
  induction lines with
  | nil => rfl
  | cons line rest ih =>
    rw [List.flatMap_cons, List.length_append, ih, length_rows, List.length_cons, List.map_cons,
      List.sum_cons]
    omega

/-- A join has the line feeds of its lines and one behind each line but the last. -/
theorem breaks_joinLines (some : lines ≠ []) :
    breaks (joinLines lines) + 1 = (lines.map breaks).sum + lines.length := by
  rw [← length_rows, rows_joinLines some, length_flatMap_rows, Nat.add_comm]

/-- The rows are the lines themselves exactly if no line has a line feed. -/
theorem flatMap_rows_eq_self_iff : lines.flatMap rows = lines ↔ ∀ line ∈ lines, OneLine line := by
  constructor
  · intro same line member
    rw [← same] at member
    obtain ⟨whole, -, inRows⟩ := List.mem_flatMap.mp member
    exact oneLine_of_mem_rows inRows
  · intro free
    induction lines with
    | nil => rfl
    | cons line rest ih =>
      obtain ⟨head, tail⟩ := List.forall_mem_cons.mp free
      rw [List.flatMap_cons, rows_eq_singleton head, ih tail]
      rfl

/-- Lines without line feeds are the pieces of their join, but for a single empty line. -/
theorem pieces_joinLines (free : ∀ line ∈ lines, OneLine line) (content : lines ≠ [""]) :
    pieces (joinLines lines) = lines :=
  (pieces_joinLines_eq_rows content).trans (flatMap_rows_eq_self_iff.mpr free)

/-- Lines without line feeds at the front of a join are read back, whatever stands behind them. -/
theorem prefix_pieces_joinLines {front back : List String} (free : ∀ line ∈ front, OneLine line)
    (more : back ≠ []) : front <+: pieces (joinLines (front ++ back)) := by
  by_cases bare : front = []
  · subst bare
    exact List.nil_prefix
  · have content : front ++ back ≠ [""] := by
      intro single
      have both : front.length + back.length = 1 := by rw [← List.length_append, single]; rfl
      have left := List.length_pos_of_ne_nil bare
      have right := List.length_pos_of_ne_nil more
      omega
    rw [pieces_joinLines_eq_rows content, List.flatMap_append, flatMap_rows_eq_self_iff.mpr free]
    exact List.prefix_append ..

/-- A line without line feeds is the row that its number and the line feeds before it come to. -/
theorem getElem?_flatMap_rows {k : Nat} (here : lines[k]? = some text) (free : OneLine text) :
    (lines.flatMap rows)[k + ((lines.take k).map breaks).sum]? = some text := by
  induction lines generalizing k with
  | nil => simp at here
  | cons line rest ih =>
    rw [List.flatMap_cons]
    cases k with
    | zero =>
      obtain rfl := Option.some.inj here
      rw [rows_eq_singleton free]
      rfl
    | succ k =>
      have later : (rest.flatMap rows)[k + ((rest.take k).map breaks).sum]? = some text := ih here
      rw [List.take_succ_cons, List.map_cons, List.sum_cons]
      rw [List.getElem?_append_right (by rw [length_rows]; omega), length_rows]
      rw [← later]
      congr 1
      omega

end ShaderBundle.Text
