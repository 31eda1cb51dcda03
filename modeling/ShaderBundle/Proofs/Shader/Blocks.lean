import ShaderBundle.Shader
import Mathlib.Data.List.Basic

/-! Where the layout puts each line, and the blocks it notes. Hoisted lines take the first places, one
block each; behind them stand the bodies, and a body's block leaves out its marker and its empty
line. The blocks follow each other without overlap, so at most one contains a line. -/
namespace ShaderBundle.Shader

theorem contains_iff {b : SourceBlock} {line : Int} :
    b.contains line = true ↔ b.bundled.first ≤ line ∧ line ≤ b.bundled.last := by
  simp [SourceBlock.contains, LineRange.contains]

/-- The body of `m` is laid out behind `offset` lines of other bodies. -/
def BodyAt (sorted : List Module) (m : Module) (offset : Nat) : Prop :=
  ∃ before after, sorted = before ++ m :: after ∧ m.lines ≠ [] ∧
    offset = (bodyLines before).length

theorem BodyAt.mem {sorted : List Module} {m : Module} {offset : Nat}
    (place : BodyAt sorted m offset) : m ∈ sorted := by
  obtain ⟨before, after, rfl, -, -⟩ := place
  simp

theorem BodyAt.filled {sorted : List Module} {m : Module} {offset : Nat}
    (place : BodyAt sorted m offset) : m.lines ≠ [] := by
  obtain ⟨before, after, -, filled, -⟩ := place
  exact filled

def bodyBlock (start : Nat) (m : Module) : SourceBlock :=
  ⟨m.id, ⟨start + 1, start + m.lines.length⟩, ⟨0, (m.lines.length : Int) - 1⟩⟩

def hoistedBlock (start : Nat) (entry : String × HoistedLine) : SourceBlock :=
  ⟨entry.1, .single start, .single entry.2.line⟩

theorem isEmpty_iff {m : Module} : m.isEmpty = true ↔ m.lines = [] := by
  simp [Module.isEmpty]

theorem bodyLines_cons_of_empty {m : Module} (rest : List Module) (empty : m.lines = []) :
    bodyLines (m :: rest) = bodyLines rest := by
  simp [bodyLines, isEmpty_iff.mpr empty]

theorem bodyLines_cons {m : Module} (rest : List Module) (filled : m.lines ≠ []) :
    bodyLines (m :: rest) = m.body ++ bodyLines rest := by
  simp [bodyLines, Module.isEmpty, filled]

theorem bodyLines_append (left right : List Module) :
    bodyLines (left ++ right) = bodyLines left ++ bodyLines right := by
  simp [bodyLines]

theorem bodyLines_concat (before : List Module) {last : Module} (filled : last.lines ≠ []) :
    bodyLines (before ++ [last]) = bodyLines before ++ last.body := by
  rw [bodyLines_append, bodyLines_cons [] filled]
  exact congrArg _ (List.append_nil _)

theorem mem_bodyLines_iff {sorted : List Module} {line : String} :
    line ∈ bodyLines sorted ↔ ∃ m ∈ sorted, m.lines ≠ [] ∧ line ∈ m.body := by
  simp [bodyLines, Module.isEmpty]

theorem mem_body_iff {m : Module} {line : String} :
    line ∈ m.body ↔ line = m.marker ∨ line ∈ m.lines ∨ line = "" := by
  simp [Module.body]

@[simp] theorem length_body (m : Module) : m.body.length = m.lines.length + 2 := by
  simp [Module.body]

theorem bodyAt_cons {m n : Module} {rest : List Module} {offset : Nat} :
    BodyAt (m :: rest) n offset ↔ (n = m ∧ m.lines ≠ [] ∧ offset = 0) ∨
      ∃ later, BodyAt rest n later ∧ offset = (bodyLines [m]).length + later := by
  constructor
  · rintro ⟨before, after, split, filled, rfl⟩
    rcases List.cons_eq_append_iff.mp split with ⟨rfl, same⟩ | ⟨front, rfl, rfl⟩
    · obtain ⟨rfl, rfl⟩ := List.cons.inj same
      exact .inl ⟨rfl, filled, rfl⟩
    · refine .inr ⟨_, ⟨front, after, rfl, filled, rfl⟩, ?_⟩
      rw [← List.length_append, ← bodyLines_append, List.singleton_append]
  · rintro (⟨rfl, filled, rfl⟩ | ⟨later, ⟨before, after, rfl, filled, rfl⟩, rfl⟩)
    · exact ⟨[], rest, rfl, filled, rfl⟩
    · refine ⟨m :: before, after, rfl, filled, ?_⟩
      rw [← List.length_append, ← bodyLines_append, List.singleton_append]

theorem exists_bodyAt {sorted : List Module} {m : Module} (member : m ∈ sorted)
    (filled : m.lines ≠ []) : ∃ offset, BodyAt sorted m offset := by
  obtain ⟨before, after, rfl⟩ := List.append_of_mem member
  exact ⟨_, before, after, rfl, filled, rfl⟩

theorem mem_bodyBlocks_iff {start : Nat} {ms : List Module} {b : SourceBlock} :
    b ∈ bodyBlocks start ms ↔ ∃ m offset, BodyAt ms m offset ∧ b = bodyBlock (start + offset) m := by
  induction ms generalizing start with
  | nil => simp [bodyBlocks, BodyAt]
  | cons m rest ih =>
    by_cases empty : m.lines = []
    · simp [bodyBlocks, isEmpty_iff.mpr empty, ih, bodyAt_cons, empty, bodyLines]
    · have length : (bodyLines [m]).length = m.lines.length + 2 := by
        rw [bodyLines_cons [] empty]
        simp [bodyLines]
      simp only [bodyBlocks, isEmpty_iff, empty, if_false, List.mem_cons, ih, bodyAt_cons, length]
      constructor
      · rintro (rfl | ⟨n, offset, at', rfl⟩)
        · exact ⟨m, 0, .inl ⟨rfl, empty, rfl⟩, rfl⟩
        · exact ⟨n, _, .inr ⟨offset, at', rfl⟩, by congr 1; omega⟩
      · rintro ⟨n, offset, ⟨rfl, -, rfl⟩ | ⟨later, at', rfl⟩, rfl⟩
        · exact .inl rfl
        · exact .inr ⟨n, later, at', by congr 1; omega⟩

theorem mem_hoistedBlocks_iff {start : Nat} {hs : List (String × HoistedLine)} {b : SourceBlock} :
    b ∈ hoistedBlocks start hs ↔
      ∃ index entry, hs[index]? = some entry ∧ b = hoistedBlock (start + index) entry := by
  induction hs generalizing start with
  | nil => simp [hoistedBlocks]
  | cons entry rest ih =>
    simp only [hoistedBlocks, List.mem_cons, ih]
    constructor
    · rintro (rfl | ⟨index, later, atIndex, rfl⟩)
      · exact ⟨0, entry, rfl, rfl⟩
      · exact ⟨index + 1, later, by simpa using atIndex, by congr 1; omega⟩
    · rintro ⟨_ | index, later, atIndex, rfl⟩
      · obtain rfl : entry = later := by simpa using atIndex
        exact .inl rfl
      · exact .inr ⟨index, later, by simpa using atIndex, by congr 1; omega⟩

theorem mem_blocksOf_iff {sorted : List Module} {b : SourceBlock} :
    b ∈ blocksOf sorted ↔
      (∃ index entry, (hoistedLines sorted)[index]? = some entry ∧ b = hoistedBlock index entry) ∨
      ∃ m offset, BodyAt sorted m offset ∧ b = bodyBlock ((hoistedLines sorted).length + offset) m := by
  simp [blocksOf, mem_hoistedBlocks_iff, mem_bodyBlocks_iff]

theorem hoistedBlocks_apart (start : Nat) (hs : List (String × HoistedLine)) :
    (hoistedBlocks start hs).Pairwise (·.bundled.last < ·.bundled.first) := by
  induction hs generalizing start with
  | nil => exact .nil
  | cons entry rest ih =>
    refine List.pairwise_cons.mpr ⟨fun b later => ?_, ih (start + 1)⟩
    obtain ⟨index, other, -, rfl⟩ := mem_hoistedBlocks_iff.mp later
    simp only [hoistedBlock, LineRange.single]
    omega

theorem bodyBlocks_apart (start : Nat) (ms : List Module) :
    (bodyBlocks start ms).Pairwise (·.bundled.last < ·.bundled.first) := by
  induction ms generalizing start with
  | nil => exact .nil
  | cons m rest ih =>
    by_cases empty : m.lines = []
    · simpa [bodyBlocks, isEmpty_iff.mpr empty] using ih start
    · simp only [bodyBlocks, isEmpty_iff, empty, if_false]
      refine List.pairwise_cons.mpr ⟨fun b later => ?_, ih _⟩
      obtain ⟨n, offset, -, rfl⟩ := mem_bodyBlocks_iff.mp later
      simp only [bodyBlock]
      omega

/-- Every block ends before the next one begins. -/
theorem blocksOf_apart (sorted : List Module) :
    (blocksOf sorted).Pairwise (·.bundled.last < ·.bundled.first) := by
  refine List.pairwise_append.mpr ⟨hoistedBlocks_apart _ _, bodyBlocks_apart _ _, ?_⟩
  intro a hoisted b body
  obtain ⟨index, entry, atIndex, rfl⟩ := mem_hoistedBlocks_iff.mp hoisted
  obtain ⟨m, offset, -, rfl⟩ := mem_bodyBlocks_iff.mp body
  obtain ⟨inside, -⟩ := List.getElem?_eq_some_iff.mp atIndex
  simp only [hoistedBlock, bodyBlock, LineRange.single]
  omega

/-- A block holds at least one line, and as many of the bundle as of its module. -/
theorem extent_of_mem_blocksOf {sorted : List Module} {b : SourceBlock} (member : b ∈ blocksOf sorted) :
    b.bundled.first ≤ b.bundled.last ∧
      b.bundled.last - b.bundled.first = b.inModule.last - b.inModule.first := by
  rcases mem_blocksOf_iff.mp member with ⟨index, entry, -, rfl⟩ | ⟨m, offset, body, rfl⟩
  · simp [hoistedBlock, LineRange.single]
  · have positive := List.length_pos_of_ne_nil body.filled
    simp only [bodyBlock]
    omega

/-- Where blocks are apart, the first block that contains a line is the only one. -/
theorem find?_contains_eq_some_iff {blocks : List SourceBlock} {line : Int} {b : SourceBlock}
    (apart : blocks.Pairwise (·.bundled.last < ·.bundled.first)) :
    blocks.find? (·.contains line) = some b ↔ b ∈ blocks ∧ b.contains line = true := by
  constructor
  · intro found
    have inside := List.find?_some found
    exact ⟨List.mem_of_find?_eq_some found, inside⟩
  · rintro ⟨member, inside⟩
    induction apart with
    | nil => simp at member
    | @cons a rest first _ ih =>
      rcases List.mem_cons.mp member with rfl | later
      · simp [inside]
      · have outside : a.contains line = false := by
          have gap := first b later
          rw [contains_iff] at inside
          rw [Bool.eq_false_iff, ne_eq, contains_iff]
          omega
        rw [List.find?_cons, outside]
        exact ih later

end ShaderBundle.Shader
