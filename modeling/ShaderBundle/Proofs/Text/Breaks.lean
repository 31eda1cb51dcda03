import ShaderBundle.Proofs.Text.Lines
import ShaderBundle.Text.Blank

/-! Broken lines. Where a text is put behind another one on a line of its own, the lines of the two
stay as they are. -/
namespace ShaderBundle.Text

variable {cs : List Char}

def Unbroken (text : String) : Prop := ∀ c ∈ text.toList.getLast?, isLineBreak c = false

/-- Every line break is a blank. -/
theorem isLineBreak_of_solid {c : Char} (solid : isBlank c = false) : isLineBreak c = false := by
  simp [isBlank] at solid
  simp [isLineBreak]
  omega

theorem breakChars_pair (rest : List Char) :
    breakChars ('\r' :: '\n' :: rest) = [] :: breakChars rest := by
  rw [breakChars]

theorem breakChars_cons {c : Char} {rest : List Char}
    (single : c = '\r' → rest.head? ≠ some '\n') :
    breakChars (c :: rest) =
      if isLineBreak c then [] :: breakChars rest else consToFirst c (breakChars rest) := by
  rw [breakChars]
  rintro rest' rfl rfl
  simp at single

theorem breakChars_feed (rest : List Char) : breakChars ('\n' :: rest) = [] :: breakChars rest := by
  rw [breakChars_cons (by simp), if_pos (by rfl)]

theorem consToFirst_ne_nil (c : Char) (lines : List (List Char)) : consToFirst c lines ≠ [] := by
  cases lines <;> simp [consToFirst]

theorem consToFirst_append (c : Char) {lines : List (List Char)} (some : lines ≠ [])
    (others : List (List Char)) :
    consToFirst c (lines ++ others) = consToFirst c lines ++ others := by
  obtain ⟨line, rest, rfl⟩ := List.exists_cons_of_ne_nil some
  rfl

theorem breakChars_ne_nil (some : cs ≠ []) : breakChars cs ≠ [] := by
  fun_cases breakChars cs with
  | case1 => contradiction
  | case2 => simp
  | case3 => simp
  | case4 => exact consToFirst_ne_nil _ _

/-- What ends a text ends each part of it that is left behind its front. -/
theorem unbroken_tail (front : List Char) {rest : List Char} (some : rest ≠ [])
    (ends : ∀ c ∈ (front ++ rest).getLast?, isLineBreak c = false) :
    ∀ c ∈ rest.getLast?, isLineBreak c = false := by
  rwa [List.getLast?_append_of_ne_nil _ some] at ends

theorem breakChars_append (some : cs ≠ []) (ends : ∀ c ∈ cs.getLast?, isLineBreak c = false)
    (rest : List Char) : breakChars (cs ++ '\n' :: rest) = breakChars cs ++ breakChars rest := by
  induction cs using breakChars.induct with
  | case1 => contradiction
  | case2 tail ih =>
    have more : tail ≠ [] := by
      rintro rfl
      exact absurd (ends '\n' rfl) (by decide)
    have tailEnds := unbroken_tail ['\r', '\n'] more ends
    rw [List.cons_append, List.cons_append, breakChars_pair, breakChars_pair, ih more tailEnds]
    rfl
  | case3 c tail pair broken ih =>
    have more : tail ≠ [] := by
      rintro rfl
      simp [ends c rfl] at broken
    obtain ⟨next, others, rfl⟩ := List.exists_cons_of_ne_nil more
    have tailEnds := unbroken_tail [c] more ends
    have single : c = '\r' → next ≠ '\n' := by
      rintro rfl rfl
      exact pair others rfl rfl
    rw [List.cons_append, breakChars_cons (by simpa using single),
      breakChars_cons (by simpa using single), if_pos broken, if_pos broken, ih more tailEnds]
    rfl
  | case4 c tail pair solid ih =>
    have notReturn : c ≠ '\r' := by
      rintro rfl
      exact absurd (show isLineBreak '\r' = true from rfl) solid
    rw [List.cons_append, breakChars_cons fun same => absurd same notReturn,
      breakChars_cons fun same => absurd same notReturn, if_neg solid, if_neg solid]
    by_cases more : tail = []
    · subst more
      rw [List.nil_append, breakChars_feed]
      rfl
    · have tailEnds := unbroken_tail [c] more ends
      rw [ih more tailEnds, consToFirst_append c (breakChars_ne_nil more)]

theorem breakLines_append {front : String} (some : front ≠ "") (ends : Unbroken front)
    (back : String) : breakLines (front ++ "\n" ++ back) = breakLines front ++ breakLines back := by
  have parts : (front ++ "\n" ++ back).toList = front.toList ++ '\n' :: back.toList := by simp
  rw [breakLines, parts, breakChars_append (by simpa using some) ends, List.map_append]
  rfl

theorem breakLines_feed (back : String) : breakLines ("\n" ++ back) = "" :: breakLines back := by
  have parts : ("\n" ++ back).toList = '\n' :: back.toList := by simp
  rw [breakLines, parts, breakChars_feed]
  rfl

theorem breakChars_eq_singleton (some : cs ≠ []) (unbroken : ∀ c ∈ cs, isLineBreak c = false) :
    breakChars cs = [cs] := by
  induction cs with
  | nil => contradiction
  | cons c rest ih =>
    obtain ⟨head, tail⟩ := List.forall_mem_cons.mp unbroken
    have notReturn : c ≠ '\r' := by
      rintro rfl
      exact absurd head (by decide)
    rw [breakChars_cons fun same => absurd same notReturn, if_neg (by simp [head])]
    by_cases more : rest = []
    · subst more
      rfl
    · rw [ih more tail]
      rfl

/-- A text without line breaks is a single line. -/
theorem breakLines_eq_singleton {text : String} (some : text ≠ "")
    (unbroken : ∀ c ∈ text.toList, isLineBreak c = false) : breakLines text = [text] := by
  rw [breakLines, breakChars_eq_singleton (by simpa using some) unbroken]
  simp

theorem joinLines_append {front back : List String} (some : front ≠ []) (more : back ≠ []) :
    joinLines (front ++ back) = joinLines front ++ "\n" ++ joinLines back := by
  induction front with
  | nil => contradiction
  | cons line rest ih =>
    refine String.toList_inj.mp ?_
    rw [List.cons_append, toList_joinLines_cons line (by simp [more])]
    by_cases last : rest = []
    · subst last
      simp [joinLines]
    · rw [ih last]
      simp [toList_joinLines_cons line last]

theorem joinLines_suffix (front : List String) {back : List String} (more : back ≠ []) :
    (joinLines back).toList <:+ (joinLines (front ++ back)).toList := by
  by_cases bare : front = []
  · subst bare
    exact List.suffix_refl _
  · rw [joinLines_append bare more, String.toList_append]
    exact List.suffix_append ..

/-! ### Lines without breaks -/

def Unbreakable (text : String) : Prop := ∀ c ∈ text.toList, isLineBreak c = false

theorem Unbreakable.append {front back : String} (left : Unbreakable front) (right : Unbreakable back) :
    Unbreakable (front ++ back) := by
  intro c member
  rw [String.toList_append] at member
  exact (List.mem_append.mp member).elim (left c) (right c)

theorem mem_consToFirst {c : Char} {lines : List (List Char)} {line : List Char}
    (member : line ∈ consToFirst c lines) :
    line ∈ lines ∨ line = [c] ∨ ∃ first ∈ lines, line = c :: first := by
  cases lines with
  | nil => exact .inr (.inl (List.mem_singleton.mp member))
  | cons first rest =>
    rcases List.mem_cons.mp member with rfl | later
    · exact .inr (.inr ⟨first, List.mem_cons_self, rfl⟩)
    · exact .inl (List.mem_cons_of_mem _ later)

/-- The pieces between breaks hold none. -/
theorem isLineBreak_of_mem_breakChars {line : List Char} (member : line ∈ breakChars cs) :
    ∀ c ∈ line, isLineBreak c = false := by
  induction cs using breakChars.induct generalizing line with
  | case1 => simp [breakChars] at member
  | case2 rest ih =>
    rw [breakChars_pair] at member
    rcases List.mem_cons.mp member with rfl | later
    · simp
    · exact ih later
  | case3 c rest pair broken ih =>
    rw [breakChars, if_pos broken] at member
    · rcases List.mem_cons.mp member with rfl | later
      · simp
      · exact ih later
    · exact pair
  | case4 c rest pair solid ih =>
    rw [breakChars, if_neg solid] at member
    · have head : isLineBreak c = false := by simpa using solid
      rcases mem_consToFirst member with inRest | rfl | ⟨first, inRest, rfl⟩
      · exact ih inRest
      · simpa using head
      · exact List.forall_mem_cons.mpr ⟨head, ih inRest⟩
    · exact pair

theorem unbreakable_of_mem_breakLines {text line : String} (member : line ∈ breakLines text) :
    Unbreakable line := by
  obtain ⟨piece, inPieces, rfl⟩ := List.mem_map.mp member
  rw [Unbreakable, String.toList_ofList]
  exact isLineBreak_of_mem_breakChars inPieces

theorem breakChars_line (free : ∀ c ∈ cs, isLineBreak c = false) (rest : List Char) :
    breakChars (cs ++ '\n' :: rest) = cs :: breakChars rest := by
  by_cases none : cs = []
  · subst none
    exact breakChars_feed rest
  · have ends : ∀ c ∈ cs.getLast?, isLineBreak c = false :=
      fun c last => free c (List.mem_of_getLast? last)
    rw [breakChars_append none ends, breakChars_eq_singleton none free]
    rfl

/-- Lines without breaks are read back when each of them is ended. -/
theorem breakLines_endLines {lines : List String} (free : ∀ line ∈ lines, Unbreakable line) :
    breakLines (endLines lines) = lines := by
  induction lines with
  | nil => rfl
  | cons line rest ih =>
    obtain ⟨head, tail⟩ := List.forall_mem_cons.mp free
    rw [breakLines, toList_endLines_cons, breakChars_line head, List.map_cons, String.ofList_toList]
    exact congrArg _ (ih tail)

/-- They are read back from their join as well, unless it ends in an empty line. -/
theorem breakLines_joinLines {lines : List String} (free : ∀ line ∈ lines, Unbreakable line)
    (ends : lines.getLast? ≠ some "") : breakLines (joinLines lines) = lines := by
  induction lines with
  | nil => rfl
  | cons line rest ih =>
    obtain ⟨head, tail⟩ := List.forall_mem_cons.mp free
    by_cases last : rest = []
    · subst last
      have some : line ≠ "" := by simpa using ends
      have single : joinLines [line] = line := by simp [joinLines]
      rw [single]
      exact breakLines_eq_singleton some head
    · rw [List.getLast?_cons_of_ne_nil last] at ends
      rw [breakLines, toList_joinLines_cons line last, breakChars_line head, List.map_cons,
        String.ofList_toList]
      exact congrArg _ (ih tail ends)

end ShaderBundle.Text
