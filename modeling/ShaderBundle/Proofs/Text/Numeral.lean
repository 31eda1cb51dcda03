import ShaderBundle.Text.Numeral
import ShaderBundle.Proofs.Text.Blank
import ShaderBundle.Proofs.Text.Breaks

/-! Numerals. A number that is printed in decimal is read back, unless it has too many digits. -/
namespace ShaderBundle.Text

structure IsNumeral (cs : List Char) : Prop where
  some : cs ≠ []
  digits : ∀ c ∈ cs, isDigit c = true

theorem digit?_of_ascii {c : Char} (h : c.isDigit = true) : digit? c = some (c.toNat - '0'.toNat) := by
  simp only [Char.isDigit, Bool.and_eq_true, decide_eq_true_eq] at h
  have low : 48 ≤ c.toNat := h.1
  have high : c.toNat ≤ 57 := h.2
  have ascii : c.toNat < 128 := by omega
  simp [digit?, ascii, low, high]

theorem isBlank_of_ascii {c : Char} (h : c.isDigit = true) : isBlank c = false := by
  simp only [Char.isDigit, Bool.and_eq_true, decide_eq_true_eq] at h
  have low : 48 ≤ c.toNat := h.1
  have high : c.toNat ≤ 57 := h.2
  exact isBlank_of_graphic (by omega) (by omega)

/-- No blank is a digit of any script. -/
theorem isDigit_of_blank {c : Char} (blank : isBlank c = true) : isDigit c = false := by
  have code : c.toNat ∈ [9, 10, 11, 12, 13, 0x1c, 0x1d, 0x1e, 0x1f, 0x20, 0x85, 0xa0, 0x1680, 0x2000, 0x2001,
      0x2002, 0x2003, 0x2004, 0x2005, 0x2006, 0x2007, 0x2008, 0x2009, 0x200a, 0x2028, 0x2029, 0x202f,
      0x205f, 0x3000] := by
    simp only [isBlank, Bool.or_eq_true, Bool.and_eq_true, decide_eq_true_eq, beq_iff_eq] at blank
    simp only [List.mem_cons, List.not_mem_nil, or_false]
    omega
  unfold isDigit digit?
  generalize c.toNat = n at code
  revert n
  decide

theorem isBlank_of_digit {c : Char} (digit : isDigit c = true) : isBlank c = false := by
  by_contra blank
  rw [isDigit_of_blank (by simpa using blank)] at digit
  cases digit

theorem isDigit_of_mem_toDigits {n : Nat} {c : Char} (member : c ∈ Nat.toDigits 10 n) :
    c.isDigit = true :=
  Nat.isDigit_of_mem_toDigits (by decide) (by decide) member

theorem isNumeral_toDigits (n : Nat) : IsNumeral (Nat.toDigits 10 n) where
  some := Nat.toDigits_ne_nil
  digits _ member := isDigit_of_ascii (isDigit_of_mem_toDigits member)

theorem isBlank_head?_toDigits (n : Nat) (rest : List Char) :
    ∀ c ∈ (Nat.toDigits 10 n ++ rest).head?, isBlank c = false := by
  intro c first
  rw [List.head?_append_of_ne_nil _ (isNumeral_toDigits n).some] at first
  exact isBlank_of_ascii (isDigit_of_mem_toDigits (List.mem_of_head? first))

theorem decimalValue_ascii {cs : List Char} (all : ∀ c ∈ cs, c.isDigit = true) :
    decimalValue (cs.filterMap digit?) = Nat.ofDigitChars 10 cs 0 := by
  unfold decimalValue Nat.ofDigitChars
  generalize 0 = start
  induction cs generalizing start with
  | nil => rfl
  | cons c rest ih =>
    obtain ⟨head, tail⟩ := List.forall_mem_cons.mp all
    rw [List.filterMap_cons_some (digit?_of_ascii head), List.foldl_cons, List.foldl_cons]
    exact ih tail _

theorem length_toString (n : Nat) : (toString n).length = (Nat.toDigits 10 n).length := by
  rw [Nat.toString_eq_ofList_toDigits, String.length_ofList]

theorem length_toString_pow (k : Nat) : (toString (10 ^ k)).length = k + 1 := by
  rw [length_toString]
  have larger : 10 ^ k < 10 ^ (k + 1) := Nat.pow_lt_pow_right (by decide) k.lt_succ_self
  have most : (Nat.toDigits 10 (10 ^ k)).length ≤ k + 1 :=
    (Nat.length_toDigits_le_iff (by decide) k.succ_pos).mpr larger
  have some : 0 < (Nat.toDigits 10 (10 ^ k)).length := List.length_pos_of_ne_nil Nat.toDigits_ne_nil
  rcases Nat.eq_zero_or_pos k with rfl | pos
  · omega
  · have least : ¬ (Nat.toDigits 10 (10 ^ k)).length ≤ k := fun short =>
      lt_irrefl _ ((Nat.length_toDigits_le_iff (by decide) pos).mp short)
    omega

/-- A number of few enough digits is read back from its decimal digits. -/
theorem naturalOf_toDigits {n : Nat} (short : (toString n).length ≤ digitLimit) :
    naturalOf (Nat.toDigits 10 n) = .ok n := by
  rw [length_toString] at short
  unfold naturalOf
  rw [if_neg (by omega), decimalValue_ascii fun c => isDigit_of_mem_toDigits,
    Nat.ofDigitChars_ten_toDigits]

theorem breaks_toString_nat (n : Nat) : breaks (toString n) = 0 := by
  refine List.count_eq_zero.mpr fun member => ?_
  rw [Nat.toString_eq_ofList_toDigits, String.toList_ofList] at member
  exact absurd (isDigit_of_mem_toDigits member) (by decide)

theorem isLineBreak_of_mem_toDigits {n : Nat} {c : Char} (member : c ∈ Nat.toDigits 10 n) :
    isLineBreak c = false :=
  isLineBreak_of_solid (isBlank_of_ascii (isDigit_of_mem_toDigits member))

theorem unbreakable_toString_nat (n : Nat) : Unbreakable (toString n) := by
  intro c member
  rw [Nat.toString_eq_ofList_toDigits, String.toList_ofList] at member
  exact isLineBreak_of_mem_toDigits member

/-- A number is printed in one line. -/
theorem breaks_toString (n : Int) : breaks (toString n) = 0 := by
  cases n with
  | ofNat n => exact breaks_toString_nat n
  | negSucc n =>
    change breaks ("-" ++ toString (n + 1)) = 0
    rw [breaks_append, breaks_toString_nat]
    rfl

/-! ### Integers -/

theorem toDigits_injective {m n : Nat} (same : Nat.toDigits 10 m = Nat.toDigits 10 n) : m = n :=
  calc m = Nat.ofDigitChars 10 (Nat.toDigits 10 m) 0 := Nat.ofDigitChars_ten_toDigits.symm
    _ = Nat.ofDigitChars 10 (Nat.toDigits 10 n) 0 := by rw [same]
    _ = n := Nat.ofDigitChars_ten_toDigits

theorem exists_cons_toDigits (n : Nat) : ∃ c rest, Nat.toDigits 10 n = c :: rest ∧ c.isDigit = true := by
  obtain ⟨c, rest, begins⟩ := List.exists_cons_of_ne_nil (isNumeral_toDigits n).some
  exact ⟨c, rest, begins, isDigit_of_mem_toDigits (n := n) (by rw [begins]; exact List.mem_cons_self)⟩

theorem toList_toString_natCast (n : Nat) : (toString (n : Int)).toList = Nat.toDigits 10 n := by
  change (toString n).toList = _
  rw [Nat.toString_eq_ofList_toDigits, String.toList_ofList]

theorem toList_toString_negSucc (n : Nat) :
    (toString (Int.negSucc n)).toList = '-' :: Nat.toDigits 10 (n + 1) := by
  change ("-" ++ toString (n + 1)).toList = _
  rw [String.toList_append, Nat.toString_eq_ofList_toDigits, String.toList_ofList, String.toList_ofList]
  rfl

/-- Digits need no underscores between them. -/
theorem digitsFrom_ascii {cs : List Char} (some : cs ≠ []) (all : ∀ c ∈ cs, c.isDigit = true) (after : Bool) :
    digitsFrom after cs = Option.some (cs.filterMap digit?) := by
  induction cs generalizing after with
  | nil => exact absurd rfl some
  | cons c rest ih =>
    obtain ⟨head, tail⟩ := List.forall_mem_cons.mp all
    have other : c ≠ '_' := by
      rintro rfl
      exact absurd head (by decide)
    rw [digitsFrom, if_neg other, digit?_of_ascii head, List.filterMap_cons_some (digit?_of_ascii head)]
    cases rest with
    | nil => rfl
    | cons d more =>
      dsimp only
      rw [ih (List.cons_ne_nil d more) tail true]
      rfl

theorem unsignedDigits?_toDigits (n : Nat) : ∃ ds, unsignedDigits? (Nat.toDigits 10 n) = some ds ∧
    ds.length = (toString n).length ∧ decimalValue ds = n := by
  have ascii : ∀ c ∈ Nat.toDigits 10 n, c.isDigit = true := fun c => isDigit_of_mem_toDigits
  refine ⟨_, digitsFrom_ascii Nat.toDigits_ne_nil ascii false, ?_, ?_⟩
  · rw [length_toString, List.filterMap_length_eq_length]
    intro c member
    rw [digit?_of_ascii (ascii c member)]
    rfl
  · rw [decimalValue_ascii ascii, Nat.ofDigitChars_ten_toDigits]

theorem sign_or_digit_of_mem_toString {n : Int} {c : Char} (member : c ∈ (toString n).toList) :
    c = '-' ∨ c.isDigit = true := by
  cases n with
  | ofNat n =>
    rw [Int.ofNat_eq_natCast, toList_toString_natCast] at member
    exact .inr (isDigit_of_mem_toDigits member)
  | negSucc n =>
    rw [toList_toString_negSucc] at member
    exact (List.mem_cons.mp member).imp_right isDigit_of_mem_toDigits

theorem colon_not_mem_toString (n : Int) : ':' ∉ (toString n).toList := by
  intro member
  rcases sign_or_digit_of_mem_toString member with sign | digit
  · exact absurd sign (by decide)
  · exact absurd digit (by decide)

theorem isNumeralBlank_of_mem_toString {n : Int} {c : Char} (member : c ∈ (toString n).toList) :
    isNumeralBlank c = false := by
  rcases sign_or_digit_of_mem_toString member with rfl | digit
  · decide
  · simp [isNumeralBlank, isBlank_of_ascii digit]

/-- A printed integer is read back if it has few enough digits, and otherwise it is no integer. -/
theorem integer?_toString (n : Int) :
    integer? (toString n) = if digitLimit < (toString n.natAbs).length then none else some n := by
  have whole {cs : List Char} (solid : ∀ c ∈ cs, isNumeralBlank c = false) :
      cs.dropWhile isNumeralBlank = cs := by
    cases cs with
    | nil => rfl
    | cons c rest => rw [List.dropWhile_cons_of_neg (by simp [solid c List.mem_cons_self])]
  have solid : ∀ c ∈ (toString n).toList, isNumeralBlank c = false := fun c => isNumeralBlank_of_mem_toString
  unfold integer?
  dsimp only
  rw [whole solid, whole fun c member => solid c (List.mem_reverse.mp member), List.reverse_reverse]
  cases n with
  | ofNat n =>
    obtain ⟨ds, read, length, value⟩ := unsignedDigits?_toDigits n
    obtain ⟨c, rest, begins, ascii⟩ := exists_cons_toDigits n
    have unsigned : c ≠ '-' ∧ c ≠ '+' := by constructor <;> rintro rfl <;> exact absurd ascii (by decide)
    rw [begins] at read
    rw [Int.ofNat_eq_natCast, toList_toString_natCast, begins]
    simp [unsigned, read, length, value]
  | negSucc n =>
    obtain ⟨ds, read, length, value⟩ := unsignedDigits?_toDigits (n + 1)
    rw [toList_toString_negSucc]
    simp only [read]
    rw [length, value]
    rfl

/-! ### Where a part of a text ends -/

section Unique

variable {front front' back back' : List Char} {c c' : Char}

/-- A text is split in one way at its first character of a kind. -/
theorem split_unique {kind : Char → Bool} (free : ∀ x ∈ front, kind x = false)
    (free' : ∀ x ∈ front', kind x = false) (first : kind c = true) (first' : kind c' = true)
    (same : front ++ c :: back = front' ++ c' :: back') : front = front' ∧ c = c' ∧ back = back' := by
  induction front generalizing front' with
  | nil =>
    cases front' with
    | nil => simpa using same
    | cons x rest =>
      obtain ⟨rfl, -⟩ := List.cons.inj same
      simp [free' c List.mem_cons_self] at first
  | cons x rest ih =>
    cases front' with
    | nil =>
      obtain ⟨rfl, -⟩ := List.cons.inj same
      simp [free x List.mem_cons_self] at first'
    | cons y rest' =>
      obtain ⟨rfl, behind⟩ := List.cons.inj same
      obtain ⟨rfl, further⟩ :=
        ih (List.forall_mem_cons.mp free).2 (List.forall_mem_cons.mp free').2 behind
      exact ⟨rfl, further⟩

/-- So a text is split in one way at its first colon. -/
theorem colon_unique (free : ':' ∉ front) (free' : ':' ∉ front')
    (same : front ++ ':' :: back = front' ++ ':' :: back') : front = front' ∧ back = back' := by
  have other {cs : List Char} (free : ':' ∉ cs) : ∀ x ∈ cs, (x == ':') = false := by
    intro x member
    rw [beq_eq_false_iff_ne]
    rintro rfl
    exact free member
  obtain ⟨rfl, -, rfl⟩ := split_unique (other free) (other free') rfl rfl same
  exact ⟨rfl, rfl⟩

/-- And in one way at its last colon. -/
theorem last_colon_unique (free : ':' ∉ back) (free' : ':' ∉ back')
    (same : front ++ ':' :: back = front' ++ ':' :: back') : front = front' ∧ back = back' := by
  have reversed := congrArg List.reverse same
  simp only [List.reverse_append, List.reverse_cons, List.append_assoc, List.singleton_append] at reversed
  obtain ⟨backs, fronts⟩ := colon_unique (by simpa using free) (by simpa using free') reversed
  exact ⟨List.reverse_inj.mp fronts, List.reverse_inj.mp backs⟩

/-- A printed integer ends where the next character is no digit, so it is known from any text that begins with
it. -/
theorem toString_unique {m n : Int} (stop : c.isDigit = false) (stop' : c'.isDigit = false)
    (same : (toString m).toList ++ c :: back = (toString n).toList ++ c' :: back') :
    m = n ∧ c = c' ∧ back = back' := by
  have digits {k l : Nat} (same : Nat.toDigits 10 k ++ c :: back = Nat.toDigits 10 l ++ c' :: back') :
      k = l ∧ c = c' ∧ back = back' := by
    have ascii (k : Nat) : ∀ d ∈ Nat.toDigits 10 k, (!d.isDigit) = false := by
      intro d member
      rw [isDigit_of_mem_toDigits member]
      rfl
    obtain ⟨same, stops⟩ :=
      split_unique (ascii k) (ascii l) (by simp [stop]) (by simp [stop']) same
    exact ⟨toDigits_injective same, stops⟩
  have signed {k : Nat} {behind cs : List Char} : Nat.toDigits 10 k ++ behind ≠ '-' :: cs := by
    obtain ⟨d, rest, begins, ascii⟩ := exists_cons_toDigits k
    rw [begins]
    rintro same
    rw [(List.cons.inj same).1] at ascii
    exact absurd ascii (by decide)
  cases m with
  | ofNat k =>
    cases n with
    | ofNat l =>
      rw [Int.ofNat_eq_natCast, Int.ofNat_eq_natCast, toList_toString_natCast, toList_toString_natCast] at same
      obtain ⟨rfl, behind⟩ := digits same
      exact ⟨rfl, behind⟩
    | negSucc l =>
      rw [Int.ofNat_eq_natCast, toList_toString_natCast, toList_toString_negSucc] at same
      exact absurd same signed
  | negSucc k =>
    cases n with
    | ofNat l =>
      rw [Int.ofNat_eq_natCast, toList_toString_natCast, toList_toString_negSucc] at same
      exact absurd same.symm signed
    | negSucc l =>
      rw [toList_toString_negSucc, toList_toString_negSucc] at same
      obtain ⟨same, behind⟩ := digits (List.cons.inj same).2
      exact ⟨by rw [Nat.succ.inj same], behind⟩

theorem toString_injective {m n : Int} (same : toString m = toString n) : m = n := by
  have spaced : (toString m).toList ++ [' '] = (toString n).toList ++ [' '] := by rw [same]
  exact (toString_unique rfl rfl spaced).1

end Unique

end ShaderBundle.Text
