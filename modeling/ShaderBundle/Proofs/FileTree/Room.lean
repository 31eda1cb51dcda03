import ShaderBundle.Proofs.Discovery.Requests
import ShaderBundle.Proofs.FileTree.Ids
import Mathlib.Algebra.Group.Nat.Defs

/-! Where paths have a limit, a library of files has room for every bundle: but for the root's, the ids of
its modules are the paths that are looked up, and there are not so many texts of that length. -/
namespace ShaderBundle

namespace Text

/-- Bytes as one number, behind a leading one, so that their count is told from it as well. -/
def numbered : List UInt8 → Nat
  | [] => 1
  | byte :: rest => 256 * numbered rest + byte.toNat

theorem numbered_pos (bytes : List UInt8) : 0 < numbered bytes := by
  cases bytes with
  | nil => decide
  | cons byte rest =>
    have positive := numbered_pos rest
    unfold numbered
    omega

theorem numbered_lt (bytes : List UInt8) : numbered bytes < 256 ^ (bytes.length + 1) := by
  induction bytes with
  | nil => decide
  | cons byte rest ih =>
    have small := byte.toNat_lt
    unfold numbered
    rw [List.length_cons, Nat.pow_succ]
    omega

theorem numbered_injective : Function.Injective numbered := by
  intro left
  induction left with
  | nil =>
    intro right same
    cases right with
    | nil => rfl
    | cons byte rest =>
      have positive := numbered_pos rest
      simp only [numbered] at same
      omega
  | cons byte rest ih =>
    intro right same
    cases right with
    | nil =>
      have positive := numbered_pos rest
      simp only [numbered] at same
      omega
    | cons other rest' =>
      have small := byte.toNat_lt
      have small' := other.toNat_lt
      simp only [numbered] at same
      have tails : numbered rest = numbered rest' := by omega
      have heads : byte.toNat = other.toNat := by omega
      rw [ih tails, UInt8.toNat_inj.mp heads]

def code (text : String) : Nat := numbered text.toByteArray.data.toList

theorem code_injective : Function.Injective code := by
  intro left right same
  have bytes := numbered_injective same
  exact String.toByteArray_inj.mp (ByteArray.ext (Array.toList_inj.mp bytes))

theorem code_lt {text : String} {limit : Nat} (short : text.utf8ByteSize ≤ limit) :
    code text < 256 ^ (limit + 1) := by
  have length : text.toByteArray.data.toList.length = text.utf8ByteSize := rfl
  refine Nat.lt_of_lt_of_le (numbered_lt _) (Nat.pow_le_pow_right (by decide) ?_)
  omega

/-- Texts of bounded length are fewer than the numbers of one digit more. -/
theorem length_lt_of_short {texts : List String} {limit : Nat} (distinct : texts.Nodup)
    (short : ∀ text ∈ texts, text.utf8ByteSize ≤ limit) : texts.length < 256 ^ (limit + 1) := by
  have codes : (0 :: texts.map code).Nodup := by
    refine List.nodup_cons.mpr ⟨fun zero => ?_, distinct.map code_injective⟩
    obtain ⟨text, -, none⟩ := List.mem_map.mp zero
    exact (numbered_pos _).ne' none
  have inside : 0 :: texts.map code ⊆ List.range (256 ^ (limit + 1)) := by
    intro number member
    rw [List.mem_range]
    rcases List.mem_cons.mp member with rfl | member
    · exact Nat.pow_pos (by decide)
    · obtain ⟨text, listed, rfl⟩ := List.mem_map.mp member
      exact code_lt (short text listed)
  have fits := (codes.subperm inside).length_le
  rwa [List.length_cons, List.length_map, List.length_range] at fits

end Text

namespace Path

theorem leadingSlashes_slash {path : List Char} (single : path.head? ≠ some '/') :
    leadingSlashes ('/' :: path) = 1 := by
  cases path with
  | nil => rfl
  | cons c rest =>
    have different : c ≠ '/' := by simpa using single
    unfold leadingSlashes
    split
    all_goals simp_all

theorem Plain.leadingSlashes_eq {path : List Char} (plain : Plain path) :
    leadingSlashes path = if isAbsolute path then 1 else 0 := by
  cases kind : isAbsolute path with
  | false => exact leadingSlashes_relative kind
  | true =>
    have text : path = '/' :: List.intercalate ['/'] (steps path) := by
      conv_lhs => rw [plain, kind]
      rfl
    rw [text]
    exact leadingSlashes_slash (head?_intercalate fun s member => isStep_of_mem member)

/-- A plain path is looked up as it is written. -/
theorem Plain.spelled_eq {path : String} (plain : Plain path.toList) : spelled path = path := by
  rw [spelled, plain.leadingSlashes_eq, ← show path.toList = _ from plain, String.ofList_toList]

end Path

namespace FileTree

open ShaderBundle.Path

variable {t : FileTree} {encoding : Option String} {includeRoot root path : String} {limit : Nat}

/-- A path that is longer than the limit leads nowhere. -/
theorem size_of_locate {place : Place} (limited : t.pathLimit = some limit)
    (ok : t.locate path = .ok place) : (spelled path).utf8ByteSize ≤ limit := by
  unfold locate tooLong at ok
  dsimp only at ok
  split_ifs at ok with null long
  simpa [limited] using long

theorem length_le_capacity (limited : t.pathLimit = some limit) {ids : List String}
    (got : Discovery.Got (t.library encoding) includeRoot root ids) : ids.length ≤ t.capacity := by
  let others := ids.erase root
  have short : ∀ id ∈ others, id.utf8ByteSize ≤ limit := by
    intro id member
    obtain ⟨different, found⟩ := got.distinct.mem_erase_iff.mp member
    obtain ⟨text, fetched⟩ := got.fetched id found
    obtain ⟨place, content, located, -⟩ := fetch_ok fetched
    obtain ⟨plain, -⟩ := (moored_of_reached (got.reached id found)).resolve_left different
    rw [← plain.spelled_eq]
    exact size_of_locate limited located
  have few : others.length < 256 ^ (limit + 1) :=
    Text.length_lt_of_short (got.distinct.erase root) short
  have one : ids.length ≤ others.length + 1 := by
    rw [List.length_erase]
    split <;> omega
  have room : t.capacity = 256 ^ (limit + 1) := by
    rw [capacity, limited]
    rfl
  omega

/-- With a limit on paths no discovery among files is cut off. -/
theorem not_cutOff_of_limited (limited : t.pathLimit = some limit) {stop : Stop} :
    ¬ Discovery.CutOff (t.library encoding) includeRoot root stop := by
  rintro ⟨d, valid, full, -⟩
  exact Nat.not_lt.mpr (length_le_capacity limited valid.got) full

end FileTree

end ShaderBundle
