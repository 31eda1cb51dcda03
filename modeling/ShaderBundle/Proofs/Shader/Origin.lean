import ShaderBundle.Proofs.Module.Reading
import ShaderBundle.Proofs.Shader.Blocks
import Mathlib.Data.List.Nodup

/-! Where a line of a bundle comes from, read off the layout: a line in the hoisted part comes from the
module that hoisted it, any other from the body that it stands in. -/
namespace ShaderBundle.Shader

def hoistedCount (s : Shader) : Nat := (s.sorted.flatMap (·.hoisted)).length

theorem length_hoistedLines (s : Shader) : (hoistedLines s.sorted).length = s.hoistedCount := by
  simp [hoistedLines, hoistedCount, List.length_flatMap]

/-- The shader is laid out from its own modules, which are read and have different ids. -/
structure Laid (s : Shader) : Prop where
  source : s.source = Text.joinLines (bundledLines s.sorted)
  blocks : s.blocks = blocksOf s.sorted
  modules : s.sorted.Perm s.modules
  distinct : (s.modules.map (·.id)).Nodup
  read : ∀ m ∈ s.sorted, m.IsRead

structure HoistedAt (sorted : List Module) (index : Nat) (m : Module) (h : HoistedLine) : Prop where
  member : m ∈ sorted
  hoisted : h ∈ m.hoisted
  entry : (hoistedLines sorted)[index]? = some (m.id, h)

theorem mem_hoistedLines_iff {sorted : List Module} {entry : String × HoistedLine} :
    entry ∈ hoistedLines sorted ↔ ∃ m ∈ sorted, ∃ h ∈ m.hoisted, entry = (m.id, h) := by
  simp [hoistedLines, eq_comm]

/-- Every place of the hoisted part is some module's. -/
theorem hoistedAt_of_lt {sorted : List Module} {index : Nat}
    (inside : index < (hoistedLines sorted).length) : ∃ m h, HoistedAt sorted index m h := by
  obtain ⟨m, member, h, hoisted, entry⟩ := mem_hoistedLines_iff.mp (List.getElem_mem inside)
  exact ⟨m, h, member, hoisted, List.getElem?_eq_some_iff.mpr ⟨inside, entry⟩⟩

theorem HoistedAt.lt {sorted : List Module} {index : Nat} {m : Module} {h : HoistedLine}
    (place : HoistedAt sorted index m h) : index < (hoistedLines sorted).length :=
  (List.getElem?_eq_some_iff.mp place.entry).1

namespace Laid

variable {s : Shader}

theorem sorted_ids_distinct (laid : s.Laid) : (s.sorted.map (·.id)).Nodup :=
  (laid.modules.map Module.id).nodup_iff.mpr laid.distinct

theorem eq_of_id_eq (laid : s.Laid) {m n : Module} (left : m ∈ s.sorted) (right : n ∈ s.sorted)
    (same : m.id = n.id) : m = n :=
  List.inj_on_of_nodup_map laid.sorted_ids_distinct left right same

theorem mem_of_find? (laid : s.Laid) {id : String} {m : Module} (found : s.find? id = some m) :
    m ∈ s.sorted ∧ m.id = id := by
  have same := List.find?_some found
  exact ⟨laid.modules.mem_iff.mpr (List.mem_of_find?_eq_some found), by simpa using same⟩

/-- A module of the shader is what its id leads to. -/
theorem find?_eq_some_iff (laid : s.Laid) {id : String} {m : Module} :
    s.find? id = some m ↔ m ∈ s.sorted ∧ m.id = id := by
  refine ⟨laid.mem_of_find?, ?_⟩
  rintro ⟨member, rfl⟩
  cases found : s.find? m.id with
  | none =>
    have different := List.find?_eq_none.mp found m (laid.modules.mem_iff.mp member)
    simp at different
  | some n =>
    obtain ⟨listed, same⟩ := laid.mem_of_find? found
    rw [laid.eq_of_id_eq listed member same]

theorem mapLine_eq_some_iff_block (laid : s.Laid) {n j : Int} {m : Module} :
    s.mapLine n = some (m, j) ↔ ∃ b ∈ blocksOf s.sorted, b.contains n = true ∧
      (m ∈ s.sorted ∧ m.id = b.moduleId) ∧ b.mapLine n = j := by
  simp only [mapLine, bind, Option.bind_eq_some_iff, laid.find?_eq_some_iff, laid.blocks,
    find?_contains_eq_some_iff (blocksOf_apart _), pure, Option.some.injEq, Prod.mk.injEq]
  constructor
  · rintro ⟨b, ⟨member, inside⟩, m, known, rfl, rfl⟩
    exact ⟨b, member, inside, known, rfl⟩
  · rintro ⟨b, member, inside, known, rfl⟩
    exact ⟨b, ⟨member, inside⟩, m, known, rfl, rfl⟩

/-- A line has an origin exactly where a hoisted line or a line of a body stands. -/
theorem mapLine_eq_some_iff (laid : s.Laid) {n j : Int} {m : Module} :
    s.mapLine n = some (m, j) ↔
      (∃ index h, HoistedAt s.sorted index m h ∧ n = index ∧ j = h.line) ∨
      ∃ offset line : Nat, BodyAt s.sorted m offset ∧ line < m.lines.length ∧
        n = (hoistedLines s.sorted).length + offset + 1 + line ∧ j = line := by
  rw [laid.mapLine_eq_some_iff_block]
  constructor
  · rintro ⟨b, member, inside, ⟨known, id⟩, rfl⟩
    rcases mem_blocksOf_iff.mp member with ⟨index, entry, atIndex, rfl⟩ | ⟨o, offset, body, rfl⟩
    · obtain ⟨o, inSorted, h, hoisted, rfl⟩ := mem_hoistedLines_iff.mp (List.mem_of_getElem? atIndex)
      obtain rfl := laid.eq_of_id_eq known inSorted id
      refine .inl ⟨index, h, ⟨known, hoisted, atIndex⟩, ?_⟩
      simp only [contains_iff, hoistedBlock, LineRange.single] at inside
      simp only [SourceBlock.mapLine, hoistedBlock, LineRange.single]
      omega
    · obtain rfl := laid.eq_of_id_eq known body.mem id
      simp only [contains_iff, bodyBlock] at inside
      simp only [SourceBlock.mapLine, bodyBlock]
      refine .inr ⟨offset, (n - ((hoistedLines s.sorted).length + offset + 1)).toNat, body, ?_⟩
      omega
  · rintro (⟨index, h, place, rfl, rfl⟩ | ⟨offset, line, body, inside, rfl, rfl⟩)
    · refine ⟨hoistedBlock index (m.id, h), mem_blocksOf_iff.mpr (.inl ⟨index, _, place.entry, rfl⟩), ?_,
        ⟨place.member, rfl⟩, ?_⟩
      · simp [contains_iff, hoistedBlock, LineRange.single]
      · simp [hoistedBlock, SourceBlock.mapLine, LineRange.single]
    · refine ⟨bodyBlock ((hoistedLines s.sorted).length + offset) m,
        mem_blocksOf_iff.mpr (.inr ⟨m, offset, body, rfl⟩), ?_, ⟨body.mem, rfl⟩, ?_⟩
      · simp only [contains_iff, bodyBlock]
        omega
      · simp only [bodyBlock, SourceBlock.mapLine]
        omega

end Laid

end ShaderBundle.Shader
