import ShaderBundle.Proofs.Assembly.Result
import Mathlib.Data.Set.Card

/-! The blocks of a bundle account for every module line: once in the body of its module, and once more
among the leading lines if it is hoisted. -/
namespace ShaderBundle.Shader

theorem BodyAt.offset_eq {before after : List Module} {m : Module} {offset : Nat}
    (distinct : (before ++ m :: after).Nodup) (place : BodyAt (before ++ m :: after) m offset) :
    offset = (bodyLines before).length := by
  obtain ⟨before', after', split, -, rfl⟩ := place
  have apart := List.nodup_middle.mp distinct
  obtain ⟨outside, -⟩ := List.nodup_cons.mp apart
  rw [List.mem_append, not_or] at outside
  obtain ⟨rfl, -, -⟩ := (List.append_cons_inj_of_notMem outside.1 outside.2).mp split
  rfl

namespace Laid

variable {s : Shader} {m : Module}

theorem sorted_distinct (laid : s.Laid) : s.sorted.Nodup :=
  laid.modules.nodup_iff.mpr (.of_map _ laid.distinct)

/-- No two places of the hoisted part hold the same line of the same module. -/
theorem hoistedLines_distinct (laid : s.Laid) :
    ((hoistedLines s.sorted).map fun entry => (entry.1, entry.2.line)).Nodup := by
  have keys : (hoistedLines s.sorted).map (fun entry => (entry.1, entry.2.line)) =
      s.sorted.flatMap fun m => m.hoisted.map fun h => (m.id, h.line) := by
    simp [hoistedLines, List.map_flatMap, Function.comp_def]
  rw [keys]
  refine List.nodup_flatMap.mpr ⟨fun m member => ?_, ?_⟩
  · refine List.pairwise_map.mpr ((laid.read m member).hoisted_increasing.imp ?_)
    intro a b before same
    obtain ⟨-, same⟩ := Prod.mk.inj same
    omega
  · refine (List.pairwise_map.mp laid.sorted_ids_distinct).imp ?_
    intro a b different key left right
    obtain ⟨h, -, rfl⟩ := List.mem_map.mp left
    obtain ⟨h', -, same⟩ := List.mem_map.mp right
    exact different (Prod.mk.inj same).1.symm

theorem hoistedAt_unique (laid : s.Laid) {i j : Nat} {h h' : HoistedLine}
    (left : HoistedAt s.sorted i m h) (right : HoistedAt s.sorted j m h') (same : h.line = h'.line) :
    i = j := by
  have inside : i < ((hoistedLines s.sorted).map fun entry => (entry.1, entry.2.line)).length := by
    simpa using left.lt
  refine (List.getElem?_inj inside laid.hoistedLines_distinct).mp ?_
  simp [left.entry, right.entry, same]

theorem exists_hoistedAt (member : m ∈ s.sorted) {h : HoistedLine} (hoisted : h ∈ m.hoisted) :
    ∃ index, HoistedAt s.sorted index m h := by
  have listed := mem_hoistedLines_iff.mpr ⟨m, member, h, hoisted, rfl⟩
  obtain ⟨index, entry⟩ := List.getElem?_of_mem listed
  exact ⟨index, member, hoisted, entry⟩

/-- In the hoisted part a hoisted line has one place and any other line has none. -/
theorem hoisted_places (laid : s.Laid) (member : m ∈ s.sorted) (j : Nat) :
    (j ∈ m.hoisted.map (·.line) → ∃ index : Nat, index < s.hoistedCount ∧
      {n : Int | n < s.hoistedCount ∧ s.mapLine n = some (m, (j : Int))} = {(index : Int)}) ∧
    (j ∉ m.hoisted.map (·.line) →
      {n : Int | n < s.hoistedCount ∧ s.mapLine n = some (m, (j : Int))} = ∅) := by
  constructor
  · intro isHoisted
    obtain ⟨h, hoisted, rfl⟩ := List.mem_map.mp isHoisted
    obtain ⟨index, place⟩ := exists_hoistedAt member hoisted
    have inside := length_hoistedLines s ▸ place.lt
    refine ⟨index, inside, Set.ext fun n => ?_⟩
    simp only [Set.mem_ofPred_eq, Set.mem_singleton_iff, laid.mapLine_eq_some_iff, length_hoistedLines]
    constructor
    · rintro ⟨front, ⟨other, h', place', rfl, same⟩ | ⟨offset, line, -, -, rfl, -⟩⟩
      · rw [laid.hoistedAt_unique place place' (by omega)]
      · omega
    · rintro rfl
      exact ⟨by omega, .inl ⟨index, h, place, rfl, rfl⟩⟩
  · intro notHoisted
    refine Set.eq_empty_of_forall_notMem fun n => ?_
    simp only [Set.mem_ofPred_eq, laid.mapLine_eq_some_iff, length_hoistedLines]
    rintro ⟨front, ⟨index, h, place, rfl, same⟩ | ⟨offset, line, -, -, rfl, -⟩⟩
    · exact notHoisted (List.mem_map.mpr ⟨h, place.hoisted, by omega⟩)
    · omega

/-- Behind the hoisted part the lines of a module stand one after the other. -/
theorem body_places (laid : s.Laid) {before after : List Module}
    (split : s.sorted = before ++ m :: after) (n j : Int) :
    s.hoistedCount ≤ n ∧ s.mapLine n = some (m, j) ↔ 0 ≤ j ∧ j < m.lines.length ∧
      n = s.hoistedCount + (bodyLines before).length + 1 + j := by
  rw [laid.mapLine_eq_some_iff, length_hoistedLines]
  constructor
  · rintro ⟨behind, ⟨index, h, place, rfl, rfl⟩ | ⟨offset, line, place, inside, rfl, rfl⟩⟩
    · have front := length_hoistedLines s ▸ place.lt
      omega
    · have offset := BodyAt.offset_eq (split ▸ laid.sorted_distinct) (split ▸ place)
      omega
  · rintro ⟨start, inside, rfl⟩
    have filled : m.lines ≠ [] := by
      rintro empty
      simp only [empty, List.length_nil] at inside
      omega
    exact ⟨by omega, .inr ⟨_, j.toNat, ⟨before, after, split, filled, rfl⟩, by omega, by omega,
      by omega⟩⟩

/-- A line has one place in the body of its module, and one more in the hoisted part if it is hoisted. -/
theorem count_places (laid : s.Laid) (member : m ∈ s.sorted) {j : Nat} (inside : j < m.lines.length) :
    {n : Int | s.mapLine n = some (m, (j : Int))}.ncard =
      (if j ∈ m.hoisted.map (·.line) then 2 else 1) ∧
    {n : Int | n < s.hoistedCount ∧ s.mapLine n = some (m, (j : Int))}.ncard =
      (if j ∈ m.hoisted.map (·.line) then 1 else 0) ∧
    {n : Int | s.hoistedCount ≤ n ∧ s.mapLine n = some (m, (j : Int))}.ncard = 1 := by
  obtain ⟨before, after, split⟩ := List.append_of_mem member
  have behind : {n : Int | s.hoistedCount ≤ n ∧ s.mapLine n = some (m, (j : Int))} =
      {(s.hoistedCount + (bodyLines before).length + 1 + j : Int)} := by
    refine Set.ext fun n => (laid.body_places split n j).trans ⟨fun place => place.2.2, ?_⟩
    rintro rfl
    exact ⟨by omega, by omega, rfl⟩
  have parts : {n : Int | s.mapLine n = some (m, (j : Int))} =
      {n : Int | n < s.hoistedCount ∧ s.mapLine n = some (m, (j : Int))} ∪
      {n : Int | s.hoistedCount ≤ n ∧ s.mapLine n = some (m, (j : Int))} := by
    ext n
    simp only [Set.mem_union, Set.mem_ofPred_eq, ← or_and_right]
    exact ⟨fun mapped => ⟨lt_or_ge _ _, mapped⟩, And.right⟩
  rw [parts, behind]
  by_cases hoisted : j ∈ m.hoisted.map (·.line)
  · obtain ⟨index, inside, front⟩ := (laid.hoisted_places member j).1 hoisted
    rw [front, if_pos hoisted, if_pos hoisted, Set.singleton_union]
    exact ⟨Set.ncard_pair (by omega), Set.ncard_singleton _, Set.ncard_singleton _⟩
  · rw [(laid.hoisted_places member j).2 hoisted, if_neg hoisted, if_neg hoisted, Set.empty_union]
    exact ⟨Set.ncard_singleton _, Set.ncard_empty _, Set.ncard_singleton _⟩

theorem empty_unused (laid : s.Laid) (member : m ∈ s.sorted) (empty : m.lines = []) :
    (∀ b ∈ s.blocks, b.moduleId ≠ m.id) ∧ ∀ n j, s.mapLine n ≠ some (m, j) := by
  have noHoist (h : HoistedLine) : h ∉ m.hoisted := by
    intro hoisted
    have inside := (laid.read m member).line_lt hoisted
    simp [empty] at inside
  constructor
  · intro b inBlocks same
    rw [laid.blocks] at inBlocks
    rcases mem_blocksOf_iff.mp inBlocks with ⟨index, entry, atIndex, rfl⟩ | ⟨o, offset, place, rfl⟩
    · obtain ⟨o, inSorted, h, hoisted, rfl⟩ := mem_hoistedLines_iff.mp (List.mem_of_getElem? atIndex)
      obtain rfl := laid.eq_of_id_eq inSorted member same
      exact noHoist h hoisted
    · obtain rfl := laid.eq_of_id_eq place.mem member same
      exact place.filled empty
  · intro n j mapped
    rcases laid.mapLine_eq_some_iff.mp mapped with ⟨index, h, place, -⟩ | ⟨offset, line, -, inside, -⟩
    · exact noHoist h place.hoisted
    · simp [empty] at inside

end Laid

/-- The blocks of an assembled shader account for all module lines. They are disjoint and in order; a
hoisted line has two places in the bundle and any other line one; and behind the hoisted lines each
module fills one run of places, module after module in the order of the sort. -/
theorem blocks_account {lib : Library} {root includeRoot : String} {s : Shader}
    (ok : (assemble lib root includeRoot).result = .ok s) :
    s.blocks.Pairwise (·.bundled.last < ·.bundled.first) ∧
    (∀ b ∈ s.blocks, b.bundled.first ≤ b.bundled.last ∧
      b.bundled.last - b.bundled.first = b.inModule.last - b.inModule.first) ∧
    (∀ m ∈ s.sorted, ∀ j : Nat, j < m.lines.length →
      {n : Int | s.mapLine n = some (m, (j : Int))}.ncard =
        (if j ∈ m.hoisted.map (·.line) then 2 else 1) ∧
      {n : Int | n < s.hoistedCount ∧ s.mapLine n = some (m, (j : Int))}.ncard =
        (if j ∈ m.hoisted.map (·.line) then 1 else 0) ∧
      {n : Int | s.hoistedCount ≤ n ∧ s.mapLine n = some (m, (j : Int))}.ncard = 1) ∧
    (∀ m ∈ s.sorted, ∃ start : Int, ∀ n j : Int,
      s.hoistedCount ≤ n ∧ s.mapLine n = some (m, j) ↔ 0 ≤ j ∧ j < m.lines.length ∧ n = start + j) ∧
    (∀ before m middle n after, s.sorted = before ++ m :: (middle ++ n :: after) →
      ∀ x y i j : Int, s.hoistedCount ≤ x → s.hoistedCount ≤ y →
        s.mapLine x = some (m, i) → s.mapLine y = some (n, j) → x < y) ∧
    (∀ m ∈ s.sorted, m.lines = [] →
      (∀ b ∈ s.blocks, b.moduleId ≠ m.id) ∧ ∀ n j, s.mapLine n ≠ some (m, j)) := by
  have laid := laid_of_assemble ok
  refine ⟨laid.blocks ▸ blocksOf_apart _, fun b member => extent_of_mem_blocksOf (laid.blocks ▸ member),
    fun m member j => laid.count_places member, ?_, ?_, fun m => laid.empty_unused⟩
  · intro m member
    obtain ⟨before, after, split⟩ := List.append_of_mem member
    exact ⟨_, laid.body_places split⟩
  · intro before m middle n after split x y i j left right mapX mapY
    have split' : s.sorted = (before ++ m :: middle) ++ n :: after := by simp [split]
    obtain ⟨-, inside, rfl⟩ := (laid.body_places split x i).mp ⟨left, mapX⟩
    obtain ⟨start, -, rfl⟩ := (laid.body_places split' y j).mp ⟨right, mapY⟩
    have filled : m.lines ≠ [] := by
      rintro empty
      exact (laid.empty_unused (by simp [split]) empty).2 _ _ mapX
    rw [bodyLines_append, bodyLines_cons _ filled, List.length_append, List.length_append, length_body]
    omega

theorem blocks_account_of_pair : ∃ s m, (assemble MemoryStore.pair.library "m" "").result = .ok s ∧
    m ∈ s.sorted ∧ m.hoisted = [⟨"#version 330", 0⟩] ∧
    {n : Int | s.mapLine n = some (m, 0)}.ncard = 2 ∧
    {n : Int | s.mapLine n = some (m, 2)}.ncard = 1 := by
  have account := (blocks_account assemble_pair).2.2.1
  let m : Module := ⟨"m", ["// #version 330", "// #include \"a\"", "x"],
    [⟨"a", 1, .relative, some "a"⟩], [⟨"#version 330", 0⟩]⟩
  have member : m ∈ (Shader.ofSorted "m" MemoryStore.pairModules
      MemoryStore.pairModules.reverse).sorted := by decide
  exact ⟨_, m, assemble_pair, member, rfl, (account m member 0 (by decide)).1,
    (account m member 2 (by decide)).1⟩

end ShaderBundle.Shader
