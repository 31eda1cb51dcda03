import ShaderBundle.Proofs.DependencyOrder.Pushes
import ShaderBundle.Proofs.DependencyOrder.Recursion
import Mathlib.Logic.Function.Basic

/-! A sort that keeps its own books: a colour for each id and the path of the open ids, each written when
a module is entered or finished and asked before the next step. The books never differ from what the
finished and the open modules say, so that nothing that is looked up in them is missing. -/
namespace ShaderBundle.DependencyOrder

open Recursive Search

structure Marks where
  colour : String → Colour
  path : List String

namespace Marks

def blank : Marks := ⟨fun _ => .white, []⟩

def enter (marks : Marks) (id : String) : Marks :=
  ⟨Function.update marks.colour id .grey, marks.path ++ [id]⟩

def finish (marks : Marks) (id : String) : Marks :=
  ⟨Function.update marks.colour id .black, marks.path.dropLast⟩

structure Tells (marks : Marks) (s : Search) : Prop where
  colour : marks.colour = Recursive.colour s.path s.finished
  path : marks.path = s.path

end Marks

inductive Marked (table : ModuleTable) : Marks → Search → List Module → Prop
  | start : Marked table .blank ⟨[], []⟩ (table.map Prod.snd)
  | pass {marks : Marks} {finished : List Module} {m : Module} {rest : List Module}
    (before : Marked table marks ⟨finished, []⟩ (m :: rest)) (black : marks.colour m.id = .black) :
    Marked table marks ⟨finished, []⟩ rest
  | root {marks : Marks} {finished : List Module} {m : Module} {rest : List Module}
    (before : Marked table marks ⟨finished, []⟩ (m :: rest)) (fresh : marks.colour m.id ≠ .black) :
    Marked table (marks.enter m.id) ⟨finished, [Frame.enter m]⟩ rest
  | finish {marks : Marks} {finished : List Module} {m : Module} {below : List Frame}
    {rest : List Module} (before : Marked table marks ⟨finished, ⟨m, []⟩ :: below⟩ rest) :
    Marked table (marks.finish m.id) ⟨finished ++ [m], below⟩ rest
  | skip {marks : Marks} {finished : List Module} {m : Module} {dep : Dependency}
    {left : List Dependency} {below : List Frame} {target : Module} {rest : List Module}
    (before : Marked table marks ⟨finished, ⟨m, dep :: left⟩ :: below⟩ rest)
    (found : table.target? dep = some target) (black : marks.colour target.id = .black) :
    Marked table marks ⟨finished, ⟨m, left⟩ :: below⟩ rest
  | enter {marks : Marks} {finished : List Module} {m : Module} {dep : Dependency}
    {left : List Dependency} {below : List Frame} {target : Module} {rest : List Module}
    (before : Marked table marks ⟨finished, ⟨m, dep :: left⟩ :: below⟩ rest)
    (found : table.target? dep = some target) (white : marks.colour target.id = .white) :
    Marked table (marks.enter target.id) ⟨finished, Frame.enter target :: ⟨m, left⟩ :: below⟩ rest

variable {table : ModuleTable} {marks : Marks} {s : Search} {rest pushes : List Module} {id : String}

/-! ### Colours -/

theorem colour_eq_black_iff : colour s.path s.finished id = .black ↔ s.isFinished id = true := by
  rw [colour_path]
  split_ifs <;> simp_all

theorem colour_eq_grey_iff :
    colour s.path s.finished id = .grey ↔ s.isFinished id = false ∧ s.isOpen id = true := by
  rw [colour_path]
  split_ifs <;> simp_all

theorem colour_eq_white_iff :
    colour s.path s.finished id = .white ↔ s.isFinished id = false ∧ s.isOpen id = false := by
  rw [colour_path]
  split_ifs <;> simp_all

theorem path_enter (finished : List Module) (target : Module) (frames : List Frame) :
    Search.path ⟨finished, Frame.enter target :: frames⟩ =
      Search.path ⟨finished, frames⟩ ++ [target.id] := by
  simp [Search.path, Frame.enter]

namespace Marks.Tells

theorem enter {finished : List Module} {frames : List Frame} {target : Module}
    (tells : marks.Tells ⟨finished, frames⟩)
    (fresh : Search.isFinished ⟨finished, frames⟩ target.id = false) :
    (marks.enter target.id).Tells ⟨finished, Frame.enter target :: frames⟩ where
  path := by rw [path_enter, ← tells.path]; rfl
  colour := by
    have unlisted : finished.any (·.id == target.id) = false := fresh
    funext id
    rw [Marks.enter, path_enter, tells.colour]
    by_cases same : id = target.id
    · subst same
      simp [Recursive.colour, unlisted]
    · simp [Recursive.colour, same]

theorem finish {finished : List Module} {m : Module} {left : List Dependency} {below : List Frame}
    (tells : marks.Tells ⟨finished, ⟨m, left⟩ :: below⟩) :
    (marks.finish m.id).Tells ⟨finished ++ [m], below⟩ where
  path := by rw [Marks.finish, tells.path]; simp [Search.path]
  colour := by
    funext id
    rw [Marks.finish, tells.colour]
    by_cases same : id = m.id
    · subst same
      simp [Recursive.colour]
    · simp [Recursive.colour, Search.path, same, Ne.symm same]

end Marks.Tells

/-- However far a sort by marks has come, the marks tell the truth. -/
theorem Marked.tells (marked : Marked table marks s rest) : marks.Tells s := by
  induction marked with
  | start => exact ⟨rfl, rfl⟩
  | pass _ _ ih => exact ih
  | @root marks finished m rest _ fresh ih =>
    refine ih.enter ?_
    rw [ih.colour, ne_eq, colour_eq_black_iff] at fresh
    simpa using fresh
  | finish _ ih => exact ih.finish
  | skip _ _ _ ih => exact ⟨ih.colour, ih.path⟩
  | @enter marks finished m dep left below target rest _ _ white ih =>
    rw [ih.colour, colour_eq_white_iff] at white
    exact Marks.Tells.enter ⟨ih.colour, ih.path⟩ white.1

/-- Marks never stop a sort: it can write them all the way. -/
theorem Sorts.marked (sorts : Sorts table pushes s rest) : ∃ marks, Marked table marks s rest := by
  induction sorts with
  | start => exact ⟨_, .start⟩
  | pass _ known ih =>
    obtain ⟨marks, marked⟩ := ih
    refine ⟨marks, marked.pass ?_⟩
    rw [marked.tells.colour]
    exact colour_eq_black_iff.mpr known
  | root _ fresh ih =>
    obtain ⟨marks, marked⟩ := ih
    refine ⟨_, marked.root ?_⟩
    rw [marked.tells.colour, ne_eq, colour_eq_black_iff]
    exact Bool.eq_false_iff.mp fresh
  | advance _ step ih =>
    obtain ⟨marks, marked⟩ := ih
    cases step with
    | finish finished m below => exact ⟨_, marked.finish⟩
    | skip found known =>
      refine ⟨_, marked.skip found ?_⟩
      rw [marked.tells.colour]
      exact colour_eq_black_iff.mpr known
    | enter found fresh unopened =>
      refine ⟨_, marked.enter found ?_⟩
      rw [marked.tells.colour]
      exact colour_eq_white_iff.mpr ⟨fresh, unopened⟩

/-- Marks lead a sort nowhere else. -/
theorem Marked.sorts (marked : Marked table marks s rest) : ∃ pushes, Sorts table pushes s rest := by
  induction marked with
  | start => exact ⟨_, .start⟩
  | pass before black ih =>
    obtain ⟨pushes, sorts⟩ := ih
    rw [before.tells.colour] at black
    exact ⟨_, sorts.pass (colour_eq_black_iff.mp black)⟩
  | root before fresh ih =>
    obtain ⟨pushes, sorts⟩ := ih
    rw [before.tells.colour, ne_eq, colour_eq_black_iff] at fresh
    exact ⟨_, sorts.root (Bool.eq_false_iff.mpr fresh)⟩
  | finish _ ih =>
    obtain ⟨pushes, sorts⟩ := ih
    exact ⟨_, sorts.advance (.finish ..)⟩
  | skip before found black ih =>
    obtain ⟨pushes, sorts⟩ := ih
    rw [before.tells.colour] at black
    exact ⟨_, sorts.advance (.skip found (colour_eq_black_iff.mp black))⟩
  | enter before found white ih =>
    obtain ⟨pushes, sorts⟩ := ih
    rw [before.tells.colour] at white
    obtain ⟨fresh, unopened⟩ := colour_eq_white_iff.mp white
    exact ⟨_, sorts.advance (.enter found fresh unopened)⟩

/-- Nothing is missing at this point of a sort: every include that is left finds its module, the ids
marked as open are those on the path, and the path is searched for each of them with success. -/
structure Complete (table : ModuleTable) (marks : Marks) (s : Search) : Prop where
  target : ∀ f ∈ s.stack, ∀ dep ∈ f.left, ∃ target, table.target? dep = some target
  opened : ∀ id, marks.colour id = .grey ↔ id ∈ marks.path
  position : ∀ id, marks.colour id = .grey → ∃ index, marks.path.idxOf? id = some index ∧
    s.chain id = marks.path.drop index ++ [id]

/-- An open module is found on the path, and the chain of its cycle is the path from there on. -/
theorem position_of_open {id : String} (opened : s.isOpen id = true) :
    ∃ index, s.path.idxOf? id = some index ∧ s.chain id = s.path.drop index ++ [id] := by
  have member : id ∈ s.path := mem_path_iff.mpr opened
  refine ⟨s.path.idxOf id, List.findIdx?_eq_some_of_exists ⟨id, member, by simp⟩, ?_⟩
  rw [chain, List.dropWhile_eq_drop_findIdx_not]
  congr 3
  funext other
  simp [beq_eq_decide]

/-- An open module is not finished as well. -/
theorem Search.Invariant.isFinished_eq_false (valid : Invariant table s) {id : String}
    (opened : s.isOpen id = true) : s.isFinished id = false := by
  by_contra finished
  obtain ⟨m, listed, rfl⟩ : ∃ m ∈ s.finished, m.id = id := by simpa [isFinished] using finished
  obtain ⟨f, stacked, same⟩ : ∃ f ∈ s.stack, f.entered.id = m.id := by simpa [isOpen] using opened
  have distinct := valid.distinct
  rw [List.map_append] at distinct
  refine (List.nodup_append.mp distinct).2.2 m.id (List.mem_map_of_mem listed) m.id ?_ rfl
  exact List.mem_map.mpr ⟨f.entered, List.mem_map_of_mem stacked, same⟩

/-- In a closed table nothing is ever missing. -/
theorem Marked.complete (closed : table.Closed) (marked : Marked table marks s rest) :
    Complete table marks s := by
  obtain ⟨pushes, sorts⟩ := marked.sorts
  obtain ⟨valid, -, -⟩ := sorts.accounts closed.toKeyed
  have tells := marked.tells
  have grey (id : String) : marks.colour id = .grey ↔ s.isOpen id = true := by
    rw [tells.colour, colour_eq_grey_iff]
    exact ⟨And.right, fun opened => ⟨valid.isFinished_eq_false opened, opened⟩⟩
  refine ⟨fun f stacked dep left => ?_, fun id => ?_, fun id opened => ?_⟩
  · have inTable := valid.members f.entered (List.mem_append_right _ (List.mem_map_of_mem stacked))
    exact closed.target?_isSome inTable ((valid.remaining f stacked).subset left)
  · rw [grey, tells.path, mem_path_iff]
  · rw [tells.path]
    exact position_of_open ((grey id).mp opened)

end ShaderBundle.DependencyOrder
