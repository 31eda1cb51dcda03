import ShaderBundle.Module

/-! Modules after all they depend on. The search goes depth first with a stack of its own: the top
frame either has an include left, whose module is finished already, still open (a cycle) or new, or
has none, and then its module is finished. -/
namespace ShaderBundle

/-- Modules by key, in the order of insertion. -/
abbrev ModuleTable := List (String × Module)

namespace ModuleTable

/-- A key that is there keeps its place and takes the new module. -/
def insert (key : String) (m : Module) : ModuleTable → ModuleTable
  | [] => [(key, m)]
  | entry :: rest => if entry.1 = key then (key, m) :: rest else entry :: insert key m rest

def find? (table : ModuleTable) (key : String) : Option Module := List.lookup key table

theorem find?_cons (entry : String × Module) (rest : ModuleTable) (key : String) :
    find? (entry :: rest) key = if key = entry.1 then some entry.2 else find? rest key := by
  obtain ⟨first, m⟩ := entry
  rw [find?, List.lookup_cons]
  by_cases same : key = first
  · simp [same]
  · rw [beq_eq_false_iff_ne.mpr same, if_neg same]
    rfl

theorem mem_of_find? {table : ModuleTable} {key : String} {m : Module}
    (h : table.find? key = some m) : m ∈ table.map Prod.snd := by
  induction table with
  | nil => simp [find?] at h
  | cons entry rest ih =>
    rw [find?_cons] at h
    split at h
    · simp_all
    · exact List.mem_cons_of_mem _ (ih h)

end ModuleTable

inductive OrderFault
  | cycle (chain : List String)
  | unresolved (key : Option String)
  deriving DecidableEq, Repr

namespace DependencyOrder

/-- A module that is entered, with the includes still to look at. -/
structure Frame where
  entered : Module
  left : List Dependency

def Frame.enter (m : Module) : Frame := ⟨m, m.dependencies⟩

structure Search where
  finished : List Module
  stack : List Frame

namespace Search

def isFinished (s : Search) (id : String) : Bool := s.finished.any (·.id == id)

def isOpen (s : Search) (id : String) : Bool := s.stack.any (·.entered.id == id)

/-- The ids of the open modules, outermost first. -/
def path (s : Search) : List String := (s.stack.map (·.entered.id)).reverse

/-- From the open module down to the top, and back to the open module. -/
def chain (s : Search) (id : String) : List String := s.path.dropWhile (· ≠ id) ++ [id]

/-- Neither finished nor open. -/
def isNew (s : Search) (id : String) : Bool := !s.isFinished id && !s.isOpen id

def news (table : ModuleTable) (s : Search) : Nat :=
  ((table.map Prod.snd).filter fun m => s.isNew m.id).length

def pending (s : Search) : Nat := (s.stack.flatMap (·.left)).length + s.stack.length

theorem news_le_of_imp {table : ModuleTable} {s t : Search}
    (h : ∀ id, t.isNew id = true → s.isNew id = true) : t.news table ≤ s.news table := by
  unfold news
  rw [← List.countP_eq_length_filter, ← List.countP_eq_length_filter]
  exact List.countP_mono_left fun m _ hm => h m.id hm

theorem news_lt_of_mem {table : ModuleTable} {s t : Search} {m : Module}
    (h : ∀ id, t.isNew id = true → s.isNew id = true) (member : m ∈ table.map Prod.snd)
    (before : s.isNew m.id = true) (after : t.isNew m.id = false) :
    t.news table < s.news table := by
  unfold news
  rw [← List.countP_eq_length_filter, ← List.countP_eq_length_filter]
  generalize table.map Prod.snd = ms at member
  induction ms with
  | nil => simp at member
  | cons n rest ih =>
    have weak : List.countP (fun m => t.isNew m.id) rest ≤ List.countP (fun m => s.isNew m.id) rest :=
      List.countP_mono_left fun m _ hm => h m.id hm
    rw [List.countP_cons, List.countP_cons]
    rcases List.mem_cons.mp member with rfl | inRest
    · simp only [before, after, if_true]
      simp
      omega
    · have strict := ih inRest
      have head := h n.id
      grind

end Search

set_option linter.unusedVariables false in
/-- Searches until the stack is empty; the finished modules then are in order. -/
def settle (table : ModuleTable) (s : Search) : Except OrderFault (List Module) :=
  match hs : s.stack with
  | [] => .ok s.finished
  | ⟨m, []⟩ :: below => settle table ⟨s.finished ++ [m], below⟩
  | ⟨m, dep :: left⟩ :: below =>
    match hf : dep.resolved.bind table.find? with
    | none => .error (.unresolved dep.resolved)
    | some target =>
      if hd : s.isFinished target.id then settle table ⟨s.finished, ⟨m, left⟩ :: below⟩
      else if ho : s.isOpen target.id then .error (.cycle (s.chain target.id))
      else settle table ⟨s.finished, Frame.enter target :: ⟨m, left⟩ :: below⟩
termination_by (s.news table, s.pending)
decreasing_by
  · refine Prod.Lex.right' _ ?_ ?_
    · apply Search.news_le_of_imp
      intro id
      simp [Search.isNew, Search.isFinished, Search.isOpen, hs]
      grind
    · simp [Search.pending, hs]
  · refine Prod.Lex.right' _ ?_ ?_
    · apply Search.news_le_of_imp
      intro id
      simp [Search.isNew, Search.isFinished, Search.isOpen, hs]
    · simp [Search.pending, hs]
  · apply Prod.Lex.left
    obtain ⟨key, -, found⟩ := Option.bind_eq_some_iff.mp hf
    refine Search.news_lt_of_mem (m := target) ?_ (ModuleTable.mem_of_find? found) ?_ ?_
    · intro id
      simp [Search.isNew, Search.isFinished, Search.isOpen, hs]
      grind
    · simp_all [Search.isNew]
    · simp [Search.isNew, Search.isOpen, Frame.enter]

/-- Enters a module that is not finished yet. -/
def visit (table : ModuleTable) (finished : List Module) (m : Module) :
    Except OrderFault (List Module) :=
  if finished.any (·.id == m.id) then .ok finished
  else settle table ⟨finished, [Frame.enter m]⟩

/-- All modules, entered in the order of the table. -/
def sort (table : ModuleTable) : Except OrderFault (List Module) :=
  (table.map Prod.snd).foldlM (visit table) []

end DependencyOrder

end ShaderBundle
