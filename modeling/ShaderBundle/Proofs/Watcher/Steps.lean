import ShaderBundle.Watcher
import ShaderBundle.Proofs.Assembly.Loading
import ShaderBundle.Proofs.FileTree.Writes
import Mathlib.Data.List.Basic

/-! What each action does to a watcher. The source and the watched paths follow the last bundling that
succeeded, while the assembler follows the last one of all. -/
namespace ShaderBundle.Watcher

def bundling (w : Watcher) : Assembly := w.assembler.bundling w.tree w.root

def pathsOf (w : Watcher) (s : Shader) : List String := sortedOnce (s.sorted.map fun m => w.pathOf m.id)

def after (w : Watcher) : Except AssemblyError Shader → Watcher
  | .error e => { w with assembler := w.assembler.after (.error e) }
  | .ok s => { w with
      assembler := w.assembler.after (.ok s)
      source := some s.source
      watched := w.pathsOf s }

def bundles (w : Watcher) : Action → Bool
  | .load => true
  | .poll => w.pending
  | .start _ => w.source.isNone
  | _ => false

def loaded? (w : Watcher) (action : Action) : Option Shader :=
  if w.bundles action then w.bundling.result.toOption else none

/-- Whether an action asks for a reload: by itself, or as a report of a watched file that a handler
hears. -/
def marks (w : Watcher) : Action → Bool
  | .markPending => true
  | .report (.modified path) | .report (.created path) => w.observers ≠ 0 && w.isWatched path
  | .report (.moved _ destination) => w.observers ≠ 0 && w.isWatched destination
  | _ => false

def polled? (w : Watcher) : Action → Option Shader
  | .poll => w.loaded? .poll
  | _ => none

variable {w : Watcher}

section After

variable (w : Watcher) (result : Except AssemblyError Shader)

theorem source_after : (w.after result).source = (result.toOption.map (·.source)).or w.source := by
  cases result <;> rfl

theorem watched_after : (w.after result).watched = (result.toOption.map w.pathsOf).getD w.watched := by
  cases result <;> rfl

/-- A bundling touches nothing else. -/
@[simp] theorem pending_after : (w.after result).pending = w.pending := by cases result <;> rfl

@[simp] theorem reaction_after : (w.after result).reaction = w.reaction := by cases result <;> rfl

@[simp] theorem observers_after : (w.after result).observers = w.observers := by cases result <;> rfl

@[simp] theorem tree_after : (w.after result).tree = w.tree := by cases result <;> rfl

@[simp] theorem reloads_after : (w.after result).reloads = w.reloads := by cases result <;> rfl

end After

theorem mem_sortedOnce {xs : List String} {x : String} : x ∈ sortedOnce xs ↔ x ∈ xs := by
  simp [sortedOnce]

theorem load_eq (w : Watcher) : w.load = ⟨w.after w.bundling.result,
    Event.notices w.assembler.verbose w.bundling.notices,
    (w.bundling.result.map (·.source)).mapError .assembly⟩ := by
  unfold load
  rw [Assembler.load_eq]
  cases result : (w.assembler.bundling w.tree w.root).result with
  | error e => simp [bundling, result, Except.map, Except.mapError, after]
  | ok s =>
    have shader := Assembler.shader_after_ok result
    simp [bundling, result, Except.map, Except.mapError, after, pathsOf, Assembler.sorted, shader]

/-- The watcher as a poll hands it to the reaction, with the source of its shader. -/
def reloaded (w : Watcher) (s : Shader) : Watcher := { w with pending := false }.after (.ok s)

/-- A poll that reloads, told from the one bundling that it performs. The flag is cleared first. Then
the new source goes to the reaction, or the failure is reported and the old source stays. -/
inductive Reload (w : Watcher) (run : Assembly) : Step Bool → Prop
  | failed {e : AssemblyError} (result : run.result = .error e) :
    Reload w run ⟨{ w with pending := false }.after (.error e),
      Event.notices w.verbose [.changed w.root] ++ Event.notices w.assembler.verbose run.notices ++
        [reloadFailed (.assembly e)], .ok false⟩
  | done {s : Shader} (result : run.result = .ok s) :
    Reload w run ((react s.source (w.reloaded s)).precededBy
      (Event.notices w.verbose [.changed w.root] ++ Event.notices w.assembler.verbose run.notices ++
        (w.reloaded s).reschedule))

theorem reload_poll (pending : w.pending = true) : Reload w w.bundling w.poll := by
  unfold poll
  rw [if_pos pending, load_eq]
  cases result : w.bundling.result with
  | error e =>
    have same : { w with pending := false }.bundling.result = .error e := result
    simp only [same, Except.map, Except.mapError]
    exact .failed result
  | ok s =>
    have same : { w with pending := false }.bundling.result = .ok s := result
    simp only [same, Except.map, Except.mapError]
    exact .done result

theorem poll_idle (idle : w.pending = false) : w.poll = ⟨w, [], .ok false⟩ := by simp [poll, idle]

/-- The parts that the rest of a session depends on are the same; observers may have been added. -/
structure Agrees (w v : Watcher) : Prop where
  source : v.source = w.source
  watched : v.watched = w.watched
  pending : v.pending = w.pending
  reaction : v.reaction = w.reaction
  observers : w.observers ≤ v.observers
  workingPath : v.tree.workingPath = w.tree.workingPath
  reloads : v.reloads = w.reloads

theorem Agrees.refl (w : Watcher) : w.Agrees w := ⟨rfl, rfl, rfl, rfl, Nat.le_refl _, rfl, rfl⟩

theorem agrees_observe (available : Bool) (w : Watcher) : w.Agrees (observe available w).watcher := by
  cases available with
  | false => exact .refl w
  | true => exact ⟨rfl, rfl, rfl, rfl, Nat.le_succ _, rfl, rfl⟩

theorem agrees_stop (w : Watcher) : w.Agrees w.stop.watcher := by
  unfold stop
  split
  · exact .refl w
  · exact ⟨rfl, rfl, rfl, rfl, Nat.le_refl _, rfl, rfl⟩

theorem tree_stop (w : Watcher) : w.stop.watcher.tree = w.tree := by
  unfold stop
  split <;> rfl

theorem agrees_setIncludeRoot (path : String) (w : Watcher) : w.Agrees (setIncludeRoot path w).watcher := by
  unfold setIncludeRoot
  split
  · exact .refl w
  · exact ⟨rfl, rfl, rfl, rfl, Nat.le_refl _, rfl, rfl⟩

theorem agrees_changeTree (change : FileTree.Change) (w : Watcher) :
    w.Agrees (changeTree change w).watcher := by
  unfold changeTree
  split
  · exact .refl w
  · rename_i tree changed
    have place := FileTree.workingPath_congr (FileTree.workingDirectory_apply changed)
    exact ⟨rfl, rfl, rfl, rfl, Nat.le_refl _, place, rfl⟩

/-- A reaction that saves does so where a file may stand. -/
theorem react_save {path : String} {place : Place} {announce : Bool} (reaction : w.reaction = .save path announce)
    (located : w.tree.locate path = .ok place) (free : w.tree.node? place ≠ some .folder) (source : String) :
    react source w = ⟨{ w with
        reloads := w.reloads ++ [source]
        tree := w.tree.put place (.file (Text.utf8Bytes source)) },
      Event.notices announce [.wrote path], .ok true⟩ := by
  unfold react
  rw [reaction]
  dsimp only
  rw [FileTree.write_eq_ok located free]

/-- A reaction is told the new source, unless there is none. It may write a file. -/
theorem agrees_react (source : String) (w : Watcher) :
    Agrees { w with reloads := w.reloads ++ if w.reaction = .none then [] else [source] }
      (react source w).watcher := by
  unfold react
  cases reaction : w.reaction with
  | none => exact ⟨rfl, rfl, rfl, reaction, Nat.le_refl _, rfl, by simp⟩
  | accept => exact ⟨rfl, rfl, rfl, rfl, Nat.le_refl _, rfl, by simp⟩
  | refuse message => exact ⟨rfl, rfl, rfl, rfl, Nat.le_refl _, rfl, by simp⟩
  | save path announce =>
    dsimp only
    cases written : w.tree.write path (Text.utf8Bytes source) with
    | error fault => exact ⟨rfl, rfl, rfl, rfl, Nat.le_refl _, rfl, by simp⟩
    | ok tree =>
      have place := FileTree.workingPath_congr (FileTree.workingDirectory_write written)
      exact ⟨rfl, rfl, rfl, rfl, Nat.le_refl _, place, by simp⟩

def next (w : Watcher) (action : Action) : Watcher := (w.perform action).watcher

structure Account (w : Watcher) (action : Action) (v : Watcher) : Prop where
  source : v.source = ((w.loaded? action).map (·.source)).or w.source
  watched : v.watched = ((w.loaded? action).map w.pathsOf).getD w.watched
  polled : action = .poll → v.pending = false
  marked : action ≠ .poll → v.pending = (w.marks action || w.pending)
  reaction : v.reaction = w.reaction
  observers : w.observers ≤ v.observers
  workingPath : v.tree.workingPath = w.tree.workingPath
  reloads : v.reloads = w.reloads ++
    if w.reaction = .none then [] else ((w.polled? action).map (·.source)).toList

section Account

variable {action : Action} {v : Watcher}

theorem polled?_eq_none (other : action ≠ .poll) : w.polled? action = none := by
  cases action with
  | poll => exact absurd rfl other
  | _ => rfl

/-- An action that bundles nothing at most marks a reload. -/
theorem account_quiet (quiet : w.bundles action = false) (other : action ≠ .poll)
    (agrees : Agrees { w with pending := w.marks action || w.pending } v) : w.Account action v := by
  have none : w.loaded? action = .none := by simp [loaded?, quiet]
  exact {
    source := by simp [none, agrees.source]
    watched := by simp [none, agrees.watched]
    polled := fun poll => absurd poll other
    marked := fun _ => agrees.pending
    reaction := agrees.reaction
    observers := agrees.observers
    workingPath := agrees.workingPath
    reloads := by simp [polled?_eq_none other, agrees.reloads] }

theorem account_bundled (bundled : w.bundles action = true) (other : action ≠ .poll)
    (unmarked : w.marks action = false) (agrees : (w.after w.bundling.result).Agrees v) :
    w.Account action v := by
  have loaded : w.loaded? action = w.bundling.result.toOption := by simp [loaded?, bundled]
  exact {
    source := by rw [agrees.source, source_after, loaded]
    watched := by rw [agrees.watched, watched_after, loaded]
    polled := fun poll => absurd poll other
    marked := fun _ => by simp [unmarked, agrees.pending]
    reaction := by simp [agrees.reaction]
    observers := by simpa using agrees.observers
    workingPath := by simp [agrees.workingPath]
    reloads := by simp [polled?_eq_none other, agrees.reloads] }

theorem account_poll (w : Watcher) : w.Account .poll (w.next .poll) := by
  have watcher : w.next .poll = w.poll.watcher := rfl
  rw [watcher]
  cases pending : w.pending with
  | false =>
    have none : w.loaded? .poll = .none := by simp [loaded?, bundles, pending]
    rw [poll_idle pending]
    exact {
      source := by simp [none]
      watched := by simp [none]
      polled := fun _ => pending
      marked := fun other => absurd rfl other
      reaction := rfl
      observers := Nat.le_refl _
      workingPath := rfl
      reloads := by simp [polled?, none] }
  | true =>
    have loaded : w.loaded? .poll = w.bundling.result.toOption := by simp [loaded?, bundles, pending]
    have reload := reload_poll pending
    generalize w.poll = step at reload
    cases reload with
    | failed result =>
      rw [result] at loaded
      exact {
        source := by rw [loaded]; rfl
        watched := by rw [loaded]; rfl
        polled := fun _ => rfl
        marked := fun other => absurd rfl other
        reaction := rfl
        observers := Nat.le_refl _
        workingPath := rfl
        reloads := by simp [polled?, loaded, Except.toOption] }
    | @done s result =>
      have agrees := agrees_react s.source (w.reloaded s)
      rw [result] at loaded
      exact {
        source := by rw [loaded]; exact agrees.source
        watched := by rw [loaded]; exact agrees.watched
        polled := fun _ => agrees.pending
        marked := fun other => absurd rfl other
        reaction := agrees.reaction
        observers := agrees.observers
        workingPath := agrees.workingPath
        reloads := by rw [polled?, loaded]; exact agrees.reloads }

theorem account_start (available : Bool) (w : Watcher) :
    w.Account (.start available) (w.next (.start available)) := by
  cases held : w.source with
  | some source =>
    have after : w.next (.start available) = (observe available w).watcher := by
      simp [next, perform, start, held, Step.map]
    rw [after]
    exact account_quiet (by simp [bundles, held]) (by simp)
      (by simpa [marks] using agrees_observe available w)
  | none =>
    refine account_bundled (by simp [bundles, held]) (by simp) rfl ?_
    unfold next perform start
    rw [held, load_eq]
    cases result : w.bundling.result with
    | error e => exact .refl _
    | ok s => exact agrees_observe available _

theorem deliver_eq (event : FileEvent) (w : Watcher) :
    w.deliver event = { w with pending := w.marks (.report event) || w.pending } := by
  have marks : w.marks (.report event) = (w.observers ≠ 0 && event.concerns.any w.isWatched) := by
    cases event <;> simp [Watcher.marks, FileEvent.concerns]
  unfold deliver
  rw [← marks]
  cases w.marks (.report event) <;> rfl

end Account

theorem account (w : Watcher) (action : Action) : w.Account action (w.next action) := by
  cases action with
  | start available => exact account_start available w
  | load =>
    refine account_bundled rfl (by simp) rfl ?_
    change Agrees _ w.load.watcher
    rw [load_eq]
    exact .refl _
  | poll => exact account_poll w
  | stop => exact account_quiet rfl (by simp) (agrees_stop w)
  | markPending => exact account_quiet rfl (by simp) (.refl _)
  | report event =>
    refine account_quiet rfl (by simp) ?_
    rw [← deliver_eq]
    exact .refl _
  | includeRoot path => exact account_quiet rfl (by simp) (agrees_setIncludeRoot path w)
  | change change => exact account_quiet rfl (by simp) (agrees_changeTree change w)

end ShaderBundle.Watcher
