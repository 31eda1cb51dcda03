import ShaderBundle.Proofs.Watcher.Observers
import ShaderBundle.Proofs.Watcher.Repair

/-! The schedules of the observer in use: one for each directory that holds a watched file. A reload moves
them before anything can fail, and a load that fails changes neither them nor the watched files. -/
namespace ShaderBundle

/-- The schedules in force behind some calls, each with its listener: those made since all were last taken
away. -/
def schedulesAfter (calls : List ObserverCall) : List (Listener × String) :=
  calls.foldl (fun active call =>
    match call with
    | .unscheduleAll => []
    | .schedule listener directory => active ++ [(listener, directory)]
    | .start | .stop | .join => active) []

theorem schedulesAfter_concat_start (calls : List ObserverCall) :
    schedulesAfter (calls ++ [.start]) = schedulesAfter calls := by
  simp [schedulesAfter]

/-- Whatever was scheduled before is gone. -/
theorem schedulesAfter_renewed (calls : List ObserverCall) (listener : Listener)
    (directories : List String) :
    schedulesAfter (calls ++ .unscheduleAll :: directories.map (.schedule listener)) =
      directories.map (listener, ·) := by
  rw [schedulesAfter, List.foldl_append, List.foldl_cons, List.foldl_map]
  induction directories using List.reverseRecOn with
  | nil => rfl
  | append_singleton front last ih => rw [List.foldl_concat, ih, List.map_append]; rfl

namespace Watcher

open Event

theorem sortedOnce_increasing (xs : List String) : (sortedOnce xs).Pairwise (· < ·) := by
  have sorted : (sortedOnce xs).Pairwise fun a b => decide (a ≤ b) = true :=
    List.pairwise_mergeSort (fun a b c ab bc => by simp at ab bc ⊢; exact String.le_trans ab bc)
      (fun a b => by simp; exact String.le_total a b) _
  have distinct : (sortedOnce xs).Nodup := (List.mergeSort_perm _ _).nodup_iff.mpr (eraseDups_nodup xs)
  refine (sorted.and distinct).imp fun {a b} ⟨le, ne⟩ => String.not_le.mp fun ge => ?_
  exact ne (String.le_antisymm (by simpa using le) ge)

theorem mem_directories {w : Watcher} {directory : String} :
    directory ∈ w.directories ↔ ∃ path ∈ w.watched, Path.parent path = directory := by
  rw [directories, mem_sortedOnce, List.mem_map]

theorem callsOn_scheduling_self (w : Watcher) (number : Nat) : callsOn number (w.scheduling number) =
    .unscheduleAll :: w.directories.map (.schedule w.listener) := by
  rw [callsOn_scheduling, if_pos rfl]

def Scheduled (w : Watcher) (trace : List Event) : Prop :=
  ∀ number, w.observer = some number →
    schedulesAfter (callsOn number trace) = w.directories.map (w.listener, ·)

variable {w : Watcher} {trace : List Event}

theorem Scheduled.next (scheduled : w.Scheduled trace) (seated : w.Seated) {action : Action}
    (unobserved : action = .load → w.observer = none) :
    (w.next action).Scheduled (trace ++ (w.perform action).events) := by
  have handling := w.handling action
  generalize w.next action = v at handling ⊢
  generalize (w.perform action).events = events at handling ⊢
  intro number held
  rw [callsOn_append]
  cases handling with
  | makes _ _ slot calls =>
    obtain rfl : v.observers = number := Option.some.inj (slot.symm.trans held)
    rw [calls, callsOn_append, callsOn_scheduling_self, callsOn_observer, if_pos rfl, callsOn_nil,
      ← List.append_assoc, schedulesAfter_concat_start, schedulesAfter_renewed]
  | @moves v _ before held' _ slot calls =>
    obtain rfl : before = number := Option.some.inj (held'.symm.trans (slot ▸ held))
    rw [calls, callsOn_scheduling_self, schedulesAfter_renewed]
  | ends _ _ slot => simp [slot] at held
  | leaves count slot calls still =>
    rw [slot] at held
    have observed : w.observer ≠ none := by simp [held]
    have watched : v.watched = w.watched :=
      still observed (seated.sourced observed) fun loads => observed (unobserved loads)
    rw [calls, List.append_nil, scheduled number held, directories_congr watched, listener_congr count]

/-- A session that loads by hand only while no observer is in use keeps the observer in step. -/
theorem Scheduled.run (scheduled : w.Scheduled trace) (seated : w.Seated) {actions : List Action}
    (unobserved : ∀ v action, (v, action) ∈ History.moments Watcher.next w actions → action = .load →
      v.observer = none) :
    (run w actions).watcher.Scheduled (trace ++ (run w actions).trace) := by
  induction actions generalizing w trace with
  | nil => simpa [Watcher.run] using scheduled
  | cons action rest ih =>
    have first := unobserved w action List.mem_cons_self
    have later := ih (scheduled.next seated first) (seated.next action)
      fun v action member => unobserved v action (List.mem_cons_of_mem _ member)
    rwa [List.append_assoc] at later

/-- In a session that loads by hand only while no observer is in use, the observer in use has one
schedule of the present handler for each directory that holds a watched file, without its subdirectories,
in increasing order, and no other schedule. So it is behind every action, whatever has failed. -/
theorem schedules_follow_watched (tree : FileTree) (assembler : Assembler) (root : String)
    (reaction : Reaction) (verbose : Bool) (actions : List Action) :
    let start : Watcher := { tree, assembler, root, reaction, verbose }
    let session := run start actions
    let w := session.watcher
    (∀ v action, (v, action) ∈ History.moments next start actions → action = .load →
      v.observer = none) →
    ∀ number, w.observer = some number → ∃ directories : List String,
      schedulesAfter (callsOn number session.trace) = directories.map (⟨w.observers, false⟩, ·) ∧
      directories.Pairwise (· < ·) ∧
      ∀ directory, directory ∈ directories ↔ ∃ path ∈ w.watched, Path.parent path = directory := by
  intro start session w unobserved number held
  have bare : start.Scheduled [] := fun number held => by simp [start] at held
  have scheduled : w.Scheduled session.trace := bare.run (seated_bare rfl) unobserved
  exact ⟨w.directories, scheduled number held, sortedOnce_increasing _, fun _ => mem_directories⟩

theorem next_poll_of_error {e : AssemblyError} (pending : w.pending = true)
    (failed : w.bundling.result = .error e) :
    w.next .poll = { w with pending := false }.after (.error e) := by
  change w.poll.watcher = _
  have reload := reload_poll pending
  generalize w.poll = step at reload
  cases reload with
  | failed result => rw [Except.error.inj (failed.symm.trans result)]
  | done result => simp [failed] at result

/-- A save that breaks the file, a poll that reports it, and a second observer. -/
theorem schedules_follow_watched_of_restart :
    let actions := saving "#include \"\"" ++ [.poll, .stop, .start true]
    let session := run attended actions
    (∀ v action, (v, action) ∈ History.moments next attended actions → action = .load →
      v.observer = none) ∧
    session.watcher.observer = some 2 ∧ ∃ directories : List String,
      schedulesAfter (callsOn 2 session.trace) = directories.map (⟨2, false⟩, ·) ∧
      directories.Pairwise (· < ·) ∧ ∀ directory, directory ∈ directories ↔ directory = "/" := by
  intro actions session
  have unobserved (v : Watcher) (action : Action)
      (member : (v, action) ∈ History.moments next attended actions) (loads : action = .load) :
      v.observer = none := by
    have performed := History.mem_of_mem_moments member
    rw [loads] at performed
    simp [actions, saving] at performed
  let broken : Watcher := { started with tree := desk "#include \"\"", pending := true }
  have failed : broken.bundling.result = .error (.malformed ⟨"m", 0⟩) := by decide +kernel
  have final : session.watcher = ((({ broken with pending := false }.after
      (.error (.malformed ⟨"m", 0⟩))).next .stop).next (.start true)) := by
    rw [← next_poll_of_error rfl failed]
    change (run attended (saving "#include \"\"" ++ [.poll, .stop, .start true])).watcher = _
    rw [watcher_run_append, run_saving]
    rfl
  have held : session.watcher.observer = some 2 := by rw [final]; rfl
  have handlers : session.watcher.observers = 2 := by rw [final]; rfl
  have watched : session.watcher.watched = ["/m"] := by rw [final]; decide +kernel
  obtain ⟨directories, schedules, increasing, member⟩ := schedules_follow_watched (desk "x")
    attended.assembler "m" .accept false actions unobserved 2 held
  refine ⟨unobserved, held, directories, ?_, increasing, fun directory => ?_⟩
  · have own : schedulesAfter (callsOn 2 session.trace) =
        directories.map (⟨session.watcher.observers, false⟩, ·) := schedules
    rwa [handlers] at own
  · rw [member]
    change (∃ path ∈ session.watcher.watched, Path.parent path = directory) ↔ _
    have parent : Path.parent "/m" = "/" := by decide +kernel
    simp [watched, parent, eq_comm]

end Watcher

end ShaderBundle
