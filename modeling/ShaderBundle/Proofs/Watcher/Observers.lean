import ShaderBundle.Proofs.Watcher.Session

/-! What the actions of a session do to its observers. A start makes an observer and puts it to work, a
reload moves its schedules, a stop ends it, and no other action calls any. -/
namespace ShaderBundle

namespace Event

def callsOn (number : Nat) (events : List Event) : List ObserverCall :=
  events.filterMap fun event =>
    match event with
    | .observer other call => if other = number then some call else none
    | _ => none

variable {number other : Nat} {call : ObserverCall} {events : List Event}

@[simp] theorem callsOn_nil : callsOn number [] = [] := rfl

@[simp] theorem callsOn_append (front back : List Event) :
    callsOn number (front ++ back) = callsOn number front ++ callsOn number back :=
  List.filterMap_append ..

@[simp] theorem callsOn_observer : callsOn number (.observer other call :: events) =
    if other = number then call :: callsOn number events else callsOn number events := by
  by_cases same : other = number <;> simp [callsOn, same]

@[simp] theorem callsOn_line {text : String} :
    callsOn number (line text :: events) = callsOn number events := rfl

@[simp] theorem callsOn_errorLine {text : String} :
    callsOn number (errorLine text :: events) = callsOn number events := rfl

@[simp] theorem callsOn_wait : callsOn number (.wait :: events) = callsOn number events := rfl

@[simp] theorem callsOn_notices {wanted : Bool} {reports : List Notice} :
    callsOn number (notices wanted reports) = [] := by
  simp [callsOn, notices, line, List.filterMap_eq_nil_iff]

end Event

namespace Watcher

open Event

theorem callsOn_scheduling {w : Watcher} {number other : Nat} :
    callsOn number (w.scheduling other) =
      if other = number then .unscheduleAll :: w.directories.map (.schedule w.listener) else [] := by
  have rest : callsOn number (w.directories.map fun d => .observer other (.schedule w.listener d)) =
      if other = number then w.directories.map (.schedule w.listener) else [] := by
    induction w.directories with
    | nil => simp
    | cons directory rest ih =>
      rw [List.map_cons, callsOn_observer, ih]
      split <;> rfl
  rw [scheduling, callsOn_observer, rest]
  split <;> rfl

inductive Handling (w : Watcher) : Action → Watcher → List Event → Prop
  | makes {v : Watcher} {events : List Event} (sourced : v.source ≠ none)
    (count : v.observers = w.observers + 1) (slot : v.observer = some v.observers)
    (calls : ∀ n, callsOn n events =
      callsOn n (v.scheduling v.observers ++ [.observer v.observers .start])) :
    Handling w (.start true) v events
  | moves {v : Watcher} {events : List Event} {number : Nat} (held : w.observer = some number)
    (count : v.observers = w.observers) (slot : v.observer = w.observer)
    (calls : ∀ n, callsOn n events = callsOn n (v.scheduling number)) :
    Handling w .poll v events
  | ends {v : Watcher} {events : List Event} {number : Nat} (held : w.observer = some number)
    (count : v.observers = w.observers) (slot : v.observer = none)
    (calls : ∀ n, callsOn n events = callsOn n [.observer number .stop, .observer number .join]) :
    Handling w .stop v events
  | leaves {action : Action} {v : Watcher} {events : List Event} (count : v.observers = w.observers)
    (slot : v.observer = w.observer) (calls : ∀ n, callsOn n events = [])
    (still : w.observer ≠ none → w.source ≠ none → action ≠ .load → v.watched = w.watched)
    (unmade : action = .start true → w.source = none) (unended : action = .stop → w.observer = none) :
    Handling w action v events

variable {w : Watcher}

/-- An action that makes no call and changes no watched path. -/
theorem handling_quiet {action : Action} {v : Watcher} {events : List Event}
    (other : action ≠ .stop) (unstarted : action ≠ .start true) (count : v.observers = w.observers)
    (slot : v.observer = w.observer) (watched : v.watched = w.watched) (none : events = []) :
    w.Handling action v events :=
  .leaves count slot (fun _ => none ▸ callsOn_nil) (fun _ _ _ => watched)
    (fun start => absurd start unstarted) (fun stop => absurd stop other)

theorem handling_start (available : Bool) (w : Watcher) :
    w.Handling (.start available) (w.next (.start available)) (w.perform (.start available)).events := by
  unfold next perform start
  cases held : w.source with
  | some source =>
    cases available with
    | false =>
      exact .leaves rfl rfl (fun n => by simp [observe, Step.map]) (fun _ _ _ => rfl) (by simp) (by simp)
    | true =>
      refine .makes ?_ rfl rfl fun n => by simp [observe, Step.map]
      simp [observe, Step.map, held]
  | none =>
    rw [load_eq]
    cases result : w.bundling.result with
    | error e =>
      exact .leaves rfl rfl (fun n => callsOn_notices) (fun _ sourced => absurd held sourced)
        (fun _ => held) (by simp)
    | ok s =>
      cases available with
      | false =>
        refine .leaves rfl rfl (fun n => ?_) (fun _ sourced => absurd held sourced) (by simp) (by simp)
        simp [observe, Step.map, Except.map, Except.mapError, Step.precededBy]
      | true =>
        refine .makes ?_ rfl rfl fun n => ?_
        · simp [observe, Step.map, Except.map, Except.mapError, Step.precededBy, after]
        · simp [observe, Step.map, Except.map, Except.mapError, Step.precededBy]

/-- A reaction has nothing to do with observers. -/
theorem observer_react (source : String) (w : Watcher) :
    (react source w).watcher.observer = w.observer ∧ (react source w).watcher.observers = w.observers ∧
    (react source w).watcher.watched = w.watched ∧ ∀ n, callsOn n (react source w).events = [] := by
  unfold react
  split
  · exact ⟨rfl, rfl, rfl, fun _ => rfl⟩
  · exact ⟨rfl, rfl, rfl, fun _ => rfl⟩
  · exact ⟨rfl, rfl, rfl, fun _ => rfl⟩
  · dsimp only
    split
    · exact ⟨rfl, rfl, rfl, fun _ => rfl⟩
    · exact ⟨rfl, rfl, rfl, fun _ => callsOn_notices⟩

theorem directories_congr {v : Watcher} (watched : v.watched = w.watched) :
    v.directories = w.directories := by
  rw [directories, directories, watched]

theorem listener_congr {v : Watcher} (count : v.observers = w.observers) : v.listener = w.listener := by
  rw [listener, listener, count]

theorem scheduling_congr {v : Watcher} (watched : v.watched = w.watched)
    (count : v.observers = w.observers) (number : Nat) : v.scheduling number = w.scheduling number := by
  rw [scheduling, scheduling, directories_congr watched, listener_congr count]

theorem handling_poll (w : Watcher) : w.Handling .poll (w.next .poll) (w.perform .poll).events := by
  change w.Handling .poll w.poll.watcher w.poll.events
  cases pending : w.pending with
  | false =>
    rw [poll_idle pending]
    exact handling_quiet (by simp) (by simp) rfl rfl rfl rfl
  | true =>
    have reload := reload_poll pending
    generalize w.poll = step at reload
    cases reload with
    | failed result =>
      exact .leaves rfl rfl (fun n => by simp [reloadFailed]) (fun _ _ _ => rfl) (by simp) (by simp)
    | @done s result =>
      obtain ⟨slot, count, watched, silent⟩ := observer_react s.source (w.reloaded s)
      cases held : w.observer with
      | none =>
        have unobserved : (w.reloaded s).reschedule = [] := by
          unfold reschedule
          rw [show (w.reloaded s).observer = none from held]
        refine .leaves count slot (fun n => ?_) (fun observed => absurd held observed) (by simp) (by simp)
        simp [Step.precededBy, unobserved, silent n]
      | some number =>
        have observed : (w.reloaded s).reschedule = (w.reloaded s).scheduling number := by
          unfold reschedule
          rw [show (w.reloaded s).observer = some number from held]
        refine .moves held count slot fun n => ?_
        rw [Step.precededBy, observed, scheduling_congr watched count]
        simp [silent n]

theorem handling_stop (w : Watcher) : w.Handling .stop (w.next .stop) (w.perform .stop).events := by
  unfold next perform stop
  cases held : w.observer with
  | none =>
    exact .leaves rfl rfl (fun _ => rfl) (fun observed => absurd held observed) (by simp) (fun _ => held)
  | some number => exact .ends held rfl rfl fun _ => rfl

theorem handling (w : Watcher) (action : Action) :
    w.Handling action (w.next action) (w.perform action).events := by
  cases action with
  | start available => exact handling_start available w
  | load =>
    change w.Handling .load w.load.watcher w.load.events
    rw [load_eq]
    refine .leaves (observers_after w _) ?_ (fun _ => callsOn_notices)
      (fun _ _ loads => absurd rfl loads) (by simp) (by simp)
    cases w.bundling.result <;> rfl
  | poll => exact handling_poll w
  | stop => exact handling_stop w
  | markPending => exact handling_quiet (by simp) (by simp) rfl rfl rfl rfl
  | report event =>
    change w.Handling (.report event) (w.deliver event) []
    rw [deliver_eq]
    exact handling_quiet (by simp) (by simp) rfl rfl rfl rfl
  | includeRoot path =>
    change w.Handling _ (w.setIncludeRoot path).watcher (w.setIncludeRoot path).events
    unfold setIncludeRoot
    split
    · exact handling_quiet (by simp) (by simp) rfl rfl rfl rfl
    · exact handling_quiet (by simp) (by simp) rfl rfl rfl rfl
  | change change =>
    change w.Handling _ (w.changeTree change).watcher (w.changeTree change).events
    unfold changeTree
    split
    · exact handling_quiet (by simp) (by simp) rfl rfl rfl rfl
    · exact handling_quiet (by simp) (by simp) rfl rfl rfl rfl

/-- An observer in use is the last one that was made, and there was a load before it was made. -/
structure Seated (w : Watcher) : Prop where
  sourced : w.observer ≠ none → w.source ≠ none
  last : ∀ number, w.observer = some number → number = w.observers

theorem source_next_ne_none (sourced : w.source ≠ none) (action : Action) :
    (w.next action).source ≠ none := by
  rw [(w.account action).source]
  cases w.loaded? action with
  | none => exact sourced
  | some s => simp

theorem Seated.next (seated : w.Seated) (action : Action) : (w.next action).Seated := by
  have source (sourced : w.source ≠ none) := source_next_ne_none sourced action
  have handling := w.handling action
  generalize w.next action = v at handling source ⊢
  cases handling with
  | makes sourced _ slot =>
    exact ⟨fun _ => sourced, fun number held => Option.some.inj (held.symm.trans slot)⟩
  | moves held count slot =>
    exact ⟨fun _ => source (seated.sourced (by simp [held])), fun number same =>
      count ▸ seated.last number (slot ▸ same)⟩
  | ends _ _ slot => exact ⟨fun held => absurd slot held, fun _ held => by simp [slot] at held⟩
  | leaves count slot =>
    exact ⟨fun held => source (seated.sourced (slot ▸ held)), fun number same =>
      count ▸ seated.last number (slot ▸ same)⟩

theorem Seated.run (seated : w.Seated) (actions : List Action) : (run w actions).watcher.Seated := by
  induction actions generalizing w with
  | nil => exact seated
  | cons action rest ih => exact ih (seated.next action)

/-- A watcher that was never started. -/
theorem seated_bare (bare : w.observer = none) : w.Seated := ⟨by simp [bare], by simp [bare]⟩

theorem trace_run_append (w : Watcher) (front back : List Action) :
    (run w (front ++ back)).trace = (run w front).trace ++ (run (run w front).watcher back).trace := by
  induction front generalizing w with
  | nil => rfl
  | cons action rest ih =>
    change _ ++ (run (w.next action) (rest ++ back)).trace = _ ++ _ ++ _
    rw [ih, List.append_assoc]
    rfl

theorem trace_run_concat (w : Watcher) (front : List Action) (last : Action) :
    (run w (front ++ [last])).trace =
      (run w front).trace ++ ((run w front).watcher.perform last).events := by
  rw [trace_run_append]
  simp [run]

theorem watcher_run_concat (w : Watcher) (front : List Action) (last : Action) :
    (run w (front ++ [last])).watcher = (run w front).watcher.next last := by
  rw [watcher_run_append]
  rfl

end Watcher

end ShaderBundle
