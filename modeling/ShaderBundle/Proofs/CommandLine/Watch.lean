import ShaderBundle.Proofs.Assembly.Dependence
import ShaderBundle.Proofs.CommandLine.Bundle
import ShaderBundle.Proofs.CommandLine.Loop
import ShaderBundle.Proofs.Watcher.Repair

/-! A run of the command that watches. The output file follows the last bundling that succeeded: each poll
that reloads writes the new source, and nothing else touches the file. -/
namespace ShaderBundle.CommandLine.Command

open Text Watcher Event

variable {tree written : FileTree} {args : Arguments} {path : String} {w : Watcher}
  {a : Assembler} {s : Shader} {available : Bool} {ticks : List (List Action)} {actions : List Action}

/-! ### The output file -/

structure Saves (tree : FileTree) (path : String) (w : Watcher) : Prop where
  reaction : ∃ announce, w.reaction = .save path announce
  evolves : tree.Evolves w.tree
  held : ∃ place source, tree.locate path = .ok place ∧ w.source = some source ∧
    w.tree.node? place = some (.file (utf8Bytes source))

theorem Saves.read (saves : Saves tree path w) :
    ∃ source, w.source = some source ∧ w.tree.read path = .ok (utf8Bytes source) := by
  obtain ⟨place, source, located, sourced, node⟩ := saves.held
  exact ⟨source, sourced, FileTree.read_eq_ok (saves.evolves.locate located) node⟩

/-- A poll that reloads writes the file anew; one that fails leaves it. -/
theorem Saves.poll (saves : Saves tree path w) :
    Saves tree path w.poll.watcher ∧ ∃ flag, w.poll.result = .ok flag := by
  obtain ⟨⟨announce, reaction⟩, evolves, place, source, located, sourced, node⟩ := saves
  cases pending : w.pending with
  | false =>
    rw [poll_idle pending]
    exact ⟨⟨⟨announce, reaction⟩, evolves, place, source, located, sourced, node⟩, false, rfl⟩
  | true =>
    have reload := reload_poll pending
    generalize w.poll = step at reload
    cases reload with
    | failed result =>
      exact ⟨⟨⟨announce, reaction⟩, evolves, place, source, located, sourced, node⟩, false, rfl⟩
    | @done s result =>
      have located' : (w.reloaded s).tree.locate path = .ok place := evolves.locate located
      have free : (w.reloaded s).tree.node? place ≠ some .folder := by
        change w.tree.node? place ≠ _
        simp [node]
      have saved : (w.reloaded s).tree.write path (utf8Bytes s.source) = .ok _ :=
        FileTree.write_eq_ok located' free
      have written := FileTree.node?_write saved located' place
      rw [react_save (w := w.reloaded s) reaction located' free]
      refine ⟨⟨⟨announce, reaction⟩, evolves.trans (FileTree.evolves_write saved), place, s.source, located, rfl, ?_⟩,
        true, rfl⟩
      rwa [if_pos rfl] at written

theorem Saves.outside (saves : Saves tree path w) {action : Action} (outside : Outside tree path action) :
    Saves tree path (w.next action) := by
  cases action with
  | report event =>
    change Saves tree path (w.deliver event)
    rw [deliver_eq]
    exact ⟨saves.reaction, saves.evolves, saves.held⟩
  | change change =>
    change Saves tree path (w.changeTree change).watcher
    unfold changeTree
    cases changed : w.tree.apply change with
    | error fault => exact saves
    | ok tree' =>
      obtain ⟨evolves, kept⟩ := FileTree.apply_ok changed
      obtain ⟨place, source, located, sourced, node⟩ := saves.held
      have spares : change.Spares w.tree path := FileTree.Change.Spares.evolve outside saves.evolves
      exact ⟨saves.reaction, saves.evolves.trans evolves, place, source, located, sourced,
        kept path place _ spares (saves.evolves.locate located) node⟩
  | _ => exact outside.elim

theorem Saves.run (saves : Saves tree path w)
    (among : ∀ action ∈ actions, action = .poll ∨ Outside tree path action) :
    Saves tree path (w.run actions).watcher := by
  induction actions generalizing w with
  | nil => exact saves
  | cons action rest ih =>
    obtain ⟨first, later⟩ := List.forall_mem_cons.mp among
    refine ih ?_ later
    rcases first with rfl | outside
    · exact saves.poll.1
    · exact saves.outside outside

/-! ### A run that watches -/

theorem bundling_write {root : String} {content : List UInt8} (ok : (a.bundling tree root).result = .ok s)
    (saved : tree.write path content = .ok written)
    (apart : ∀ id ∈ (a.bundling tree root).requests, tree.arrival id ≠ tree.arrival path) :
    a.bundling written root = a.bundling tree root := by
  unfold Assembler.bundling at ok apart ⊢
  cases given : a.source with
  | none => rfl
  | some source =>
    rw [given] at ok apart
    exact assemble_write ok saved apart

/-- The source, the origin of a line and the block table are no business of an observer. -/
theorem callsOn_shown (n : Nat) (args : Arguments) (a : Assembler) (s : Shader) :
    callsOn n (shown args a s) = [] := by
  have placed : callsOn n (placing args s.source) = [] := by
    unfold placing
    split
    · exact callsOn_notices
    · split <;> rfl
  have table : callsOn n (rows args s) = [] := by
    unfold rows
    split
    · simp [callsOn, line]
    · rfl
  have mapped (asked : Int) : callsOn n [(mapping a asked).1] = [] := by
    unfold mapping
    split <;> rfl
  unfold shown
  rw [callsOn_append, placed, List.nil_append]
  cases args.map with
  | absent => exact table
  | emptied => rfl
  | value asked =>
    rw [mappingOf_value]
    exact (callsOn_append _ _).trans (by rw [mapped, table]; rfl)

theorem callsOn_bundle (tree : FileTree) (args : Arguments) (n : Nat) :
    callsOn n (bundle tree args).events = [] := by
  have delivered {a : Assembler} {s : Shader} {written : FileTree}
      (delivers : Delivers tree args a s written) : callsOn n (bundle tree args).events = [] := by
    rw [bundle_of_delivers delivers]
    exact (callsOn_append _ _).trans (by rw [progress, callsOn_notices, callsOn_shown]; rfl)
  cases set : assembler tree args with
  | error failure =>
    rcases assembler_error set with ⟨path, rfl⟩ | ⟨path, rfl⟩
    · rw [bundle_refused set]
      rfl
    · rw [bundle_broken set]
      rfl
  | ok a =>
    cases bundled : (a.bundling tree args.root).result with
    | error e =>
      rw [bundle_failed set bundled]
      simp [progress, report]
    | ok s =>
      cases output : nonempty? args.output with
      | none => exact delivered ⟨set, bundled, by rw [output]⟩
      | some path =>
        cases saved : tree.write path (utf8Bytes s.source) with
        | error fault =>
          rw [bundle_unsaved set bundled output saved]
          exact callsOn_notices
        | ok written => exact delivered ⟨set, bundled, by rw [output]; exact saved⟩

theorem execute_watched (watching : args.watch = true) (output : nonempty? args.output = some path) :
    execute available ticks tree args = match (bundle tree args).result with
      | .error failure => ⟨(bundle tree args).tree, (bundle tree args).events, .error failure⟩
      | .ok (code, none) => ⟨(bundle tree args).tree, (bundle tree args).events, .ok code⟩
      | .ok (_, some a) => (watch available ticks
          (watcher (bundle tree args).tree a args path)).precededBy (bundle tree args).events := by
  unfold execute
  rw [watching, output]
  simp only [Option.isNone_some, Bool.and_false, Bool.false_eq_true, if_false, if_true]
  cases (bundle tree args).result with
  | error failure => rfl
  | ok answer =>
    obtain ⟨code, last⟩ := answer
    cases last <;> rfl

/-- While others act, a watcher keeps its source. -/
theorem source_outside (outside : ∀ action ∈ actions, Outside tree path action) :
    (w.run actions).watcher.source = w.source := by
  induction actions generalizing w with
  | nil => rfl
  | cons action rest ih =>
    obtain ⟨first, later⟩ := List.forall_mem_cons.mp outside
    have silent : w.loaded? action = none := by
      cases action with
      | report => rfl
      | change => rfl
      | _ => exact first.elim
    exact (ih later).trans ((w.account action).keeps silent).1

/-- The start of a watch bundles the root anew and comes to the same shader, as it did not ask for the file
that was written. -/
theorem begins (delivers : Delivers tree args a s written) (output : nonempty? args.output = some path)
    (apart : ∀ id ∈ (a.bundling tree args.root).requests, tree.arrival id ≠ tree.arrival path) :
    let before := watcher written (a.after (.ok s)) args path
    (before.start true).result = .ok true ∧ (before.next (.start true)).Follows (some s) ∧
      Saves tree path (before.next (.start true)) := by
  intro before
  have saved := delivers.saved
  rw [output] at saved
  have again : before.bundling = a.bundling tree args.root :=
    (Assembler.bundling_after ..).trans (bundling_write delivers.bundled saved apart)
  have ok : before.bundling.result = .ok s := by rw [again, delivers.bundled]
  have loaded : before.loaded? (.start true) = some s := by
    rw [loaded?, ok]
    rfl
  have started : before.start true = (observe true (before.after (.ok s))).precededBy
      (Event.notices before.assembler.verbose before.bundling.notices) := by
    have bare : before.source = none := rfl
    unfold start
    rw [bare, load_eq, ok]
    rfl
  have bare : before.Follows none := ⟨rfl, rfl, by simp⟩
  have follows := bare.next (.start true)
  rw [loaded] at follows
  refine ⟨by rw [started]; rfl, follows, ?_⟩
  change Saves tree path (before.start true).watcher
  obtain ⟨place, located, -⟩ := FileTree.write_ok saved
  rw [started]
  refine ⟨⟨args.verbose, rfl⟩, FileTree.evolves_write saved, place, s.source, located, rfl, ?_⟩
  change written.node? place = _
  rw [FileTree.node?_write saved located, if_pos rfl]

/-- Behind each poll of a loop the output file holds the source of the last bundling. -/
theorem read_poll (follows : w.Follows (some s)) (saves : Saves tree path w)
    (outside : ∀ tick ∈ ticks, ∀ action ∈ tick, Outside tree path action) (polls : Polls w ticks actions) :
    let v := (w.run actions).watcher
    (∃ flag, v.poll.result = .ok flag) ∧ v.poll.watcher.tree.read path =
      .ok (utf8Bytes ((w.loads (actions ++ [.poll])).getLast?.getD s).source) := by
  intro v
  obtain ⟨polled, answer⟩ := (saves.run (polls.outside outside)).poll
  obtain ⟨source, sourced, read⟩ := polled.read
  have last := source_run follows (actions ++ [.poll])
  rw [watcher_run_concat] at last
  refine ⟨answer, ?_⟩
  rw [read, Option.some.inj (sourced.symm.trans last)]

/-- And so it does when the loop is over. -/
theorem read_pollLoop (follows : w.Follows (some s)) (saves : Saves tree path w)
    (outside : ∀ tick ∈ ticks, ∀ action ∈ tick, Outside tree path action) :
    ∃ actions, Polls w ticks actions ∧ (pollLoop w ticks).watcher.tree.read path =
      .ok (utf8Bytes ((w.loads (actions ++ [.poll])).getLast?.getD s).source) := by
  obtain ⟨front, rest, polls, inTicks, watcher, -⟩ := pollLoop_run w ticks
  refine ⟨front, polls, ?_⟩
  obtain ⟨quiet, among⟩ := polls.outside_behind outside inTicks
  obtain ⟨source, sourced, read⟩ := (saves.run among).read
  have last := source_run follows (front ++ [.poll])
  have split : front ++ .poll :: rest = (front ++ [.poll]) ++ rest := by simp
  rw [split, watcher_run_append, source_outside quiet, last] at sourced
  rw [watcher, read, Option.some.inj sourced]

/-- A run that watches, in which others leave the output file alone, and the first bundling does not ask for
it. No poll fails. Behind each the output file holds the source of the last bundling that succeeded, the
first one before any reload; a reload that fails changes no file. When the run ends, the file holds what
the last poll left, and the observer that was started has been stopped and joined, once each. -/
theorem output_follows_source (available : Bool) (ticks : List (List Action)) (tree : FileTree)
    (args : Arguments) (path : String) (watching : args.watch = true)
    (output : nonempty? args.output = some path)
    (outside : ∀ tick ∈ ticks, ∀ action ∈ tick, Outside tree path action) :
    let o := execute available ticks tree args
    (∀ n, lifeOf n o.events = [] ∨ n = 1 ∧ lifeOf n o.events = [.start, .stop, .join]) ∧
    ∀ a s written, Delivers tree args a s written →
      (∀ id ∈ (a.bundling tree args.root).requests, tree.arrival id ≠ tree.arrival path) →
      let w := (watcher written (a.after (.ok s)) args path).next (.start true)
      (∀ actions, Polls w ticks actions →
        let v := (w.run actions).watcher
        (∃ flag, v.poll.result = .ok flag) ∧
        v.poll.watcher.tree.read path =
          .ok (utf8Bytes ((w.loads (actions ++ [.poll])).getLast?.getD s).source) ∧
        ∀ e, v.pending = true → v.bundling.result = .error e → v.poll.watcher.tree = v.tree) ∧
      (available = true → args.map ≠ .emptied → lifeOf 1 o.events = [.start, .stop, .join] ∧
        ∃ actions, Polls w ticks actions ∧
          o.tree.read path = .ok (utf8Bytes ((w.loads (actions ++ [.poll])).getLast?.getD s).source)) := by
  intro o
  have run : o = _ := execute_watched watching output
  have silent (n : Nat) : lifeOf n (bundle tree args).events = [] := lifeOf_silent (callsOn_bundle tree args n)
  refine ⟨fun n => ?_, fun a s written delivers apart => ?_⟩
  · rw [run]
    cases (bundle tree args).result with
    | error failure => exact .inl (silent n)
    | ok answer =>
      obtain ⟨code, last⟩ := answer
      cases last with
      | none => exact .inl (silent n)
      | some a =>
        change lifeOf n (_ ++ _) = [] ∨ n = 1 ∧ lifeOf n (_ ++ _) = _
        rw [lifeOf_append, silent, List.nil_append, life_watch available rfl outside]
        split
        · rename_i both
          exact .inr ⟨both.2, rfl⟩
        · exact .inl rfl
  · intro w
    obtain ⟨made, follows, saves⟩ := begins delivers output apart
    refine ⟨fun actions polls => ?_, fun _ asked => ?_⟩
    · obtain ⟨answer, read⟩ := read_poll follows saves outside polls
      exact ⟨answer, read, fun e => tree_poll_of_error⟩
    · subst available
      obtain ⟨mapped, code, answer⟩ : ∃ mapped code, mappingOf (a.after (.ok s)) args.map = .ok (mapped, code) := by
        cases map : args.map with
        | absent => exact ⟨_, _, rfl⟩
        | emptied => exact absurd map asked
        | value line => exact ⟨_, _, rfl⟩
      let before := watcher written (a.after (.ok s)) args path
      have ended : o = (watch true ticks before).precededBy (bundle tree args).events := by
        rw [run, bundle_of_delivers delivers, answer]
        rfl
      constructor
      · rw [ended]
        change lifeOf 1 (_ ++ _) = _
        rw [lifeOf_append, silent, List.nil_append, life_watch true rfl outside, if_pos ⟨made, rfl⟩]
      · obtain ⟨actions, polls, read⟩ := read_pollLoop follows saves outside
        refine ⟨actions, polls, ?_⟩
        rw [ended, watch_started made]
        change (pollLoop w ticks).watcher.stop.watcher.tree.read path = _
        rw [tree_stop, read]

def attending : Arguments := { outward with watch := true }

def sheet (content : String) : Shader := .ofSorted "m" [⟨"m", [content], [], []⟩] [⟨"m", [content], [], []⟩]

/-- The desk with the text of its shader, while it is watched. -/
def busy (content : String) (pending : Bool) : Watcher :=
  { tree := filed content deskShader.source, assembler := attended.assembler.after (.ok deskShader),
    root := "m", reaction := .save "o" false, verbose := true, source := some deskShader.source,
    watched := attended.pathsOf deskShader, pending, observer := some 1, observers := 1 }

def edit : List Action := [.change (.write "m" (utf8Bytes "y")), .report (.modified "m")]

theorem starts_busy : (watcher (filed "x" deskShader.source) (attended.assembler.after (.ok deskShader)) attending
    "o").next (.start true) = busy "x" false := by
  have bundled : (watcher (filed "x" deskShader.source) (attended.assembler.after (.ok deskShader)) attending
      "o").bundling.result = .ok deskShader := assemble_eq_ok (by decide +kernel) (by cbv)
  have bare : (watcher (filed "x" deskShader.source) (attended.assembler.after (.ok deskShader)) attending
      "o").source = none := rfl
  unfold next perform start
  rw [bare, load_eq, bundled]
  rfl

theorem apply_edit : (busy "x" false).tree.apply (.write "m" (utf8Bytes "y")) = .ok (busy "y" false).tree := by
  have names : FileTree.names "m" = ["m"] := by decide +kernel
  have deep : (busy "x" false).tree.apply (.write "m" (utf8Bytes "y")) =
      (busy "x" false).tree.write "m" (utf8Bytes "y") := by
    have origin : (busy "x" false).tree.origin "m" = [] := rfl
    simp [FileTree.apply, FileTree.writeDeep, names, origin, FileTree.growFolders, FileTree.node?]
  rw [deep]
  decide +kernel

theorem deliver_edit : (busy "y" false).deliver (.modified "m") = busy "y" true := by
  have heard : (busy "y" false).marks (.report (.modified "m")) = true := by decide +kernel
  rw [deliver_eq, heard]
  rfl

theorem performAll_edit : performAll (busy "x" false) edit = ⟨busy "y" true, [], .ok ()⟩ := by
  have changed : (busy "x" false).perform (.change (.write "m" (utf8Bytes "y"))) = ⟨busy "y" false, [], .ok .done⟩ := by
    simp only [perform, changeTree, apply_edit]
    rfl
  have reported : (busy "y" false).perform (.report (.modified "m")) = ⟨busy "y" true, [], .ok .done⟩ := by
    simp only [perform, deliver_edit]
    rfl
  simp [edit, performAll, changed, reported, silent, Watcher.Step.precededBy]

/-- An edit between two polls. -/
theorem output_follows_source_of_edit :
    let o := execute true [edit] (desk "x") attending
    lifeOf 1 o.events = [.start, .stop, .join] ∧ Polls (busy "x" false) [edit] (.poll :: edit) ∧
    ((busy "x" false).run (.poll :: edit)).watcher.poll.watcher.tree.read "o" = .ok (utf8Bytes (sheet "y").source) := by
  intro o
  have outside : ∀ tick ∈ [edit], ∀ action ∈ tick, Outside (desk "x") "o" action := by
    have apart : (desk "x").arrival "m" ≠ (desk "x").arrival "o" := by decide +kernel
    simp [edit, Outside, FileTree.Change.Spares, apart]
  obtain ⟨-, watched⟩ := output_follows_source true [edit] (desk "x") attending "o" rfl rfl outside
  have delivers : Delivers (desk "x") attending attended.assembler deskShader (filed "x" deskShader.source) :=
    ⟨rfl, bundling_attended, write_desk⟩
  have apart : ∀ id ∈ (attended.assembler.bundling (desk "x") "m").requests,
      (desk "x").arrival id ≠ (desk "x").arrival "o" := by
    have requests : (attended.assembler.bundling (desk "x") "m").requests = ["m"] :=
      (requests_assemble ..).trans (by decide +kernel)
    rw [requests]
    decide +kernel
  obtain ⟨held, ended⟩ := watched _ _ _ delivers apart
  rw [starts_busy] at held ended
  have polls : Polls (busy "x" false) [edit] (.poll :: edit) := by
    have last : Polls (performAll (busy "x" false).poll.watcher edit).watcher [] [] := .now
    exact .later rfl (by rw [poll_idle rfl, performAll_edit]) last
  have last : (busy "x" false).loads (.poll :: edit ++ [.poll]) = [sheet "y"] := by
    have idle : (busy "x" false).next .poll = busy "x" false := congrArg Watcher.Step.watcher (poll_idle rfl)
    have changed : (busy "x" false).next (.change (.write "m" (utf8Bytes "y"))) = busy "y" false :=
      next_change apply_edit
    have reported : (busy "y" false).next (.report (.modified "m")) = busy "y" true := deliver_edit
    have bundled : (busy "y" true).bundling.result = .ok (sheet "y") :=
      assemble_eq_ok (by decide +kernel) (by cbv)
    have loaded : (busy "y" true).loaded? .poll = some (sheet "y") := by
      rw [loaded?, bundled]
      rfl
    change History.written next loaded? (busy "x" false)
      [.poll, .change (.write "m" (utf8Bytes "y")), .report (.modified "m"), .poll] = _
    rw [History.written_cons, idle, History.written_cons, changed, History.written_cons, reported,
      History.written_cons, loaded]
    rfl
  refine ⟨(ended rfl (by simp [attending, outward])).1, polls, ?_⟩
  have read := (held _ polls).2.1
  rwa [last] at read

end ShaderBundle.CommandLine.Command
