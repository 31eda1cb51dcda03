import ShaderBundle.Proofs.Assembly.Result
import ShaderBundle.Proofs.History
import ShaderBundle.Proofs.Watcher.Steps

/-! Sessions of a watcher. Whatever happens in which order, the source and the watched paths are those of
the last load that succeeded, a reload is pending exactly if it was asked for since the last poll, and
the reaction hears of the polls that reload, and of nothing else. -/
namespace ShaderBundle.Watcher

def loads (w : Watcher) (actions : List Action) : List Shader := History.written next loaded? w actions

def reloadsOf (w : Watcher) (actions : List Action) : List Shader := History.written next polled? w actions

variable {w v : Watcher}

theorem watcher_run (w : Watcher) (actions : List Action) :
    (run w actions).watcher = actions.foldl next w := by
  induction actions generalizing w with
  | nil => rfl
  | cons action rest ih => exact ih (w.next action)

theorem watcher_run_append (w : Watcher) (front back : List Action) :
    (run w (front ++ back)).watcher = (run (run w front).watcher back).watcher := by
  simp [watcher_run]

theorem pathOf_congr (same : v.tree.workingPath = w.tree.workingPath) : v.pathOf = w.pathOf := by
  funext path
  rw [pathOf, pathOf, same]

theorem pathsOf_congr (same : v.tree.workingPath = w.tree.workingPath) : v.pathsOf = w.pathsOf := by
  funext s
  rw [pathsOf, pathsOf, pathOf_congr same]

theorem isWatched_iff {path : String} : w.isWatched path = true ↔ w.pathOf path ∈ w.watched := by
  simp [isWatched]

theorem laid_of_loaded {action : Action} {s : Shader} (loaded : w.loaded? action = some s) : s.Laid := by
  unfold loaded? at loaded
  split at loaded
  · have ok : w.bundling.result = .ok s := by
      cases result : w.bundling.result with
      | error e => simp [result, Except.toOption] at loaded
      | ok t => simpa [result, Except.toOption] using loaded
    exact Assembler.laid_of_bundling ok
  · simp at loaded

structure Follows (w : Watcher) (last : Option Shader) : Prop where
  source : w.source = last.map (·.source)
  watched : w.watched = (last.map w.pathsOf).getD []
  laid : ∀ s ∈ last, s.Laid

namespace Follows

variable {last : Option Shader}

theorem next (follows : w.Follows last) (action : Action) :
    (w.next action).Follows ((w.loaded? action).or last) := by
  have account := w.account action
  refine ⟨?_, ?_, ?_⟩
  · rw [account.source, follows.source]
    cases w.loaded? action <;> rfl
  · rw [account.watched, follows.watched, pathsOf_congr account.workingPath]
    cases w.loaded? action <;> rfl
  · intro s member
    cases loaded : w.loaded? action with
    | none => exact follows.laid s (by simpa [loaded] using member)
    | some t =>
      obtain rfl : t = s := by simpa [loaded] using member
      exact laid_of_loaded loaded

theorem isWatched_iff (follows : w.Follows last) {path : String} : w.isWatched path = true ↔
    ∃ s, last = some s ∧ ∃ m ∈ s.modules, w.pathOf path = w.pathOf m.id := by
  rw [Watcher.isWatched_iff, follows.watched]
  cases last with
  | none => simp
  | some s =>
    have modules := (follows.laid s rfl).modules
    simp [pathsOf, mem_sortedOnce, modules.mem_iff, eq_comm]

end Follows

theorem follows_run {last : Option Shader} (start : w.Follows last) (actions : List Action) :
    (run w actions).watcher.Follows ((w.loads actions).getLast?.or last) := by
  rw [watcher_run]
  exact @History.last_foldl _ _ _ next Follows loaded? (fun _ _ action follows => follows.next action) _ _
    start actions

/-- The source behind a session that starts with one. -/
theorem source_run {s : Shader} (follows : w.Follows (some s)) (actions : List Action) :
    (run w actions).watcher.source = some ((w.loads actions).getLast?.getD s).source := by
  rw [(follows_run follows actions).source]
  cases (w.loads actions).getLast? <;> rfl

/-- A session that starts with nothing shown. -/
theorem follows_loads (bare : w.source = none ∧ w.watched = []) (actions : List Action) :
    (run w actions).watcher.Follows (w.loads actions).getLast? := by
  have nothing : w.Follows none := ⟨bare.1, bare.2, by simp⟩
  simpa using follows_run nothing actions

/-- The reaction was told the source of each poll that reloaded. -/
theorem reloads_run (w : Watcher) (actions : List Action) : (run w actions).watcher.reloads =
    w.reloads ++ if w.reaction = .none then [] else (w.reloadsOf actions).map (·.source) := by
  induction actions generalizing w with
  | nil =>
    change w.reloads = _
    simp [reloadsOf, History.written, History.moments]
  | cons action rest ih =>
    have account := w.account action
    have later := ih (w.next action)
    rw [account.reloads, account.reaction, List.append_assoc] at later
    change (run (w.next action) rest).watcher.reloads = _
    rw [later, reloadsOf, reloadsOf, History.written_cons, List.map_append]
    by_cases deaf : w.reaction = .none
    · simp [deaf]
    · cases w.polled? action <;> simp [deaf]

/-- An action that does not load with success leaves the source and the watched paths. -/
theorem Account.keeps {action : Action} (account : w.Account action v) (none : w.loaded? action = .none) :
    v.source = w.source ∧ ∀ path, v.isWatched path = w.isWatched path := by
  constructor
  · simp [account.source, none]
  · intro path
    simp [isWatched, pathOf_congr account.workingPath, account.watched, none]

/-- The flag is up exactly if a reload was asked for since the last poll. -/
theorem pending_run_iff (unset : w.pending = false) (actions : List Action) :
    (run w actions).watcher.pending = true ↔ ∃ before action after, actions = before ++ action :: after ∧
      (run w before).watcher.marks action = true ∧ .poll ∉ after := by
  induction actions using List.reverseRecOn with
  | nil => simp [run, unset]
  | append_singleton front last ih =>
    have account := (run w front).watcher.account last
    rw [watcher_run_append, History.exists_split_concat, ← ih]
    change ((run w front).watcher.next last).pending = true ↔ _
    by_cases poll : last = .poll
    · rw [account.polled poll, poll]
      simp [marks]
    · rw [account.marked poll]
      simp [poll]

/-- A session that starts with a watcher to which nothing has happened. The source and the watched paths
are those of the last load that succeeded, and a bundling that fails leaves them. A poll does nothing
unless a reload is pending, and then clears the flag and bundles once. The flag is up exactly if a
reload was asked for since the last poll. The reaction, if there is one, was told the source of each
poll that reloaded, once and in order, and nothing else. -/
theorem session_account (tree : FileTree) (assembler : Assembler) (root : String) (reaction : Reaction)
    (verbose : Bool) (actions : List Action) :
    let start : Watcher := { tree, assembler, root, reaction, verbose }
    let w := (run start actions).watcher
    w.source = (start.loads actions).getLast?.map (·.source) ∧
    (∀ path, w.isWatched path = true ↔ ∃ s, (start.loads actions).getLast? = some s ∧
      ∃ m ∈ s.modules, w.pathOf path = w.pathOf m.id) ∧
    (∀ action e, w.bundles action = true → w.bundling.result = .error e →
      (w.next action).source = w.source ∧
      ∀ path, (w.next action).isWatched path = w.isWatched path) ∧
    (w.pending = false → w.poll = ⟨w, [], .ok false⟩) ∧
    (w.pending = true → Reload w w.bundling w.poll ∧ w.poll.watcher.pending = false) ∧
    (w.pending = true ↔ ∃ before action after, actions = before ++ action :: after ∧
      (run start before).watcher.marks action = true ∧ .poll ∉ after) ∧
    w.reloads = if reaction = .none then [] else (start.reloadsOf actions).map (·.source) := by
  intro start w
  have follows : w.Follows (start.loads actions).getLast? := follows_loads ⟨rfl, rfl⟩ actions
  refine ⟨follows.source, fun path => follows.isWatched_iff, ?_, poll_idle, fun pending => ?_,
    pending_run_iff rfl actions, ?_⟩
  · intro action e _ failed
    exact (w.account action).keeps (by simp [loaded?, failed, Except.toOption])
  · exact ⟨reload_poll pending, (w.account .poll).polled rfl⟩
  · simpa [start] using reloads_run start actions

def desk (content : String) : FileTree := { nodes := [(["m"], .file (Text.utf8Bytes content))] }

def attended : Watcher :=
  { tree := desk "x", assembler := { source := some (.files (some "utf-8")) }, root := "m",
    reaction := .accept, verbose := false }

def deskShader : Shader := .ofSorted "m" [⟨"m", ["x"], [], []⟩] [⟨"m", ["x"], [], []⟩]

theorem bundling_attended : attended.bundling.result = .ok deskShader :=
  assemble_eq_ok (by decide +kernel) (by cbv)

def started : Watcher := { attended.after (.ok deskShader) with observer := some 1, observers := 1 }

theorem next_start_attended : attended.next (.start true) = started := by
  have bare : attended.source = none := rfl
  unfold next perform start
  rw [bare, load_eq, bundling_attended]
  rfl

theorem last_load_attended {rest : List Action} (quiet : started.loads rest = []) :
    (attended.loads (.start true :: rest)).getLast? = some deskShader := by
  have first : attended.loaded? (.start true) = some deskShader := by
    rw [loaded?, bundling_attended]
    rfl
  rw [loads] at quiet ⊢
  rw [History.written_cons, next_start_attended, first, quiet]
  rfl

/-- A reload that was asked for by hand. -/
theorem session_account_of_reload :
    let w := (run attended [.start true, .markPending]).watcher
    w.source = some deskShader.source ∧ w.isWatched "./m" = true ∧ w.pending = true ∧
    Reload w w.bundling w.poll ∧
    (run attended [.start true, .markPending, .poll]).watcher.reloads = [deskShader.source] := by
  intro w
  have last : (attended.loads [.start true, .markPending]).getLast? = some deskShader :=
    last_load_attended rfl
  have reloaded : attended.reloadsOf [.start true, .markPending, .poll] = [deskShader] := by
    have bundled : attended.bundling.result.toOption = some deskShader := by
      rw [bundling_attended]
      rfl
    rw [reloadsOf, History.written_cons, History.written_cons, History.written_cons, next_start_attended]
    change [] ++ ([] ++ (attended.bundling.result.toOption.toList ++ [])) = _
    rw [bundled]
    rfl
  have asked : w = { started with pending := true } := by
    change (attended.next (.start true)).next .markPending = _
    rw [next_start_attended]
    rfl
  have dotted : w.pathOf "./m" = w.pathOf "m" := by
    rw [asked]
    change Path.absolute (desk "x").workingPath "./m" = Path.absolute (desk "x").workingPath "m"
    decide +kernel
  obtain ⟨source, watched, -, -, reload, pending, -⟩ :=
    session_account (desk "x") attended.assembler "m" .accept false [.start true, .markPending]
  obtain ⟨-, -, -, -, -, -, reloads⟩ :=
    session_account (desk "x") attended.assembler "m" .accept false [.start true, .markPending, .poll]
  have up : w.pending = true := pending.mpr ⟨[.start true], .markPending, [], rfl, rfl, by simp⟩
  refine ⟨source.trans (congrArg (Option.map _) last), (watched "./m").mpr ⟨deskShader, last, ?_⟩, up,
    (reload up).1, reloads.trans (congrArg (List.map _) reloaded)⟩
  exact ⟨⟨"m", ["x"], [], []⟩, by simp [deskShader, Shader.ofSorted], dotted⟩

end ShaderBundle.Watcher
