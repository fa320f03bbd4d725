import Pigweed.Watch.FileTree

/-!
# File events of `PigweedBuildWatcher`

`dispatch` drops directory events and events whose type is not in
`_FILESYSTEM_EVENTS_THAT_TRIGGER_BUILDS`. It collects the event's destination path, when
the event has one, then its source path, when that is not empty, and hands the first that
Git does not ignore and that `_path_matches` accepts to `_handle_matched_event`. That keeps
the first matching path since the last build in `matching_path`, and presses the debouncer
when `restart_on_changes` is set, after clearing the log panes of a fullscreen app.
`on_complete`, which the debouncer calls after each build, clears `matching_path`.

`git_ignored` runs `git check-ignore` from the file's directory or, where that no longer
exists, from the deepest ancestor that does; `gitIgnored_spec` says what it returns and
when it raises. `dispatch` takes its answers, `Path.match` and `os.path.relpath` as
parameters; `dispatchOnTree` runs `git_ignored` on the tree instead, and
`dispatchOnTree_spec` says it returns what `dispatch` returns with `git_ignored`'s answers,
or raises. The log lines are left out, and the event paths are already resolved.
-/

namespace Pigweed.Watch

section GitIgnored

open FileTree

variable (t : FileTree) (returncode : Path → ℕ)

/-- `subprocess.run(['git', 'check-ignore', '--quiet', '--no-index', file], cwd=directory)`
from an existing `directory`, then `returncode in (0, 128)`; from a file it raises
`NotADirectoryError`. `returncode` is what `git` returns when run from a directory. -/
def checkIgnoreAt (directory : Path) : Except PyError Bool :=
  if t.isDir directory then .ok (returncode directory == 0 || returncode directory == 128)
  else .error (.notADirectoryError directory)

/-- The loop of `git_ignored` from `directory`, given by its names last first. Where the
directory does not exist, `subprocess.run` raises `FileNotFoundError` and the loop moves to
the parent; at the root it returns `False`. -/
def gitIgnoredFrom : List String → Except PyError Bool
  | [] => if t.exists [] then checkIgnoreAt t returncode [] else .ok false
  | name :: rest =>
    if t.exists (name :: rest).reverse then checkIgnoreAt t returncode (name :: rest).reverse
    else gitIgnoredFrom rest

/-- `git_ignored(file)` of a resolved path: the loop starts at `file.parent`. -/
def gitIgnored (file : Path) : Except PyError Bool :=
  gitIgnoredFrom t returncode file.dropLast.reverse

/-- The deepest existing ancestor of a directory given by its names last first. -/
def deepestExisting : List String → Option Path
  | [] => if t.exists [] then some [] else none
  | name :: rest =>
    if t.exists (name :: rest).reverse then some (name :: rest).reverse
    else deepestExisting rest

theorem gitIgnoredFrom_eq (r : List String) :
    gitIgnoredFrom t returncode r =
      (deepestExisting t r).elim (.ok false) (checkIgnoreAt t returncode) := by
  induction r with
  | nil =>
    unfold gitIgnoredFrom deepestExisting
    split_ifs <;> rfl
  | cons name rest ih =>
    unfold gitIgnoredFrom deepestExisting
    split_ifs
    · rfl
    · exact ih

variable {t}

theorem deepestExisting_eq_some {r : List String} {d : Path}
    (h : deepestExisting t r = some d) :
    d <+: r.reverse ∧ t.exists d ∧
      ∀ d', d <+: d' → d' <+: r.reverse → t.exists d' → d' = d := by
  induction r with
  | nil =>
    unfold deepestExisting at h
    split_ifs at h with he
    cases h
    exact ⟨List.prefix_rfl, he, fun d' _ hd' _ => List.prefix_nil.mp hd'⟩
  | cons name rest ih =>
    unfold deepestExisting at h
    split_ifs at h with he
    · cases h
      exact ⟨List.prefix_rfl, he, fun d' hd hd' _ => antisymm hd' hd⟩
    · obtain ⟨hpre, hex, hdeep⟩ := ih h
      rw [List.reverse_cons] at he ⊢
      refine ⟨hpre.trans (List.prefix_append _ _), hex, fun d' hd hd' hex' => ?_⟩
      rcases List.prefix_concat_iff.mp hd' with rfl | hd'
      · exact absurd hex' he
      · exact hdeep d' hd hd' hex'

theorem deepestExisting_eq_none {r : List String} (h : deepestExisting t r = none) :
    ∀ d, d <+: r.reverse → ¬ t.exists d := by
  induction r with
  | nil =>
    unfold deepestExisting at h
    split_ifs at h with he
    exact fun d hd => List.prefix_nil.mp hd ▸ he
  | cons name rest ih =>
    unfold deepestExisting at h
    split_ifs at h with he
    rw [List.reverse_cons] at he ⊢
    intro d hd
    rcases List.prefix_concat_iff.mp hd with rfl | hd
    · exact he
    · exact ih h d hd

theorem eq_of_deepest {d d₀ q : Path} (hd : d <+: q) (hd₀ : d₀ <+: q) (hex : t.exists d)
    (hex₀ : t.exists d₀) (hdeep : ∀ d', d <+: d' → d' <+: q → t.exists d' → d' = d)
    (hdeep₀ : ∀ d', d₀ <+: d' → d' <+: q → t.exists d' → d' = d₀) : d = d₀ := by
  rcases List.prefix_or_prefix_of_prefix hd hd₀ with h | h
  · exact (hdeep d₀ h hd₀ hex₀).symm
  · exact hdeep₀ d h hd hex

/-- Above the deepest existing ancestor of a path every ancestor is a directory, and below it
nothing exists: so some ancestor is a file exactly when the deepest one is not a directory. -/
theorem exists_isFile_iff_of_deepest {d₀ q : Path} (hpre : d₀ <+: q) (hex : t.exists d₀)
    (hdeep : ∀ d', d₀ <+: d' → d' <+: q → t.exists d' → d' = d₀) :
    (∃ d, d <+: q ∧ t.isFile d) ↔ ¬ t.isDir d₀ := by
  refine ⟨fun ⟨d, hd, hf⟩ hdir => ?_,
    fun hdir => ⟨d₀, hpre, (exists_iff.mp hex).resolve_left hdir⟩⟩
  rcases List.prefix_or_prefix_of_prefix hd hpre with h | h
  · exact not_isFile_of_isDir (isDir_of_ancestor hdir h) hf
  · exact not_isFile_of_isDir (hdeep d h hd (exists_iff.mpr (.inr hf)) ▸ hdir) hf

theorem gitIgnored_error_iff (file : Path) :
    (∃ e, gitIgnored t returncode file = .error e) ↔ ∃ d, d <+: file.dropLast ∧ t.isFile d := by
  rw [gitIgnored, gitIgnoredFrom_eq]
  cases h : deepestExisting t file.dropLast.reverse with
  | none =>
    have hn := deepestExisting_eq_none h
    rw [List.reverse_reverse] at hn
    exact iff_of_false (by simp) fun ⟨d, hd, hf⟩ => hn d hd (exists_iff.mpr (.inr hf))
  | some d₀ =>
    obtain ⟨hpre, hex, hdeep⟩ := deepestExisting_eq_some h
    rw [List.reverse_reverse] at hpre hdeep
    rw [exists_isFile_iff_of_deepest hpre hex hdeep]
    by_cases hdir : t.isDir d₀ <;> simp [checkIgnoreAt, hdir]

theorem gitIgnored_eq_ok {file d : Path} (hd : d <+: file.dropLast) (hdir : t.isDir d)
    (hdeep : ∀ d', d <+: d' → d' <+: file.dropLast → t.exists d' → d' = d) :
    gitIgnored t returncode file = .ok (returncode d == 0 || returncode d == 128) := by
  rw [gitIgnored, gitIgnoredFrom_eq]
  cases h : deepestExisting t file.dropLast.reverse with
  | none =>
    have hn := deepestExisting_eq_none h
    rw [List.reverse_reverse] at hn
    exact absurd (exists_of_isDir hdir) (hn d hd)
  | some d₀ =>
    obtain ⟨hpre, hex, hdeep₀⟩ := deepestExisting_eq_some h
    rw [List.reverse_reverse] at hpre hdeep₀
    obtain rfl := eq_of_deepest hd hpre (exists_of_isDir hdir) hex hdeep hdeep₀
    simp [checkIgnoreAt, hdir]

/-- `git_ignored` raises exactly when an ancestor of the file's directory is a regular file.
Otherwise it answers as `git check-ignore` does from the deepest ancestor that exists, which
is a directory: a file deleted together with its directories is judged from the directory
that is left. -/
theorem gitIgnored_spec (file : Path) :
    ((∃ e, gitIgnored t returncode file = .error e) ↔
        ∃ d, d <+: file.dropLast ∧ t.isFile d) ∧
      ∀ d, d <+: file.dropLast → t.isDir d →
        (∀ d', d <+: d' → d' <+: file.dropLast → t.exists d' → d' = d) →
        gitIgnored t returncode file = .ok (returncode d == 0 || returncode d == 128) :=
  ⟨gitIgnored_error_iff returncode file, fun _ hd hdir hdeep => gitIgnored_eq_ok returncode hd hdir hdeep⟩

end GitIgnored

def filesystemEventsThatTriggerBuilds : List String := ["created", "modified", "deleted", "moved"]

/-- A watchdog event: `dest_path` only on moves, `src_path` empty as `none`. -/
structure FileSystemEvent where
  isDirectory : Bool
  eventType : String
  srcPath : Option Path
  destPath : Option Path
  deriving DecidableEq, Repr

/-- The settings of a `PigweedBuildWatcher` that event handling reads; `hasWatchApp` says
whether `watch_app` is set. -/
structure WatcherConfig where
  restartOnChanges : Bool
  fullscreenEnabled : Bool
  hasWatchApp : Bool
  patterns : List String
  ignorePatterns : List String

/-- `PigweedBuildWatcher.__init__`. There is no `watch_app` yet; `run_watch` attaches one in
fullscreen mode. -/
def pigweedBuildWatcher (patterns ignorePatterns : List String) (restart fullscreen : Bool) :
    WatcherConfig where
  restartOnChanges := restart
  fullscreenEnabled := fullscreen
  hasWatchApp := false
  patterns := patterns
  ignorePatterns := ignorePatterns

/-- The calls event handling makes: `watch_app.clear_log_panes()` and
`debouncer.press(message)`. -/
inductive WatcherEffect
  | clearLogPanes
  | press (message : String)
  deriving DecidableEq, Repr

/-- What happens outside the watcher: `git_ignored`, `Path.match` and `os.path.relpath`. -/
structure WatcherEnv where
  gitIgnored : Path → Bool
  pathMatch : Path → String → Bool
  relpath : Path → String

variable (cfg : WatcherConfig) (env : WatcherEnv)

def pathMatches (path : Path) : Bool :=
  !cfg.ignorePatterns.any (env.pathMatch path) && cfg.patterns.any (env.pathMatch path)

def eventPaths (event : FileSystemEvent) : List Path :=
  event.destPath.toList ++ event.srcPath.toList

/-- The path `dispatch` hands to `_handle_matched_event`, if any. -/
def matchedPath (event : FileSystemEvent) : Option Path :=
  if event.isDirectory || event.eventType ∉ filesystemEventsThatTriggerBuilds then none
  else (eventPaths event).find? fun path => !env.gitIgnored path && pathMatches cfg env path

def matchedEffects (matchingPath : Path) : List WatcherEffect :=
  if cfg.restartOnChanges then
    (if cfg.fullscreenEnabled && cfg.hasWatchApp then [.clearLogPanes] else []) ++
      [.press ("File change detected: " ++ env.relpath matchingPath ++ " Triggering build...")]
  else []

def handleMatchedEvent (matchingPath : Option Path) (path : Path) :
    Option Path × List WatcherEffect :=
  (matchingPath.or (some path), matchedEffects cfg env path)

def dispatch (matchingPath : Option Path) (event : FileSystemEvent) :
    Option Path × List WatcherEffect :=
  match matchedPath cfg env event with
  | some path => handleMatchedEvent cfg env matchingPath path
  | none => (matchingPath, [])

inductive WatcherInput
  | event (e : FileSystemEvent)
  | complete

/-- A sequence of inputs: the final `matching_path` and every call made. -/
def watcherRun (matchingPath : Option Path) : List WatcherInput → Option Path × List WatcherEffect
  | [] => (matchingPath, [])
  | .event e :: rest =>
    let r := dispatch cfg env matchingPath e
    let s := watcherRun r.1 rest
    (s.1, r.2 ++ s.2)
  | .complete :: rest => watcherRun none rest

variable {cfg env}
theorem matchedPath_eq_none_of_ignored {event : FileSystemEvent}
    (h : ∀ p ∈ eventPaths event, ∃ pat ∈ cfg.ignorePatterns, env.pathMatch p pat) :
    matchedPath cfg env event = none := by
  unfold matchedPath
  split_ifs
  · rfl
  · refine List.find?_eq_none.mpr fun p hp => ?_
    obtain ⟨pat, hpat, hm⟩ := h p hp
    simp [pathMatches, List.any_eq_true.mpr ⟨pat, hpat, hm⟩]

theorem dispatch_eq (matchingPath : Option Path) (event : FileSystemEvent) :
    dispatch cfg env matchingPath event =
      (matchingPath.or (matchedPath cfg env event),
        ((matchedPath cfg env event).map (matchedEffects cfg env)).getD []) := by
  unfold dispatch handleMatchedEvent
  cases matchedPath cfg env event <;> simp

/-- Between two builds, `matching_path` is the first matching path, and the calls made are
those for every matching event, in order. -/
theorem watcherRun_events (matchingPath : Option Path) (events : List FileSystemEvent) :
    watcherRun cfg env matchingPath (events.map .event) =
      (matchingPath.or (events.filterMap (matchedPath cfg env)).head?,
        (events.filterMap (matchedPath cfg env)).flatMap (matchedEffects cfg env)) := by
  induction events generalizing matchingPath with
  | nil => cases matchingPath <;> rfl
  | cons e events ih =>
    simp only [List.map_cons, watcherRun, dispatch_eq, ih, List.filterMap_cons]
    cases matchedPath cfg env e <;> cases matchingPath <;> simp

/-- After the last build, `matching_path` is the first matching path of the events since. -/
theorem watcherRun_complete (matchingPath : Option Path) (inputs : List WatcherInput)
    (events : List FileSystemEvent) :
    (watcherRun cfg env matchingPath (inputs ++ .complete :: events.map .event)).1 =
      (events.filterMap (matchedPath cfg env)).head? := by
  induction inputs generalizing matchingPath with
  | nil => simp [watcherRun, watcherRun_events]
  | cons i inputs ih =>
    cases i with
    | event e => exact ih _
    | complete => exact ih none

section OnTree

variable {ε α β : Type} {p : α → Except ε Bool} {a : α} {l : List α}

theorem bind_pure_eq_ok {x : Except ε α} {f : α → β} {b : β} :
    (x >>= fun a => pure (f a)) = .ok b ↔ ∃ a, x = .ok a ∧ f a = b := by
  cases x <;> simp [bind, Except.bind, pure, Except.pure]

theorem bind_pure_eq_error {x : Except ε α} {f : α → β} {e : ε} :
    (x >>= fun a => pure (f a)) = .error e ↔ x = .error e := by
  cases x <;> simp [bind, Except.bind, pure, Except.pure]

theorem findM?_cons_of_ok {b : Bool} (h : p a = .ok b) :
    (a :: l).findM? p = if b then .ok (some a) else l.findM? p := by
  simp only [List.findM?, h]
  cases b <;> rfl

theorem findM?_cons_of_error {e : ε} (h : p a = .error e) : (a :: l).findM? p = .error e := by
  simp only [List.findM?, h]
  rfl

theorem findM?_except {q : α → Bool} (hpq : ∀ a b, p a = .ok b → q a = b) (l : List α) :
    (∀ r, l.findM? p = .ok r → r = l.find? q) ∧
      (∀ e, l.findM? p = .error e → ∃ a ∈ l, ∃ e', p a = .error e') := by
  induction l with
  | nil => exact ⟨fun _ h => (Except.ok.inj h).symm, fun _ h => nomatch h⟩
  | cons a l ih =>
    cases hpa : p a with
    | error e' =>
      rw [findM?_cons_of_error hpa]
      exact ⟨fun _ h => (nomatch h), fun _ _ => ⟨a, List.mem_cons_self a l, e', hpa⟩⟩
    | ok b =>
      rw [findM?_cons_of_ok hpa, List.find?_cons, hpq a b hpa]
      cases b with
      | true => exact ⟨fun _ h => (Except.ok.inj h).symm, fun _ h => nomatch h⟩
      | false =>
        refine ⟨ih.1, fun e h => ?_⟩
        obtain ⟨a', ha', he⟩ := ih.2 e h
        exact ⟨a', List.mem_cons_of_mem a ha', he⟩

variable (t : FileTree) (returncode : Path → ℕ) (cfg : WatcherConfig) (env : WatcherEnv)

def WatcherEnv.withGitIgnored : WatcherEnv :=
  { env with
    gitIgnored := fun path =>
      match Watch.gitIgnored t returncode path with
      | .ok ignored => ignored
      | .error _ => false }

/-- The loop of `dispatch` with `git_ignored` run on the tree: it runs before
`_path_matches`, and what it raises leaves `dispatch`. -/
def matchedPathOnTree (event : FileSystemEvent) : Except PyError (Option Path) :=
  if event.isDirectory || event.eventType ∉ filesystemEventsThatTriggerBuilds then .ok none
  else (eventPaths event).findM? fun path => do
    let ignored ← gitIgnored t returncode path
    pure (!ignored && pathMatches cfg env path)

/-- `dispatch` as the code runs it, with `git_ignored` on the tree at the time of the event. -/
def dispatchOnTree (matchingPath : Option Path) (event : FileSystemEvent) :
    Except PyError (Option Path × List WatcherEffect) := do
  match ← matchedPathOnTree t returncode cfg env event with
  | some path => pure (handleMatchedEvent cfg env matchingPath path)
  | none => pure (matchingPath, [])

variable {t returncode cfg env}

theorem matchedPathOnTree_spec (event : FileSystemEvent) :
    (∀ m, matchedPathOnTree t returncode cfg env event = .ok m →
      m = matchedPath cfg (env.withGitIgnored t returncode) event) ∧
    (∀ e, matchedPathOnTree t returncode cfg env event = .error e →
      ∃ p ∈ eventPaths event, ∃ e', gitIgnored t returncode p = .error e') := by
  unfold matchedPathOnTree matchedPath
  split_ifs
  · exact ⟨fun _ h => (Except.ok.inj h).symm, fun _ h => nomatch h⟩
  obtain ⟨hok, herr⟩ := findM?_except (p := fun path => do
      let ignored ← gitIgnored t returncode path
      pure (!ignored && pathMatches cfg env path)) (q := fun path =>
      !(env.withGitIgnored t returncode).gitIgnored path &&
        pathMatches cfg (env.withGitIgnored t returncode) path) (fun path b h => by
      obtain ⟨ig, hg, rfl⟩ := bind_pure_eq_ok.mp h
      simp [WatcherEnv.withGitIgnored, hg, pathMatches]) (eventPaths event)
  refine ⟨hok, fun e he => ?_⟩
  obtain ⟨p, hp, e', hpe⟩ := herr e he
  exact ⟨p, hp, e', bind_pure_eq_error.mp hpe⟩

theorem dispatchOnTree_eq_ok {matchingPath : Option Path} {event : FileSystemEvent}
    {r : Option Path × List WatcherEffect}
    (h : dispatchOnTree t returncode cfg env matchingPath event = .ok r) :
    r = dispatch cfg (env.withGitIgnored t returncode) matchingPath event := by
  cases hm : matchedPathOnTree t returncode cfg env event with
  | error e => rw [dispatchOnTree, hm] at h; cases h
  | ok m =>
    rw [dispatchOnTree, hm] at h
    rw [dispatch, ← (matchedPathOnTree_spec event).1 m hm]
    cases m <;> exact (Except.ok.inj h).symm

theorem dispatchOnTree_eq_error {matchingPath : Option Path} {event : FileSystemEvent}
    {e : PyError} (h : dispatchOnTree t returncode cfg env matchingPath event = .error e) :
    ∃ p ∈ eventPaths event, ∃ d, d <+: p.dropLast ∧ t.isFile d := by
  cases hm : matchedPathOnTree t returncode cfg env event with
  | error e' =>
    obtain ⟨p, hp, e'', hg⟩ := (matchedPathOnTree_spec event).2 e' hm
    exact ⟨p, hp, (gitIgnored_error_iff returncode p).mp ⟨e'', hg⟩⟩
  | ok m =>
    rw [dispatchOnTree, hm] at h
    cases m <;> cases h

theorem dispatchOnTree_error_of_head {matchingPath : Option Path} {event : FileSystemEvent}
    (hd : event.isDirectory = false) (ht : event.eventType ∈ filesystemEventsThatTriggerBuilds)
    {p : Path} (hp : (eventPaths event).head? = some p) (hfile : ∃ d, d <+: p.dropLast ∧ t.isFile d) :
    ∃ e, dispatchOnTree t returncode cfg env matchingPath event = .error e := by
  obtain ⟨e, hg⟩ := (gitIgnored_error_iff returncode p).mpr hfile
  obtain ⟨rest, hpaths⟩ := List.head?_eq_some_iff.mp hp
  have hm : matchedPathOnTree t returncode cfg env event = .error e := by
    rw [matchedPathOnTree, if_neg (by simp [hd, ht]), hpaths]
    exact findM?_cons_of_error (bind_pure_eq_error.mpr hg)
  exact ⟨e, by rw [dispatchOnTree, hm]; rfl⟩

end OnTree

end Pigweed.Watch
