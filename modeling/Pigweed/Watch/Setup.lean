import Pigweed.Watch.Coverage
import Pigweed.Watch.BuildWatcher

/-!
# What `watch_setup` returns

`watch_setup` exits unless the working directory is `PW_ROOT` or one of its ancestors.
It returns the user's exclude list extended with `get_common_excludes()` and with the
resolved build directory of each recipe whose `build_dir` is a `Path`; `watch()` then
iterates `minimal_watch_directories(Path.cwd(), exclude_list)`. `PW_ROOT` and
`PW_PROJECT_ROOT` are absolute paths here.

It also returns the `PigweedBuildWatcher` that handles the file events. Its ignore patterns
are the user's and the log files the builds write, so that writing a log never triggers a
build.

`str.split(WATCH_PATTERN_DELIMITER)` is a parameter, the delimiter being defined outside
this file. The log lines, `serve_docs` and the logging setup are left out.
-/

namespace Pigweed.Watch

open FileTree

def typicalIgnoredDirectories : List String :=
  [".environment", ".presubmit", ".git", ".mypy_cache", ".cargo", "environment", "out"]

def legacyDirectories : List String := [".cipd", ".python3-venv"]

/-- `get_common_excludes()` for the given `PW_ROOT` and `PW_PROJECT_ROOT`. -/
def getCommonExcludes (t : FileTree) (pwRootDir pwProjectRootDir : Path) : List Path :=
  typicalIgnoredDirectories.map (pwRootDir ++ [·]) ++
    (if pwProjectRootDir ≠ pwRootDir then
      typicalIgnoredDirectories.map (pwProjectRootDir ++ [·]) else []) ++
    (legacyDirectories.map (pwRootDir ++ [·])).filter fun d => t.isDir d

/-- The exclude list `watch_setup` returns, or `none` where it exits because the working
directory is neither `PW_ROOT` nor above it. `build_dir.resolve()` joins a relative build
directory to the working directory. -/
def watchSetupExcludeList (t : FileTree) (cwd pwRoot pwProjectRoot : Path)
    (excludeList buildDirs : List PathArg) : Option (List PathArg) :=
  if cwd <+: pwRoot then
    some (excludeList ++ (getCommonExcludes t pwRoot pwProjectRoot).map .absolute ++
      buildDirs.map fun b => .absolute (joinpath cwd b))
  else none

/-- What `watch_setup` reads of a `BuildRecipe`: `build_dir` when it is a `Path`, and
`str(logfile)` when the recipe has a log file. -/
structure BuildRecipe where
  buildDir : Option PathArg
  logfile : Option String

/-- What `watch_setup` reads of the `ProjectBuilder`: its recipes, `str(default_logfile)`
when there is one, and `separate_build_file_logging`. -/
structure ProjectBuilder where
  buildRecipes : List BuildRecipe
  defaultLogfile : Option String
  separateBuildFileLogging : Bool

/-- The arguments of `watch_setup` that event handling and the exclude list depend on, with
the defaults of its signature; that of `patterns`, `WATCH_PATTERNS` joined, is defined
outside this file. -/
structure WatchSetupArgs where
  patterns : String
  ignorePatternsString : String := ""
  excludeList : List PathArg := []
  restart : Bool := true
  fullscreen : Bool := false

/-- `ignore_patterns`: the user's, then the default log file and, with separate build file
logging, each recipe's log file. -/
def watchSetupIgnorePatterns (split : String → List String) (builder : ProjectBuilder)
    (ignorePatternsString : String) : List String :=
  (if ignorePatternsString ≠ "" then split ignorePatternsString else []) ++
    builder.defaultLogfile.toList ++
    (if builder.separateBuildFileLogging then builder.buildRecipes.filterMap (·.logfile) else [])

/-- `watch_setup`: the event handler and the exclude list, or `none` where it exits. -/
def watchSetup (t : FileTree) (cwd pwRoot pwProjectRoot : Path) (split : String → List String)
    (builder : ProjectBuilder) (args : WatchSetupArgs) : Option (WatcherConfig × List PathArg) :=
  (watchSetupExcludeList t cwd pwRoot pwProjectRoot args.excludeList
      (builder.buildRecipes.filterMap (·.buildDir))).map fun exclude =>
    (pigweedBuildWatcher (split args.patterns)
      (watchSetupIgnorePatterns split builder args.ignorePatternsString) args.restart
      args.fullscreen, exclude)

theorem watchSetup_eq_some {t : FileTree} {cwd pwRoot pwProjectRoot : Path}
    {split : String → List String} {builder : ProjectBuilder} {args : WatchSetupArgs}
    {handler : WatcherConfig} {exclude : List PathArg}
    (h : watchSetup t cwd pwRoot pwProjectRoot split builder args = some (handler, exclude)) :
    watchSetupExcludeList t cwd pwRoot pwProjectRoot args.excludeList
        (builder.buildRecipes.filterMap (·.buildDir)) = some exclude ∧
      handler = pigweedBuildWatcher (split args.patterns)
        (watchSetupIgnorePatterns split builder args.ignorePatternsString) args.restart
        args.fullscreen := by
  obtain ⟨_, hex, h⟩ := Option.map_eq_some'.mp h
  obtain ⟨rfl, rfl⟩ := Prod.mk.inj h
  exact ⟨hex, rfl⟩

theorem mem_getCommonExcludes {t : FileTree} {pwRootDir pwProjectRootDir d : Path}
    (h : d ∈ getCommonExcludes t pwRootDir pwProjectRootDir) :
    pwRootDir <+: d ∨ pwProjectRootDir <+: d := by
  simp only [getCommonExcludes, List.mem_append, List.mem_map, List.mem_filter] at h
  rcases h with (⟨_, -, rfl⟩ | h) | ⟨⟨_, -, rfl⟩, -⟩
  · exact .inl (List.prefix_append _ _)
  · split_ifs at h
    · obtain ⟨_, -, rfl⟩ := List.mem_map.mp h
      exact .inr (List.prefix_append _ _)
    · simp at h
  · exact .inl (List.prefix_append _ _)

/-- Run from `PW_ROOT` or above it, inside a project whose root also lies under the working
directory, every excluded directory `watch()` receives lies under the working directory,
provided the user's excluded directories and the build directories do. -/
theorem under_of_watchSetupExcludeList {t : FileTree} {cwd pwRoot pwProjectRoot : Path}
    {excludeList buildDirs exclude : List PathArg}
    (hsetup : watchSetupExcludeList t cwd pwRoot pwProjectRoot excludeList buildDirs =
      some exclude)
    (hproject : cwd <+: pwProjectRoot)
    (huser : ∀ e ∈ excludeList, t.isDir (joinpath cwd e) → cwd <+: joinpath cwd e)
    (hbuild : ∀ b ∈ buildDirs, t.isDir (joinpath cwd b) → cwd <+: joinpath cwd b) :
    ∀ d ∈ directoriesToExclude t cwd exclude, cwd <+: d := by
  unfold watchSetupExcludeList at hsetup
  split_ifs at hsetup with hroot
  cases hsetup
  intro d hd
  obtain ⟨hdir, e, he, rfl⟩ := mem_directoriesToExclude.mp hd
  simp only [List.mem_append, List.mem_map] at he
  rcases he with (he | ⟨c, hc, rfl⟩) | ⟨b, hb, rfl⟩
  · exact huser e he hdir
  · rcases mem_getCommonExcludes hc with h | h
    · exact hroot.trans h
    · exact hproject.trans h
  · exact hbuild b hb hdir

/-- Under those conditions `watch()` iterates the generator without an exception. -/
theorem watchSetup_raised_none {t : FileTree} {cwd pwRoot pwProjectRoot : Path}
    {excludeList buildDirs exclude : List PathArg}
    (hsetup : watchSetupExcludeList t cwd pwRoot pwProjectRoot excludeList buildDirs =
      some exclude)
    (hcwd : t.isDir cwd) (hproject : cwd <+: pwProjectRoot)
    (huser : ∀ e ∈ excludeList, t.isDir (joinpath cwd e) → cwd <+: joinpath cwd e)
    (hbuild : ∀ b ∈ buildDirs, t.isDir (joinpath cwd b) → cwd <+: joinpath cwd b) :
    (minimalWatchDirectories t cwd exclude).raised = none :=
  minimalWatchDirectories_raised_none hcwd
    (under_of_watchSetupExcludeList hsetup hproject huser hbuild)

/-- A downstream project: its root with a build directory `out`, and Pigweed checked out
below it. -/
def downstreamTree : FileTree where
  entries := [([], .directory), (["proj"], .directory), (["proj", "out"], .directory),
    (["proj", "pigweed"], .directory), (["proj", "pigweed", "out"], .directory)]
  nodup := by decide
  parent_isDir := by decide

theorem watchSetup_raised_none_project :
    downstreamTree.isDir ["proj"] ∧ ["proj"] <+: ["proj"] ∧
      ∃ exclude, watchSetupExcludeList downstreamTree ["proj"] ["proj", "pigweed"] ["proj"]
          [] [] = some exclude ∧
        (minimalWatchDirectories downstreamTree ["proj"] exclude).raised = none :=
  ⟨by decide, by decide, _, rfl, @watchSetup_raised_none downstreamTree ["proj"]
    ["proj", "pigweed"] ["proj"] [] [] _ rfl (by decide) (by decide) (by simp) (by simp)⟩

/-- Run from `PW_ROOT` inside the downstream project, `watch()` receives
`<PW_PROJECT_ROOT>/out` from `get_common_excludes`, outside the working directory, and the
generator raises `ValueError` before it yields anything. -/
theorem watchSetup_downstream_raises :
    ∃ exclude, watchSetupExcludeList downstreamTree ["proj", "pigweed"] ["proj", "pigweed"]
        ["proj"] [] [] = some exclude ∧
      (minimalWatchDirectories downstreamTree ["proj", "pigweed"] exclude).yielded = [] ∧
      (minimalWatchDirectories downstreamTree ["proj", "pigweed"] exclude).raised =
        some (.valueError ["proj", "out"] ["proj", "pigweed"]) :=
  ⟨_, rfl, by decide, by decide⟩

/-- For the handler `watch_setup` builds, with or without a watch app attached later, an
event whose every path `Path.match` accepts against the default log file or, with separate
build file logging, against a recipe's log file, leaves `matching_path` as it was and makes
no call: writing a build log never triggers a build. -/
theorem dispatch_watchSetup_logfile {t : FileTree} {cwd pwRoot pwProjectRoot : Path}
    {split : String → List String} {builder : ProjectBuilder} {args : WatchSetupArgs}
    {handler : WatcherConfig} {exclude : List PathArg}
    (h : watchSetup t cwd pwRoot pwProjectRoot split builder args = some (handler, exclude))
    (env : WatcherEnv) (hasWatchApp : Bool) (matchingPath : Option Path)
    (event : FileSystemEvent)
    (hlog : ∀ p ∈ eventPaths event,
      (∃ l, builder.defaultLogfile = some l ∧ env.pathMatch p l) ∨
        (builder.separateBuildFileLogging ∧
          ∃ r ∈ builder.buildRecipes, ∃ l, r.logfile = some l ∧ env.pathMatch p l)) :
    dispatch { handler with hasWatchApp } env matchingPath event = (matchingPath, []) := by
  rw [dispatch_eq, matchedPath_eq_none_of_ignored fun p hp => ?_]
  · simp
  rw [(watchSetup_eq_some h).2]
  simp only [pigweedBuildWatcher, watchSetupIgnorePatterns, List.mem_append]
  rcases hlog p hp with ⟨l, hl, hm⟩ | ⟨hsep, r, hr, l, hl, hm⟩
  · exact ⟨l, .inl (.inr (by simp [hl])), hm⟩
  · refine ⟨l, .inr ?_, hm⟩
    simp only [hsep, if_true]
    exact List.mem_filterMap.mpr ⟨r, hr, hl⟩

def loggingBuilder : ProjectBuilder :=
  ⟨[⟨some (.relative ["out"]), some "out/build.txt"⟩], some "out/watch.txt", true⟩

theorem dispatch_watchSetup_logfile_build :
    ∃ handler exclude, watchSetup downstreamTree ["proj"] ["proj", "pigweed"] ["proj"]
        (fun s => [s]) loggingBuilder { patterns := "*" } = some (handler, exclude) ∧
      dispatch { handler with hasWatchApp := true }
          ⟨fun _ => false, fun p pat => p == ["proj", "out", pat.drop 4], fun _ => ""⟩ none
          ⟨false, "modified", some ["proj", "out", "build.txt"], none⟩ = (none, []) :=
  ⟨_, _, rfl, @dispatch_watchSetup_logfile downstreamTree ["proj"] ["proj", "pigweed"] ["proj"]
    (fun s => [s]) loggingBuilder { patterns := "*" } _ _ rfl _ true none _ fun p hp => by
    obtain rfl : p = ["proj", "out", "build.txt"] := by simpa [eventPaths] using hp
    exact .inr ⟨rfl, _, List.mem_singleton_self _, _, rfl, by decide⟩⟩

/-- From a change to a file to a build. Under the conditions above, a change to a file of a
directory under the working directory that is neither excluded nor below an excluded
directory is reported by one of the observers `watch()` schedules; when Git does not ignore
the file, the watcher's patterns match it and `restart` is set, its `modified` event records
the file as `matching_path` unless one is already recorded and presses the debouncer. -/
theorem dispatch_watchSetup_file_change {t : FileTree} {cwd pwRoot pwProjectRoot : Path}
    {split : String → List String} {builder : ProjectBuilder} {args : WatchSetupArgs}
    {handler : WatcherConfig} {exclude : List PathArg}
    (h : watchSetup t cwd pwRoot pwProjectRoot split builder args = some (handler, exclude))
    (hcwd : t.isDir cwd) (hproject : cwd <+: pwProjectRoot)
    (huser : ∀ e ∈ args.excludeList, t.isDir (joinpath cwd e) → cwd <+: joinpath cwd e)
    (hbuild : ∀ b ∈ builder.buildRecipes.filterMap (·.buildDir),
      t.isDir (joinpath cwd b) → cwd <+: joinpath cwd b)
    (env : WatcherEnv) (hasWatchApp : Bool) (matchingPath : Option Path) (f : Path)
    (hf : f ≠ []) (hdir : t.isDir f.dropLast) (hwf : cwd <+: f.dropLast)
    (hex : ¬ Excluded t cwd exclude f.dropLast) (hgit : env.gitIgnored f = false)
    (hmatch : pathMatches handler env f = true) (hrestart : args.restart = true) :
    (∃ y ∈ (minimalWatchDirectories t cwd exclude).yielded, Delivers y f) ∧
      (dispatch { handler with hasWatchApp } env matchingPath
          ⟨false, "modified", some f, none⟩).1 = matchingPath.or (some f) ∧
      .press ("File change detected: " ++ env.relpath f ++ " Triggering build...") ∈
        (dispatch { handler with hasWatchApp } env matchingPath
          ⟨false, "modified", some f, none⟩).2 := by
  obtain ⟨hsetup, hhandler⟩ := watchSetup_eq_some h
  obtain ⟨parents, hs, heq⟩ := minimalWatchDirectories_spec hcwd
    (under_of_watchSetupExcludeList hsetup hproject huser hbuild)
  have hm : matchedPath { handler with hasWatchApp } env ⟨false, "modified", some f, none⟩ =
      some f := by
    have hmatch' : pathMatches { handler with hasWatchApp } env f = true := hmatch
    simp [matchedPath, eventPaths, filesystemEventsThatTriggerBuilds, hgit, hmatch']
  rw [heq, exists_delivers_iff, dispatch_eq, hm]
  refine ⟨.inr ⟨hf, observed_of_mem_parents hdir (fun d hd hdq => hex ⟨d, hd, hdq⟩) _ cwd
    hs.self_mem hwf rfl⟩, rfl, ?_⟩
  simp [matchedEffects, hhandler, pigweedBuildWatcher, hrestart]

theorem dispatch_watchSetup_file_change_main :
    ∃ handler exclude, watchSetup outTree ["root"] ["root"] ["root"] (fun s => [s])
        ⟨[⟨some (.relative ["out"]), none⟩], none, false⟩ { patterns := "*" } =
        some (handler, exclude) ∧
      pathMatches handler ⟨fun _ => false, fun _ pat => pat == "*", fun _ => "src/main.cc"⟩
        ["root", "src", "main.cc"] = true ∧
      (∃ y ∈ (minimalWatchDirectories outTree ["root"] exclude).yielded,
        Delivers y ["root", "src", "main.cc"]) ∧
      (dispatch { handler with hasWatchApp := false }
          ⟨fun _ => false, fun _ pat => pat == "*", fun _ => "src/main.cc"⟩ none
          ⟨false, "modified", some ["root", "src", "main.cc"], none⟩).1 =
        (none : Option Path).or (some ["root", "src", "main.cc"]) ∧
      .press ("File change detected: " ++ "src/main.cc" ++ " Triggering build...") ∈
        (dispatch { handler with hasWatchApp := false }
          ⟨fun _ => false, fun _ pat => pat == "*", fun _ => "src/main.cc"⟩ none
          ⟨false, "modified", some ["root", "src", "main.cc"], none⟩).2 :=
  ⟨_, _, rfl, by decide, @dispatch_watchSetup_file_change outTree ["root"] ["root"] ["root"]
    (fun s => [s]) ⟨[⟨some (.relative ["out"]), none⟩], none, false⟩ { patterns := "*" } _ _
    rfl (by decide) (by decide) (by simp) (by simp) _ false none ["root", "src", "main.cc"]
    (by decide) (by decide) (by decide) (by decide) rfl (by decide) rfl⟩

end Pigweed.Watch
