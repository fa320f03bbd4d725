import Mathlib.Data.List.Infix

/-!
# The subtitle of a `LogPane`

`pw_console/log_pane.py` keeps the names of the loggers a pane shows in one string,
`_pane_subtitle`: `append_pane_subtitle` joins each new name on with `', '`, and
`pane_subtitle` splits the string on `', '` again and shows the first name followed by
`' + {} more'.format(len(logger_names))` when there are several. `add_log_handler` appends
the name of the logger once its level check passes; a logger given by a string is
`logging.getLogger` of it, and the empty string gives the root logger, named `root`.

Python's `str.split(', ')` is `splitCommaSpace` on the characters of the string. The
handlers and levels of the loggers are not modelled; `hasattr(logging, name)` is a
parameter.
-/

namespace Pigweed.Console

def consHead (c : Char) : List (List Char) → List (List Char)
  | [] => [[c]]
  | part :: parts => (c :: part) :: parts

/-- Python's `s.split(', ')` on the characters of `s`: cut at each occurrence of `', '`,
scanning from the left. -/
def splitCommaSpace : List Char → List (List Char)
  | [] => [[]]
  | ',' :: ' ' :: rest => [] :: splitCommaSpace rest
  | c :: rest => consHead c (splitCommaSpace rest)

/-- The state of a `LogPane` that its subtitle methods read and write: `_pane_subtitle`, and
the keys of `log_view.log_store.channel_counts` in insertion order. -/
structure LogPane where
  subtitle : String
  channelNames : List String

def appendPaneSubtitle (pane : LogPane) (text : String) : LogPane :=
  if pane.subtitle = "" then { pane with subtitle := text }
  else { pane with subtitle := pane.subtitle ++ ", " ++ text }

/-- `LogPane.pane_subtitle`. The split is never empty, so `logger_names[0]` is its head. -/
def paneSubtitle (pane : LogPane) : String :=
  if pane.subtitle = "" then ", ".intercalate pane.channelNames
  else
    let loggerNames := (splitCommaSpace pane.subtitle.data).map String.mk
    let additionalText :=
      if loggerNames.length > 1 then " + " ++ toString loggerNames.length ++ " more" else ""
    loggerNames.headD "" ++ additionalText

/-- The `logger` argument of `add_log_handler`: a `logging.Logger`, by its name, or a string. -/
inductive LoggerArg
  | logger (name : String)
  | str (name : String)

/-- `logging.getLogger(name).name`: the empty name gives the root logger. -/
def getLoggerName (name : String) : String := if name = "" then "root" else name

def LoggerArg.loggerName : LoggerArg → String
  | .logger name => name
  | .str name => getLoggerName name

/-- `LogPane.add_log_handler`: a non-empty level name must be an attribute of `logging`
(`hasLevel`), then the logger's name is appended to the subtitle. -/
def addLogHandler (hasLevel : String → Bool) (pane : LogPane) (logger : LoggerArg)
    (levelName : Option String) : Except String LogPane :=
  match levelName with
  | some level =>
    if level ≠ "" ∧ hasLevel level = false then .error s!"Unknown log level: {level}"
    else .ok (appendPaneSubtitle pane logger.loggerName)
  | none => .ok (appendPaneSubtitle pane logger.loggerName)

theorem consHead_append (c : Char) {l : List (List Char)} (m : List (List Char))
    (h : l ≠ []) : consHead c (l ++ m) = consHead c l ++ m := by
  obtain ⟨part, parts, rfl⟩ := List.exists_cons_of_ne_nil h
  rfl

theorem consHead_ne_nil (c : Char) (l : List (List Char)) : consHead c l ≠ [] := by
  cases l <;> simp [consHead]

theorem splitCommaSpace_ne_nil (s : List Char) : splitCommaSpace s ≠ [] := by
  unfold splitCommaSpace
  split <;> simp [consHead_ne_nil]

theorem splitCommaSpace_of_no_sep {s : List Char} (h : ¬ [',', ' '] <:+: s) :
    splitCommaSpace s = [s] := by
  induction s using splitCommaSpace.induct with
  | case1 => rfl
  | case2 rest _ => exact absurd ((List.prefix_append _ rest).isInfix) h
  | case3 c rest hc ih =>
    rw [splitCommaSpace.eq_3 c rest hc, ih fun hr => h (hr.trans (List.suffix_cons c rest).isInfix)]
    rfl

/-- Splitting on `', '` takes apart a string joined with `', '`, whatever the two halves:
no occurrence of `', '` can start at the last character of `a`. -/
theorem splitCommaSpace_append (a b : List Char) :
    splitCommaSpace (a ++ ',' :: ' ' :: b) = splitCommaSpace a ++ splitCommaSpace b := by
  induction a using splitCommaSpace.induct with
  | case1 => rfl
  | case2 rest ih => simp [splitCommaSpace, ih]
  | case3 c rest hc ih =>
    have hc' : ∀ r, c = ',' → rest ++ ',' :: ' ' :: b = ' ' :: r → False := by
      intro r hcr h
      cases rest with
      | nil => simp at h
      | cons d rest => exact hc rest hcr (by simp_all)
    rw [List.cons_append, splitCommaSpace.eq_3 c _ hc', ih, splitCommaSpace.eq_3 c rest hc,
      consHead_append c _ (splitCommaSpace_ne_nil rest)]

theorem appendPaneSubtitle_data {pane : LogPane} (h : pane.subtitle ≠ "") (text : String) :
    (appendPaneSubtitle pane text).subtitle.data =
      pane.subtitle.data ++ ',' :: ' ' :: text.data := by
  simp [appendPaneSubtitle, h]

theorem appendPaneSubtitle_ne_empty {pane : LogPane} (h : pane.subtitle ≠ "") (text : String) :
    (appendPaneSubtitle pane text).subtitle ≠ "" := fun he => by
  simpa [appendPaneSubtitle_data h] using congrArg String.data he

theorem splitCommaSpace_foldl_appendPaneSubtitle {names : List String} {pane : LogPane}
    (h : pane.subtitle ≠ "") (hsep : ∀ n ∈ names, ¬ [',', ' '] <:+: n.data) :
    (names.foldl appendPaneSubtitle pane).subtitle ≠ "" ∧
      splitCommaSpace (names.foldl appendPaneSubtitle pane).subtitle.data =
        splitCommaSpace pane.subtitle.data ++ names.map String.data := by
  induction names generalizing pane with
  | nil => exact ⟨h, by simp⟩
  | cons n names ih =>
    obtain ⟨hne, hsplit⟩ := ih (appendPaneSubtitle_ne_empty h n)
      fun m hm => hsep m (List.mem_cons_of_mem n hm)
    refine ⟨hne, ?_⟩
    rw [List.foldl_cons, hsplit, appendPaneSubtitle_data h, splitCommaSpace_append,
      splitCommaSpace_of_no_sep (hsep n (List.mem_cons_self n names))]
    simp

/-- After `append_pane_subtitle` of `name` and then of each of `names` on an empty subtitle,
with `name` non-empty and no name containing `', '`, splitting the subtitle gives back
exactly the appended names, and `pane_subtitle` shows `name` followed, when there are
several, by `' + k more'` where `k` counts all of them, `name` included. -/
theorem paneSubtitle_foldl_appendPaneSubtitle (channelNames : List String) (name : String)
    (names : List String) (hname : name ≠ "")
    (hsep : ∀ n ∈ name :: names, ¬ [',', ' '] <:+: n.data) :
    (splitCommaSpace ((name :: names).foldl appendPaneSubtitle ⟨"", channelNames⟩).subtitle.data).map
        String.mk = name :: names ∧
      paneSubtitle ((name :: names).foldl appendPaneSubtitle ⟨"", channelNames⟩) =
        if names = [] then name else name ++ " + " ++ toString (names.length + 1) ++ " more" := by
  rw [List.foldl_cons, show appendPaneSubtitle ⟨"", channelNames⟩ name = ⟨name, channelNames⟩
    from rfl]
  obtain ⟨hne, hsplit⟩ := @splitCommaSpace_foldl_appendPaneSubtitle names ⟨name, channelNames⟩
    hname fun n hn => hsep n (List.mem_cons_of_mem name hn)
  have hnames : (splitCommaSpace (names.foldl appendPaneSubtitle
      ⟨name, channelNames⟩).subtitle.data).map String.mk = name :: names := by
    rw [hsplit, splitCommaSpace_of_no_sep (hsep name (List.mem_cons_self name names))]
    simp [Function.comp_def]
  refine ⟨hnames, ?_⟩
  simp only [paneSubtitle, if_neg hne, hnames]
  cases names <;> simp [String.append_assoc]

theorem paneSubtitle_foldl_appendPaneSubtitle_device :
    "pw_console" ≠ "" ∧ (∀ n ∈ ["pw_console", "device"], ¬ [',', ' '] <:+: n.data) ∧
      (splitCommaSpace (["pw_console", "device"].foldl appendPaneSubtitle
          ⟨"", []⟩).subtitle.data).map String.mk = ["pw_console", "device"] ∧
        paneSubtitle (["pw_console", "device"].foldl appendPaneSubtitle ⟨"", []⟩) =
          if ["device"] = [] then "pw_console"
          else "pw_console" ++ " + " ++ toString (["device"].length + 1) ++ " more" :=
  ⟨by decide, by decide, paneSubtitle_foldl_appendPaneSubtitle [] "pw_console" ["device"]
    (by decide) (by decide)⟩

/-- Two loggers show as the first name and `' + 2 more'`: the count includes the name
already shown. -/
theorem paneSubtitle_two_loggers :
    paneSubtitle (["pw_console", "device"].foldl appendPaneSubtitle ⟨"", []⟩) =
      "pw_console + 2 more" := by
  decide

end Pigweed.Console
