import Pigweed.Watch.FileTree

/-!
# `minimal_watch_directories`

The generator of `pw_watch/watch.py` that decides which directories `watch()` hands to
a watchdog `Observer`, and whether recursively. It runs in three loops: the excluded
entries that are directories are joined to `to_watch`; every directory strictly between
`to_watch` and an excluded directory goes into the set `exclude_dir_parents`, found with
`relative_to`, which raises for a directory outside `to_watch`; then every directory of
the set is yielded with `False`, followed by each of its subdirectories that is neither
in the set nor excluded, with `True`.

The set is a list without repeats, `set.add` is `List.insert`. Python iterates a set in
hash order; `watchLoop_perm` in the coverage module shows the order does not matter.
A run of the generator is the list of pairs it yielded and the exception that ended it.
-/

namespace Pigweed.Watch

/-- Iterating a generator to its end: the values it yielded, in order, and the exception
that ended it, if any. -/
structure Iteration (α : Type) where
  yielded : List α
  raised : Option PyError

open FileTree

variable (t : FileTree)

/-- `directories_to_exclude`: each entry joined to `to_watch`, kept if it is a directory. -/
def directoriesToExclude (toWatch : Path) (toExclude : List PathArg) : List Path :=
  (toExclude.map (joinpath toWatch)).filter fun d => t.isDir d

/-- The inner loop of the scan: `dir_tmp = Path(dir_tmp, part)`, then
`exclude_dir_parents.add(dir_tmp)`. -/
def addParents (dirTmp : Path) (parents : List Path) : List String → List Path
  | [] => parents
  | part :: parts => addParents (dirTmp ++ [part]) (parents.insert (dirTmp ++ [part])) parts

/-- The outer loop of the scan: the names of each excluded directory below `to_watch`,
but the last (`relative_to(to_watch).parts[:-1]`). -/
def excludeDirParents (toWatch : Path) (parents : List Path) :
    List Path → Except PyError (List Path)
  | [] => .ok parents
  | directoryToExclude :: rest => do
    let rel ← relativeTo directoryToExclude toWatch
    excludeDirParents toWatch (addParents toWatch parents rel.dropLast) rest

def recursiveItems (parents excluded items : List Path) : List (Path × Bool) :=
  (items.filter fun item => t.isDir item ∧ item ∉ parents ∧ item ∉ excluded).map (·, true)

/-- The last loop: `(directory, False)`, then `iterdir`, which may raise. -/
def watchLoop (parents excluded : List Path) : List Path → Iteration (Path × Bool)
  | [] => ⟨[], none⟩
  | directory :: rest =>
    match t.iterdir directory with
    | .error e => ⟨[(directory, false)], some e⟩
    | .ok items =>
      let r := watchLoop parents excluded rest
      ⟨(directory, false) :: recursiveItems t parents excluded items ++ r.yielded, r.raised⟩

/-- `minimal_watch_directories(to_watch, to_exclude)`, iterated to its end. -/
def minimalWatchDirectories (toWatch : Path) (toExclude : List PathArg) :
    Iteration (Path × Bool) :=
  let excluded := directoriesToExclude t toWatch toExclude
  match excludeDirParents toWatch [toWatch] excluded with
  | .error e => ⟨[], some e⟩
  | .ok parents => watchLoop t parents excluded parents

variable {t}

theorem mem_directoriesToExclude {toWatch d : Path} {toExclude : List PathArg} :
    d ∈ directoriesToExclude t toWatch toExclude ↔
      t.isDir d ∧ ∃ e ∈ toExclude, joinpath toWatch e = d := by
  simp [directoriesToExclude, and_comm]

theorem mem_addParents {x dirTmp : Path} {parents : List Path} {parts : List String} :
    x ∈ addParents dirTmp parents parts ↔
      x ∈ parents ∨ ∃ i, 0 < i ∧ i ≤ parts.length ∧ x = dirTmp ++ parts.take i := by
  induction parts generalizing dirTmp parents with
  | nil =>
    simp only [addParents, List.length_nil, iff_self_or]
    rintro ⟨i, hi, hin, -⟩
    omega
  | cons part parts ih =>
    simp only [addParents, ih, List.mem_insert_iff, List.length_cons]
    constructor
    · rintro ((rfl | h) | ⟨i, hi, hin, rfl⟩)
      · exact .inr ⟨1, by omega, by omega, by simp⟩
      · exact .inl h
      · exact .inr ⟨i + 1, by omega, by omega, by simp⟩
    · rintro (h | ⟨_ | _ | i, hi, hin, rfl⟩)
      · exact .inl (.inr h)
      · omega
      · exact .inl (.inl (by simp))
      · exact .inr ⟨i + 1, by omega, by omega, by simp⟩

/-- The directories the scan adds for one excluded directory `d` under `to_watch`: those
strictly between the two. -/
theorem mem_addParents_relative {x toWatch d : Path} {parents : List Path}
    (hd : toWatch <+: d) :
    x ∈ addParents toWatch parents (d.drop toWatch.length).dropLast ↔
      x ∈ parents ∨ (toWatch <+: x ∧ x ≠ toWatch ∧ x <+: d ∧ x ≠ d) := by
  rw [mem_addParents, or_congr_right]
  obtain ⟨s, rfl⟩ := hd
  simp only [List.drop_left, List.length_dropLast]
  constructor
  · rintro ⟨i, hi, hin, rfl⟩
    have hs : s.dropLast.take i = s.take i := by
      rw [List.dropLast_eq_take, List.take_take, min_eq_left hin]
    rw [hs]
    have htake := List.take_prefix i s
    refine ⟨List.prefix_append _ _, fun h => ?_,
      (List.prefix_append_right_inj toWatch).mpr htake, fun h => ?_⟩ <;>
    · have := congrArg List.length h
      simp only [List.length_append, List.length_take] at this
      omega
  · rintro ⟨⟨u, rfl⟩, hne, hpre, hne'⟩
    have hu : u <+: s := (List.prefix_append_right_inj toWatch).mp hpre
    have hlen : u.length < s.length :=
      lt_of_le_of_ne hu.length_le fun h => hne' (by rw [hu.eq_of_length h])
    refine ⟨u.length, List.length_pos.mpr fun h => hne (by simp [h]), by omega, ?_⟩
    rw [List.dropLast_eq_take, List.take_take, min_eq_left (by omega),
      ← List.prefix_iff_eq_take.mp hu]

theorem addParents_nodup {dirTmp : Path} {parents : List Path} (parts : List String)
    (h : parents.Nodup) : (addParents dirTmp parents parts).Nodup := by
  induction parts generalizing dirTmp parents with
  | nil => exact h
  | cons part parts ih =>
    refine ih ?_
    by_cases hp : dirTmp ++ [part] ∈ parents
    · rwa [List.insert_of_mem hp]
    · rw [List.insert_of_not_mem hp]
      exact h.cons hp

/-- What `exclude_dir_parents` holds once the scan is done: `to_watch`, and each
directory strictly between `to_watch` and an excluded directory, once. -/
structure ParentsSpec (toWatch : Path) (excluded parents : List Path) : Prop where
  nodup : parents.Nodup
  mem_iff : ∀ x, x ∈ parents ↔
    x = toWatch ∨ (toWatch <+: x ∧ x ≠ toWatch ∧ ∃ d ∈ excluded, x <+: d ∧ x ≠ d)

theorem excludeDirParents_cons_of_under {toWatch d : Path} {parents rest : List Path}
    (hd : toWatch <+: d) :
    excludeDirParents toWatch parents (d :: rest) =
      excludeDirParents toWatch (addParents toWatch parents (d.drop toWatch.length).dropLast)
        rest := by
  simp only [excludeDirParents, relativeTo_of_under hd]
  rfl

/-- The scan succeeds when every excluded directory lies under `to_watch`. -/
theorem excludeDirParents_ok {toWatch : Path} {parents excluded : List Path}
    (h : ∀ d ∈ excluded, toWatch <+: d) :
    ∃ result, excludeDirParents toWatch parents excluded = .ok result ∧
      (parents.Nodup → result.Nodup) ∧ ∀ x, x ∈ result ↔ x ∈ parents ∨
        (toWatch <+: x ∧ x ≠ toWatch ∧ ∃ d ∈ excluded, x <+: d ∧ x ≠ d) := by
  induction excluded generalizing parents with
  | nil => exact ⟨parents, rfl, id, by simp⟩
  | cons d rest ih =>
    have hd := h d (List.mem_cons_self d rest)
    obtain ⟨result, hr, hnd, hmem⟩ := @ih
      (addParents toWatch parents (d.drop toWatch.length).dropLast)
      fun e he => h e (List.mem_cons_of_mem d he)
    refine ⟨result, by rw [excludeDirParents_cons_of_under hd, hr],
      fun hp => hnd (addParents_nodup _ hp), fun x => ?_⟩
    rw [hmem, mem_addParents_relative hd]
    simp only [List.mem_cons, exists_eq_or_imp, and_or_left, or_assoc]

/-- The scan raises `ValueError` for the first excluded directory outside `to_watch`. -/
theorem excludeDirParents_error {toWatch : Path} {parents excluded : List Path}
    (h : ∃ d ∈ excluded, ¬ toWatch <+: d) :
    ∃ d ∈ excluded, ¬ toWatch <+: d ∧
      excludeDirParents toWatch parents excluded = .error (.valueError d toWatch) := by
  induction excluded generalizing parents with
  | nil => simp at h
  | cons d rest ih =>
    by_cases hd : toWatch <+: d
    · obtain ⟨e, he, hne, hr⟩ := @ih
        (addParents toWatch parents (d.drop toWatch.length).dropLast) (by simpa [hd] using h)
      exact ⟨e, List.mem_cons_of_mem d he, hne, by rw [excludeDirParents_cons_of_under hd, hr]⟩
    · exact ⟨d, List.mem_cons_self d rest, hd, by
        simp only [excludeDirParents, relativeTo_of_not_under hd]; rfl⟩

variable (t)

def watchBlock (parents excluded : List Path) (directory : Path) : List (Path × Bool) :=
  (directory, false) :: recursiveItems t parents excluded (t.children directory)

variable {t}

theorem watchLoop_of_isDir {parents excluded ds : List Path} (h : ∀ d ∈ ds, t.isDir d) :
    watchLoop t parents excluded ds = ⟨ds.flatMap (watchBlock t parents excluded), none⟩ := by
  induction ds with
  | nil => rfl
  | cons d ds ih =>
    simp only [watchLoop, iterdir_of_isDir (h d (List.mem_cons_self d ds)),
      ih fun e he => h e (List.mem_cons_of_mem d he)]
    rfl

theorem mem_watchBlock {parents excluded : List Path} {d q : Path} {b : Bool} :
    (q, b) ∈ watchBlock t parents excluded d ↔
      (q = d ∧ b = false) ∨
        (b = true ∧ t.isDir q ∧ q ∉ parents ∧ q ∉ excluded ∧ ∃ n, q = d ++ [n]) := by
  simp only [watchBlock, recursiveItems, List.mem_cons, Prod.mk.injEq, List.mem_map,
    List.mem_filter, mem_children, decide_eq_true_eq]
  constructor
  · rintro (h | ⟨q', ⟨⟨-, hn⟩, hd, hp, he⟩, rfl, rfl⟩)
    · exact .inl h
    · exact .inr ⟨rfl, hd, hp, he, hn⟩
  · rintro (h | ⟨rfl, hd, hp, he, hn⟩)
    · exact .inl h
    · exact .inr ⟨q, ⟨⟨exists_of_isDir hd, hn⟩, hd, hp, he⟩, rfl, rfl⟩

/-- The spec of the whole generator when every excluded directory lies under `to_watch`:
it raises nothing, and yields one block per directory of a set that meets `ParentsSpec`. -/
theorem minimalWatchDirectories_spec {toWatch : Path} {toExclude : List PathArg}
    (hw : t.isDir toWatch)
    (h : ∀ d ∈ directoriesToExclude t toWatch toExclude, toWatch <+: d) :
    ∃ parents, ParentsSpec toWatch (directoriesToExclude t toWatch toExclude) parents ∧
      minimalWatchDirectories t toWatch toExclude =
        ⟨parents.flatMap (watchBlock t parents (directoriesToExclude t toWatch toExclude)),
          none⟩ := by
  obtain ⟨parents, hr, hnd, hmem⟩ := @excludeDirParents_ok _ [toWatch] _ h
  have hspec : ParentsSpec toWatch _ parents :=
    ⟨hnd (List.nodup_singleton _), fun x => by simpa using hmem x⟩
  refine ⟨parents, hspec, ?_⟩
  simp only [minimalWatchDirectories, hr]
  refine watchLoop_of_isDir fun x hx => ?_
  rcases (hspec.mem_iff x).mp hx with rfl | ⟨-, -, d, hd, hxd, -⟩
  · exact hw
  · exact isDir_of_ancestor (mem_directoriesToExclude.mp hd).1 hxd

theorem minimalWatchDirectories_raised_none {toWatch : Path} {toExclude : List PathArg}
    (hw : t.isDir toWatch)
    (h : ∀ d ∈ directoriesToExclude t toWatch toExclude, toWatch <+: d) :
    (minimalWatchDirectories t toWatch toExclude).raised = none := by
  obtain ⟨parents, -, heq⟩ := minimalWatchDirectories_spec hw h
  rw [heq]

/-- When an excluded directory lies outside `to_watch`, the generator raises `ValueError`
for the first such directory before it yields anything. -/
theorem minimalWatchDirectories_of_not_under {toWatch : Path} {toExclude : List PathArg}
    (h : ∃ d ∈ directoriesToExclude t toWatch toExclude, ¬ toWatch <+: d) :
    ∃ d ∈ directoriesToExclude t toWatch toExclude, ¬ toWatch <+: d ∧
      minimalWatchDirectories t toWatch toExclude = ⟨[], some (.valueError d toWatch)⟩ := by
  obtain ⟨d, hd, hne, hr⟩ := @excludeDirParents_error _ [toWatch] _ h
  exact ⟨d, hd, hne, by simp only [minimalWatchDirectories, hr]⟩

end Pigweed.Watch
