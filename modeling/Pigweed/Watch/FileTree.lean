import Mathlib.Data.List.Infix
import Mathlib.Data.List.Nodup

/-!
# Paths and a finite directory tree

The filesystem that `pw_watch` walks, as `pathlib` sees it. A path is the sequence of
names from the filesystem root, so there are no `.`, `..` or symlink aliases and
`Path.resolve` is the identity on absolute paths. A tree lists every existing path once,
with its kind, and the parent of every entry is a directory. `Path.iterdir` of a
directory yields its entries in the tree's order; of anything else it raises.
-/

namespace Pigweed.Watch

abbrev Path := List String

/-- A `pathlib.Path` value: absolute, or relative to whatever it is joined to. -/
inductive PathArg
  | absolute (p : Path)
  | relative (p : Path)
  deriving DecidableEq, Repr

/-- `base.joinpath(other)`: an absolute `other` replaces `base`. -/
def joinpath (base : Path) : PathArg → Path
  | .absolute p => p
  | .relative p => base ++ p

@[simp] theorem joinpath_absolute (base p : Path) : joinpath base (.absolute p) = p := rfl
@[simp] theorem joinpath_relative (base p : Path) : joinpath base (.relative p) = base ++ p := rfl

/-- The exceptions the modelled `pathlib` calls raise. -/
inductive PyError
  /-- `PurePath.relative_to` of a path that does not lie under `base`. -/
  | valueError (path base : Path)
  /-- `Path.iterdir` of a path that does not exist. -/
  | fileNotFoundError (path : Path)
  /-- `Path.iterdir` of a file. -/
  | notADirectoryError (path : Path)
  deriving DecidableEq, Repr

/-- `PurePath.relative_to`: the names of `p` below `base`, compared name by name. -/
def relativeTo (p base : Path) : Except PyError Path :=
  if base <+: p then .ok (p.drop base.length) else .error (.valueError p base)

theorem relativeTo_of_under {p base : Path} (h : base <+: p) :
    relativeTo p base = .ok (p.drop base.length) := if_pos h

theorem relativeTo_of_not_under {p base : Path} (h : ¬ base <+: p) :
    relativeTo p base = .error (.valueError p base) := if_neg h

inductive Kind
  | directory
  | file
  deriving DecidableEq, Repr

/-- A finite filesystem: every existing path once, with its kind; the parent of every
entry is a directory. -/
structure FileTree where
  entries : List (Path × Kind)
  nodup : (entries.map Prod.fst).Nodup
  parent_isDir : ∀ e ∈ entries, e.1 ≠ [] → (e.1.dropLast, Kind.directory) ∈ entries

namespace FileTree

variable (t : FileTree)

def isDir (p : Path) : Prop := (p, Kind.directory) ∈ t.entries

instance (p : Path) : Decidable (t.isDir p) := inferInstanceAs (Decidable (_ ∈ _))

def isFile (p : Path) : Prop := (p, Kind.file) ∈ t.entries

instance (p : Path) : Decidable (t.isFile p) := inferInstanceAs (Decidable (_ ∈ _))

def «exists» (p : Path) : Prop := p ∈ t.entries.map Prod.fst

instance (p : Path) : Decidable (t.exists p) := inferInstanceAs (Decidable (_ ∈ _))

/-- The entries of directory `d`, as the paths `d / name` that `Path.iterdir` yields. -/
def children (d : Path) : List Path :=
  (t.entries.map Prod.fst).filter fun p => p ≠ [] ∧ p.dropLast = d

/-- `Path.iterdir`: `os.listdir` raises unless the path is a directory. -/
def iterdir (d : Path) : Except PyError (List Path) :=
  if t.isDir d then .ok (t.children d)
  else if t.exists d then .error (.notADirectoryError d)
  else .error (.fileNotFoundError d)

variable {t}

theorem exists_of_isDir {p : Path} (h : t.isDir p) : t.exists p :=
  List.mem_map_of_mem Prod.fst h

theorem iterdir_of_isDir {d : Path} (h : t.isDir d) : t.iterdir d = .ok (t.children d) :=
  if_pos h

theorem mem_children {d p : Path} :
    p ∈ t.children d ↔ t.exists p ∧ ∃ n, p = d ++ [n] := by
  simp only [children, List.mem_filter, decide_eq_true_eq, «exists»]
  refine and_congr_right fun _ => ⟨fun ⟨hp, hd⟩ => ⟨p.getLast hp, ?_⟩, ?_⟩
  · rw [← hd, List.dropLast_append_getLast]
  · rintro ⟨n, rfl⟩
    simp

theorem children_nodup (d : Path) : (t.children d).Nodup := t.nodup.filter _

theorem isDir_parent {p : Path} (h : t.isDir p) (hp : p ≠ []) : t.isDir p.dropLast :=
  t.parent_isDir _ h hp

/-- Every ancestor of a directory is a directory. -/
theorem isDir_of_ancestor {p q : Path} (hq : t.isDir q) (hpq : p <+: q) : t.isDir p := by
  induction q using List.reverseRecOn with
  | nil => rwa [List.prefix_nil.mp hpq]
  | append_singleton q a ih =>
    rcases List.prefix_concat_iff.mp hpq with rfl | hpq
    · exact hq
    · exact ih (by simpa using isDir_parent hq (by simp)) hpq

theorem exists_iff {p : Path} : t.exists p ↔ t.isDir p ∨ t.isFile p := by
  simp only [«exists», isDir, isFile, List.mem_map, Prod.exists, exists_and_right,
    exists_eq_right]
  constructor
  · rintro ⟨_ | _, h⟩
    exacts [.inl h, .inr h]
  · rintro (h | h)
    exacts [⟨_, h⟩, ⟨_, h⟩]

/-- A path is listed once, so it is not both a directory and a file. -/
theorem not_isFile_of_isDir {p : Path} (hd : t.isDir p) : ¬ t.isFile p := fun hf => by
  cases List.inj_on_of_nodup_map t.nodup hd hf rfl

end FileTree

end Pigweed.Watch
