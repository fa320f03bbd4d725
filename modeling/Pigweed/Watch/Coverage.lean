import Pigweed.Watch.MinimalWatchDirectories
import Mathlib.Data.List.Perm.Basic

/-!
# What the observers of `watch()` see

`watch()` schedules one `Observer` for each pair `(path, rec)` the generator yields. A
directory is observed when it is yielded, with either flag, or lies at or below a path
yielded with `recursive=True`. When every excluded directory lies under `to_watch`, every
directory under `to_watch` that is not excluded, nor below an excluded one, is observed;
no path is yielded twice; and nothing yielded lies strictly below a recursive watch.
Excluded directories stay unobserved only when `to_watch` is not excluded and no excluded
directory lies strictly above another: otherwise the upper one is in
`exclude_dir_parents`, and it is watched.
-/

namespace Pigweed.Watch

open FileTree

/-- Observed by the watchers of `yielded`: yielded with either flag, or at or below a path
yielded with `recursive=True`. -/
def Observed (yielded : List (Path × Bool)) (q : Path) : Prop :=
  (q, false) ∈ yielded ∨ ∃ y ∈ yielded, y.2 = true ∧ y.1 <+: q

/-- An excluded directory, or a path below one. -/
def Excluded (t : FileTree) (toWatch : Path) (toExclude : List PathArg) (q : Path) : Prop :=
  ∃ d ∈ directoriesToExclude t toWatch toExclude, d <+: q

instance (yielded : List (Path × Bool)) (q : Path) : Decidable (Observed yielded q) :=
  inferInstanceAs (Decidable (_ ∨ _))

instance (t : FileTree) (toWatch : Path) (toExclude : List PathArg) (q : Path) :
    Decidable (Excluded t toWatch toExclude q) :=
  inferInstanceAs (Decidable (∃ _ ∈ _, _))

/-- An observer scheduled on `y.1` reports changes to the entry `f`: `y.1` itself (watchdog
turns `IN_ATTRIB` and `IN_DELETE_SELF` on a watched directory into directory events), an
entry directly in `y.1`, or, with `recursive=True`, one anywhere below it. -/
def Delivers (y : Path × Bool) (f : Path) : Prop :=
  f = y.1 ∨ f ≠ [] ∧ if y.2 then y.1 <+: f.dropLast else f.dropLast = y.1

/-- Changes to an entry are reported exactly when it is yielded or its directory is observed. -/
theorem exists_delivers_iff {yielded : List (Path × Bool)} {f : Path} :
    (∃ y ∈ yielded, Delivers y f) ↔ (∃ b, (f, b) ∈ yielded) ∨ f ≠ [] ∧ Observed yielded f.dropLast := by
  constructor
  · rintro ⟨⟨p, b⟩, hy, rfl | ⟨hf, h⟩⟩
    · exact .inl ⟨b, hy⟩
    cases b
    · obtain rfl : f.dropLast = p := h
      exact .inr ⟨hf, .inl hy⟩
    · exact .inr ⟨hf, .inr ⟨_, hy, rfl, h⟩⟩
  · rintro (⟨b, hy⟩ | ⟨hf, h | ⟨⟨p, _ | _⟩, hy, hb, hp⟩⟩)
    · exact ⟨_, hy, .inl rfl⟩
    · exact ⟨_, h, .inr ⟨hf, rfl⟩⟩
    · cases hb
    · exact ⟨_, hy, .inr ⟨hf, hp⟩⟩

section Parents

variable {toWatch x y : Path} {excluded parents : List Path}

theorem ParentsSpec.self_mem (hs : ParentsSpec toWatch excluded parents) : toWatch ∈ parents :=
  (hs.mem_iff _).mpr (.inl rfl)

theorem ParentsSpec.prefix_of_mem (hs : ParentsSpec toWatch excluded parents)
    (hx : x ∈ parents) : toWatch <+: x := by
  rcases (hs.mem_iff x).mp hx with rfl | ⟨h, -⟩
  · exact List.prefix_rfl
  · exact h

theorem ParentsSpec.mem_of_ancestor (hs : ParentsSpec toWatch excluded parents)
    (hx : x ∈ parents) (hy : toWatch <+: y) (hyx : y <+: x) : y ∈ parents := by
  refine (hs.mem_iff y).mpr ?_
  by_cases hyw : y = toWatch
  · exact .inl hyw
  rcases (hs.mem_iff x).mp hx with rfl | ⟨-, -, d, hd, hxd, hne⟩
  · exact absurd (antisymm hyx hy) hyw
  · refine .inr ⟨hy, hyw, d, hd, hyx.trans hxd, ?_⟩
    rintro rfl
    exact hne (antisymm hxd hyx)

theorem ParentsSpec.mem_of_excluded (hs : ParentsSpec toWatch excluded parents)
    {d : Path} (hd : d ∈ excluded) (hy : toWatch <+: y) (hyd : y <+: d) (hne : y ≠ d) :
    y ∈ parents := by
  by_cases hyw : y = toWatch
  · exact (hs.mem_iff y).mpr (.inl hyw)
  · exact (hs.mem_iff y).mpr (.inr ⟨hy, hyw, d, hd, hyd, hne⟩)

theorem ParentsSpec.isDir_of_mem {t : FileTree} (hs : ParentsSpec toWatch excluded parents)
    (hw : t.isDir toWatch) (hE : ∀ d ∈ excluded, t.isDir d) (hx : x ∈ parents) : t.isDir x := by
  rcases (hs.mem_iff x).mp hx with rfl | ⟨-, -, d, hd, hxd, -⟩
  exacts [hw, isDir_of_ancestor (hE d hd) hxd]

end Parents

section Yields

variable {t : FileTree} {toWatch : Path} {excluded parents : List Path}

theorem mem_flatMap_watchBlock {q : Path} {b : Bool} :
    (q, b) ∈ parents.flatMap (watchBlock t parents excluded) ↔
      (b = false ∧ q ∈ parents) ∨
        (b = true ∧ t.isDir q ∧ q ∉ parents ∧ q ∉ excluded ∧ ∃ d ∈ parents, ∃ n, q = d ++ [n]) := by
  simp only [List.mem_flatMap, mem_watchBlock]
  constructor
  · rintro ⟨d, hd, ⟨rfl, rfl⟩ | ⟨rfl, hq, hp, he, n, rfl⟩⟩
    · exact .inl ⟨rfl, hd⟩
    · exact .inr ⟨rfl, hq, hp, he, d, hd, n, rfl⟩
  · rintro (⟨rfl, hq⟩ | ⟨rfl, hq, hp, he, d, hd, n, rfl⟩)
    · exact ⟨q, hq, .inl ⟨rfl, rfl⟩⟩
    · exact ⟨d, hd, .inr ⟨rfl, hq, hp, he, n, rfl⟩⟩

theorem isDir_of_mem_flatMap_watchBlock (hP : ∀ x ∈ parents, t.isDir x) {y : Path × Bool}
    (hy : y ∈ parents.flatMap (watchBlock t parents excluded)) : t.isDir y.1 := by
  obtain ⟨q, b⟩ := y
  rcases mem_flatMap_watchBlock.mp hy with ⟨-, hq⟩ | ⟨-, hq, -⟩
  exacts [hP q hq, hq]

/-- Walking down from a directory of the set towards `q`, the first directory that is not
in the set is watched recursively, unless `q` itself is in the set. -/
theorem observed_of_mem_parents {q : Path} (hq : t.isDir q) (hex : ∀ d ∈ excluded, ¬ d <+: q) :
    ∀ n, ∀ x ∈ parents, x <+: q → q.length - x.length = n →
      Observed (parents.flatMap (watchBlock t parents excluded)) q := by
  intro n
  induction n with
  | zero =>
    intro x hx hxq hn
    rw [hxq.eq_of_length (Nat.le_antisymm hxq.length_le (by omega))] at hx
    exact .inl (mem_flatMap_watchBlock.mpr (.inl ⟨rfl, hx⟩))
  | succ n ih =>
    intro x hx hxq hn
    have hlt : x.length < q.length := by omega
    set c := q.take (x.length + 1) with hc
    have hcx : c = x ++ [q[x.length]] := by
      rw [hc, ← List.take_concat_get q x.length hlt, ← List.prefix_iff_eq_take.mp hxq,
        List.concat_eq_append]
    have hcq : c <+: q := List.take_prefix _ q
    have hclen : c.length = x.length + 1 := by simp [hcx]
    by_cases hcp : c ∈ parents
    · exact ih c hcp hcq (by omega)
    · refine .inr ⟨(c, true), mem_flatMap_watchBlock.mpr (.inr ⟨rfl, isDir_of_ancestor hq hcq,
        hcp, fun hce => hex c hce hcq, x, hx, _, hcx⟩), rfl, hcq⟩

theorem eq_of_below_recursive (hs : ParentsSpec toWatch excluded parents) {p q : Path}
    {b : Bool} (hp : (p, true) ∈ parents.flatMap (watchBlock t parents excluded))
    (hq : (q, b) ∈ parents.flatMap (watchBlock t parents excluded)) (hpq : p <+: q) :
    q = p := by
  obtain ⟨-, -, hpP, -, d, hd, n, rfl⟩ :=
    (mem_flatMap_watchBlock.mp hp).resolve_left (by simp)
  have hw : toWatch <+: d ++ [n] := (hs.prefix_of_mem hd).trans (List.prefix_append _ _)
  rcases mem_flatMap_watchBlock.mp hq with ⟨-, hqP⟩ | ⟨-, -, -, -, d', hd', n', rfl⟩
  · exact absurd (hs.mem_of_ancestor hqP hw hpq) hpP
  · rcases List.prefix_concat_iff.mp hpq with h | h
    · exact h.symm
    · exact absurd (hs.mem_of_ancestor hd' hw h) hpP

theorem mem_map_fst_watchBlock {d z : Path} :
    z ∈ (watchBlock t parents excluded d).map Prod.fst ↔
      z = d ∨ (t.isDir z ∧ z ∉ parents ∧ z ∉ excluded ∧ ∃ n, z = d ++ [n]) := by
  simp only [List.mem_map, Prod.exists, exists_and_right, exists_eq_right, mem_watchBlock]
  constructor
  · rintro ⟨b, ⟨rfl, -⟩ | ⟨-, h⟩⟩
    · exact .inl rfl
    · exact .inr h
  · rintro (rfl | h)
    · exact ⟨false, .inl ⟨rfl, rfl⟩⟩
    · exact ⟨true, .inr ⟨rfl, h⟩⟩

theorem nodup_map_fst_flatMap_watchBlock (hs : ParentsSpec toWatch excluded parents) :
    ((parents.flatMap (watchBlock t parents excluded)).map Prod.fst).Nodup := by
  rw [List.map_flatMap, List.nodup_flatMap]
  refine ⟨fun d hd => ?_, hs.nodup.pairwise_of_forall_ne fun d hd d' hd' hne z hz hz' => ?_⟩
  · simp only [watchBlock, recursiveItems, List.map_cons, List.map_map]
    refine List.nodup_cons.mpr ⟨fun h => ?_, ?_⟩
    · simp only [List.mem_map, List.mem_filter, Function.comp_apply] at h
      obtain ⟨_, ⟨-, h⟩, rfl⟩ := h
      simp only [decide_eq_true_eq] at h
      exact h.2.1 hd
    · simpa [Function.comp_def] using (children_nodup d).filter _
  · rcases mem_map_fst_watchBlock.mp hz with rfl | ⟨-, hzP, -, n, rfl⟩ <;>
      rcases mem_map_fst_watchBlock.mp hz' with rfl | ⟨-, hzP', -, n', h⟩
    · exact hne rfl
    · exact hzP' hd
    · exact hzP hd'
    · exact hne (by simpa using congrArg List.dropLast h)

theorem prefix_of_observed (hs : ParentsSpec toWatch excluded parents) {q : Path}
    (h : Observed (parents.flatMap (watchBlock t parents excluded)) q) : toWatch <+: q := by
  rcases h with h | ⟨⟨p, b⟩, hp, hb, hpq⟩
  · exact hs.prefix_of_mem ((mem_flatMap_watchBlock.mp h).resolve_right (by simp)).2
  · obtain ⟨-, -, -, -, d, hd, n, rfl⟩ :=
      (mem_flatMap_watchBlock.mp hp).resolve_left (by simp_all)
    exact ((hs.prefix_of_mem hd).trans (List.prefix_append _ _)).trans hpq

theorem ParentsSpec.not_mem_of_antichain (hs : ParentsSpec toWatch excluded parents)
    (hroot : toWatch ∉ excluded) (hanti : ∀ d ∈ excluded, ∀ e ∈ excluded, d <+: e → d = e)
    {d : Path} (hd : d ∈ excluded) : d ∉ parents := by
  intro hdP
  rcases (hs.mem_iff d).mp hdP with rfl | ⟨-, -, e, he, hde, hne⟩
  · exact hroot hd
  · exact hne (hanti d hd e he hde)

theorem not_observed_of_excluded (hs : ParentsSpec toWatch excluded parents)
    (hE : ∀ d ∈ excluded, toWatch <+: d) {d q : Path} (hd : d ∈ excluded) (hdP : d ∉ parents)
    (hdq : d <+: q) : ¬ Observed (parents.flatMap (watchBlock t parents excluded)) q := by
  rintro (h | ⟨⟨p, b⟩, hp, hb, hpq⟩)
  · exact hdP (hs.mem_of_ancestor ((mem_flatMap_watchBlock.mp h).resolve_right (by simp)).2
      (hE d hd) hdq)
  · obtain ⟨-, -, hpP, hpE, d', hd', n, rfl⟩ :=
      (mem_flatMap_watchBlock.mp hp).resolve_left (by simp_all)
    rcases List.prefix_or_prefix_of_prefix hpq hdq with h | h
    · refine hpP (hs.mem_of_excluded hd ((hs.prefix_of_mem hd').trans
        (List.prefix_append _ _)) h ?_)
      rintro rfl
      exact hpE hd
    · rcases List.prefix_concat_iff.mp h with rfl | h
      · exact hpE hd
      · exact hdP (hs.mem_of_ancestor hd' (hE d hd) h)

theorem observed_iff_of_antichain (hs : ParentsSpec toWatch excluded parents)
    (hE : ∀ d ∈ excluded, toWatch <+: d) (hroot : toWatch ∉ excluded)
    (hanti : ∀ d ∈ excluded, ∀ e ∈ excluded, d <+: e → d = e) {q : Path} (hq : t.isDir q) :
    Observed (parents.flatMap (watchBlock t parents excluded)) q ↔
      toWatch <+: q ∧ ∀ d ∈ excluded, ¬ d <+: q :=
  ⟨fun ho => ⟨prefix_of_observed hs ho, fun _ hd hdq => not_observed_of_excluded hs hE hd
      (hs.not_mem_of_antichain hroot hanti hd) hdq ho⟩,
    fun ⟨hwq, hex⟩ => observed_of_mem_parents hq hex _ toWatch hs.self_mem hwq rfl⟩

/-- Two yielded pairs that report the same change are the same pair, unless the entry is the
path of one of them. -/
theorem eq_of_delivers (hs : ParentsSpec toWatch excluded parents) {y y' : Path × Bool}
    {f : Path} (hy : y ∈ parents.flatMap (watchBlock t parents excluded))
    (hy' : y' ∈ parents.flatMap (watchBlock t parents excluded))
    (h : Delivers y f) (h' : Delivers y' f) : y = y' ∨ f = y.1 ∨ f = y'.1 := by
  obtain h | ⟨-, hf⟩ := h
  · exact .inr (.inl h)
  obtain h' | ⟨-, hf'⟩ := h'
  · exact .inr (.inr h')
  refine .inl ?_
  have hfst := List.inj_on_of_nodup_map (nodup_map_fst_flatMap_watchBlock hs) hy hy'
  obtain ⟨p, _ | _⟩ := y <;> obtain ⟨p', _ | _⟩ := y'
  · exact hfst ((hf : f.dropLast = p).symm.trans hf')
  · exact hfst (eq_of_below_recursive hs hy' hy ((hf : f.dropLast = p) ▸ hf'))
  · have hf' : f.dropLast = p' := hf'
    exact hfst (eq_of_below_recursive hs hy hy' (hf' ▸ hf)).symm
  · rcases List.prefix_or_prefix_of_prefix hf hf' with hpp | hpp
    · exact hfst (eq_of_below_recursive hs hy hy' hpp).symm
    · exact hfst (eq_of_below_recursive hs hy' hy hpp)

variable (t) in
/-- Python iterates the set `exclude_dir_parents` in hash order: every order of a set of
directories gives the same pairs, permuted. -/
theorem watchLoop_perm {ds ds' : List Path} (h : ∀ d ∈ ds, t.isDir d) (hp : ds.Perm ds') :
    (watchLoop t parents excluded ds').raised = none ∧
      (watchLoop t parents excluded ds).yielded.Perm (watchLoop t parents excluded ds').yielded := by
  rw [watchLoop_of_isDir h, watchLoop_of_isDir fun d hd => h d (hp.mem_iff.mpr hd)]
  exact ⟨rfl, hp.flatMap_right _⟩

end Yields

/-- `<root>` with a build directory `out` holding `cmake` and `gn`, and a source directory. -/
def outTree : FileTree where
  entries := [([], .directory), (["root"], .directory), (["root", "out"], .directory),
    (["root", "out", "cmake"], .directory), (["root", "out", "gn"], .directory),
    (["root", "src"], .directory), (["root", "src", "main.cc"], .file)]
  nodup := by decide
  parent_isDir := by decide

theorem watchLoop_perm_outTree :
    (∀ d ∈ [["root"], ["root", "out"]], outTree.isDir d) ∧
      [["root"], ["root", "out"]].Perm [["root", "out"], ["root"]] ∧
      (watchLoop outTree [["root"], ["root", "out"]] [["root", "out", "cmake"]]
        [["root", "out"], ["root"]]).raised = none ∧
      (watchLoop outTree [["root"], ["root", "out"]] [["root", "out", "cmake"]]
        [["root"], ["root", "out"]]).yielded.Perm (watchLoop outTree [["root"], ["root", "out"]]
          [["root", "out", "cmake"]] [["root", "out"], ["root"]]).yielded :=
  ⟨by decide, by decide, watchLoop_perm outTree (by decide) (by decide)⟩

/-! The theorems below take `to_watch` to be a directory and every excluded directory to
lie under it. -/

section UnderToWatch

variable (t : FileTree) (toWatch : Path) (toExclude : List PathArg)

/-- Every directory under `to_watch` that is neither excluded nor below an excluded
directory is observed, and the generator raises nothing. -/
theorem minimalWatchDirectories_observes_unexcluded (hw : t.isDir toWatch)
    (hE : ∀ d ∈ directoriesToExclude t toWatch toExclude, toWatch <+: d) :
    (minimalWatchDirectories t toWatch toExclude).raised = none ∧
      ∀ q, t.isDir q → toWatch <+: q → ¬ Excluded t toWatch toExclude q →
        Observed (minimalWatchDirectories t toWatch toExclude).yielded q := by
  obtain ⟨parents, hs, heq⟩ := minimalWatchDirectories_spec hw hE
  rw [heq]
  exact ⟨rfl, fun q hq hwq hex => observed_of_mem_parents hq
    (fun d hd hdq => hex ⟨d, hd, hdq⟩) _ toWatch hs.self_mem hwq rfl⟩

theorem minimalWatchDirectories_observes_unexcluded_out :
    outTree.isDir ["root"] ∧
      (∀ d ∈ directoriesToExclude outTree ["root"]
        [.absolute ["root", "out"], .absolute ["root", "out", "cmake"]], ["root"] <+: d) ∧
      (minimalWatchDirectories outTree ["root"]
        [.absolute ["root", "out"], .absolute ["root", "out", "cmake"]]).raised = none ∧
      ∀ q, outTree.isDir q → ["root"] <+: q → ¬ Excluded outTree ["root"]
          [.absolute ["root", "out"], .absolute ["root", "out", "cmake"]] q →
        Observed (minimalWatchDirectories outTree ["root"]
          [.absolute ["root", "out"], .absolute ["root", "out", "cmake"]]).yielded q :=
  ⟨by decide, by decide,
    minimalWatchDirectories_observes_unexcluded outTree ["root"] _ (by decide) (by decide)⟩

/-- Two different observers that `watch()` schedules report the same change only when the
entry is the watched path of one of them; so each change to a file is reported once. -/
theorem minimalWatchDirectories_delivers_unique (hw : t.isDir toWatch)
    (hE : ∀ d ∈ directoriesToExclude t toWatch toExclude, toWatch <+: d) (f : Path) :
    (∀ y ∈ (minimalWatchDirectories t toWatch toExclude).yielded,
      ∀ y' ∈ (minimalWatchDirectories t toWatch toExclude).yielded,
        Delivers y f → Delivers y' f → y ≠ y' → f = y.1 ∨ f = y'.1) ∧
      (t.isFile f → ∀ y ∈ (minimalWatchDirectories t toWatch toExclude).yielded,
        ∀ y' ∈ (minimalWatchDirectories t toWatch toExclude).yielded,
          Delivers y f → Delivers y' f → y = y') := by
  obtain ⟨parents, hs, heq⟩ := minimalWatchDirectories_spec hw hE
  rw [heq]
  have hdir : ∀ y ∈ parents.flatMap (watchBlock t parents
      (directoriesToExclude t toWatch toExclude)), t.isDir y.1 :=
    fun _ => isDir_of_mem_flatMap_watchBlock fun _ => hs.isDir_of_mem hw
      fun _ hd => (mem_directoriesToExclude.mp hd).1
  refine ⟨fun y hy y' hy' h h' hne => (eq_of_delivers hs hy hy' h h').resolve_left hne,
    fun hf y hy y' hy' h h' => ?_⟩
  rcases eq_of_delivers hs hy hy' h h' with heq | rfl | rfl
  · exact heq
  · exact absurd hf (not_isFile_of_isDir (hdir y hy))
  · exact absurd hf (not_isFile_of_isDir (hdir y' hy'))

theorem minimalWatchDirectories_delivers_unique_main :
    outTree.isDir ["root"] ∧
      (∀ d ∈ directoriesToExclude outTree ["root"]
        [.absolute ["root", "out"], .absolute ["root", "out", "cmake"]], ["root"] <+: d) ∧
      (∀ y ∈ (minimalWatchDirectories outTree ["root"]
          [.absolute ["root", "out"], .absolute ["root", "out", "cmake"]]).yielded,
        ∀ y' ∈ (minimalWatchDirectories outTree ["root"]
          [.absolute ["root", "out"], .absolute ["root", "out", "cmake"]]).yielded,
          Delivers y ["root", "src"] → Delivers y' ["root", "src"] → y ≠ y' →
            ["root", "src"] = y.1 ∨ ["root", "src"] = y'.1) ∧
      (outTree.isFile ["root", "src", "main.cc"] →
        ∀ y ∈ (minimalWatchDirectories outTree ["root"]
          [.absolute ["root", "out"], .absolute ["root", "out", "cmake"]]).yielded,
        ∀ y' ∈ (minimalWatchDirectories outTree ["root"]
          [.absolute ["root", "out"], .absolute ["root", "out", "cmake"]]).yielded,
          Delivers y ["root", "src", "main.cc"] → Delivers y' ["root", "src", "main.cc"] →
            y = y') :=
  ⟨by decide, by decide, (minimalWatchDirectories_delivers_unique outTree ["root"] _ (by decide)
    (by decide) ["root", "src"]).1, (minimalWatchDirectories_delivers_unique outTree ["root"] _
    (by decide) (by decide) ["root", "src", "main.cc"]).2⟩

/-- The watch regions are disjoint: no path is yielded twice, and nothing yielded lies
strictly below a path yielded with `recursive=True`. -/
theorem minimalWatchDirectories_disjoint (hw : t.isDir toWatch)
    (hE : ∀ d ∈ directoriesToExclude t toWatch toExclude, toWatch <+: d) :
    (minimalWatchDirectories t toWatch toExclude).raised = none ∧
      ((minimalWatchDirectories t toWatch toExclude).yielded.map Prod.fst).Nodup ∧
      ∀ p q b, (p, true) ∈ (minimalWatchDirectories t toWatch toExclude).yielded →
        (q, b) ∈ (minimalWatchDirectories t toWatch toExclude).yielded → p <+: q → q = p := by
  obtain ⟨parents, hs, heq⟩ := minimalWatchDirectories_spec hw hE
  rw [heq]
  exact ⟨rfl, nodup_map_fst_flatMap_watchBlock hs,
    fun _ _ _ hp hq hpq => eq_of_below_recursive hs hp hq hpq⟩

theorem minimalWatchDirectories_disjoint_out :
    outTree.isDir ["root"] ∧
      (∀ d ∈ directoriesToExclude outTree ["root"]
        [.absolute ["root", "out"], .absolute ["root", "out", "cmake"], .relative ["out", "cmake"]],
        ["root"] <+: d) ∧
      (minimalWatchDirectories outTree ["root"]
        [.absolute ["root", "out"], .absolute ["root", "out", "cmake"],
          .relative ["out", "cmake"]]).raised = none ∧
      ((minimalWatchDirectories outTree ["root"]
        [.absolute ["root", "out"], .absolute ["root", "out", "cmake"],
          .relative ["out", "cmake"]]).yielded.map Prod.fst).Nodup ∧
      ∀ p q b, (p, true) ∈ (minimalWatchDirectories outTree ["root"]
          [.absolute ["root", "out"], .absolute ["root", "out", "cmake"],
            .relative ["out", "cmake"]]).yielded →
        (q, b) ∈ (minimalWatchDirectories outTree ["root"]
          [.absolute ["root", "out"], .absolute ["root", "out", "cmake"],
            .relative ["out", "cmake"]]).yielded →
          p <+: q → q = p :=
  ⟨by decide, by decide, minimalWatchDirectories_disjoint outTree ["root"] _ (by decide) (by decide)⟩

/-- The paths watched without recursion are `to_watch` and every directory strictly between
`to_watch` and an excluded directory; an excluded directory among them is watched. -/
theorem minimalWatchDirectories_nonrecursive_iff (hw : t.isDir toWatch)
    (hE : ∀ d ∈ directoriesToExclude t toWatch toExclude, toWatch <+: d) (q : Path) :
    (q, false) ∈ (minimalWatchDirectories t toWatch toExclude).yielded ↔
      q = toWatch ∨ (toWatch <+: q ∧ q ≠ toWatch ∧
        ∃ d ∈ directoriesToExclude t toWatch toExclude, q <+: d ∧ q ≠ d) := by
  obtain ⟨parents, hs, heq⟩ := minimalWatchDirectories_spec hw hE
  rw [heq, mem_flatMap_watchBlock, ← hs.mem_iff]
  simp

theorem minimalWatchDirectories_nonrecursive_iff_out :
    outTree.isDir ["root"] ∧
      (∀ d ∈ directoriesToExclude outTree ["root"]
        [.absolute ["root", "out"], .absolute ["root", "out", "cmake"]], ["root"] <+: d) ∧
      ((["root", "out"], false) ∈ (minimalWatchDirectories outTree ["root"]
          [.absolute ["root", "out"], .absolute ["root", "out", "cmake"]]).yielded ↔
        ["root", "out"] = ["root"] ∨ (["root"] <+: ["root", "out"] ∧ ["root", "out"] ≠ ["root"] ∧
          ∃ d ∈ directoriesToExclude outTree ["root"]
            [.absolute ["root", "out"], .absolute ["root", "out", "cmake"]],
            ["root", "out"] <+: d ∧ ["root", "out"] ≠ d)) :=
  ⟨by decide, by decide, minimalWatchDirectories_nonrecursive_iff outTree ["root"] _
    (by decide) (by decide) _⟩

/-- The generator raises exactly when an excluded directory lies outside `to_watch`. -/
theorem minimalWatchDirectories_raised_iff (hw : t.isDir toWatch) :
    (minimalWatchDirectories t toWatch toExclude).raised = none ↔
      ∀ d ∈ directoriesToExclude t toWatch toExclude, toWatch <+: d := by
  refine ⟨fun hr => ?_, minimalWatchDirectories_raised_none hw⟩
  by_contra hE
  push_neg at hE
  obtain ⟨d, -, -, heq⟩ := minimalWatchDirectories_of_not_under hE
  simp [heq] at hr

theorem minimalWatchDirectories_raised_iff_out :
    outTree.isDir ["root", "src"] ∧
      ((minimalWatchDirectories outTree ["root", "src"] [.absolute ["root", "out"]]).raised = none ↔
        ∀ d ∈ directoriesToExclude outTree ["root", "src"] [.absolute ["root", "out"]],
          ["root", "src"] <+: d) :=
  ⟨by decide, minimalWatchDirectories_raised_iff outTree ["root", "src"] _ (by decide)⟩

/-- When `to_watch` is not excluded and no excluded directory lies strictly above another,
a directory is observed exactly when it lies under `to_watch` and is not excluded. -/
theorem minimalWatchDirectories_observed_iff (hw : t.isDir toWatch)
    (hE : ∀ d ∈ directoriesToExclude t toWatch toExclude, toWatch <+: d)
    (hroot : toWatch ∉ directoriesToExclude t toWatch toExclude)
    (hanti : ∀ d ∈ directoriesToExclude t toWatch toExclude,
      ∀ e ∈ directoriesToExclude t toWatch toExclude, d <+: e → d = e) :
    (minimalWatchDirectories t toWatch toExclude).raised = none ∧
      ∀ q, t.isDir q → (Observed (minimalWatchDirectories t toWatch toExclude).yielded q ↔
        toWatch <+: q ∧ ¬ Excluded t toWatch toExclude q) := by
  obtain ⟨parents, hs, heq⟩ := minimalWatchDirectories_spec hw hE
  rw [heq]
  exact ⟨rfl, fun q hq => (observed_iff_of_antichain hs hE hroot hanti hq).trans
    (and_congr_right fun _ => by simp [Excluded])⟩

theorem minimalWatchDirectories_observed_iff_out :
    outTree.isDir ["root"] ∧
      (∀ d ∈ directoriesToExclude outTree ["root"] [.relative ["out"]], ["root"] <+: d) ∧
      ["root"] ∉ directoriesToExclude outTree ["root"] [.relative ["out"]] ∧
      (∀ d ∈ directoriesToExclude outTree ["root"] [.relative ["out"]],
        ∀ e ∈ directoriesToExclude outTree ["root"] [.relative ["out"]], d <+: e → d = e) ∧
      (minimalWatchDirectories outTree ["root"] [.relative ["out"]]).raised = none ∧
      ∀ q, outTree.isDir q →
        (Observed (minimalWatchDirectories outTree ["root"] [.relative ["out"]]).yielded q ↔
          ["root"] <+: q ∧ ¬ Excluded outTree ["root"] [.relative ["out"]] q) :=
  ⟨by decide, by decide, by decide, by decide,
    minimalWatchDirectories_observed_iff outTree ["root"] _ (by decide) (by decide) (by decide)
      (by decide)⟩

/-- With `<root>/out` and the build directory `<root>/out/cmake` both excluded, `<root>/out`
is in `exclude_dir_parents`: it is watched without recursion, and `<root>/out/gn`, below an
excluded directory, recursively. -/
theorem minimalWatchDirectories_nested :
    (minimalWatchDirectories outTree ["root"]
        [.absolute ["root", "out"], .absolute ["root", "out", "cmake"]]).yielded =
      [(["root", "out"], false), (["root", "out", "gn"], true), (["root"], false),
        (["root", "src"], true)] ∧
    Excluded outTree ["root"] [.absolute ["root", "out"], .absolute ["root", "out", "cmake"]]
      ["root", "out", "gn"] ∧
    Observed (minimalWatchDirectories outTree ["root"]
      [.absolute ["root", "out"], .absolute ["root", "out", "cmake"]]).yielded
      ["root", "out", "gn"] := by
  decide

end UnderToWatch

end Pigweed.Watch
