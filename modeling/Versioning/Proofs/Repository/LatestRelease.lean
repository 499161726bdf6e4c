import Versioning.Proofs.History.Paging
import Versioning.Proofs.Repository.Walk
import Versioning.Repository.Log

/-!
# The latest release of a repository

The change log of a repository gives commits in the order of a walk, and the history
since the latest release is cut off at the first commit that names a version
(`LatestRelease`). What comes before that commit in the walk is collected, which is not
the same as what is not part of the release: a commit on a branch that was merged
after the release, but is older than it, is given after it and left out
(`side_branch_not_collected`). A descendant of the release is always collected, and so is a
commit that is, like all of its descendants, newer than the release
(`exists_latestRelease_collecting`).
-/

namespace Versioning

open CommitHistory

/-- The commits of an order that are seen from a directory. -/
def CommitGraph.seen (g : CommitGraph) (directory? : Option FilePath) (order : List Nat) :
    List Nat :=
  order.filter (g.concerns directory?)

theorem CommitGraph.seen_none (g : CommitGraph) (order : List Nat) : g.seen none order = order :=
  List.filter_eq_self.2 fun _ _ => rfl

/-- A history is made of the commits that are seen. -/
theorem CommitGraph.historyOf_eq_map_seen (g : CommitGraph) (order : List Nat)
    (directory? : Option FilePath) :
    g.historyOf order directory? = (g.seen directory? order).map g.changeSet := by
  cases directory? with
  | none => rw [seen_none, historyOf]
  | some directory => rfl

/-- A page is the beginning of the history. -/
theorem CommitGraph.page_eq_take (g : CommitGraph) (directory? : Option FilePath) (limit : Nat)
    (order : List Nat) :
    g.page directory? limit order = (g.historyOf order directory?).take limit := by
  rw [historyOf_eq_map_seen]
  induction order generalizing limit with
  | nil => cases limit <;> rfl
  | cons i order ih =>
    cases limit with
    | zero => rfl
    | succ limit =>
      rw [page, seen, List.filter_cons]
      split
      · rw [List.map_cons, List.take_succ_cons, ih, seen]
      · rw [ih, seen]

/-- The latest release in an order of commits: it names one version, and the commits before it name
    none. -/
structure CommitGraph.LatestRelease (g : CommitGraph) (rules : Rules) (order before : List Nat)
    (release : Nat) (version : String) : Prop where
  split : ∃ after, order = before ++ release :: after
  names : versionsOf rules (g.changeSet release) = [version]
  none_before : ∀ i ∈ before, versionsOf rules (g.changeSet i) = []

namespace Repository

variable {walk : CommitGraph → Nat → List Nat} {repository : Repository} {tree : FileTree}
  {directory : Place} {path : String}

/-- The root of the working tree stands for the whole history. -/
theorem pathOf?_root (h : tree.resolve directory path = .ok repository.root) :
    repository.pathOf? tree directory path = none := by
  simp [pathOf?, h]

/-- The change log serves the history of the head, seen from a directory. -/
theorem serves_logBy {head : Nat} (h : repository.head? = some head) :
    (repository.logBy walk tree directory).Serves path
      (repository.graph.historyOf (walk repository.graph head)
        (repository.pathOf? tree directory path)) := by
  intro asked limit
  simp only [logBy, h, CommitGraph.page_eq_take]

variable {rules : Rules} {limits : MiningLimits} {j : Journal}

/-- Without a head there is no history to speak of. -/
theorem exists_head_of_mine {found : CommitHistory}
    (h : ((mine (repository.logBy walk tree directory) path rules limits).run j).1 = .ok found) :
    ∃ head, repository.head? = some head := by
  cases hhead : repository.head? with
  | some head => exact ⟨head, rfl⟩
  | none =>
    rw [mine, run_mineFrom_succ] at h
    simp only [logBy, hhead] at h
    cases h

/-- A version that is found in a directory is that of the latest release that is seen from there,
    and the changes are those of the commits that are seen and given before it. -/
theorem exists_latestRelease_seen {changes : List String} {version : String}
    (hmine : ((mine (repository.logBy walk tree directory) path rules limits).run j).1 =
      .ok ⟨changes, some version⟩) :
    ∃ head before release, repository.head? = some head ∧
      repository.graph.LatestRelease rules
        (repository.graph.seen (repository.pathOf? tree directory path)
          (walk repository.graph head)) before release version ∧
      changes = before.map fun i => (repository.graph.changeSet i).message := by
  obtain ⟨head, hhead⟩ := exists_head_of_mine hmine
  obtain ⟨n, hn⟩ := exists_outcome_of_mineFrom (serves_logBy hhead) hmine
  obtain ⟨newer, change, older, hpage, hnewer, hchange, rfl⟩ := exists_of_outcome_tagged hn
  generalize horder : repository.graph.seen (repository.pathOf? tree directory path)
    (walk repository.graph head) = order
  rw [CommitGraph.historyOf_eq_map_seen, horder, ← List.map_take, List.map_eq_append_iff] at hpage
  obtain ⟨before, rest, htake, rfl, hrest⟩ := hpage
  obtain ⟨release, after, rfl, rfl, -⟩ := List.map_eq_cons_iff.1 hrest
  refine ⟨head, before, release, hhead, horder ▸ ⟨⟨after ++ order.drop n, ?_⟩, hchange,
    fun i hi => hnewer _ (List.mem_map_of_mem hi)⟩, by simp⟩
  calc
    order = order.take n ++ order.drop n := (List.take_append_drop n order).symm
    _ = before ++ release :: (after ++ order.drop n) := by simp [htake]

/-- From the root of a repository all commits are seen. -/
theorem exists_latestRelease_of_mine {changes : List String} {version : String}
    (hroot : repository.pathOf? tree directory path = none)
    (hmine : ((mine (repository.logBy walk tree directory) path rules limits).run j).1 =
      .ok ⟨changes, some version⟩) :
    ∃ head before release, repository.head? = some head ∧
      repository.graph.LatestRelease rules (walk repository.graph head) before release version ∧
      changes = before.map fun i => (repository.graph.changeSet i).message := by
  simpa only [hroot, CommitGraph.seen_none] using exists_latestRelease_seen hmine

/-- The commits since the latest release, found at the root of a repository: they are those given
    before the release. Every descendant of the release is one of them, and so is every commit of
    the history that overtakes it. If no commit is older than its parents, all commits that are
    newer than the release are collected, and none that is older. -/
theorem exists_latestRelease_collecting
    (hwalk : ∀ (g : CommitGraph) (head : Nat), g.IsWalk head (walk g head))
    {changes : List String} {version : String}
    (hroot : tree.resolve directory path = .ok repository.root)
    (hmine : ((mine (repository.logBy walk tree directory) path rules limits).run j).1 =
      .ok ⟨changes, some version⟩) :
    ∃ head before release, repository.head? = some head ∧
      repository.graph.LatestRelease rules (walk repository.graph head) before release version ∧
      changes = before.map (fun i => (repository.graph.changeSet i).message) ∧
      (∀ x, repository.graph.Reaches head x → x ≠ release → repository.graph.Reaches x release →
        x ∈ before) ∧
      (∀ x, repository.graph.Reaches head x → repository.graph.Overtakes head x release →
        x ∈ before) ∧
      ((∀ i, ∀ p ∈ repository.graph.parents i, repository.graph.time p ≤ repository.graph.time i) →
        ∀ x, repository.graph.Reaches head x →
          (repository.graph.time release < repository.graph.time x → x ∈ before) ∧
          (x ∈ before → repository.graph.time release ≤ repository.graph.time x)) := by
  obtain ⟨head, before, release, hhead, hlatest, hchanges⟩ :=
    exists_latestRelease_of_mine (pathOf?_root hroot) hmine
  obtain ⟨after, horder⟩ := hlatest.split
  have hw := hwalk repository.graph head
  have hrelease := (hw.ready before release after horder).reaches
  refine ⟨head, before, release, hhead, hlatest, hchanges,
    fun x hx hne hxr => hw.mem_before_of_reaches horder hx hxr hne,
    fun x hx hover => hw.mem_before_of_overtakes horder hx hover,
    fun htime x hx => ⟨fun hlt => ?_, fun hxb => hw.time_le_of_mem_before htime horder hxb⟩⟩
  exact hw.mem_before_of_overtakes horder hx (CommitGraph.overtakes_of_time_lt htime hrelease hlt)

/-! ## A merged side branch -/

/-- Work on a side branch, a release beside it, and a merge of the two. -/
def sideBranch : Repository where
  graph := ((((CommitGraph.empty.add (some "Initial commit") [(["README.md"], some "0")] [] 0).add
    (some "feat: side") [(["side.txt"], some "1")] [0] 60).add
    (some "release") [(["README.md"], some "1")] [0] 120).addTag "1.0" (.commit 2)).add
    (some "merge") [(["side.txt"], some "1")] [2, 1] 180
  head? := some 3
  root := ["work"]
  bare := false

/-- The directory of the repository, and nothing else. -/
def workTree : FileTree :=
  FileTree.empty.addDirectory ["work"]

theorem history_sideBranch :
    sideBranch.graph.historyOf (sideBranch.graph.walk 3)
        (sideBranch.pathOf? workTree ["work"] ".") =
      [⟨"merge", []⟩, ⟨"release", ["1.0"]⟩, ⟨"feat: side", []⟩, ⟨"Initial commit", []⟩] := by
  decide +kernel

theorem mine_sideBranch :
    ((mine (sideBranch.log workTree ["work"]) "." .builtin .default).run .empty).1 =
      .ok ⟨["merge"], some "1.0"⟩ := by
  have hserves : (sideBranch.log workTree ["work"]).Serves "." _ := serves_logBy rfl
  rw [history_sideBranch] at hserves
  refine (mine_eq_outcome hserves (by decide) _).trans (sinceRelease_iff.1 ?_).symm
  exact .tagged [⟨"merge", []⟩] _ _ (by decide +kernel) (by decide +kernel)

/-- The side branch is part of the history, but not of the release; still, what happened there is
    not among the changes since the release. -/
theorem side_branch_not_collected :
    workTree.resolve ["work"] "." = .ok sideBranch.root ∧
      versionsOf .builtin (sideBranch.graph.changeSet 2) = ["1.0"] ∧
      sideBranch.graph.Reaches 3 1 ∧ ¬sideBranch.graph.Reaches 2 1 ∧
      ∃ changes, ((mine (sideBranch.log workTree ["work"]) "." .builtin .default).run .empty).1 =
        .ok ⟨changes, some "1.0"⟩ ∧ (sideBranch.graph.changeSet 1).message ∉ changes :=
  ⟨rfl, by decide +kernel, by decide +kernel, by decide +kernel, _, mine_sideBranch,
    by decide +kernel⟩

/-- The merge is newer than the release, and is collected. -/
theorem merge_of_side_branch_collected :
    workTree.resolve ["work"] "." = .ok sideBranch.root ∧
      ((mine (sideBranch.log workTree ["work"]) "." .builtin .default).run .empty).1 =
        .ok ⟨["merge"], some "1.0"⟩ ∧
      ∃ before, sideBranch.graph.LatestRelease .builtin (sideBranch.graph.walk 3) before 2 "1.0" ∧
        3 ∈ before := by
  obtain ⟨head, before, release, hhead, hlatest, -, hdescendants, -⟩ :=
    exists_latestRelease_collecting CommitGraph.isWalk_walk rfl mine_sideBranch
  cases hhead
  obtain ⟨after, horder⟩ := hlatest.split
  have hwalk : sideBranch.graph.walk 3 = [3, 2, 1, 0] := by decide +kernel
  have hrelease : ∀ i ∈ [3, 2, 1, 0],
      versionsOf .builtin (sideBranch.graph.changeSet i) = ["1.0"] → i = 2 := by decide +kernel
  obtain rfl : release = 2 := hrelease release (by simp [← hwalk, horder]) hlatest.names
  exact ⟨rfl, mine_sideBranch, before, hlatest,
    hdescendants 3 .refl (by decide) (by decide +kernel)⟩

end Repository

end Versioning
