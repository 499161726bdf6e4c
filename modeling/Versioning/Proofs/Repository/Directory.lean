import Versioning.Proofs.Repository.LatestRelease

/-!
# Histories of directories

From a directory only the commits that changed it are seen, in the order of the walk, with
their tags. Whatever directory a history is looked at from, nothing that belongs to the
release is collected again, and no commit is collected twice
(`Repository.exists_latestRelease_unreleased`).

A tag on a commit that did not change the directory is not seen from there. So a
directory has the release of the whole repository only if the tagged commit changed it, or if
the next older one that did names the same version; otherwise the search goes on behind
the release (`Repository.exists_latestRelease_directory`), and changes that were released
are collected with those that were not (`Repository.release_not_seen_from_core`).
-/

namespace Versioning

open CommitHistory

/-- The history that two parts of an order make up. -/
theorem CommitGraph.historyOf_append (g : CommitGraph) (newer older : List Nat)
    (directory? : Option FilePath) :
    g.historyOf (newer ++ older) directory? =
      (g.seen directory? newer).map g.changeSet ++ g.historyOf older directory? := by
  simp only [historyOf_eq_map_seen, seen, List.filter_append, List.map_append]

namespace Repository

variable {walk : CommitGraph → Nat → List Nat} {repository : Repository} {tree : FileTree}
  {directory : Place} {path : String} {rules : Rules} {limits : MiningLimits}
  {changes : List String} {version : String} {j : Journal}

/-- The changes since the latest release that is seen from a directory come from different commits,
    none of which is the release or one of its ancestors. Nothing is assumed about the walk but
    that commits are given once, after all of their children. -/
theorem exists_latestRelease_unreleased
    (hwalk : ∀ (g : CommitGraph) (head : Nat), g.IsListing head (walk g head))
    (hmine : ((mine (repository.logBy walk tree directory) path rules limits).run j).1 =
      .ok ⟨changes, some version⟩) :
    ∃ head before release, repository.head? = some head ∧
      repository.graph.LatestRelease rules
        (repository.graph.seen (repository.pathOf? tree directory path)
          (walk repository.graph head)) before release version ∧
      changes = before.map (fun i => (repository.graph.changeSet i).message) ∧
      (∀ i ∈ before, ¬repository.graph.Reaches release i) ∧ before.Nodup := by
  obtain ⟨head, before, release, hhead, hlatest, hchanges⟩ := exists_latestRelease_seen hmine
  obtain ⟨after, hseen⟩ := hlatest.split
  have hlisting := hwalk repository.graph head
  refine ⟨head, before, release, hhead, hlatest, hchanges, fun i hi => ?_, ?_⟩
  · -- In the whole walk the commit is given before the release, too.
    rw [CommitGraph.seen, List.filter_eq_append_iff] at hseen
    obtain ⟨newer, older, horder, rfl, holder⟩ := hseen
    obtain ⟨unseen, after', rfl, -, -, -⟩ := List.filter_eq_cons_iff.1 holder
    have hwhole : walk repository.graph head = (newer ++ unseen) ++ release :: after' := by
      simp [horder]
    exact hlisting.not_reaches_of_mem_before hwhole
      (List.mem_append_left _ (List.mem_filter.1 hi).1)
  · have hnodup := hlisting.nodup.filter
      (repository.graph.concerns (repository.pathOf? tree directory path))
    rw [← CommitGraph.seen, hseen] at hnodup
    exact (List.nodup_append.1 hnodup).1

/-- Work on one directory, a release that changes another one, and work on both. -/
def coreAndWeb : Repository where
  graph := ((((CommitGraph.empty.add (some "feat(core): search") [(["core", "lib.txt"], some "0")]
    [] 0).add (some "release") [(["README.md"], some "1"), (["web", "app.txt"], some "0")] [0]
    60).addTag "1.0" (.commit 1)).add (some "feat(web): page") [(["web", "app.txt"], some "1")]
    [1] 120).add (some "fix(core): typo") [(["core", "lib.txt"], some "1")] [2] 180
  head? := some 3
  root := ["work"]
  bare := false

/-- The working tree, with its two directories. -/
def coreAndWebTree : FileTree :=
  (FileTree.empty.addDirectory ["work", "core"]).addDirectory ["work", "web"]

/-- What is found in a directory of this repository is the outcome of its whole history. -/
theorem mine_coreAndWeb {path : String}
    (hlength : (coreAndWeb.graph.historyOf (coreAndWeb.graph.walk 3)
      (coreAndWeb.pathOf? coreAndWebTree ["work"] path)).length < 10) :
    ((mine (coreAndWeb.log coreAndWebTree ["work"]) path .builtin .default).run .empty).1 =
      outcome .builtin (coreAndWeb.graph.historyOf (coreAndWeb.graph.walk 3)
        (coreAndWeb.pathOf? coreAndWebTree ["work"] path)) := by
  have hserves : (coreAndWeb.log coreAndWebTree ["work"]).Serves path _ := serves_logBy rfl
  have hroom : 10 + step .default < wordLimit := by decide
  rw [mine_eq_outcome hserves (by omega)]
  exact congrArg _ List.take_length

theorem mine_coreAndWeb_root :
    ((mine (coreAndWeb.log coreAndWebTree ["work"]) "." .builtin .default).run .empty).1 =
      .ok ⟨["fix(core): typo", "feat(web): page"], some "1.0"⟩ :=
  (mine_coreAndWeb (by decide +kernel)).trans (by decide +kernel)

theorem mine_coreAndWeb_web :
    ((mine (coreAndWeb.log coreAndWebTree ["work"]) "web" .builtin .default).run .empty).1 =
      .ok ⟨["feat(web): page"], some "1.0"⟩ :=
  (mine_coreAndWeb (by decide +kernel)).trans (by decide +kernel)

/-- From one of the directories the release is seen, and only the change since then. -/
theorem web_changes_unreleased :
    ((mine (coreAndWeb.log coreAndWebTree ["work"]) "web" .builtin .default).run .empty).1 =
        .ok ⟨["feat(web): page"], some "1.0"⟩ ∧
      ∃ (before : List Nat) (release : Nat),
        versionsOf .builtin (coreAndWeb.graph.changeSet release) = ["1.0"] ∧
        ["feat(web): page"] = before.map (fun i => (coreAndWeb.graph.changeSet i).message) ∧
        (∀ i ∈ before, ¬coreAndWeb.graph.Reaches release i) ∧ before.Nodup := by
  obtain ⟨head, before, release, -, hlatest, hchanges, hunreleased, hnodup⟩ :=
    exists_latestRelease_unreleased
      (fun g head => (CommitGraph.isWalk_walk g head).toIsListing) mine_coreAndWeb_web
  exact ⟨mine_coreAndWeb_web, before, release, hlatest.names, hchanges, hunreleased, hnodup⟩

/-! ## The release of the whole repository -/

/-- When the latest release of the whole repository is at some commit, what is found in a directory
    is what is found there from that commit on, with the commits before it that are seen. -/
theorem mine_eq_outcome_from_release {head release : Nat} {before after : List Nat}
    (hhead : repository.head? = some head) (hcap : limits.maxCommits? = none)
    (horder : walk repository.graph head = before ++ release :: after)
    (hbefore : ∀ i ∈ before, versionsOf rules (repository.graph.changeSet i) = [])
    (hlimits : ((mine (repository.logBy walk tree directory) path rules limits).run j).1 ≠
      .error .overflow) :
    ((mine (repository.logBy walk tree directory) path rules limits).run j).1 =
      (outcome rules (repository.graph.historyOf (release :: after)
        (repository.pathOf? tree directory path))).map
        (prepend ((repository.graph.seen (repository.pathOf? tree directory path) before).map
          fun i => (repository.graph.changeSet i).message)) := by
  rw [(mine_eq_outcome_or_overflow (serves_logBy hhead) j).resolve_right fun h => hlimits h.1]
  -- Without a cap, the window is the whole history.
  rw [window, hcap, List.take_length, horder, CommitGraph.historyOf_append,
    outcome_append_of_untagged]
  · simp only [List.map_map, Function.comp_def]
  · intro newer hnewer
    obtain ⟨i, hi, rfl⟩ := List.mem_map.1 hnewer
    exact hbefore i (List.mem_filter.1 hi).1

/-- What is found in a directory when the whole repository has a release, and limits are no
    obstacle. The directory has the same release, with those of the changes since then that
    are seen from it, exactly if the first commit from the release on that changed the
    directory names the version of the release and no other; the release itself may
    be that commit. In any case these changes come first, and then those that are found from
    the release on. -/
theorem exists_latestRelease_directory {root : String} {j' : Journal}
    (hroot : tree.resolve directory root = .ok repository.root)
    (hcap : limits.maxCommits? = none)
    (hmine : ((mine (repository.logBy walk tree directory) root rules limits).run j).1 =
      .ok ⟨changes, some version⟩)
    (hlimits : ((mine (repository.logBy walk tree directory) path rules limits).run j').1 ≠
      .error .overflow) :
    ∃ head before release after, repository.head? = some head ∧
      walk repository.graph head = before ++ release :: after ∧
      repository.graph.LatestRelease rules (walk repository.graph head) before release version ∧
      changes = before.map (fun i => (repository.graph.changeSet i).message) ∧
      let concerns := repository.graph.concerns (repository.pathOf? tree directory path)
      let since := (before.filter concerns).map fun i => (repository.graph.changeSet i).message
      let found := ((mine (repository.logBy walk tree directory) path rules limits).run j').1
      (concerns release = true → found = .ok ⟨since, some version⟩) ∧
      (found = .ok ⟨since, some version⟩ ↔ ∃ i, (release :: after).find? concerns = some i ∧
        versionsOf rules (repository.graph.changeSet i) = [version]) ∧
      found = (outcome rules (repository.graph.historyOf (release :: after)
        (repository.pathOf? tree directory path))).map (prepend since) := by
  obtain ⟨head, before, release, hhead, hlatest, hchanges⟩ :=
    exists_latestRelease_of_mine (pathOf?_root hroot) hmine
  obtain ⟨after, horder⟩ := hlatest.split
  refine ⟨head, before, release, after, hhead, horder, hlatest, hchanges, ?_⟩
  intro concerns since found
  have hfound : found = (outcome rules (repository.graph.historyOf (release :: after)
      (repository.pathOf? tree directory path))).map (prepend since) :=
    mine_eq_outcome_from_release hhead hcap horder hlatest.none_before hlimits
  have hiff : found = .ok ⟨since, some version⟩ ↔
      ∃ i, (release :: after).find? concerns = some i ∧
        versionsOf rules (repository.graph.changeSet i) = [version] := by
    rw [hfound, map_prepend_eq_ok_iff, outcome_eq_tagged_nil_iff,
      CommitGraph.historyOf_eq_map_seen, List.head?_map, CommitGraph.seen, List.head?_filter]
    simp only [Option.map_eq_some_iff, exists_exists_and_eq_and]
    exact Iff.rfl
  refine ⟨fun hseen => hiff.2 ⟨release, ?_, hlatest.names⟩, hiff, hfound⟩
  rw [List.find?_cons_of_pos hseen]

/-- The release changed one of the two directories, and is the release there. -/
theorem release_seen_from_web :
    let found (path : String) :=
      ((mine (coreAndWeb.log coreAndWebTree ["work"]) path .builtin .default).run .empty).1
    let concerns := coreAndWeb.graph.concerns (coreAndWeb.pathOf? coreAndWebTree ["work"] "web")
    coreAndWebTree.resolve ["work"] "." = .ok coreAndWeb.root ∧
      MiningLimits.default.maxCommits? = none ∧
      found "." = .ok ⟨["fix(core): typo", "feat(web): page"], some "1.0"⟩ ∧
      found "web" ≠ .error .overflow ∧ concerns 1 = true ∧
      ∃ before after, coreAndWeb.graph.walk 3 = before ++ 1 :: after ∧
        found "web" = .ok ⟨(before.filter concerns).map
          fun i => (coreAndWeb.graph.changeSet i).message, some "1.0"⟩ := by
  intro found concerns
  have hroot : coreAndWebTree.resolve ["work"] "." = .ok coreAndWeb.root := by decide +kernel
  have hlimits : found "web" ≠ .error .overflow :=
    fun h => by cases mine_coreAndWeb_web.symm.trans h
  have hconcerns : concerns 1 = true := by decide +kernel
  obtain ⟨head, before, release, after, hhead, horder, hlatest, -, hseen, -⟩ :=
    exists_latestRelease_directory hroot rfl mine_coreAndWeb_root hlimits
  cases hhead
  have hwalk : coreAndWeb.graph.walk 3 = [3, 2, 1, 0] := by decide +kernel
  have hrelease : ∀ i ∈ [3, 2, 1, 0],
      versionsOf .builtin (coreAndWeb.graph.changeSet i) = ["1.0"] → i = 1 := by decide +kernel
  obtain rfl : release = 1 := hrelease release (by simp [← hwalk, horder]) hlatest.names
  exact ⟨hroot, rfl, mine_coreAndWeb_root, hlimits, hconcerns, before, after, horder,
    hseen hconcerns⟩

/-- Seen from the other one there was no release, and what was released is found with what was
    not. -/
theorem release_not_seen_from_core :
    coreAndWebTree.resolve ["work"] "." = .ok coreAndWeb.root ∧
      ((mine (coreAndWeb.log coreAndWebTree ["work"]) "." .builtin .default).run .empty).1 =
        .ok ⟨["fix(core): typo", "feat(web): page"], some "1.0"⟩ ∧
      ((mine (coreAndWeb.log coreAndWebTree ["work"]) "core" .builtin .default).run .empty).1 =
        .ok ⟨["fix(core): typo", "feat(core): search"], none⟩ :=
  ⟨by decide +kernel, mine_coreAndWeb_root,
    (mine_coreAndWeb (by decide +kernel)).trans (by decide +kernel)⟩

end Repository

end Versioning
