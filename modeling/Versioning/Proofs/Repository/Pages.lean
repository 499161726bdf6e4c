import Mathlib.Data.List.Forall2
import Mathlib.Data.List.TakeWhile
import Versioning.Proofs.Repository.Directory
import Versioning.Proofs.Repository.Names

/-!
# Pages of a directory

The pages of a directory are the beginnings of one list, whatever the limits are, and a page that is
shorter than its limit is all of it (`Repository.pages_of_directory`). The list has an entry
for each commit of the history that is seen from the directory (`Repository.IsView`), and an entry
has the message of its commit and the names of its tags (`CommitGraph.Tells`).

What is seen are the commits in which something is different that the path of the directory selects.
If the path is plain, these are the commits that changed the directory; a directory whose path
is a pattern may miss all of them (`Repository.page_of_bracketed_empty`). The path of a directory
that does not exist is compared as it is written, so that nothing is seen if there are empty names
or dots in it (`Repository.IsView.misspelled`).
-/

namespace Versioning

/-! ## Changes -/

theorem FileContents.lookup_eq_none {files : FileContents} {path : FilePath}
    (h : ∀ e ∈ files, e.1 ≠ path) : files.lookup path = none :=
  List.lookup_eq_none_iff.2 fun e he => bne_iff_ne.2 (h e he).symm

/-- Two trees differ in some paths if one of these is not the same in both. -/
theorem FileContents.differs_iff {a b : FileContents} {selects : FilePath → Bool} :
    a.differs b selects = true ↔ ∃ path, selects path = true ∧ a.lookup path ≠ b.lookup path := by
  rw [differs, List.any_eq_true]
  constructor
  · rintro ⟨e, -, h⟩
    rw [Bool.and_eq_true, bne_iff_ne] at h
    exact ⟨e.1, h⟩
  · rintro ⟨path, hpath, hne⟩
    -- A path that neither tree has would be the same in both.
    obtain ⟨e, he, rfl⟩ : ∃ e ∈ a ++ b, e.1 = path := by
      by_contra! hnone
      refine hne ?_
      rw [lookup_eq_none fun e he => hnone e (List.mem_append_left _ he),
        lookup_eq_none fun e he => hnone e (List.mem_append_right _ he)]
    exact ⟨e, he, by rw [hpath, Bool.true_and, bne_iff_ne]; exact hne⟩

namespace CommitGraph

/-- A commit changed some paths if one of them is not the same as in the first parent. -/
def Changes (g : CommitGraph) (i : Nat) (paths : FilePath → Prop) : Prop :=
  ∃ path, paths path ∧ (g.filesOf i).lookup path ≠ (g.parentFiles i).lookup path

variable {g : CommitGraph} {i : Nat}

theorem touches_iff {directory : FilePath} :
    g.touches i directory = true ↔ g.Changes i fun path => directory.selects path = true :=
  FileContents.differs_iff

/-- A directory with a plain path counts the commits that changed it. -/
theorem touches_iff_of_plain {directory : FilePath} (h : directory.Plain) :
    g.touches i directory = true ↔ g.Changes i directory.AtOrBelow := by
  simp only [touches_iff, Changes, h.selects_iff]

/-- The files of all commits have paths as files have them. -/
def FilesWellFormed (g : CommitGraph) : Prop :=
  ∀ c ∈ g.commits, ∀ e ∈ c.files, e.1.WellFormed

theorem FilesWellFormed.of_mem_filesOf (h : g.FilesWellFormed) {e : FilePath × String}
    (he : e ∈ g.filesOf i) : e.1.WellFormed := by
  rw [filesOf] at he
  split at he
  · next c hc => exact h c (List.mem_of_getElem? hc) e he
  · cases he

theorem FilesWellFormed.of_mem_parentFiles (h : g.FilesWellFormed) {e : FilePath × String}
    (he : e ∈ g.parentFiles i) : e.1.WellFormed := by
  rw [parentFiles] at he
  split at he
  · exact h.of_mem_filesOf he
  · cases he

/-- What is changed are files. -/
theorem Changes.exists_wellFormed {paths : FilePath → Prop} (h : g.Changes i paths)
    (hfiles : g.FilesWellFormed) : ∃ path, paths path ∧ path.WellFormed := by
  obtain ⟨path, hpath, hne⟩ := h
  refine ⟨path, hpath, ?_⟩
  by_contra hnone
  have hne_of {e : FilePath × String} (he : e.1.WellFormed) : e.1 ≠ path := fun heq =>
    hnone (heq ▸ he)
  refine hne ?_
  rw [FileContents.lookup_eq_none fun e he => hne_of (hfiles.of_mem_filesOf he),
    FileContents.lookup_eq_none fun e he => hne_of (hfiles.of_mem_parentFiles he)]

/-- No commit changes what is at or below a path with a name that no file has. -/
theorem FilesWellFormed.not_changes (h : g.FilesWellFormed) {directory : FilePath} {name : String}
    (hname : name ∈ directory) (hreserved : name ∈ FilePath.reservedNames) :
    ¬g.Changes i directory.AtOrBelow := by
  intro hchanges
  obtain ⟨path, hbelow, hpath⟩ := hchanges.exists_wellFormed h
  exact hpath.not_atOrBelow hname hreserved hbelow

/-! ## Entries -/

/-- What a commit says: its message, without the line feeds at the start. -/
inductive Says (c : Commit) : String → Prop
  | text {feeds : Nat} {message : List Char}
      (h : c.message? = some (String.ofList (List.replicate feeds '\n' ++ message)))
      (hhead : message.head? ≠ some '\n') : Says c (String.ofList message)
  | nothing (h : c.message? = none) : Says c "(empty message)"

/-- An entry of a change log tells of a commit: what it says, and which tags lead to it, each once
    and in ascending order of the bytes. -/
structure Tells (g : CommitGraph) (i : Nat) (entry : ChangeSet) : Prop where
  message : ∃ c, g.commits[i]? = some c ∧ Says c entry.message
  mem_tags : ∀ name, name ∈ entry.tags ↔
    ∃ target, g.tags.get? name = some target ∧ target.commit? = some i
  tags_ascending : entry.tags.Pairwise fun a b => Text.bytes a < Text.bytes b

theorem mem_tagsOf {name : String} :
    name ∈ g.tagsOf i ↔ ∃ target, g.tags.get? name = some target ∧ target.commit? = some i := by
  simp only [tagsOf, List.mem_map, List.mem_filter, decide_eq_true_eq, Prod.exists,
    OrderedMap.mem_entries_iff]
  constructor
  · rintro ⟨name, target, h, rfl⟩
    exact ⟨target, h⟩
  · rintro ⟨target, h⟩
    exact ⟨name, target, h, rfl⟩

theorem tagsOf_ascending : (g.tagsOf i).Pairwise fun a b => Text.bytes a < Text.bytes b := by
  rw [tagsOf, List.pairwise_map]
  exact (g.tags.ascending.filter _).imp Text.compare_eq_lt_iff.1

theorem says_dropWhile {c : Commit} {message : String} (h : c.message? = some message) :
    Says c (String.ofList (message.toList.dropWhile (· == '\n'))) := by
  obtain ⟨feeds, hfeeds⟩ : ∃ n, message.toList.takeWhile (· == '\n') = List.replicate n '\n' :=
    ⟨_, List.eq_replicate_of_mem fun _ hc => by simpa using List.mem_takeWhile_imp hc⟩
  have hmessage : c.message? = some (String.ofList
      (List.replicate feeds '\n' ++ message.toList.dropWhile (· == '\n'))) := by
    rw [← hfeeds, List.takeWhile_append_dropWhile, String.ofList_toList, h]
  refine .text hmessage fun hhead => ?_
  have hnot := List.head?_dropWhile_not (· == '\n') message.toList
  rw [hhead] at hnot
  cases hnot

/-- A commit of the graph is told of by its entry. -/
theorem tells_changeSet (h : i < g.commits.length) : g.Tells i (g.changeSet i) := by
  have hc : g.commits[i]? = some g.commits[i] := List.getElem?_eq_getElem h
  simp only [changeSet, hc]
  refine ⟨⟨_, hc, ?_⟩, fun name => mem_tagsOf, tagsOf_ascending⟩
  cases hmessage : g.commits[i].message? with
  | none => exact .nothing hmessage
  | some message => exact says_dropWhile hmessage

end CommitGraph

/-! ## Directories -/

/-- Where the path of a directory leads to, from a root. What does not exist is taken at its word
    if the path begins at the root of the tree. -/
inductive FileTree.Leads (tree : FileTree) (directory : Place) (path : String) (root : Place) :
    FilePath → Prop
  | found {below : FilePath} (h : tree.resolve directory path = .ok (root ++ below)) :
      Leads tree directory path root below
  | named {failure : ReadFailure} {below : FilePath}
      (h : tree.resolve directory path = .error failure) (habsolute : isAbsolute path = true)
      (hspells : SpellsBelow root (pathNames path) below) : Leads tree directory path root below

namespace Repository

variable {walk : CommitGraph → Nat → List Nat} {repository : Repository} {tree : FileTree}
  {directory : Place} {path : String}

/-- A path leads to a directory below the root of the working tree. -/
structure Contains (repository : Repository) (tree : FileTree) (directory : Place) (path : String)
    (below : FilePath) : Prop where
  not_bare : repository.bare = false
  ne_nil : below ≠ []
  leads : tree.Leads directory path repository.root below

/-- Directories from which the whole history is seen. -/
inductive SeesAll (repository : Repository) (tree : FileTree) (directory : Place) (path : String) :
    Prop
  | bare (h : repository.bare = true)
  | root (h : tree.Leads directory path repository.root [])
  | missing {failure : ReadFailure} (h : tree.resolve directory path = .error failure)
      (hrelative : isAbsolute path = false)
  | outside {place : Place} (h : tree.resolve directory path = .ok place)
      (houtside : ¬repository.root <+: place)
  | elsewhere {failure : ReadFailure} (h : tree.resolve directory path = .error failure)
      (houtside : ¬repository.root <+: (pathNames path).filter fun name => !isIdleName name)

theorem pathOf?_of_leads {below : FilePath} (hbare : repository.bare = false)
    (h : tree.Leads directory path repository.root below) :
    repository.pathOf? tree directory path = if below = [] then none else some below := by
  have hfilter : (some below).filter (fun below => !below.isEmpty) =
      if below = [] then none else some below := by cases below <;> rfl
  cases h with
  | found h => simp [pathOf?, hbare, h, hfilter]
  | named h habsolute hspells =>
    simp [pathOf?, hbare, h, habsolute, namesBelow?_eq_some_iff.2 hspells, hfilter]

/-- A directory of the working tree has the path that leads to it from the root. -/
theorem Contains.pathOf?_eq {below : FilePath} (h : repository.Contains tree directory path below) :
    repository.pathOf? tree directory path = some below := by
  rw [pathOf?_of_leads h.not_bare h.leads, if_neg h.ne_nil]

/-- Where the whole history is seen from, there is no path. -/
theorem SeesAll.pathOf?_eq (h : repository.SeesAll tree directory path) :
    repository.pathOf? tree directory path = none := by
  cases hbare : repository.bare with
  | true => rw [pathOf?, hbare, if_pos rfl]
  | false =>
    cases h with
    | bare h => cases hbare.symm.trans h
    | root h => rw [pathOf?_of_leads hbare h, if_pos rfl]
    | missing h hrelative => simp [pathOf?, h, hrelative]
    | outside h houtside => simp [pathOf?, h, houtside]
    | elsewhere h houtside => simp [pathOf?, h, namesBelow?_eq_none_iff.2 houtside]

/-- Every path leads to a directory below the root, or the whole history is seen. -/
theorem seesAll_or_contains :
    repository.SeesAll tree directory path ∨
      ∃ below, repository.Contains tree directory path below := by
  cases hbare : repository.bare with
  | true => exact .inl (.bare hbare)
  | false =>
    have hplaced {below : FilePath} (h : tree.Leads directory path repository.root below) :
        repository.SeesAll tree directory path ∨
          ∃ below, repository.Contains tree directory path below := by
      by_cases hnil : below = []
      · exact .inl (.root (hnil ▸ h))
      · exact .inr ⟨below, hbare, hnil, h⟩
    cases hresolve : tree.resolve directory path with
    | ok place =>
      by_cases hprefix : repository.root <+: place
      · obtain ⟨below, rfl⟩ := hprefix
        exact hplaced (.found hresolve)
      · exact .inl (.outside hresolve hprefix)
    | error failure =>
      cases habsolute : isAbsolute path with
      | false => exact .inl (.missing hresolve habsolute)
      | true =>
        cases hbelow : namesBelow? repository.root (pathNames path) with
        | none => exact .inl (.elsewhere hresolve (namesBelow?_eq_none_iff.1 hbelow))
        | some below =>
          exact hplaced (.named hresolve habsolute (namesBelow?_eq_some_iff.1 hbelow))

/-! ## Pages -/

/-- The commits that are seen from a directory, in an order of the history of the head. -/
structure IsView (repository : Repository) (tree : FileTree) (directory : Place) (path : String)
    (head : Nat) (order seen : List Nat) : Prop where
  sublist : seen.Sublist order
  nodup : seen.Nodup
  whole : repository.SeesAll tree directory path → seen = order
  selected : ∀ below, repository.Contains tree directory path below → ∀ i,
    i ∈ seen ↔ repository.graph.Reaches head i ∧
      repository.graph.Changes i fun path => below.selects path = true
  plain : ∀ below, repository.Contains tree directory path below → below.Plain → ∀ i,
    i ∈ seen ↔ repository.graph.Reaches head i ∧ repository.graph.Changes i below.AtOrBelow
  misspelled : ∀ below, repository.Contains tree directory path below → below.Plain →
    (∃ name ∈ below, name ∈ FilePath.reservedNames) → repository.graph.FilesWellFormed → seen = []

/-- From a directory with a path of its own the commits of the history are seen that touch it. -/
theorem Contains.mem_seen_iff {below : FilePath} {head i : Nat} {order : List Nat}
    (h : repository.Contains tree directory path below)
    (horder : repository.graph.IsListing head order) :
    i ∈ repository.graph.seen (repository.pathOf? tree directory path) order ↔
      repository.graph.Reaches head i ∧ repository.graph.touches i below = true := by
  rw [h.pathOf?_eq, CommitGraph.seen, List.mem_filter, CommitGraph.concerns, Option.all_some]
  exact and_congr_left fun _ => ⟨horder.reaches, horder.complete i⟩

/-- The commits that are picked out for a directory are a view of the history. -/
theorem isView_seen {head : Nat} {order : List Nat}
    (horder : repository.graph.IsListing head order) :
    repository.IsView tree directory path head order
      (repository.graph.seen (repository.pathOf? tree directory path) order) where
  sublist := List.filter_sublist
  nodup := horder.nodup.filter _
  whole h := by rw [h.pathOf?_eq, CommitGraph.seen_none]
  selected _ h _ := by rw [h.mem_seen_iff horder, CommitGraph.touches_iff]
  plain _ h hplain _ := by rw [h.mem_seen_iff horder, CommitGraph.touches_iff_of_plain hplain]
  misspelled _ h hplain hname hfiles := by
    obtain ⟨name, hname, hreserved⟩ := hname
    refine List.eq_nil_iff_forall_not_mem.2 fun i hi => ?_
    rw [h.mem_seen_iff horder, CommitGraph.touches_iff_of_plain hplain] at hi
    exact hfiles.not_changes hname hreserved hi.2

/-- The pages of a directory, of a repository whose head is a commit. They are the beginnings of
    one history, which has an entry for each commit that is seen from the directory; so the page
    for a limit begins that for a larger one, and is the whole history if it is shorter than its
    limit. Nothing is assumed about the walk but that commits are given once, after all of their
    children. -/
theorem pages_of_directory (tree : FileTree) (directory : Place) (path : String)
    (hwalk : ∀ (g : CommitGraph) (head : Nat), g.IsListing head (walk g head)) {head : Nat}
    (hhead : repository.head? = some head) (hcommit : head < repository.graph.commits.length) :
    ∃ seen history,
      repository.IsView tree directory path head (walk repository.graph head) seen ∧
      (repository.SeesAll tree directory path ∨
        ∃ below, repository.Contains tree directory path below) ∧
      List.Forall₂ repository.graph.Tells seen history ∧
      ∀ asked limit, ∃ page,
        (repository.logBy walk tree directory).answer asked ⟨path, limit⟩ = .ok page ∧
        page = history.take limit ∧ page.length = min limit history.length ∧
        (page.length < limit → page = history) ∧
        ∀ asked' limit', limit ≤ limit' → ∃ page',
          (repository.logBy walk tree directory).answer asked' ⟨path, limit'⟩ = .ok page' ∧
          page <+: page' := by
  have hlisting := hwalk repository.graph head
  have hview : repository.IsView tree directory path head _ _ := isView_seen hlisting
  have hserves : (repository.logBy walk tree directory).Serves path _ := serves_logBy hhead
  rw [CommitGraph.historyOf_eq_map_seen] at hserves
  generalize repository.graph.seen _ _ = seen at hview hserves
  refine ⟨seen, seen.map repository.graph.changeSet, hview, seesAll_or_contains, ?_, ?_⟩
  · rw [List.forall₂_map_right_iff, List.forall₂_same]
    intro i hi
    have hle := (hlisting.reaches (hview.sublist.subset hi)).le
    exact CommitGraph.tells_changeSet (Nat.lt_of_le_of_lt hle hcommit)
  · generalize seen.map repository.graph.changeSet = history at hserves
    refine fun asked limit => ⟨_, hserves asked limit, rfl, List.length_take, fun hshort => ?_,
      fun asked' limit' hle => ⟨_, hserves asked' limit', List.take_prefix_take_left hle⟩⟩
    rw [List.length_take] at hshort
    exact List.take_of_length_le (by omega)

/-- The pages of one of two directories. -/
theorem pages_of_core :
    coreAndWeb.Contains coreAndWebTree ["work"] "core" ["core"] ∧ FilePath.Plain ["core"] ∧
      ∃ seen history, (∀ i, i ∈ seen ↔ coreAndWeb.graph.Reaches 3 i ∧
          coreAndWeb.graph.Changes i (FilePath.AtOrBelow ["core"])) ∧
        List.Forall₂ coreAndWeb.graph.Tells seen history ∧
        ∀ asked limit, (coreAndWeb.log coreAndWebTree ["work"]).answer asked ⟨"core", limit⟩ =
          .ok (history.take limit) := by
  have hcontains : coreAndWeb.Contains coreAndWebTree ["work"] "core" ["core"] :=
    ⟨rfl, by decide, .found (by decide +kernel)⟩
  have hplain : FilePath.Plain ["core"] :=
    ⟨by decide +kernel, by decide +kernel, by decide +kernel, by decide +kernel, by decide +kernel⟩
  obtain ⟨seen, history, hview, -, htells, hpages⟩ :=
    pages_of_directory coreAndWebTree ["work"] "core"
      (fun g head => (CommitGraph.isWalk_walk g head).toIsListing)
      (rfl : coreAndWeb.head? = some 3) (by decide)
  refine ⟨hcontains, hplain, seen, history, hview.plain _ hcontains hplain, htells,
    fun asked limit => ?_⟩
  obtain ⟨page, hpage, rfl, -⟩ := hpages asked limit
  exact hpage

/-- A path that leads nowhere is compared as it is written: behind a second slash, no file is found
    that was committed. -/
example :
    let page (path : String) := coreAndWeb.graph.page
      (coreAndWeb.pathOf? coreAndWebTree ["work"] path) 10 (coreAndWeb.graph.walk 3)
    (page "/work/./core/lib.txt/").map (·.message) = ["fix(core): typo", "feat(core): search"] ∧
      page "/work/core//lib.txt" = [] := by decide +kernel

/-! ## A name that is a pattern -/

/-- One commit, with a file in a directory whose name has brackets. -/
def bracketed : Repository where
  graph := CommitGraph.empty.add (some "feat: page") [(["[id]", "page.txt"], some "0")] [] 0
  head? := some 0
  root := ["work"]
  bare := false

/-- The working tree, with the directory. -/
def bracketedTree : FileTree :=
  FileTree.empty.addDirectory ["work", "[id]"]

/-- The name is taken for a set of two letters: the commit is the only one and changed the
    directory, but no page of the directory has an entry. -/
theorem page_of_bracketed_empty :
    bracketed.head? = some 0 ∧
      bracketed.Contains bracketedTree ["work"] "[id]" ["[id]"] ∧
      bracketed.graph.Changes 0 (FilePath.AtOrBelow ["[id]"]) ∧
      ∀ asked limit, (bracketed.log bracketedTree ["work"]).answer asked ⟨"[id]", limit⟩ =
        .ok [] := by
  have hcontains : bracketed.Contains bracketedTree ["work"] "[id]" ["[id]"] :=
    ⟨rfl, by decide, .found (by decide +kernel)⟩
  refine ⟨rfl, hcontains, ⟨["[id]", "page.txt"], .inr ?_, by decide +kernel⟩, fun asked limit => ?_⟩
  · exact List.isPrefixOf_iff_prefix.1 (by decide +kernel)
  · have hhistory : bracketed.graph.historyOf (bracketed.graph.walk 0)
        (bracketed.pathOf? bracketedTree ["work"] "[id]") = [] := by decide +kernel
    have hserves : (bracketed.logBy CommitGraph.walk bracketedTree ["work"]).Serves "[id]" _ :=
      serves_logBy rfl
    rw [hhistory] at hserves
    exact (hserves asked limit).trans (congrArg _ List.take_nil)

end Repository

end Versioning
