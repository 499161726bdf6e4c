import Versioning.CommandLine.Run

/-!
# What a run writes

A run writes at most one file, the one that the options name, and only at its very end: when
the configuration was loaded, there are modules, the policy is known, the repository was
opened if there is need of it (`Run.Ready`), and every phase was resolved. Then the file
holds the final registry (`Run.written?_withOptions_eq_some_iff`); all other files are as
before (`FileTree.get?_set_of_ne`).
-/

namespace Versioning

namespace FileTree

variable {tree : FileTree} {place other : Place} {node : FileNode}

/-- What is put at a place is found there, unless the place is the root. -/
theorem get?_set_self (tree : FileTree) (h : place ≠ []) (node : FileNode) :
    (tree.set place node).get? place = some node := by
  simp [get?, set, h]

/-- The other places stay as they are. -/
theorem get?_set_of_ne (tree : FileTree) (h : other ≠ place) (node : FileNode) :
    (tree.set place node).get? other = tree.get? other := by
  have hlookup (entries : List (Place × FileNode)) :
      (entries.filter fun e => e.1 != place).lookup other = entries.lookup other := by
    induction entries with
    | nil => rfl
    | cons e entries ih =>
      obtain ⟨here, node⟩ := e
      by_cases hhere : here = place
      · have hother : (other == here) = false := by simpa [hhere] using h
        rw [List.filter_cons_of_neg (by simp [hhere]), ih, List.lookup_cons, hother]
      · rw [List.filter_cons_of_pos (by simp [hhere]), List.lookup_cons, List.lookup_cons, ih]
  have hne : (other == place) = false := by simpa using h
  rw [get?, get?, set, List.lookup_cons, hne, hlookup]

/-- No file is written at the root. -/
theorem ne_nil_of_writablePlace {directory : Place} {path : String}
    (h : tree.writablePlace directory path = .ok place) : place ≠ [] := by
  -- However the writing fails, there is no place; where it does not, the place ends in a name.
  simp only [writablePlace, bind, Except.bind] at h
  repeat' split at h
  all_goals cases h
  all_goals simp

end FileTree

namespace Run

variable {world : World} {options : Options} {p : Prepared}

/-- A run that is ready has loaded its configuration and found its modules, its policy and, unless
    it is the default policy that never asks for it, its repository. -/
structure Ready (world : World) (options : Options) (p : Prepared) : Prop where
  loaded : ∃ config, Config.load world.files world.directory world.settings? options.config? =
    .ok config ∧ p.resolver.config = overrule options config
  reactor : p.resolver.config.reactor = .ok p.reactor
  nonempty : p.reactor ≠ []
  known : ∃ policy, Policies.builtin.get p.resolver.config.policy = .ok policy
  policies : p.resolver.policies = .builtin
  opened : if p.resolver.config.policy = Policies.defaultId then p.resolver.log? = none
    else ∃ repository,
      Repository.open? world.repository? world.files world.directory "." = .ok repository ∧
        p.resolver.log? = some (repository.log world.files world.directory)

/-- A step goes on if the one before it does. -/
theorem bind_eq_ok_iff {α β : Type} {x : Except Stop α} {f : α → Except Stop β} {b : β} :
    (x >>= f) = .ok b ↔ ∃ a, x = .ok a ∧ f a = .ok b := by
  cases x with
  | ok a => exact ⟨fun h => ⟨a, rfl, h⟩, by rintro ⟨_, ⟨⟩, h⟩; exact h⟩
  | error e => exact iff_of_false nofun nofun

theorem orStop_eq_ok_iff {α : Type} {context : List String} {x : Except ReleaseError α} {a : α} :
    orStop context x = .ok a ↔ x = .ok a := by
  cases x with
  | ok b => simp [orStop]
  | error e => simp [orStop]

/-- It takes all of this to resolve versions, and nothing else. -/
theorem prepare_eq_ok_iff : prepare world options = .ok p ↔ Ready world options p := by
  constructor
  · intro h
    obtain ⟨config, hloaded, h⟩ := bind_eq_ok_iff.1 h
    obtain ⟨reactor, hreactor, h⟩ := bind_eq_ok_iff.1 h
    have hconfig := orStop_eq_ok_iff.1 hloaded
    have hmodules := orStop_eq_ok_iff.1 hreactor
    dsimp only at h
    by_cases hempty : reactor.isEmpty = true
    · rw [if_pos hempty] at h
      cases h
    rw [if_neg hempty] at h
    obtain ⟨policy, hpolicy, h⟩ := bind_eq_ok_iff.1 h
    have hknown := orStop_eq_ok_iff.1 hpolicy
    have hnonempty : reactor ≠ [] := fun hnil => hempty (List.isEmpty_iff.2 hnil)
    by_cases hdefault : (overrule options config).policy = Policies.defaultId
    · -- The default policy is not given a change log.
      rw [if_pos hdefault] at h
      cases h
      exact ⟨⟨config, hconfig, rfl⟩, hmodules, hnonempty, ⟨policy, hknown⟩, rfl,
        (if_pos hdefault).mpr rfl⟩
    · rw [if_neg hdefault] at h
      obtain ⟨repository, hrepository, h⟩ := bind_eq_ok_iff.1 h
      cases h
      exact ⟨⟨config, hconfig, rfl⟩, hmodules, hnonempty, ⟨policy, hknown⟩, rfl,
        (if_neg hdefault).mpr ⟨repository, orStop_eq_ok_iff.1 hrepository, rfl⟩⟩
  · obtain ⟨⟨_, policies, log?⟩, reactor⟩ := p
    rintro ⟨⟨config, hconfig, rfl⟩, hmodules, hnonempty, ⟨policy, hknown⟩, rfl, hopened⟩
    have hempty : ¬reactor.isEmpty = true := fun hempty => hnonempty (List.isEmpty_iff.1 hempty)
    refine bind_eq_ok_iff.2 ⟨config, orStop_eq_ok_iff.2 hconfig, ?_⟩
    refine bind_eq_ok_iff.2 ⟨reactor, orStop_eq_ok_iff.2 hmodules, ?_⟩
    dsimp only at hopened ⊢
    rw [if_neg hempty]
    refine bind_eq_ok_iff.2 ⟨policy, orStop_eq_ok_iff.2 hknown, ?_⟩
    split at hopened
    · next hdefault =>
      rw [if_pos hdefault, hopened]
      rfl
    · next hdefault =>
      obtain ⟨repository, hrepository, rfl⟩ := hopened
      rw [if_neg hdefault]
      exact bind_eq_ok_iff.2 ⟨repository, orStop_eq_ok_iff.2 hrepository, rfl⟩

/-- Nothing that happens before the end depends on whether it is a dry run. -/
theorem prepare_dryRun (world : World) (options : Options) (dryRun : Bool) :
    prepare world { options with dryRun } = prepare world options :=
  rfl

/-! ### The end of a run -/

/-- A run finishes with a session if it is ready and every phase is resolved. -/
def Finishes (world : World) (options : Options) (s : Session) : Prop :=
  ∃ p, Ready world options p ∧ session world p = (.ok (), s)

theorem Finishes.unique {s s' : Session} (h : Finishes world options s)
    (h' : Finishes world options s') : s = s' := by
  obtain ⟨p, hready, hs⟩ := h
  obtain ⟨p', hready', hs'⟩ := h'
  cases (prepare_eq_ok_iff.2 hready).symm.trans (prepare_eq_ok_iff.2 hready')
  cases hs.symm.trans hs'
  rfl

/-- What is shown before the versions: the line about the phases, and the questions. -/
def shownBefore (p : Prepared) (s : Session) : String :=
  startLine p ++ String.join (s.asked.reverse.map Question.shown)

/-- A run that finishes shows the versions and goes on to write them. -/
theorem withOptions_of_finishes {s : Session} (hready : Ready world options p)
    (hs : session world p = (.ok (), s)) :
    withOptions world options =
      { finish world options (shownBefore p s) s.registry with diagnostics := told options s } := by
  rw [withOptions, prepare_eq_ok_iff.2 hready]
  dsimp only
  rw [hs]
  rfl

/-- A run that does not finish fails and writes nothing, and it makes no difference whether it is
    a dry run. -/
theorem exists_outcome_of_not_finishes (h : ¬∃ s, Finishes world options s) :
    ∃ outcome : Outcome, outcome.written? = none ∧ outcome.code ≠ 0 ∧
      ∀ dryRun, withOptions world { options with dryRun } = outcome := by
  cases hp : prepare world options with
  | error stop =>
    refine ⟨stopped "" stop, by cases stop <;> rfl, by cases stop <;> nofun, fun dryRun => ?_⟩
    rw [withOptions, prepare_dryRun, hp]
  | ok p =>
    rcases hs : session world p with ⟨failure | _, s⟩
    · have hsame (dryRun : Bool) :
          withOptions world { options with dryRun } = withOptions world options := by
        rw [withOptions, withOptions, prepare_dryRun, hp]
        dsimp only
        rw [hs]
        cases failure <;> rfl
      have hfails : (withOptions world options).written? = none ∧
          (withOptions world options).code ≠ 0 := by
        rw [withOptions, hp]
        dsimp only
        rw [hs]
        cases failure <;> exact ⟨rfl, nofun⟩
      exact ⟨_, hfails.1, hfails.2, hsame⟩
    · exact absurd ⟨s, p, prepare_eq_ok_iff.1 hp, hs⟩ h

/-! ### What is written -/

/-- At the end a file is written, unless it is a dry run or the file cannot be written. -/
theorem written?_finish_eq_some_iff {output text : String} {registry : Registry} {place : Place} :
    (finish world options output registry).written? = some (place, text) ↔
      options.dryRun = false ∧
        world.files.writablePlace world.directory options.output = .ok place ∧
        text = registry.toToml := by
  rw [finish]
  cases options.dryRun with
  | true => simp
  | false =>
    dsimp only [FileTree.writeText]
    cases world.files.writablePlace world.directory options.output with
    | error failure => exact iff_of_false nofun nofun
    | ok there => simp [bind, Except.bind, pure, Except.pure, eq_comm]

/-- A run writes a file exactly if it finishes, is no dry run, and can write the file that the
    options name; and what it writes is the final registry. -/
theorem written?_withOptions_eq_some_iff {place : Place} {text : String} :
    (withOptions world options).written? = some (place, text) ↔
      ∃ s, Finishes world options s ∧ options.dryRun = false ∧
        world.files.writablePlace world.directory options.output = .ok place ∧
        text = s.registry.toToml := by
  by_cases h : ∃ s, Finishes world options s
  · obtain ⟨s, hfinishes⟩ := h
    obtain ⟨p, hready, hs⟩ := id hfinishes
    rw [withOptions_of_finishes hready hs, written?_finish_eq_some_iff]
    constructor
    · exact fun hwritten => ⟨s, hfinishes, hwritten⟩
    · rintro ⟨s', hfinishes', hwritten⟩
      rwa [hfinishes.unique hfinishes']
  · obtain ⟨outcome, hnothing, -, hsame⟩ := exists_outcome_of_not_finishes h
    have houtcome : withOptions world options = outcome := hsame options.dryRun
    rw [houtcome, hnothing]
    exact iff_of_false nofun fun ⟨s, hfinishes, _⟩ => h ⟨s, hfinishes⟩

/-- The files after a run. -/
def filesAfter (world : World) (outcome : Outcome) : FileTree :=
  match outcome.written? with
  | some (place, text) => world.files.set place (.file text.toUTF8)
  | none => world.files

theorem filesAfter_of_written {outcome : Outcome} {place : Place} {text : String}
    (h : outcome.written? = some (place, text)) :
    filesAfter world outcome = world.files.set place (.file text.toUTF8) := by
  rw [filesAfter, h]

theorem filesAfter_of_not_written {outcome : Outcome} (h : outcome.written? = none) :
    filesAfter world outcome = world.files := by
  rw [filesAfter, h]

end Run

end Versioning
