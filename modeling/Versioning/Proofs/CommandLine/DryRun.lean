import Versioning.Proofs.CommandLine.Writing
import Versioning.Proofs.Resolution.Answers

/-!
# Dry runs

The arguments of a dry run are those of another run with one more option. Reading them is
simulated by reading the others (`Options.exists_plain_of_dry`): up to the option nothing
differs, and behind it the option is all that does, as it is rejected when it comes a second
time. The runs then take the same lines of the input, and go the same way until the versions
are shown (`Run.DiffersAtEnd`); after that, only one of them can write a file
(`Run.run_writes_at_end`).
-/

namespace Versioning

namespace Options

/-- The option of a dry run. -/
def dryFlag : String :=
  "--dry-run"

/-- The second options are the first ones with a dry run. -/
def Dries (plain dried : Options) : Prop :=
  plain.dryRun = false ∧ dried = { plain with dryRun := true }

/-- What is read the second time is also read the first time, up to a relation. -/
def ReadsAs {α : Type} (R : α → α → Prop) (plain dried : Except UsageFault α) : Prop :=
  ∀ d, dried = .ok d → ∃ p, plain = .ok p ∧ R p d

namespace ReadsAs

variable {α β : Type} {R : α → α → Prop} {S : β → β → Prop} {plain dried : Except UsageFault α}

theorem ok {p d : α} (h : R p d) : ReadsAs R (.ok p) (.ok d) := by
  rintro _ ⟨⟩
  exact ⟨p, rfl, h⟩

theorem error {fault : UsageFault} : ReadsAs R plain (.error fault) :=
  nofun

theorem bind {f g : α → Except UsageFault β} (h : ReadsAs R plain dried)
    (hfg : ∀ p d, R p d → ReadsAs S (f p) (g d)) : ReadsAs S (plain >>= f) (dried >>= g) := by
  cases dried with
  | error fault => exact error
  | ok d =>
    obtain ⟨p, rfl, hp⟩ := h d rfl
    exact hfg p d hp

/-- What follows the same step. -/
theorem bind_same {x : Except UsageFault α} {f g : α → Except UsageFault β}
    (hfg : ∀ a, ReadsAs S (f a) (g a)) : ReadsAs S (x >>= f) (x >>= g) := by
  cases x with
  | error fault => exact error
  | ok a => exact hfg a

theorem map {f g : α → β} (h : ReadsAs R plain dried) (hfg : ∀ p d, R p d → S (f p) (g d)) :
    ReadsAs S (plain.map f) (dried.map g) := by
  cases dried with
  | error fault => exact error
  | ok d =>
    obtain ⟨p, rfl, hp⟩ := h d rfl
    exact ok (hfg p d hp)

end ReadsAs

variable {plain dried : Options}

/-- Behind the separator there is nothing. -/
theorem readFrom_separator {options : Options} {argument : String} {rest : List String}
    (h : token argument = .separator) :
    readFrom options none (argument :: rest) =
      match rest with
      | [] => .ok options
      | extra :: _ => .error (.unknown extra) := by
  cases rest <;> simp only [readFrom, h]

/-- Any other argument is read, and then the rest. -/
theorem readFrom_of_ne_separator {options : Options} {argument : String} {rest : List String}
    (h : token argument ≠ .separator) :
    readFrom options none (argument :: rest) =
      (options.readArgument argument >>= fun read =>
        readFrom read.1 (read.2.map fun name => (name, argument)) rest) := by
  rw [readFrom]
  · exact fun h' => absurd h' h
  · exact fun _ _ h' => absurd h' h

/-! ### Behind the option -/

theorem setFlag_dries (h : Dries plain dried) (argument : String) (name : Name) :
    ReadsAs Dries (plain.setFlag argument name) (dried.setFlag argument name) := by
  obtain ⟨hplain, rfl⟩ := h
  have honce (given : Bool) {options options' : Options} (h : Dries options options') :
      ReadsAs Dries (setFlag.once argument given options)
        (setFlag.once argument given options') := by
    cases given with
    | true => exact .error
    | false => exact .ok h
  cases name with
  | batch => exact honce _ ⟨hplain, rfl⟩
  | autoVersionSubmodules => exact honce _ ⟨hplain, rfl⟩
  | branch => exact honce _ ⟨hplain, rfl⟩
  | verbose => exact honce _ ⟨hplain, rfl⟩
  | _ => exact .error

theorem setValue_dries (h : Dries plain dried) (argument value : String) (name : Name) :
    ReadsAs Dries (plain.setValue argument value name) (dried.setValue argument value name) := by
  obtain ⟨hplain, rfl⟩ := h
  have honce (given? : Option String) {options options' : Options} (h : Dries options options') :
      ReadsAs Dries (setValue.once argument given? options)
        (setValue.once argument given? options') := by
    cases given? with
    | some _ => exact .error
    | none => exact .ok h
  cases name with
  | config => exact honce _ ⟨hplain, rfl⟩
  | releaseVersion => exact honce _ ⟨hplain, rfl⟩
  | developmentVersion => exact honce _ ⟨hplain, rfl⟩
  | policy => exact honce _ ⟨hplain, rfl⟩
  | output => exact honce _ ⟨hplain, rfl⟩
  | _ => exact .error

/-- The options differ in the dry run, and the same option waits for its value. -/
def DriesPending (plain dried : Options × Option Name) : Prop :=
  Dries plain.1 dried.1 ∧ plain.2 = dried.2

theorem readCluster_dries (argument : String) (h : Dries plain dried) (cluster : List Char) :
    ReadsAs DriesPending (readCluster argument plain cluster)
      (readCluster argument dried cluster) := by
  induction cluster generalizing plain dried with
  | nil => exact .ok ⟨h, rfl⟩
  | cons c rest ih =>
    have hset (value : String) (name : Name) :
        ReadsAs DriesPending ((plain.setValue argument value name).map (·, none))
          ((dried.setValue argument value name).map (·, none)) :=
      (setValue_dries h argument value name).map fun _ _ h => ⟨h, rfl⟩
    rw [readCluster, readCluster]
    cases Name.ofShort? c with
    | none => exact .error
    | some name =>
      dsimp only
      split
      · split
        · exact .ok ⟨h, rfl⟩
        · exact hset _ name
        · exact hset _ name
      · -- The flag is set in both, and the rest of the cluster is read behind it.
        have hflag := setFlag_dries h argument name
        cases hdried : dried.setFlag argument name with
        | error fault => exact .error
        | ok d =>
          obtain ⟨p, hplain, hp⟩ := hflag d hdried
          rw [hplain]
          exact ih hp

theorem readArgument_dries (h : Dries plain dried) (argument : String) :
    ReadsAs DriesPending (plain.readArgument argument) (dried.readArgument argument) := by
  rw [readArgument, readArgument]
  cases token argument with
  | separator => exact .ok ⟨h, rfl⟩
  | plain => exact .error
  | short cluster => exact readCluster_dries argument h cluster
  | long text value? =>
    dsimp only
    cases Name.ofLong? text with
    | none => exact .error
    | some name =>
      dsimp only
      cases name.takesValue <;> cases value?
      · exact (setFlag_dries h argument name).map fun _ _ h => ⟨h, rfl⟩
      · exact .error
      · exact .ok ⟨h, rfl⟩
      · exact (setValue_dries h argument _ name).map fun _ _ h => ⟨h, rfl⟩

/-- Behind the option, the rest is read as without it. -/
theorem readFrom_dries (h : Dries plain dried) (pending? : Option (Name × String))
    (arguments : List String) :
    ReadsAs Dries (readFrom plain pending? arguments) (readFrom dried pending? arguments) := by
  induction arguments generalizing plain dried pending? with
  | nil =>
    cases pending? with
    | none => exact .ok h
    | some pending => exact .error
  | cons argument rest ih =>
    cases pending? with
    | some pending =>
      rw [readFrom, readFrom]
      split
      · exact (setValue_dries h _ argument _).bind fun _ _ h => ih h none
      · exact .error
    | none =>
      by_cases hseparator : token argument = .separator
      · rw [readFrom_separator hseparator, readFrom_separator hseparator]
        cases rest with
        | nil => exact .ok h
        | cons extra rest => exact .error
      · rw [readFrom_of_ne_separator hseparator, readFrom_of_ne_separator hseparator]
        refine (readArgument_dries h argument).bind fun p d h => ?_
        rw [h.2]
        exact ih h.1 _

/-! ### Up to the option -/

/-- The option itself is read if no option waits for its value and the run was no dry run yet. -/
theorem readFrom_dryFlag (options : Options) (pending? : Option (Name × String))
    (after : List String) :
    ReadsAs Dries (readFrom options pending? after)
      (readFrom options pending? (dryFlag :: after)) := by
  cases pending? with
  | some pending => exact .error
  | none =>
    have htoken : token dryFlag = .long "dry-run" none := by rfl
    have hname : Name.ofLong? "dry-run" = some .dryRun := by decide
    rw [readFrom_of_ne_separator (by rw [htoken]; nofun), readArgument, htoken]
    dsimp only
    rw [hname]
    dsimp only [Name.takesValue, setFlag, setFlag.once]
    cases hdry : options.dryRun with
    | true => exact .error
    | false => exact readFrom_dries ⟨hdry, rfl⟩ none after

/-- Wherever the option stands among the arguments, the others are read as without it. -/
theorem readFrom_insert_dryFlag (options : Options) (pending? : Option (Name × String))
    (before after : List String) :
    ReadsAs Dries (readFrom options pending? (before ++ after))
      (readFrom options pending? (before ++ dryFlag :: after)) := by
  induction before generalizing options pending? with
  | nil => exact readFrom_dryFlag options pending? after
  | cons argument before ih =>
    rw [List.cons_append, List.cons_append]
    cases pending? with
    | some pending =>
      rw [readFrom, readFrom]
      split
      · exact .bind_same fun options => ih options none
      · exact .error
    | none =>
      by_cases hseparator : token argument = .separator
      · -- The option is not read behind the separator.
        rw [@readFrom_separator _ _ (before ++ dryFlag :: after) hseparator]
        cases before with
        | nil => exact .error
        | cons extra before => exact .error
      · rw [readFrom_of_ne_separator hseparator, readFrom_of_ne_separator hseparator]
        exact .bind_same fun read => ih read.1 _

/-- The arguments of a dry run are also read without the option, and it is the only difference. -/
theorem exists_plain_of_dry {before after : List String} {dried : Options}
    (h : ofArguments (before ++ dryFlag :: after) = .ok dried) :
    ∃ plain, ofArguments (before ++ after) = .ok plain ∧ Dries plain dried :=
  readFrom_insert_dryFlag {} none before after dried h

end Options

namespace Run

variable {world : World} {options : Options}

/-! ### What is left of the input -/

/-- What is left of the input: all of it, unless a session comes about that asks for some. -/
def Leaves (world : World) (options : Options) (rest : String) : Prop :=
  match prepare world options with
  | .error _ => rest = world.input
  | .ok p => (session world p).2.operator = .terminal rest

/-- A run takes lines from the beginning of the input, and whether it is a dry run makes no
    difference to how many. -/
theorem exists_leaves (world : World) (options : Options) :
    ∃ taken rest, world.input = taken ++ rest ∧
      ∀ dryRun, Leaves world { options with dryRun } rest := by
  cases hp : prepare world options with
  | error stop =>
    refine ⟨"", world.input, (String.empty_append).symm, fun dryRun => ?_⟩
    rw [Leaves, prepare_dryRun, hp]
  | ok p =>
    -- One line is gone for each question, as far as there are any.
    let lines := Operator.linesOf world.input.toList
    let n := (session world p).2.asked.length
    have hlines : (lines.take n).flatten ++ (lines.drop n).flatten = world.input.toList := by
      rw [← List.flatten_append, List.take_append_drop, Operator.flatten_linesOf]
    have hserved : (session world p).2.operator =
        .ofReplies _ ((lines.map String.ofList).drop n) :=
      p.resolver.execute_served p.reactor _ _
    refine ⟨String.ofList (lines.take n).flatten, String.ofList (lines.drop n).flatten, ?_,
      fun dryRun => ?_⟩
    · rw [← String.ofList_append, hlines, String.ofList_toList]
    · rw [Leaves, prepare_dryRun, hp]
      dsimp only
      rw [hserved, Operator.terminal, String.toList_ofList, Operator.linesOf_flatten_drop,
        List.map_drop]

/-! ### The outcomes -/

/-- A run and the dry run with the same options take the same input. If they do not finish, they
    fail alike; and if they do, they show the same before the versions and the same versions, and
    differ in what is said and done after that. -/
structure DiffersAtEnd (world : World) (plain dried : Options) : Prop where
  input : ∃ taken rest, world.input = taken ++ rest ∧
    Leaves world plain rest ∧ Leaves world dried rest
  failure : (¬∃ s, Finishes world plain s) →
    withOptions world dried = withOptions world plain ∧ (withOptions world plain).code ≠ 0
  versions : ∀ s, Finishes world plain s → ∃ before last,
    (withOptions world plain).output = before ++ shownRegistry s.registry ++ last ∧
    (withOptions world plain).diagnostics = told plain s ∧
    withOptions world dried =
      { code := 0,
        output := before ++ shownRegistry s.registry ++
          statusLine "Dry run: versions were not written",
        errors := "", written? := none, diagnostics := told plain s }

/-- At the end, the versions are shown before anything else happens. -/
theorem exists_output_finish (world : World) (options : Options) (output : String)
    (registry : Registry) :
    ∃ last, (finish world options output registry).output =
      output ++ shownRegistry registry ++ last := by
  rw [finish]
  cases options.dryRun with
  | true => exact ⟨_, rfl⟩
  | false =>
    dsimp only
    cases world.files.writeText world.directory options.output registry.toToml with
    | ok written =>
      refine ⟨"✓ Versions written to " ++ (options.output ++ "\n"), ?_⟩
      rw [← String.append_assoc, ← String.append_assoc]
      rfl
    | error failure => exact ⟨"", (String.append_empty).symm⟩

theorem differsAtEnd_of_dries {plain dried : Options} (h : plain.Dries dried) :
    DiffersAtEnd world plain dried := by
  obtain ⟨hplain, rfl⟩ := h
  have hsame : { plain with dryRun := false } = plain := by rw [← hplain]
  refine ⟨?_, fun hfails => ?_, fun s hfinishes => ?_⟩
  · obtain ⟨taken, rest, hinput, hleaves⟩ := exists_leaves world plain
    exact ⟨taken, rest, hinput, hsame ▸ hleaves false, hleaves true⟩
  · obtain ⟨outcome, -, hcode, houtcome⟩ := exists_outcome_of_not_finishes hfails
    have hfirst : withOptions world plain = outcome := hsame ▸ houtcome false
    exact ⟨(houtcome true).trans hfirst.symm, hfirst ▸ hcode⟩
  · obtain ⟨p, hready, hs⟩ := hfinishes
    have hprepare : prepare world { plain with dryRun := true } = .ok p :=
      (prepare_dryRun world plain true).trans (prepare_eq_ok_iff.2 hready)
    obtain ⟨last, hlast⟩ := exists_output_finish world plain (shownBefore p s) s.registry
    have hready' := prepare_eq_ok_iff.1 hprepare
    rw [withOptions_of_finishes hready hs, withOptions_of_finishes hready' hs]
    exact ⟨shownBefore p s, last, hlast, rfl, rfl⟩

/-- Arguments that can be read make a run with their options. -/
theorem run_of_ofArguments_ok {arguments : List String}
    (h : Options.ofArguments arguments = .ok options) :
    run world arguments = withOptions world options := by
  rw [run, h]

/-- A run with arguments writes a file exactly if they can be read and the run with the options
    writes it. -/
theorem written?_run_eq_some_iff {arguments : List String} {place : Place} {text : String} :
    (run world arguments).written? = some (place, text) ↔
      ∃ options s, Options.ofArguments arguments = .ok options ∧ Finishes world options s ∧
        options.dryRun = false ∧
        world.files.writablePlace world.directory options.output = .ok place ∧
        text = s.registry.toToml := by
  cases h : Options.ofArguments arguments with
  | error fault =>
    have hnothing : (run world arguments).written? = none := by
      rw [run, h]
      cases fault <;> rfl
    rw [hnothing]
    exact iff_of_false nofun fun ⟨_, _, hread, _⟩ => nomatch hread
  | ok options =>
    rw [run_of_ofArguments_ok h, written?_withOptions_eq_some_iff]
    constructor
    · rintro ⟨s, hwritten⟩
      exact ⟨options, s, rfl, hwritten⟩
    · rintro ⟨_, s, ⟨⟩, hwritten⟩
      exact ⟨s, hwritten⟩

/-- A run writes the registry to the file that the options name, if it finishes and is no dry run,
    and all other files stay as they are; otherwise all files do. A dry run differs from the run
    with the same arguments but one only after the versions are shown. -/
theorem run_writes_at_end (world : World) (arguments : List String) :
    (∀ place text, (run world arguments).written? = some (place, text) ↔
      ∃ options s, Options.ofArguments arguments = .ok options ∧ Finishes world options s ∧
        options.dryRun = false ∧
        world.files.writablePlace world.directory options.output = .ok place ∧
        text = s.registry.toToml) ∧
    (∀ place text, (run world arguments).written? = some (place, text) →
      (filesAfter world (run world arguments)).get? place = some (.file text.toUTF8) ∧
      ∀ other, other ≠ place →
        (filesAfter world (run world arguments)).get? other = world.files.get? other) ∧
    ((run world arguments).written? = none →
      filesAfter world (run world arguments) = world.files) ∧
    ∀ before after dried, arguments = before ++ after →
      Options.ofArguments (before ++ Options.dryFlag :: after) = .ok dried →
      ∃ plain, Options.ofArguments arguments = .ok plain ∧ plain.Dries dried ∧
        run world arguments = withOptions world plain ∧
        run world (before ++ Options.dryFlag :: after) = withOptions world dried ∧
        DiffersAtEnd world plain dried := by
  refine ⟨fun place text => written?_run_eq_some_iff, fun place text hwritten => ?_,
    filesAfter_of_not_written, ?_⟩
  · obtain ⟨options, s, -, -, -, hplace, -⟩ := written?_run_eq_some_iff.1 hwritten
    rw [filesAfter_of_written hwritten]
    exact ⟨FileTree.get?_set_self _ (FileTree.ne_nil_of_writablePlace hplace) _,
      fun other hother => FileTree.get?_set_of_ne _ hother _⟩
  · rintro before after dried rfl hdried
    obtain ⟨plain, hplain, hdries⟩ := Options.exists_plain_of_dry hdried
    exact ⟨plain, hplain, hdries, run_of_ofArguments_ok hplain, run_of_ofArguments_ok hdried,
      differsAtEnd_of_dries hdries⟩

/-- A world with one module, and nothing typed. -/
def oneModule : World where
  files := (FileTree.empty.addDirectory ["w"]).set ["w", Config.fileName]
    (.file "[[modules]]\nid = 'g:a'\nversion = '1.0-SNAPSHOT'\n".toUTF8)
  directory := ["w"]
  settings? := none
  repository? := none
  input := ""

/-- In batch mode its versions are written, in a dry run they are not. -/
theorem run_writes_at_end_of_oneModule :
    (filesAfter oneModule (run oneModule ["--batch"])).get? ["w", Options.defaultOutput] =
        some (.file ("[development]\n\"g:a\" = \"1.1-SNAPSHOT\"\n\n" ++
          "[release]\n\"g:a\" = \"1.0\"\n").toUTF8) ∧
      filesAfter oneModule (run oneModule ["--batch", "--dry-run"]) = oneModule.files ∧
      ∃ plain, run oneModule ["--batch"] = withOptions oneModule plain ∧
        run oneModule ["--batch", "--dry-run"] =
          withOptions oneModule { batch := true, dryRun := true } ∧
        DiffersAtEnd oneModule plain { batch := true, dryRun := true } := by
  obtain ⟨-, hwritten, -, hdry⟩ := run_writes_at_end oneModule ["--batch"]
  obtain ⟨-, -, hnothing, -⟩ := run_writes_at_end oneModule ["--batch", "--dry-run"]
  obtain ⟨plain, -, -, hplain, hdried, hend⟩ := hdry ["--batch"] [] _ rfl rfl
  refine ⟨(hwritten _ _ ?_).1, hnothing ?_, plain, hplain, hdried, hend⟩
  · decide +kernel
  · decide +kernel

end Run

end Versioning
