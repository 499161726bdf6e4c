import Versioning.Proofs.Policy.Development
import Versioning.Proofs.Version.Marker

/-!
# What the built-in policies propose

What comes out of a consultation is put together from what comes out of its steps
(`Consult.Ends`): a value with some property, or an error with another one. So it is seen that
the version to go on with is the text of a version under development without a qualifier, under
either policy (`Policy.development_ends`), and that the release which commits announce is the
strict text of a version (`Policy.Conventional.release_ends`). Their errors are about the rules,
about the change log or the tags in it, or about the format of a version, and about nothing else
(`ReleaseError.OfProposal`).
-/

namespace Versioning

/-- What the errors of a built-in policy are about. -/
inductive ErrorKind.OfProposal : ErrorKind → Prop
  | versionFormat : OfProposal .versionFormat
  | config : OfProposal .config
  | scm : OfProposal .scm
  | ambiguousTag : OfProposal .ambiguousTag

/-- The root cause is one that a built-in policy may have for an error. -/
def ReleaseError.OfProposal (e : ReleaseError) : Prop :=
  e.rootCause.kind.OfProposal

open ReleaseError (OfProposal)

namespace Consult

/-- Whatever was reported and asked before, a value of the consultation has one property and an
    error has another one. -/
def Ends {α : Type} (x : Consult α) (P : α → Prop) (E : ReleaseError → Prop) : Prop :=
  ∀ j, (∀ a, (x.run j).1 = .ok a → P a) ∧ ∀ e, (x.run j).1 = .error (.error e) → E e

namespace Ends

variable {α β : Type} {P : α → Prop} {Q : β → Prop} {E : ReleaseError → Prop}

theorem pure {a : α} (h : P a) : Ends (Pure.pure a) P E :=
  fun _ => ⟨fun _ ha => by cases ha; exact h, nofun⟩

theorem fail {e : ReleaseError} (h : E e) : Ends (Consult.fail e : Consult α) P E :=
  fun _ => ⟨nofun, fun _ he => by cases he; exact h⟩

theorem overflow : Ends (throw .overflow : Consult α) P E :=
  fun _ => ⟨nofun, nofun⟩

theorem mono {P' : α → Prop} {x : Consult α} (h : Ends x P E) (hP : ∀ a, P a → P' a) :
    Ends x P' E :=
  fun j => ⟨fun a ha => hP a ((h j).1 a ha), (h j).2⟩

theorem report (severity : Severity) (text : String) :
    Ends (Consult.report severity text) (fun _ => True) E :=
  fun _ => ⟨fun _ _ => trivial, nofun⟩

theorem ask (log : ChangeLog) (request : PageRequest) :
    Ends (Consult.ask log request) (fun _ => True) E :=
  fun _ => ⟨fun _ _ => trivial, nofun⟩

theorem ofExcept {x : Except ReleaseError α} (h : ∀ e, x = .error e → E e) :
    Ends (Consult.ofExcept x) (fun a => x = .ok a) E := by
  cases x with
  | ok a => exact pure rfl
  | error e => exact fail (h e rfl)

theorem ofOption (a? : Option α) : Ends (Consult.ofOption a?) (fun a => a? = some a) E := by
  cases a? with
  | none => exact overflow
  | some a => exact pure rfl

theorem bind {x : Consult α} {f : α → Consult β} (hx : Ends x P E)
    (hf : ∀ a, P a → Ends (f a) Q E) : Ends (x >>= f) Q E := by
  intro j
  obtain ⟨hvalue, herror⟩ := hx j
  rw [Failure.run_bind]
  rcases hrun : x.run j with ⟨failure | a, j'⟩ <;> rw [hrun] at hvalue herror
  · refine ⟨nofun, fun e he => ?_⟩
    cases he
    exact herror e rfl
  · exact hf a (hvalue a rfl) j'

theorem mapError {f : ReleaseError → ReleaseError} {x : Consult α}
    (h : Ends x P fun e => E (f e)) : Ends (Consult.mapError f x) P E := by
  intro j
  obtain ⟨hvalue, herror⟩ := h j
  rw [run_mapError]
  rcases hrun : x.run j with ⟨(e | _) | a, j'⟩ <;> rw [hrun] at hvalue herror
  · refine ⟨nofun, fun e' he' => ?_⟩
    cases he'
    exact herror e rfl
  · exact ⟨nofun, nofun⟩
  · exact ⟨hvalue, nofun⟩

end Ends

end Consult

open Consult (Ends)

/-! ### Rules -/

theorem RulesConfig.ofProposal_of_ofTable? {table? : Option Toml.Table} {e : ReleaseError}
    (h : ofTable? table? = .error e) : e.OfProposal := by
  cases table? with
  | none => cases h
  | some table =>
    rw [ofTable?] at h
    cases htable : ofTable table <;> rw [htable] at h <;> cases h
    exact ErrorKind.OfProposal.config

/-- Where a list cannot be gone through, one of its elements is at fault. -/
theorem exists_of_mapM_eq_error {α β ε : Type} {f : α → Except ε β} {l : List α} {e : ε}
    (h : l.mapM f = .error e) : ∃ a ∈ l, f a = .error e := by
  induction l with
  | nil => cases h
  | cons a rest ih =>
    rw [List.mapM_cons] at h
    cases ha : f a with
    | error e' =>
      rw [ha] at h
      cases h
      exact ⟨a, List.mem_cons_self, ha⟩
    | ok b =>
      cases hrest : rest.mapM f with
      | error e' =>
        rw [ha, hrest] at h
        cases h
        exact (ih hrest).imp fun a' ⟨hmem, ha'⟩ => ⟨List.mem_cons_of_mem _ hmem, ha'⟩
      | ok bs =>
        rw [ha, hrest] at h
        cases h

namespace Rules

theorem ofProposal_of_compile {wholeMessage : Bool} {source : String} {e : ReleaseError}
    (h : compile wholeMessage source = .error e) : e.OfProposal := by
  rw [compile] at h
  cases hpattern : Pattern.ofText?
      { Pattern.Flags.plain with multiLine := true, dotAll := wholeMessage } source <;>
    rw [hpattern] at h <;> cases h
  exact ErrorKind.OfProposal.config

/-- What can be wrong with rules is a pattern. -/
theorem ofProposal_of_ofConfig {config : RulesConfig} {e : ReleaseError}
    (h : ofConfig config = .error e) : e.OfProposal := by
  have hpatterns {sources : List String} {e : ReleaseError}
      (h : sources.mapM (compile true) = .error e) : e.OfProposal := by
    obtain ⟨source, -, hsource⟩ := exists_of_mapM_eq_error h
    exact ofProposal_of_compile hsource
  rw [ofConfig] at h
  cases htag : compile false config.tagSource with
  | error e' =>
    rw [htag] at h
    cases h
    exact ofProposal_of_compile htag
  | ok tag =>
    cases hmajor : (defaultMajorPatterns ++ config.majorRules).mapM (compile true) with
    | error e' =>
      rw [htag, hmajor] at h
      cases h
      exact hpatterns hmajor
    | ok major =>
      cases hminor : (defaultMinorPatterns ++ config.minorRules).mapM (compile true) with
      | error e' =>
        rw [htag, hmajor, hminor] at h
        cases h
        exact hpatterns hminor
      | ok minor =>
        rw [htag, hmajor, hminor] at h
        cases h

end Rules

/-! ### Histories -/

namespace CommitHistory

variable (log : ChangeLog) (directory : String) (rules : Rules) (limits : MiningLimits)

/-- A search fails because the log refuses a page, or because a release has several versions. -/
theorem mineFrom_ends (fuel limit : Nat) (previous? : Option Nat) :
    Ends (mineFrom log directory rules limits fuel limit previous?) (fun _ => True)
      OfProposal := by
  induction fuel generalizing limit previous? with
  | zero => exact .overflow
  | succ fuel ih =>
    refine (Ends.ask log _).bind fun answer _ => ?_
    cases answer with
    | error e => exact .fail ErrorKind.OfProposal.scm
    | ok page =>
      dsimp only
      split
      · exact .fail ErrorKind.OfProposal.ambiguousTag
      · split
        · exact (Ends.report _ _).bind fun _ _ => .pure trivial
        · split
          · exact .overflow
          · exact ih _ _

theorem mine_ends : Ends (mine log directory rules limits) (fun _ => True) OfProposal :=
  mineFrom_ends log directory rules limits _ _ _

end CommitHistory

/-! ### Proposals -/

theorem readVersion_ends (text : String) :
    Ends (readVersion text) (fun v => Version.parse? text = some v) OfProposal := by
  rw [readVersion]
  split
  · next v hv => exact .pure hv
  · exact .fail ErrorKind.OfProposal.versionFormat

namespace Policy

variable (request : PolicyRequest)

theorem release_markerOnly_ends :
    Ends (markerOnly.release request)
      (fun text => ∃ v, Version.parse? request.version = some v ∧ text = v.toRelease.text)
      OfProposal := by
  refine (readVersion_ends _).bind fun v hv => ?_
  exact (Ends.report _ _).bind fun _ _ => .pure ⟨v, hv, rfl⟩

namespace Conventional

theorem history_ends (rules : Rules) :
    Ends (history request rules) (fun _ => True) OfProposal := by
  rw [history]
  split
  · exact (Ends.report _ _).bind fun _ _ => .pure trivial
  · next log _ => exact Ends.mapError (CommitHistory.mine_ends log _ rules _)

theorem suggestRelease_ends (rules : Rules) (found : CommitHistory) (current : String) :
    Ends (suggestRelease rules found current) (fun text => ∃ v : Version, text = v.strictText)
      OfProposal := by
  refine (Ends.report _ _).bind fun _ _ => (Ends.report _ _).bind fun _ _ => ?_
  refine (Ends.report _ _).bind fun _ _ => (Ends.report _ _).bind fun _ _ => ?_
  refine (readVersion_ends _).bind fun v _ => (Ends.ofOption _).bind fun next _ => ?_
  exact (Ends.report _ _).bind fun _ _ => .pure ⟨next, rfl⟩

/-- The release that commits announce is written strictly, wherever it starts from. -/
theorem release_ends :
    Ends (conventional.release request) (fun text => ∃ v : Version, text = v.strictText)
      OfProposal := by
  refine (Ends.ofExcept fun e => RulesConfig.ofProposal_of_ofTable?).bind fun config _ => ?_
  refine (Ends.ofExcept fun e => Rules.ofProposal_of_ofConfig).bind fun rules _ => ?_
  exact (history_ends request rules).bind fun found _ => suggestRelease_ends rules found _

end Conventional

/-- Either policy goes on with a version under development, and drops the qualifier. -/
theorem development_ends {policy : Policy} (hpolicy : policy = markerOnly ∨ policy = conventional) :
    Ends (policy.development request)
      (fun text => ∃ v : Version, v.snapshot = true ∧ v.qualifier? = none ∧ text = v.text)
      OfProposal := by
  rcases hpolicy with rfl | rfl
  · refine (readVersion_ends _).bind fun v _ => (Ends.ofOption _).bind fun next hnext => ?_
    have hqualifier : next.qualifier? = none := Version.qualifier?_of_bump? (by decide) hnext
    exact (Ends.report _ _).bind fun _ _ => .pure ⟨next.toSnapshot, rfl, hqualifier, rfl⟩
  · refine (readVersion_ends _).bind fun v _ => (Ends.ofOption _).bind fun next _ => ?_
    refine (Ends.report _ _).bind fun _ _ =>
      .pure ⟨⟨.three next.major next.minor next.patch, none, true⟩, rfl, rfl, ?_⟩
    exact strictText_append_marker next

end Policy

end Versioning
