import Versioning.Error

/-!
# Errors in context

On its way out of a run an error is put into context: by the policy that had no proposal because of
it, and by the module whose version could not be resolved. Each of these is a *layer* around the
error (`ReleaseError.Layer`), and there may be any number of them in any order
(`ReleaseError.within`).

An error is its root cause within its own layers (`ReleaseError.within_layers`). Further layers come
in front of these (`ReleaseError.layers_within`) and leave the root cause as it is
(`ReleaseError.rootCause_within`), and with it all that the root cause decides. There is another way
to it, from each error to the one that it names as its source (`ReleaseError.Source.behind?`). A
step on this way takes off one layer, so it arrives at the root cause after as many steps as there
are layers, and passes it only once (`ReleaseError.cause_within_layers`).
-/

namespace Versioning.ReleaseError

/-- What puts an error into context. -/
inductive Layer where
  | policy (message : String)
  | inModule (moduleId : String) (phase : Phase)

/-- An error within some layers, the outermost first. -/
def within (e : ReleaseError) : List Layer → ReleaseError
  | [] => e
  | .policy message :: rest => .policy message (e.within rest)
  | .inModule moduleId phase :: rest => .inModule moduleId phase (e.within rest)

/-- The layers around the root cause, the outermost first. -/
def layers : ReleaseError → List Layer
  | .policy message source => .policy message :: source.layers
  | .inModule moduleId phase source => .inModule moduleId phase :: source.layers
  | _ => []

variable (e : ReleaseError) (outer : List Layer)

/-! ### The root cause -/

/-- Layers do not change the root cause. -/
theorem rootCause_within : (e.within outer).rootCause = e.rootCause := by
  induction outer with
  | nil => rfl
  | cons layer rest ih => cases layer <;> exact ih

/-- Layers that are put around an error come in front of its own. -/
theorem layers_within : (e.within outer).layers = outer ++ e.layers := by
  induction outer with
  | nil => rfl
  | cons layer rest ih => cases layer <;> simp only [within, layers, ih, List.cons_append]

/-- An error is its root cause within its layers. -/
theorem within_layers : e.rootCause.within e.layers = e := by
  induction e with
  | policy _ source ih | inModule _ _ source ih => simp only [rootCause, layers, within, ih]
  | _ => rfl

/-- The root cause has no layers of its own. -/
theorem layers_rootCause : e.rootCause.layers = [] := by
  induction e with
  | policy _ source ih | inModule _ _ source ih => exact ih
  | _ => rfl

/-- An error without layers is neither one of a policy nor one of a module. -/
theorem kind_ne_of_layers {e : ReleaseError} (h : e.layers = []) :
    e.kind ≠ .policy ∧ e.kind ≠ .inModule := by
  cases e with
  | policy | inModule => cases h
  | _ => exact ⟨nofun, nofun⟩

/-- No error is about both a missing policy and a version that cannot be used. -/
theorem not_isPolicyNotFound_and_isVersionFormat :
    ¬(e.isPolicyNotFound = true ∧ e.isVersionFormat = true) := by
  rw [isPolicyNotFound, isVersionFormat]
  generalize e.rootCause.kind = kind
  cases kind <;> decide

/-! ### From source to source -/

/-- What an error names as its source. -/
def source? : ReleaseError → Option Source
  | .policy _ source => some (.release source)
  | .scmCausedBy _ source => some (.release source)
  | .inModule _ _ source => some (.release source)
  | .unresolvedHead fault => some (.repository fault)
  | .prompt failure => some (.input failure)
  | .repository fault => some (.repository fault)
  | .io failure => some (.input failure)
  | _ => none

/-- What is reached after some steps from source to source. -/
def Source.behind? : Source → Nat → Option Source
  | s, 0 => some s
  | .release e, n + 1 => e.source?.bind (behind? · n)
  | _, _ + 1 => none

/-- The causes that are listed behind an error are what is reached from it, step by step. -/
theorem behind?_succ (n : Nat) : (Source.release e).behind? (n + 1) = e.sources[n]? := by
  induction n generalizing e with
  | zero => cases e <;> rfl
  | succ n ih =>
    cases e with
    | policy _ source | scmCausedBy _ source | inModule _ _ source => exact ih source
    | _ => rfl

variable {e outer}

/-- A cause has fewer causes behind it than the error has. -/
theorem length_sources_lt {cause : ReleaseError} (h : Source.release cause ∈ e.sources) :
    cause.sources.length < e.sources.length := by
  induction e with
  | policy _ source ih | scmCausedBy _ source ih | inModule _ _ source ih =>
    rw [sources, List.length_cons]
    obtain hsource | hmem := List.mem_cons.1 h
    · obtain rfl := Source.release.inj hsource
      exact Nat.lt_succ_self _
    · exact Nat.lt_succ_of_lt (ih hmem)
  | _ => simp [sources] at h

/-- No error is behind itself. -/
theorem behind?_succ_ne_self (n : Nat) :
    (Source.release e).behind? (n + 1) ≠ some (.release e) := by
  rw [behind?_succ]
  intro h
  exact Nat.lt_irrefl _ (length_sources_lt (List.mem_of_getElem? h))

/-- The source takes off the outermost layer. -/
theorem source?_within_cons (layer : Layer) :
    (e.within (layer :: outer)).source? = some (.release (e.within outer)) := by
  cases layer <;> rfl

/-- The first error without layers is reached when all layers are taken off, and at no other point. -/
theorem behind?_within_eq_iff (outer : List Layer) (h : e.layers = []) {n : Nat} :
    (Source.release (e.within outer)).behind? n = some (.release e) ↔ n = outer.length := by
  induction outer generalizing n with
  | nil => cases n with
    | zero => exact iff_of_true rfl rfl
    | succ n => exact iff_of_false (behind?_succ_ne_self n) (Nat.succ_ne_zero n)
  | cons layer rest ih => cases n with
    | zero =>
      refine iff_of_false (fun hself => ?_) (Nat.succ_ne_zero _).symm
      have hwithin : e.within (layer :: rest) = e := Source.release.inj (Option.some.inj hself)
      have hlayers := layers_within e (layer :: rest)
      rw [hwithin, h] at hlayers
      cases hlayers
    | succ n =>
      rw [Source.behind?, source?_within_cons, Option.bind_some, ih, List.length_cons,
        Nat.succ_inj]

/-- However an error is put into context, it stays what it is: the root cause is the same, which is
    no context itself, and so is the answer to each question about it, of which at most one is
    answered with yes. The causes that are listed behind it are those on the way from source to
    source, and on this way the root cause is reached after as many steps as there are layers, those
    around the error and its own, and at no other point. -/
theorem cause_within_layers (e : ReleaseError) (outer : List Layer) :
    let nest := e.within outer
    nest.rootCause = e.rootCause ∧
    (nest.rootCause.kind ≠ .policy ∧ nest.rootCause.kind ≠ .inModule) ∧
    nest.isPolicyNotFound = e.isPolicyNotFound ∧
    nest.isVersionFormat = e.isVersionFormat ∧
    ¬(nest.isPolicyNotFound = true ∧ nest.isVersionFormat = true) ∧
    (∀ n, (Source.release nest).behind? (n + 1) = nest.sources[n]?) ∧
    ∀ n, (Source.release nest).behind? n = some (.release nest.rootCause) ↔
      n = outer.length + e.layers.length := by
  intro nest
  have hroot : nest.rootCause = e.rootCause := rootCause_within e outer
  refine ⟨hroot, kind_ne_of_layers (layers_rootCause nest), ?_, ?_,
    not_isPolicyNotFound_and_isVersionFormat nest, behind?_succ nest, fun n => ?_⟩
  · rw [isPolicyNotFound, hroot, isPolicyNotFound]
  · rw [isVersionFormat, hroot, isVersionFormat]
  · have hlayers := behind?_within_eq_iff nest.layers (layers_rootCause nest) (n := n)
    rwa [within_layers, layers_within, List.length_append] at hlayers

/-- Behind a failure of version control, an error of a policy is no layer any more. -/
example :
    let e : ReleaseError := .scmCausedBy "log" (.policy "page" (.config (.stated "rules")))
    (e.within [.inModule "g:a" .release, .policy "history"]).rootCause = e ∧
      e.layers.length = 0 := ⟨rfl, rfl⟩

end Versioning.ReleaseError
