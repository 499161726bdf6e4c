import Versioning.Config
import Versioning.Proofs.Module.Naming
import Versioning.Proofs.Rules.Sources

/-!
# Versions under the texts of ids

A configuration lists versions for modules under the texts of their ids (`Config.listed`). What is
listed under a text *applies* to an id if the version that is fixed for the id depends on it
(`Config.Applies`). It applies to all ids with this text (`Config.applies_iff`), of which there may
be several in general. But the modules of a reactor have ids that were read from texts, and among
those there is only one (`ModuleId.texts_one_to_one`).
-/

namespace Versioning

namespace Config

variable {config : Config} {key : String} {id : ModuleId}

/-- The versions that are listed under a text. -/
def listed (config : Config) (key : String) (phase : Phase) : Option String :=
  match phase with
  | .release => config.releaseVersions.get? key
  | .development => config.developmentVersions.get? key
  | .branch => config.branchVersions.get? key
  | .workingCopy => config.workingCopyVersions.get? key

/-- What is listed under a text applies to an id: if something else was listed there, and the same
    under all other texts, the version that is fixed for the id could be another one. -/
def Applies (config : Config) (key : String) (id : ModuleId) : Prop :=
  ∃ other : Config, (∀ text, text ≠ key → other.listed text = config.listed text) ∧
    ∃ phase, other.explicitVersion? phase id ≠ config.explicitVersion? phase id

/-- Only what is listed under the text of an id decides on the version that is fixed for it. -/
theorem explicitVersion?_congr {other : Config} (h : other.listed id.text = config.listed id.text)
    (phase : Phase) : other.explicitVersion? phase id = config.explicitVersion? phase id := by
  have hdevelopment : other.developmentVersions.get? id.text =
      config.developmentVersions.get? id.text := congrFun h .development
  cases phase with
  | release => exact congrArg nonBlank? (congrFun h .release)
  | development => exact congrArg nonBlank? hdevelopment
  | branch => exact congrArg nonBlank? (congrFun h .branch)
  | workingCopy =>
    have hworkingCopy : other.workingCopyVersions.get? id.text =
        config.workingCopyVersions.get? id.text := congrFun h .workingCopy
    rw [explicitVersion?, explicitVersion?, hworkingCopy, hdevelopment]

/-- A version that is listed for a release is fixed for it. -/
theorem explicitVersion?_insert {version : String} (h : Text.isBlank version = false) :
    { config with
      releaseVersions := config.releaseVersions.insert id.text version
    }.explicitVersion? .release id = some version := by
  rw [explicitVersion?, OrderedMap.get?_insert_self, nonBlank?, Option.filter_some, h]
  rfl

/-- What is listed under a text applies to the ids with this text and to no others. -/
theorem applies_iff : config.Applies key id ↔ id.text = key := by
  constructor
  · rintro ⟨other, hsame, phase, hdiffers⟩
    by_contra hne
    exact hdiffers (explicitVersion?_congr (hsame _ hne) phase)
  · rintro rfl
    -- One of two versions is not the one that is fixed now.
    obtain ⟨version, hblank, hversion⟩ : ∃ version, Text.isBlank version = false ∧
        config.explicitVersion? .release id ≠ some version := by
      by_cases hfixed : config.explicitVersion? .release id = some "1"
      · exact ⟨"2", by decide, by rw [hfixed]; decide⟩
      · exact ⟨"1", by decide, hfixed⟩
    refine ⟨{ config with releaseVersions := config.releaseVersions.insert id.text version },
      fun text hne => ?_, .release, ?_⟩
    · funext phase
      cases phase with
      | release => exact OrderedMap.get?_insert_of_ne _ _ hne
      | _ => rfl
    · rw [explicitVersion?_insert hblank]
      exact hversion.symm

end Config

/-- A module that is accepted has a legible id, as it was read from a text. -/
theorem ModuleConfig.legible_of_toModule {listed : ModuleConfig} {m : Module}
    (h : listed.toModule = .ok m) : m.id.Legible := by
  rw [toModule] at h
  cases hid : ModuleId.parse? listed.id with
  | none =>
    rw [hid] at h
    cases h
  | some id =>
    rw [hid] at h
    cases h
    exact (ModuleId.parse?_eq_some_iff.1 hid).2

/-- So have all modules of a reactor. -/
theorem Config.legible_of_mapM_toModule {listed : List ModuleConfig} {reactor : List Module}
    (h : listed.mapM ModuleConfig.toModule = .ok reactor) : ∀ m ∈ reactor, m.id.Legible := by
  have hpairs := mapM_eq_ok_iff.1 h
  clear h
  induction hpairs with
  | nil => exact nofun
  | cons hfirst _ ih => exact List.forall_mem_cons.2 ⟨ModuleConfig.legible_of_toModule hfirst, ih⟩

namespace ModuleId

/-- Ids and texts correspond one to one: exactly the texts with a single colon that is not at either
    end are read as ids, and what is read has this text; exactly the ids whose names are not empty
    and have no colon are read from their own texts. So modules with different ids that are accepted
    have different texts, and what is listed under a text applies to those modules of a reactor whose
    id the text is read as. There are no two of them with different ids. -/
theorem texts_one_to_one :
    (∀ key, (parse? key).isSome = true ↔ key.toList.count ':' = 1 ∧
      key.toList.head? ≠ some ':' ∧ key.toList.getLast? ≠ some ':') ∧
    (∀ key id, parse? key = some id → id.text = key) ∧
    (∀ id, parse? id.text = some id ↔ id.Legible) ∧
    (∀ (a b : ModuleConfig) (m n : Module), a.toModule = .ok m → b.toModule = .ok n →
      m.id ≠ n.id → m.id.text ≠ n.id.text) ∧
    ∀ (config : Config) (listed : List ModuleConfig) (reactor : List Module),
      listed.mapM ModuleConfig.toModule = .ok reactor → ∀ key, ∀ m ∈ reactor,
        (config.Applies key m.id ↔ parse? key = some m.id) ∧
        ∀ n ∈ reactor, config.Applies key m.id → config.Applies key n.id → m.id = n.id := by
  refine ⟨fun key => isSome_parse?_iff, fun key id => text_of_parse?, fun id => parse?_text_iff,
    fun a b m n hm hn hne htext => hne ?_, fun config listed reactor hreactor key m hm => ?_⟩
  · exact (ModuleConfig.legible_of_toModule hm).eq_of_text_eq
      (ModuleConfig.legible_of_toModule hn) htext
  · have hlegible := Config.legible_of_mapM_toModule hreactor
    refine ⟨?_, fun n hn happlies happlies' => ?_⟩
    · rw [Config.applies_iff, parse?_eq_some_iff, and_iff_left (hlegible m hm)]
    · rw [Config.applies_iff] at happlies happlies'
      exact (hlegible m hm).eq_of_text_eq (hlegible n hn) (happlies.trans happlies'.symm)

/-- A version that is listed for the second of two modules. -/
theorem texts_one_to_one_of_two :
    let core : Module := .ofId ⟨"g", "core"⟩ "1.0-SNAPSHOT"
    let web : Module := .ofId ⟨"g", "web"⟩ "1.0-SNAPSHOT"
    let config : Config := {
      releaseVersions := .ofList [("g:web", "3.0")]
      modules := [⟨"g:core", none, "1.0-SNAPSHOT", none⟩, ⟨"g:web", none, "1.0-SNAPSHOT", none⟩] }
    config.reactor = .ok [core, web] ∧ core.id ≠ web.id ∧ core.id.text ≠ web.id.text ∧
      config.Applies "g:web" web.id ∧ ¬config.Applies "g:web" core.id := by
  intro core web config
  have hreactor : config.reactor = .ok [core, web] := by decide +kernel
  have hne : core.id ≠ web.id := by decide
  obtain ⟨-, -, -, htexts, hlisted⟩ := texts_one_to_one
  have happlies := hlisted config config.modules [core, web] hreactor "g:web"
  have hweb : config.Applies "g:web" web.id :=
    (happlies web (by simp)).1.2 (by decide +kernel)
  refine ⟨hreactor, hne, ?_, hweb, fun hcore => hne ?_⟩
  · exact htexts ⟨"g:core", none, "1.0-SNAPSHOT", none⟩ ⟨"g:web", none, "1.0-SNAPSHOT", none⟩ core web
      (by decide +kernel) (by decide +kernel) hne
  · exact (happlies core (by simp)).2 web (by simp) hcore hweb

end ModuleId

end Versioning
