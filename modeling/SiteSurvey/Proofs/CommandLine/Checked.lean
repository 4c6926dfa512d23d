import SiteSurvey.Disk.View
import SiteSurvey.Proofs.CommandLine.Status

/-!
# Checked patterns are never refused

Patterns are read when a configuration is checked and again when a survey is planned. Both times the
first faulty pattern decides, so every survey is planned whose configuration loads, and the patterns
ignore what each of them matches (`pattern_checks_agree`).
-/

namespace SiteSurvey.CommandLine

open Glob (IsFirstFaulty)

/--
Checking a configuration fails with the fault of its first faulty pattern, and exactly then do its
options fail, with the same fault. A request whose configuration loads has its options, whatever
depths it asks for, and there is a plan with them. Options ignore the fixed names and what some
pattern matches; patterns in another order or number ignore the same, and further ones only more.
-/
theorem pattern_checks_agree :
    (∀ config : Config,
      (∀ error, config.checked = .error error ↔
        ∃ pattern fault, IsFirstFaulty config.ignores pattern fault ∧
          error = .badPattern pattern fault) ∧
      ∀ fault, config.options = .error fault ↔
        ∃ pattern, config.checked = .error (.badPattern pattern fault)) ∧
    (∀ view directory loaded, Config.load view directory = .ok loaded → ∀ request : ScanRequest,
      ∃ options plan, (request.override loaded.config).options = .ok options ∧
        CommandLine.plan view directory request = .ok plan ∧ plan.options = options) ∧
    ∀ (config : Config) (options : Survey.Options), config.options = .ok options →
      (∀ name, options.ignored.ignores name ↔
        name ∈ IgnoreSet.builtin ∨ ∃ pattern ∈ config.ignores, Glob.Matches pattern name) ∧
      (∀ config' : Config, (∀ pattern, pattern ∈ config'.ignores ↔ pattern ∈ config.ignores) →
        ∃ options', config'.options = .ok options' ∧
          ∀ name, options'.ignored.ignores name = options.ignored.ignores name) ∧
      ∀ (config' : Config) (options' : Survey.Options), config'.options = .ok options' →
        config.ignores ⊆ config'.ignores →
        ∀ name, options.ignored.ignores name → options'.ignored.ignores name := by
  refine ⟨fun config => ⟨fun _ => Config.checked_eq_error_iff, fun fault => ?_⟩, ?_, ?_⟩
  · rw [Config.options_eq_error_iff]
    refine exists_congr fun pattern => ⟨Config.checked_of_isFirstFaulty, fun h => ?_⟩
    obtain ⟨_, _, hfaulty, he⟩ := Config.checked_eq_error_iff.1 h
    cases he
    exact hfaulty
  · intro view directory loaded hload request
    obtain ⟨options, hoptions, hplan⟩ := plan_of_load hload request
    exact ⟨options, _, hoptions, hplan, rfl⟩
  · intro config options hoptions
    refine ⟨Config.ignores_iff hoptions, fun config' hsame => ?_, ?_⟩
    · have hsound : ∀ pattern ∈ config'.ignores, Glob.IsSound pattern := fun pattern hpattern =>
        Config.isSound_of_options hoptions pattern ((hsame pattern).1 hpattern)
      obtain ⟨_, hoptions', -⟩ := Config.options_of_isSound hsound
      refine ⟨_, hoptions', fun name => ?_⟩
      rw [Bool.eq_iff_iff, Config.ignores_iff hoptions', Config.ignores_iff hoptions]
      simp only [hsame]
    · intro config' options' hoptions' hsubset name hname
      rw [Config.ignores_iff hoptions] at hname
      rw [Config.ignores_iff hoptions']
      exact hname.imp_right fun ⟨pattern, hpattern, hmatches⟩ =>
        ⟨pattern, hsubset hpattern, hmatches⟩

/-- A configuration on a disk, and configurations with its patterns in another order and with a
further one. -/
theorem pattern_checks_agree_depot :
    let text := "\x7b\"ignores\": [\"*.egg-info\", \"docs\"]\x7d"
    let disk : Disk := ⟨⟨[([Config.fileName], .file (some text))], by decide⟩⟩
    let config : Config := { ignores := ["*.egg-info", "docs"] }
    let shuffled : Config := { ignores := ["docs", "*.egg-info", "docs"] }
    let longer : Config := { ignores := ["docs", "?", "*.egg-info"] }
    Config.load (disk.view []) ⟨""⟩ = .ok ⟨config, true⟩ ∧
    (∃ plan, CommandLine.plan (disk.view []) ⟨""⟩ { appDepth := some 9 } = .ok plan ∧
      plan.options.appDepth = 9) ∧
    ∃ options options', config.options = .ok options ∧ longer.options = .ok options' ∧
      options.ignored.ignores "shop.egg-info" ∧ options'.ignored.ignores "shop.egg-info" ∧
      ∃ same, shuffled.options = .ok same ∧
        same.ignored.ignores "core" = options.ignored.ignores "core" := by
  intro text disk config shuffled longer
  have hload : Config.load (disk.view []) ⟨""⟩ = .ok ⟨config, true⟩ := by decide +kernel
  obtain ⟨-, hload', hignores⟩ := pattern_checks_agree
  obtain ⟨_, plan, hplanned, hplan, rfl⟩ := hload' _ _ _ hload { appDepth := some 9 }
  have hdepth : plan.options.appDepth = 9 := by
    injection hplanned with hplanned
    exact (congrArg Survey.Options.appDepth hplanned).symm
  obtain ⟨options, hoptions⟩ : ∃ options, config.options = .ok options := ⟨_, rfl⟩
  obtain ⟨options', hoptions'⟩ : ∃ options', longer.options = .ok options' := ⟨_, rfl⟩
  obtain ⟨hiff, hsame, hmore⟩ := hignores config options hoptions
  have hinfo : options.ignored.ignores "shop.egg-info" :=
    (hiff _).2 (Or.inr ⟨"*.egg-info", by decide, _, rfl, by decide⟩)
  obtain ⟨same, hshuffled, hcore⟩ := hsame shuffled (by simp [shuffled, config])
  exact ⟨hload, ⟨plan, hplan, hdepth⟩, options, options', hoptions, hoptions', hinfo,
    hmore longer options' hoptions' (by decide) _ hinfo, same, hshuffled, hcore "core"⟩

end SiteSurvey.CommandLine
