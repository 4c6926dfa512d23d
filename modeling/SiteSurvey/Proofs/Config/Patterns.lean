import Mathlib.Data.List.Basic
import SiteSurvey.Config.Search

/-!
# Sound and faulty patterns

The patterns of a configuration are read one after the other, once to check them and once to make
the options of a survey. Both end at the first faulty pattern (`checked_eq_error_iff`,
`options_eq_error_iff`), and only soundness of all patterns lets them succeed. What is ignored then
depends on which patterns there are, not on their order or number (`ignores_iff`).
-/

namespace SiteSurvey

/-! ## Lists of patterns -/

namespace Glob

def IsSound (pattern : String) : Prop :=
  ∃ tokens, Pattern.read pattern = .ok tokens

/-- The pattern can be read and matches the whole text. -/
def Matches (pattern text : String) : Prop :=
  ∃ tokens, Pattern.read pattern = .ok tokens ∧ tokens.accepts text

/-- All patterns before this one are sound, and this one has the fault. -/
def IsFirstFaulty (patterns : List String) (pattern : String) (fault : Fault) : Prop :=
  ∃ sound rest, patterns = sound ++ pattern :: rest ∧ (∀ first ∈ sound, IsSound first) ∧
    Pattern.read pattern = .error fault

theorem not_isFirstFaulty_nil (pattern : String) (fault : Fault) :
    ¬ IsFirstFaulty [] pattern fault := by
  rintro ⟨sound, rest, h, -⟩
  simp at h

theorem isFirstFaulty_cons_iff {first : String} {patterns : List String} {pattern : String}
    {fault : Fault} :
    IsFirstFaulty (first :: patterns) pattern fault ↔
      first = pattern ∧ Pattern.read first = .error fault ∨
        IsSound first ∧ IsFirstFaulty patterns pattern fault := by
  constructor
  · rintro ⟨sound, rest, h, hsound, hfault⟩
    cases sound with
    | nil =>
      cases h
      exact Or.inl ⟨rfl, hfault⟩
    | cons other sound =>
      cases h
      rw [List.forall_mem_cons] at hsound
      exact Or.inr ⟨hsound.1, sound, rest, rfl, hsound.2, hfault⟩
  · rintro (⟨rfl, hfault⟩ | ⟨hfirst, sound, rest, rfl, hsound, hfault⟩)
    · exact ⟨[], patterns, rfl, List.forall_mem_nil _, hfault⟩
    · exact ⟨first :: sound, rest, rfl, List.forall_mem_cons.2 ⟨hfirst, hsound⟩, hfault⟩

/-- A list of patterns is sound or has a first faulty one. -/
theorem isSound_or_exists_isFirstFaulty (patterns : List String) :
    (∀ pattern ∈ patterns, IsSound pattern) ∨
      ∃ pattern fault, IsFirstFaulty patterns pattern fault := by
  induction patterns with
  | nil => exact Or.inl (List.forall_mem_nil _)
  | cons first patterns ih =>
    rcases hfirst : Pattern.read first with fault | tokens
    · exact Or.inr ⟨first, fault, isFirstFaulty_cons_iff.2 (Or.inl ⟨rfl, hfirst⟩)⟩
    · rcases ih with hsound | ⟨pattern, fault, h⟩
      · exact Or.inl (List.forall_mem_cons.2 ⟨⟨tokens, hfirst⟩, hsound⟩)
      · exact Or.inr ⟨pattern, fault, isFirstFaulty_cons_iff.2 (Or.inr ⟨⟨tokens, hfirst⟩, h⟩)⟩

theorem readAll_of_isFirstFaulty {patterns : List String} {pattern : String} {fault : Fault}
    (h : IsFirstFaulty patterns pattern fault) : Pattern.readAll patterns = .error fault := by
  induction patterns with
  | nil => exact absurd h (not_isFirstFaulty_nil pattern fault)
  | cons first patterns ih =>
    rcases isFirstFaulty_cons_iff.1 h with ⟨-, hfirst⟩ | ⟨⟨tokens, hfirst⟩, hlater⟩
    · rw [Pattern.readAll, hfirst]
    · rw [Pattern.readAll, hfirst, ih hlater]
      rfl

/-- What is read of a list of patterns is what is read of each of them. -/
theorem readAll_of_isSound {patterns : List String}
    (h : ∀ pattern ∈ patterns, IsSound pattern) :
    ∃ all, Pattern.readAll patterns = .ok all ∧
      ∀ tokens, tokens ∈ all ↔ ∃ pattern ∈ patterns, Pattern.read pattern = .ok tokens := by
  induction patterns with
  | nil => exact ⟨[], rfl, by simp⟩
  | cons first patterns ih =>
    rw [List.forall_mem_cons] at h
    obtain ⟨⟨own, hfirst⟩, hlater⟩ := h
    obtain ⟨all, hall, hmem⟩ := ih hlater
    refine ⟨own :: all, by rw [Pattern.readAll, hfirst, hall]; rfl, fun tokens => ?_⟩
    rw [List.mem_cons, hmem, List.exists_mem_cons_iff, hfirst, Except.ok.injEq, eq_comm]

theorem readAll_eq_error_iff {patterns : List String} {fault : Fault} :
    Pattern.readAll patterns = .error fault ↔
      ∃ pattern, IsFirstFaulty patterns pattern fault := by
  refine ⟨fun h => ?_, fun ⟨_, h⟩ => readAll_of_isFirstFaulty h⟩
  rcases isSound_or_exists_isFirstFaulty patterns with hsound | ⟨pattern, other, hfaulty⟩
  · obtain ⟨all, hall, -⟩ := readAll_of_isSound hsound
    rw [h] at hall
    cases hall
  · have hother := readAll_of_isFirstFaulty hfaulty
    rw [h] at hother
    cases hother
    exact ⟨pattern, hfaulty⟩

theorem isSound_of_readAll {patterns : List String} {all : List Pattern}
    (h : Pattern.readAll patterns = .ok all) : ∀ pattern ∈ patterns, IsSound pattern := by
  refine (isSound_or_exists_isFirstFaulty patterns).resolve_right ?_
  rintro ⟨pattern, fault, hfaulty⟩
  rw [readAll_of_isFirstFaulty hfaulty] at h
  cases h

end Glob

open Glob (IsSound IsFirstFaulty)

/-! ## The two checks of a configuration -/

namespace Config

theorem firstFaulty?_of_isFirstFaulty {patterns : List String} {pattern : String}
    {fault : Glob.Fault} (h : IsFirstFaulty patterns pattern fault) :
    firstFaulty? patterns = some (pattern, fault) := by
  induction patterns with
  | nil => exact absurd h (Glob.not_isFirstFaulty_nil pattern fault)
  | cons first patterns ih =>
    rcases Glob.isFirstFaulty_cons_iff.1 h with ⟨rfl, hfirst⟩ | ⟨⟨tokens, hfirst⟩, hlater⟩
    · rw [firstFaulty?, hfirst]
    · rw [firstFaulty?, hfirst]
      exact ih hlater

theorem firstFaulty?_of_isSound {patterns : List String}
    (h : ∀ pattern ∈ patterns, IsSound pattern) : firstFaulty? patterns = none := by
  induction patterns with
  | nil => rfl
  | cons first patterns ih =>
    rw [List.forall_mem_cons] at h
    obtain ⟨⟨tokens, hfirst⟩, hlater⟩ := h
    rw [firstFaulty?, hfirst]
    exact ih hlater

variable {config : Config}

theorem checked_of_isFirstFaulty {pattern : String} {fault : Glob.Fault}
    (h : IsFirstFaulty config.ignores pattern fault) :
    config.checked = .error (.badPattern pattern fault) := by
  rw [checked, faultyPattern?, firstFaulty?_of_isFirstFaulty h]

theorem checked_of_isSound (h : ∀ pattern ∈ config.ignores, IsSound pattern) :
    config.checked = .ok config := by
  rw [checked, faultyPattern?, firstFaulty?_of_isSound h]

theorem checked_eq_ok_iff {config' : Config} :
    config.checked = .ok config' ↔
      config' = config ∧ ∀ pattern ∈ config.ignores, IsSound pattern := by
  constructor
  · intro h
    rcases Glob.isSound_or_exists_isFirstFaulty config.ignores with hsound | ⟨_, _, hfaulty⟩
    · rw [checked_of_isSound hsound] at h
      cases h
      exact ⟨rfl, hsound⟩
    · rw [checked_of_isFirstFaulty hfaulty] at h
      cases h
  · rintro ⟨rfl, hsound⟩
    exact checked_of_isSound hsound

/-- A check that fails names the first faulty pattern and its fault. -/
theorem checked_eq_error_iff {error : ConfigError} :
    config.checked = .error error ↔
      ∃ pattern fault, IsFirstFaulty config.ignores pattern fault ∧
        error = .badPattern pattern fault := by
  constructor
  · intro h
    rcases Glob.isSound_or_exists_isFirstFaulty config.ignores with hsound | ⟨_, _, hfaulty⟩
    · rw [checked_of_isSound hsound] at h
      cases h
    · rw [checked_of_isFirstFaulty hfaulty] at h
      cases h
      exact ⟨_, _, hfaulty, rfl⟩
  · rintro ⟨pattern, fault, hfaulty, rfl⟩
    exact checked_of_isFirstFaulty hfaulty

theorem options_of_isSound (h : ∀ pattern ∈ config.ignores, IsSound pattern) :
    ∃ set : IgnoreSet, config.options = .ok ⟨config.projectDepth, config.appDepth, set⟩ ∧
      ∀ tokens, tokens ∈ set.patterns ↔
        ∃ pattern ∈ config.ignores, Glob.Pattern.read pattern = .ok tokens := by
  obtain ⟨all, hall, hmem⟩ := Glob.readAll_of_isSound h
  refine ⟨⟨all⟩, ?_, hmem⟩
  rw [options, IgnoreSet.ofPatterns, hall]
  rfl

theorem isSound_of_options {options : Survey.Options} (h : config.options = .ok options) :
    ∀ pattern ∈ config.ignores, IsSound pattern := by
  rcases hall : Glob.Pattern.readAll config.ignores with fault | all
  · rw [Config.options, IgnoreSet.ofPatterns, hall] at h
    cases h
  · exact Glob.isSound_of_readAll hall

/-- The options fail with the fault of the first faulty pattern. -/
theorem options_eq_error_iff {fault : Glob.Fault} :
    config.options = .error fault ↔ ∃ pattern, IsFirstFaulty config.ignores pattern fault := by
  rw [← Glob.readAll_eq_error_iff, options, IgnoreSet.ofPatterns]
  rcases Glob.Pattern.readAll config.ignores with other | all
  · simp [Except.map]
  · exact iff_of_false nofun nofun

theorem mem_patterns_iff {options : Survey.Options} (h : config.options = .ok options)
    (tokens : Glob.Pattern) :
    tokens ∈ options.ignored.patterns ↔
      ∃ pattern ∈ config.ignores, Glob.Pattern.read pattern = .ok tokens := by
  obtain ⟨set, hset, hmem⟩ := options_of_isSound (isSound_of_options h)
  rw [h] at hset
  cases hset
  exact hmem tokens

/-- A directory is ignored for its fixed name or for a pattern that matches its name. -/
theorem ignores_iff {options : Survey.Options} (h : config.options = .ok options) (name : String) :
    options.ignored.ignores name ↔
      name ∈ IgnoreSet.builtin ∨ ∃ pattern ∈ config.ignores, Glob.Matches pattern name := by
  rw [IgnoreSet.ignores, Bool.or_eq_true, List.any_eq_true, List.contains_iff_mem]
  refine or_congr_right ⟨?_, ?_⟩
  · rintro ⟨tokens, htokens, haccepts⟩
    obtain ⟨pattern, hpattern, hread⟩ := (mem_patterns_iff h tokens).1 htokens
    exact ⟨pattern, hpattern, tokens, hread, haccepts⟩
  · rintro ⟨pattern, hpattern, tokens, hread, haccepts⟩
    exact ⟨tokens, (mem_patterns_iff h tokens).2 ⟨pattern, hpattern, hread⟩, haccepts⟩

/-! ## Configurations that load -/

theorem ofFile_eq_ok_iff {view : DiskView} {path : Path} :
    ofFile view path = .ok config ↔
      ∃ text, view.read path = .ok text ∧ read text = .ok config ∧
        ∀ pattern ∈ config.ignores, IsSound pattern := by
  unfold ofFile ofText
  rcases view.read path with error | text
  · exact iff_of_false nofun nofun
  dsimp only
  rcases hread : read text with fault | other
  · refine iff_of_false nofun ?_
    rintro ⟨_, ⟨⟩, h, -⟩
    rw [hread] at h
    cases h
  · dsimp only
    rw [checked_eq_ok_iff]
    constructor
    · rintro ⟨rfl, hsound⟩
      exact ⟨text, rfl, hread, hsound⟩
    · rintro ⟨_, ⟨⟩, h, hsound⟩
      rw [hread] at h
      cases h
      exact ⟨rfl, hsound⟩

/-- A configuration that loads has sound patterns, also where it is the default. -/
theorem isSound_of_load {view : DiskView} {start : Path} {loaded : Loaded}
    (h : load view start = .ok loaded) : ∀ pattern ∈ loaded.config.ignores, IsSound pattern := by
  unfold load at h
  split at h
  · cases h
    exact List.forall_mem_nil _
  · next path _ =>
    rcases hfile : ofFile view path with error | config
    · rw [hfile] at h
      cases h
    · rw [hfile] at h
      cases h
      exact (ofFile_eq_ok_iff.1 hfile).choose_spec.2.2

end Config

end SiteSurvey
