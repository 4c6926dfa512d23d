import Mathlib.Data.List.Forall2
import SiteSurvey.Proofs.Config.Reader

/-!
# Configurations survive writing and reading

Both texts of a configuration lay its four fields out as members of an object, each with the text of
its value, so the configuration is read back from either (`read_compact`, `read_pretty`). Only the
depths are bounded, by what 64 bits hold.
-/

namespace SiteSurvey.Config

open Json

/-! ## Written values -/

theorem forall₂_quoted (items : List String) :
    List.Forall₂ (fun part item => IsQuoted part.toList item) (items.map quoted) items := by
  rw [List.forall₂_map_left_iff, List.forall₂_same]
  exact fun item _ => isQuoted_quoted item

theorem compactItems_map_string (items : List String) :
    Value.compactItems (items.map .string) = items.map quoted := by
  induction items with
  | nil => rfl
  | cons item items ih => rw [List.map_cons, Value.compactItems, ih, Value.compact, List.map_cons]

theorem prettyItems_map_string (level : Nat) (items : List String) :
    Value.prettyItems level (items.map .string) = items.map quoted := by
  induction items with
  | nil => rfl
  | cons item items ih => rw [List.map_cons, Value.prettyItems, ih, Value.prettyAt, List.map_cons]

theorem isBracketed_compact_strings (items : List String) :
    IsBracketed IsQuoted '[' ']' items (Value.array (items.map .string)).compact.toList := by
  rw [Value.compact, compactItems_map_string]
  exact isBracketed_joinWith rfl rfl (forall₂_quoted items)

theorem isBracketed_pretty_strings (level : Nat) (items : List String) :
    IsBracketed IsQuoted '[' ']' items
      ((Value.array (items.map .string)).prettyAt level).toList := by
  rw [Value.prettyAt, prettyItems_map_string]
  exact isBracketed_block level rfl rfl (forall₂_quoted items)

theorem isMember_compact (key : String) (value : Value) :
    IsMember (quoted key ++ ":" ++ value.compact).toList (key, value.compact.toList) :=
  ⟨(quoted key).toList, [], [], isQuoted_quoted key, isSpaces_nil, isSpaces_nil, by simp⟩

theorem isMember_pretty (level : Nat) (key : String) (value : Value) :
    IsMember (quoted key ++ ": " ++ value.prettyAt level).toList
      (key, (value.prettyAt level).toList) :=
  ⟨(quoted key).toList, [], [' '], isQuoted_quoted key, isSpaces_nil, isSpaces_singleton rfl,
    by simp⟩

/-! ## Fields -/

/-- The fields of a configuration, each with the text of its value. -/
def members (config : Config) (ignores paths : List Char) : List (String × List Char) :=
  [("ignores", ignores), ("projectDepth", Nat.toDigits 10 config.projectDepth),
    ("appDepth", Nat.toDigits 10 config.appDepth), ("paths", paths)]

variable {config : Config}

theorem readsMembers_members (hproject : config.projectDepth < wordBound)
    (happ : config.appDepth < wordBound) {ignores paths : List Char}
    (hignores : IsBracketed IsQuoted '[' ']' config.ignores ignores)
    (hpaths : IsBracketed IsQuoted '[' ']' config.paths paths) :
    ReadsMembers {} (config.members ignores paths)
      ⟨some config.ignores, some config.projectDepth, some config.appDepth, some config.paths⟩ := by
  refine .field rfl (.ignores hignores) rfl ?_
  refine .field rfl (.projectDepth ⟨hproject, rfl⟩) rfl ?_
  refine .field rfl (.appDepth ⟨happ, rfl⟩) rfl ?_
  exact .field rfl (.paths hpaths) rfl .none

theorem read_of_members (hproject : config.projectDepth < wordBound)
    (happ : config.appDepth < wordBound) {ignores paths : List Char}
    (hignores : IsBracketed IsQuoted '[' ']' config.ignores ignores)
    (hpaths : IsBracketed IsQuoted '[' ']' config.paths paths) {text : String}
    (h : IsBracketed IsMember '{' '}' (config.members ignores paths) text.toList) :
    read text = .ok config := by
  have hread := read_of_isBracketed h (readsMembers_members hproject happ hignores hpaths)
    isSpaces_nil isSpaces_nil
  rwa [List.nil_append, List.append_nil, String.ofList_toList] at hread

/-! ## Texts -/

theorem read_compact (hproject : config.projectDepth < wordBound)
    (happ : config.appDepth < wordBound) : read config.value.compact = .ok config := by
  refine read_of_members hproject happ (isBracketed_compact_strings _)
    (isBracketed_compact_strings _) ?_
  have hnatural (n : Nat) : Nat.toDigits 10 n = (Value.natural n).compact.toList := by
    rw [Value.compact, Nat.toString_eq_ofList_toDigits, String.toList_ofList]
  rw [members, hnatural, hnatural, value, Value.compact]
  refine isBracketed_joinWith rfl rfl ?_
  exact .cons (isMember_compact _ _) (.cons (isMember_compact _ _)
    (.cons (isMember_compact _ _) (.cons (isMember_compact _ _) .nil)))

theorem read_pretty (hproject : config.projectDepth < wordBound)
    (happ : config.appDepth < wordBound) : read config.value.pretty = .ok config := by
  refine read_of_members hproject happ (isBracketed_pretty_strings 1 _)
    (isBracketed_pretty_strings 1 _) ?_
  have hnatural (n : Nat) : Nat.toDigits 10 n = ((Value.natural n).prettyAt 1).toList := by
    rw [Value.prettyAt, Nat.toString_eq_ofList_toDigits, String.toList_ofList]
  rw [members, hnatural, hnatural, value, Value.pretty, Value.prettyAt]
  refine isBracketed_block 0 rfl rfl ?_
  exact .cons (isMember_pretty 1 _ _) (.cons (isMember_pretty 1 _ _)
    (.cons (isMember_pretty 1 _ _) (.cons (isMember_pretty 1 _ _) .nil)))

end SiteSurvey.Config
