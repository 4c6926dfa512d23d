import Mathlib.Algebra.GroupWithZero.Nat
import SiteSurvey.Proofs.Admin.Registration

/-!
# Taking turns loses nothing

Rounds of groups and single members can be taken apart again: each round holds its own group and its
own member, however many members the group has (`rounds_append_cons`), and the members of either
kind stand in their order (`filterMap_getLeft?_labelled`, `filterMap_getRight?_labelled`). So the
models of decorators and calls in turn are all their models, each once (`interleave_takes_turns`).
-/

namespace SiteSurvey.Admin

open Text

/-! ## Rounds taken apart -/

section Rounds

variable {α β : Type}

theorem rounds_cons_eq (group : List α) (groups : List (List α)) (singles : List α) :
    rounds (group :: groups) singles =
      group ++ (singles.head?.toList ++ rounds groups singles.tail) := by
  cases singles with
  | nil => exact rounds_nil_right group groups
  | cons single singles => exact rounds_cons group groups single singles

theorem rounds_append (before after : List (List α)) (singles : List α) :
    rounds (before ++ after) singles =
      rounds before (singles.take before.length) ++ rounds after (singles.drop before.length) := by
  induction before generalizing singles with
  | nil => rw [List.length_nil, List.take_zero, List.drop_zero, rounds_nil_left]; rfl
  | cons group before ih =>
    rw [List.cons_append, rounds_cons_eq, rounds_cons_eq, ih, List.append_assoc,
      List.append_assoc]
    cases singles with
    | nil => simp
    | cons single singles => rfl

/-- A group takes the round that its place gives it, whatever the groups before and behind it. -/
theorem rounds_append_cons (before : List (List α)) (group : List α) (after : List (List α))
    (singles : List α) :
    rounds (before ++ group :: after) singles =
      rounds before (singles.take before.length) ++
        (group ++ (singles[before.length]?.toList ++
          rounds after (singles.drop (before.length + 1)))) := by
  rw [rounds_append, rounds_cons_eq, List.head?_drop, List.tail_drop]

/-- The rounds, each member with the kind that it is of. -/
def labelled (groups : List (List α)) (singles : List β) : List (α ⊕ β) :=
  rounds (groups.map (List.map Sum.inl)) (singles.map Sum.inr)

theorem map_labelled (groups : List (List α)) (singles : List α) :
    (labelled groups singles).map (Sum.elim id id) = rounds groups singles := by
  have hgroups : (List.map (Sum.elim id id) ∘ List.map Sum.inl : List α → List α) = id := by
    funext group
    simp [Function.comp_def]
  rw [labelled, rounds_map, List.map_map, List.map_map, hgroups, List.map_id, Sum.elim_comp_inr,
    List.map_id]

theorem labelled_cons (group : List α) (groups : List (List α)) (singles : List β) :
    labelled (group :: groups) singles =
      group.map Sum.inl ++
        (singles.head?.toList.map Sum.inr ++ labelled groups singles.tail) := by
  rw [labelled, List.map_cons, rounds_cons_eq]
  cases singles <;> rfl

theorem filterMap_getLeft?_labelled (groups : List (List α)) (singles : List β) :
    (labelled groups singles).filterMap Sum.getLeft? = groups.flatten := by
  induction groups generalizing singles with
  | nil =>
    rw [labelled, List.map_nil, rounds_nil_left]
    simp [List.filterMap_map, Function.comp_def]
  | cons group groups ih =>
    rw [labelled_cons, List.filterMap_append, List.filterMap_append, ih, List.flatten_cons]
    simp [List.filterMap_map, Function.comp_def]

theorem filterMap_getRight?_labelled (groups : List (List α)) (singles : List β) :
    (labelled groups singles).filterMap Sum.getRight? = singles := by
  induction groups generalizing singles with
  | nil =>
    rw [labelled, List.map_nil, rounds_nil_left]
    simp [List.filterMap_map, Function.comp_def]
  | cons group groups ih =>
    rw [labelled_cons, List.filterMap_append, List.filterMap_append, ih]
    cases singles <;> simp [List.filterMap_map, Function.comp_def]

theorem length_rounds (groups : List (List α)) (singles : List α) :
    (rounds groups singles).length = (groups.map List.length).sum + singles.length := by
  induction groups generalizing singles with
  | nil => simp [rounds_nil_left]
  | cons group groups ih =>
    rw [rounds_cons_eq, List.length_append, List.length_append, ih]
    cases singles with
    | nil => simp
    | cons single singles =>
      simp only [List.head?_cons, Option.toList_some, List.tail_cons, List.map_cons,
        List.sum_cons, List.length_cons, List.length_nil]
      omega

end Rounds

/-! ## Models in turn -/

/--
The models of decorators and calls are taken in rounds: the words of the next decorator, then the
model of the next call, up to the last of either. A decorator takes one round however many words it
has. Told apart, the models of the decorators are all their words in order, and those of the calls
are the calls in order.
-/
theorem interleave_takes_turns :
    (∀ text found, words text = found ↔ HasWords text found) ∧
    ∀ decorators calls : List (List Char),
      interleave decorators calls =
        ((List.range (max decorators.length calls.length)).flatMap fun i =>
          decorators[i]?.elim [] words ++ calls[i]?.toList) ∧
      (∀ before decorator after, decorators = before ++ decorator :: after →
        interleave decorators calls =
          interleave before (calls.take before.length) ++
            (words decorator ++ (calls[before.length]?.toList ++
              interleave after (calls.drop (before.length + 1))))) ∧
      (∃ contributions : List (List Char ⊕ List Char),
        interleave decorators calls = contributions.map (Sum.elim id id) ∧
        contributions.filterMap Sum.getLeft? = decorators.flatMap words ∧
        contributions.filterMap Sum.getRight? = calls) ∧
      (interleave decorators calls).length =
        (decorators.map fun decorator => (words decorator).length).sum + calls.length := by
  refine ⟨fun _ _ => words_eq_iff, fun decorators calls => ⟨?_, ?_, ?_, ?_⟩⟩
  · rw [interleave_eq_rounds, rounds, List.length_map]
    refine List.flatMap_congr fun i _ => ?_
    rw [List.getElem?_map]
    cases decorators[i]? <;> rfl
  · rintro before decorator after rfl
    have hsplit := rounds_append_cons (before.map words) (words decorator) (after.map words) calls
    rw [List.length_map] at hsplit
    simpa only [interleave_eq_rounds, List.map_append, List.map_cons] using hsplit
  · refine ⟨labelled (decorators.map words) calls, ?_, ?_, filterMap_getRight?_labelled _ _⟩
    · rw [interleave_eq_rounds, map_labelled]
    · rw [filterMap_getLeft?_labelled, List.flatMap_def]
  · rw [interleave_eq_rounds, length_rounds, List.map_map]
    rfl

end SiteSurvey.Admin
