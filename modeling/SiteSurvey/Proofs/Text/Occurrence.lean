import Mathlib.Data.List.Basic

/-!
# What occurs in a text

A search goes through a text from left to right and finds what occurs there, each at its place,
which is given by the text before it. To find the first that is wanted is to find the leftmost one
(`Enumerates.find?_eq_some_iff`).
-/

namespace SiteSurvey.Text

variable {α : Type}

/-- All that occurs in a text, each with the text before it, from left to right. -/
structure Enumerates (occurs : List Char → α → Prop) (found : List (List Char × α)) : Prop where
  ordered : found.Pairwise fun first later => first.1.length < later.1.length
  complete : ∀ before x, (before, x) ∈ found ↔ occurs before x

/-- It occurs, and nothing occurs farther left. -/
structure IsLeftmost (occurs : List Char → α → Prop) (before : List Char) (x : α) : Prop where
  here : occurs before x
  least : ∀ other y, occurs other y → before.length ≤ other.length

namespace Enumerates

variable {occurs later : List Char → α → Prop} {found : List (List Char × α)}

theorem nil (h : ∀ before x, ¬ occurs before x) : Enumerates occurs [] :=
  ⟨List.Pairwise.nil, fun before x => iff_of_false List.not_mem_nil (h before x)⟩

/-- What occurs in a text with one character more: one thing at most right here, then the rest. -/
theorem cons (h : Enumerates later found) {c : Char} {here : Option α}
    (hoccurs : ∀ before x, occurs before x ↔
      (before = [] ∧ here = some x) ∨ ∃ rest, before = c :: rest ∧ later rest x) :
    Enumerates occurs
      (here.toList.map (([], ·)) ++ found.map fun place => (c :: place.1, place.2)) := by
  constructor
  · refine List.pairwise_append.2 ⟨?_, ?_, ?_⟩
    · cases here <;> simp
    · refine List.pairwise_map.2 (h.ordered.imp fun hlt => ?_)
      simpa using hlt
    · intro first hfirst place hplace
      obtain ⟨x, -, rfl⟩ := List.mem_map.1 hfirst
      obtain ⟨rest, -, rfl⟩ := List.mem_map.1 hplace
      exact Nat.succ_pos _
  · intro before x
    rw [hoccurs, List.mem_append]
    refine or_congr ?_ ?_
    · cases here <;> simp [and_comm, eq_comm]
    · constructor
      · intro hmem
        obtain ⟨⟨rest, y⟩, hplace, heq⟩ := List.mem_map.1 hmem
        cases heq
        exact ⟨rest, rfl, (h.complete rest y).1 hplace⟩
      · rintro ⟨rest, rfl, hlater⟩
        exact List.mem_map.2 ⟨(rest, x), (h.complete rest x).2 hlater, rfl⟩

theorem ne_nil_iff (h : Enumerates occurs found) : found ≠ [] ↔ ∃ before x, occurs before x := by
  constructor
  · intro hne
    obtain ⟨⟨before, x⟩, hmem⟩ := List.exists_mem_of_ne_nil found hne
    exact ⟨before, x, (h.complete before x).1 hmem⟩
  · rintro ⟨before, x, hoccurs⟩
    exact List.ne_nil_of_mem ((h.complete before x).2 hoccurs)

theorem find?_eq_some_iff (h : Enumerates occurs found) (wanted : α → Bool) (x : α) :
    (found.map Prod.snd).find? wanted = some x ↔
      ∃ before, IsLeftmost (fun before y => occurs before y ∧ wanted y) before x := by
  constructor
  · intro hfind
    obtain ⟨hx, unwanted, more, hsplit, hunwanted⟩ := List.find?_eq_some_iff_append.1 hfind
    obtain ⟨skipped, taken, rfl, rfl, htaken⟩ := List.map_eq_append_iff.1 hsplit
    obtain ⟨⟨before, y⟩, rest, rfl, rfl, rfl⟩ := List.map_eq_cons_iff.1 htaken
    refine ⟨before, ⟨(h.complete _ _).1 (by simp), hx⟩, fun other z hother => ?_⟩
    -- what comes earlier in the list is not wanted, what comes later stands farther right
    have hmem := (h.complete other z).2 hother.1
    rcases List.mem_append.1 hmem with hskipped | hrest
    · have hz := hunwanted z (List.mem_map_of_mem (f := Prod.snd) hskipped)
      rw [hother.2] at hz
      exact absurd hz (by decide)
    · rcases List.mem_cons.1 hrest with heq | hrest
      · cases heq
        exact Nat.le_refl _
      · have hordered := (List.pairwise_append.1 h.ordered).2.1
        exact Nat.le_of_lt (List.rel_of_pairwise_cons hordered hrest)
  · rintro ⟨before, ⟨hoccurs, hx⟩, hleast⟩
    obtain ⟨skipped, rest, rfl⟩ := List.append_of_mem ((h.complete before x).2 hoccurs)
    rw [List.map_append, List.map_cons, List.find?_eq_some_iff_append]
    refine ⟨hx, skipped.map Prod.snd, rest.map Prod.snd, rfl, List.forall_mem_map.2 ?_⟩
    rintro ⟨other, y⟩ hskipped
    by_contra hy
    have hlt : other.length < before.length :=
      (List.pairwise_append.1 h.ordered).2.2 _ hskipped _ List.mem_cons_self
    have hle := hleast other y
      ⟨(h.complete other y).1 (List.mem_append_left _ hskipped), by simpa using hy⟩
    omega

theorem isSome_find?_iff (h : Enumerates occurs found) (wanted : α → Bool) :
    ((found.map Prod.snd).find? wanted).isSome ↔ ∃ before x, occurs before x ∧ wanted x := by
  rw [List.find?_isSome]
  constructor
  · rintro ⟨x, hx, hwanted⟩
    obtain ⟨⟨before, y⟩, hplace, rfl⟩ := List.mem_map.1 hx
    exact ⟨before, y, (h.complete before y).1 hplace, hwanted⟩
  · rintro ⟨before, x, hoccurs, hwanted⟩
    exact ⟨x, List.mem_map_of_mem (f := Prod.snd) ((h.complete before x).2 hoccurs), hwanted⟩

end Enumerates

end SiteSurvey.Text
