import Mathlib.Data.List.Forall2
import SiteSurvey.Proofs.Route.Argument
import SiteSurvey.Proofs.Source.Assigned
import SiteSurvey.Route.Table

/-!
# What a route tuple declares

A tuple declares a route exactly if somewhere in its text `name` is assigned a value that is not
empty; the leftmost such value is the name of the route. Its arguments are those of all placeholders
of the text, in order (`ofTuple?_declares`).
-/

namespace SiteSurvey.Route

open Source Text

/-! ## Where placeholders stand -/

/-- A name between angle brackets that holds none itself stands behind `before`. -/
structure IsPlaceholder (text before name : List Char) : Prop where
  stands : ∃ after, text = before ++ '<' :: (name ++ '>' :: after)
  ne_nil : name ≠ []
  not_mem_left : '<' ∉ name
  not_mem_right : '>' ∉ name

def tokenOf (name : List Char) : List Char :=
  '<' :: (name ++ ['>'])

/-- The name that a text closes next; `read` is its part before the text, in reverse. -/
def closedName? : (read : List Char) → List Char → Option (List Char)
  | _, [] => none
  | read, c :: rest =>
    if c = '<' then none
    else if c = '>' then if read = [] then none else some read.reverse
    else closedName? (c :: read) rest

/-- Behind a `<` the name that is closed next comes first, then the placeholders of the rest. -/
theorem placeholdersFrom_opened (read text : List Char) :
    placeholdersFrom (some (read ++ ['<'])) text =
      (closedName? read text).toList.map tokenOf ++ placeholders text := by
  induction text generalizing read with
  | nil => rfl
  | cons c rest ih =>
    rw [closedName?, placeholders, placeholdersFrom, placeholdersFrom]
    by_cases hopen : c = '<'
    · simp only [if_pos hopen]
      rfl
    · simp only [if_neg hopen]
      by_cases hclose : c = '>'
      · subst hclose
        by_cases hread : read = []
        · subst hread
          rfl
        · have hlength : ¬ (read ++ ['<']).length = 1 := by
            have := List.length_pos_iff.2 hread
            rw [List.length_append, List.length_singleton]
            omega
          rw [if_pos rfl, if_neg hlength, if_pos rfl, if_neg hread]
          simp [tokenOf]
      · rw [if_neg hclose, if_neg hclose]
        exact ih (c :: read)

/-- A name without angle brackets begins the text, and a `>` ends it. -/
def BeginsClosed (text name : List Char) : Prop :=
  (∃ after, text = name ++ '>' :: after) ∧ '<' ∉ name ∧ '>' ∉ name

theorem not_beginsClosed_nil (name : List Char) : ¬ BeginsClosed [] name := by
  rintro ⟨⟨after, h⟩, -⟩
  simp at h

theorem beginsClosed_cons_iff (c : Char) (text name : List Char) :
    BeginsClosed (c :: text) name ↔
      c = '>' ∧ name = [] ∨
        c ≠ '<' ∧ c ≠ '>' ∧ ∃ rest, name = c :: rest ∧ BeginsClosed text rest := by
  constructor
  · rintro ⟨⟨after, htext⟩, hleft, hright⟩
    rcases name with _ | ⟨d, rest⟩
    · exact Or.inl ⟨(List.cons.inj htext).1, rfl⟩
    · obtain ⟨rfl, hrest⟩ := List.cons.inj htext
      rw [List.mem_cons, not_or] at hleft hright
      exact Or.inr ⟨Ne.symm hleft.1, Ne.symm hright.1, rest, rfl, ⟨after, hrest⟩, hleft.2, hright.2⟩
  · rintro (⟨rfl, rfl⟩ | ⟨hopen, hclose, rest, rfl, ⟨after, rfl⟩, hleft, hright⟩)
    · exact ⟨⟨text, rfl⟩, List.not_mem_nil, List.not_mem_nil⟩
    · exact ⟨⟨after, rfl⟩, List.not_mem_cons_of_ne_of_not_mem (Ne.symm hopen) hleft,
        List.not_mem_cons_of_ne_of_not_mem (Ne.symm hclose) hright⟩

theorem closedName?_eq_some_iff (read text name : List Char) :
    closedName? read text = some name ↔
      name ≠ [] ∧ ∃ rest, name = read.reverse ++ rest ∧ BeginsClosed text rest := by
  induction text generalizing read with
  | nil => simp [closedName?, not_beginsClosed_nil]
  | cons c text ih =>
    simp only [closedName?, beginsClosed_cons_iff]
    by_cases hopen : c = '<'
    · simp [hopen]
    · by_cases hclose : c = '>'
      · by_cases hread : read = []
        · simp [hclose, hread]
        · simp only [if_neg hopen, if_pos hclose, if_neg hread, Option.some.injEq]
          constructor
          · rintro rfl
            exact ⟨by simpa using hread, [], by simp, Or.inl ⟨hclose, rfl⟩⟩
          · rintro ⟨-, rest, rfl, ⟨-, rfl⟩ | ⟨-, hne, -⟩⟩
            · rw [List.append_nil]
            · exact absurd hclose hne
      · -- the character joins the name, which is read in reverse
        rw [if_neg hopen, if_neg hclose, ih]
        refine and_congr_right fun _ => ?_
        constructor
        · rintro ⟨rest, rfl, hrest⟩
          exact ⟨c :: rest, by simp, Or.inr ⟨hopen, hclose, rest, rfl, hrest⟩⟩
        · rintro ⟨_, rfl, ⟨hc, -⟩ | ⟨-, -, rest, rfl, hrest⟩⟩
          · exact absurd hc hclose
          · exact ⟨rest, by simp, hrest⟩

theorem isPlaceholder_cons_iff (c : Char) (text before name : List Char) :
    IsPlaceholder (c :: text) before name ↔
      (before = [] ∧ (if c = '<' then closedName? [] text else none) = some name) ∨
        ∃ rest, before = c :: rest ∧ IsPlaceholder text rest name := by
  have hhere : (if c = '<' then closedName? [] text else none) = some name ↔
      c = '<' ∧ name ≠ [] ∧ BeginsClosed text name := by
    by_cases hc : c = '<'
    · simp [hc, closedName?_eq_some_iff]
    · simp [hc]
  rw [hhere]
  constructor
  · rintro ⟨⟨after, htext⟩, hname, hleft, hright⟩
    rcases before with _ | ⟨d, rest⟩
    · obtain ⟨rfl, hrest⟩ := List.cons.inj htext
      exact Or.inl ⟨rfl, rfl, hname, ⟨after, hrest⟩, hleft, hright⟩
    · obtain ⟨rfl, hrest⟩ := List.cons.inj htext
      exact Or.inr ⟨rest, rfl, ⟨after, hrest⟩, hname, hleft, hright⟩
  · rintro (⟨rfl, rfl, hname, ⟨after, rfl⟩, hleft, hright⟩ |
      ⟨rest, rfl, ⟨after, rfl⟩, hname, hleft, hright⟩)
    · exact ⟨⟨after, rfl⟩, hname, hleft, hright⟩
    · exact ⟨⟨after, rfl⟩, hname, hleft, hright⟩

theorem enumerates_placeholders (text : List Char) :
    ∃ found, Enumerates (IsPlaceholder text) found ∧
      placeholders text = found.map fun place => tokenOf place.2 := by
  induction text with
  | nil =>
    refine ⟨[], Enumerates.nil fun before name h => ?_, rfl⟩
    obtain ⟨after, htext⟩ := h.stands
    simp at htext
  | cons c text ih =>
    obtain ⟨found, hfound, heq⟩ := ih
    refine ⟨_, hfound.cons (isPlaceholder_cons_iff c text), ?_⟩
    -- a `<` begins a placeholder of its own, whatever is open before it
    have hrest : placeholders (c :: text) =
        (if c = '<' then closedName? [] text else none).toList.map tokenOf ++
          placeholders text := by
      rw [placeholders, placeholdersFrom]
      by_cases hc : c = '<'
      · rw [if_pos hc, if_pos hc, hc]
        exact placeholdersFrom_opened [] text
      · rw [if_neg hc, if_neg hc]
        rfl
    rw [hrest, heq, List.map_append, List.map_map, List.map_map]
    rfl

/-! ## Their arguments -/

/-- The argument that a name between angle brackets stands for. -/
inductive Denotes : List Char → Argument → Prop
  | untyped {name : List Char} (h : ':' ∉ name) : Denotes name ⟨String.ofList name, none⟩
  /-- The text before the first colon is the tag of the converter. -/
  | typed {tag : List Char} (name : List Char) (h : ':' ∉ tag) :
    Denotes (tag ++ ':' :: name)
      ⟨String.ofList name, Converter.ofTag? (String.ofList tag)⟩

theorem denotes_ofToken (name : List Char) :
    Denotes name (Argument.ofToken (tokenOf name)) := by
  by_cases h : ':' ∈ name
  · obtain ⟨tag, rest, rfl, htag⟩ := List.eq_append_cons_of_mem h
    rw [tokenOf, Argument.ofToken_typed htag]
    exact Denotes.typed rest htag
  · rw [tokenOf, Argument.ofToken_untyped h]
    exact Denotes.untyped h

theorem forall₂_denotes (places : List (List Char × List Char)) :
    List.Forall₂ (fun place arg => Denotes place.2 arg) places
      ((places.map fun place => tokenOf place.2).map Argument.ofToken) := by
  rw [List.map_map, List.forall₂_map_right_iff, List.forall₂_same]
  exact fun place _ => denotes_ofToken place.2

/-! ## The route of a tuple -/

/-- The name of a route is assigned behind `before`. -/
def IsNamed (tuple before name : List Char) : Prop :=
  IsAssigned "name".toList false tuple before name ∧ name ≠ []

theorem routeName?_eq_some_iff (tuple name : List Char) :
    routeName? tuple = some name ↔ ∃ before, IsLeftmost (IsNamed tuple) before name := by
  have hwanted (value : List Char) : (!value.isEmpty) = true ↔ value ≠ [] := by simp
  rw [routeName?, find?_assignedValues_eq_some_iff]
  simp only [hwanted]
  rfl

theorem isSome_routeName?_iff (tuple : List Char) :
    (routeName? tuple).isSome ↔ ∃ before name, IsNamed tuple before name := by
  obtain ⟨found, hfound, heq⟩ := enumerates_assignedValues "name".toList tuple
  rw [routeName?, heq, hfound.isSome_find?_iff]
  simp [IsNamed]

/--
A tuple declares a route exactly if `name` is assigned a value there that is not empty. The leftmost
of these is the name of the route, and the arguments are those of all placeholders in order.
-/
theorem ofTuple?_declares (space : Namespace) (tuple : List Char) :
    ((ofTuple? space tuple).isSome ↔ ∃ before name, IsNamed tuple before name) ∧
      ∀ route, ofTuple? space tuple = some route →
        (∃ before name, IsLeftmost (IsNamed tuple) before name ∧
          route.name = String.ofList name ∧ route.qualifiedName = space.qualify route.name) ∧
        (∃ places, Enumerates (IsPlaceholder tuple) places ∧
          List.Forall₂ (fun place arg => Denotes place.2 arg) places route.args) ∧
        (route.hasArgs ↔ ∃ before name, IsPlaceholder tuple before name) := by
  refine ⟨?_, fun route h => ?_⟩
  · rw [ofTuple?, Option.isSome_map, isSome_routeName?_iff]
  · obtain ⟨name, hname, rfl⟩ := Option.map_eq_some_iff.1 h
    obtain ⟨before, hleftmost⟩ := (routeName?_eq_some_iff tuple name).1 hname
    obtain ⟨places, hplaces, heq⟩ := enumerates_placeholders tuple
    refine ⟨⟨before, name, hleftmost, rfl, rfl⟩, ⟨places, hplaces, ?_⟩, ?_⟩
    · rw [heq]
      exact forall₂_denotes places
    · rw [heq, ← hplaces.ne_nil_iff]
      simp

theorem ofTuple?_declares_detail :
    let tuple := "('<int:pk>/<<slug>>', app_name='x', name='', name=\"detail\")".toList
    ofTuple? (.app "core") tuple = some
        ⟨"detail", true, [⟨"pk", some .integer⟩, ⟨"slug", none⟩], "core:detail"⟩ ∧
      (∃ before name, IsNamed tuple before name) ∧
      (∃ before name, IsLeftmost (IsNamed tuple) before name ∧ "detail" = String.ofList name ∧
        "core:detail" = Namespace.qualify (.app "core") "detail") ∧
      (∃ places, Enumerates (IsPlaceholder tuple) places ∧
        List.Forall₂ (fun place arg => Denotes place.2 arg) places
          [⟨"pk", some .integer⟩, ⟨"slug", none⟩]) ∧
      ∃ before name, IsPlaceholder tuple before name := by
  intro tuple
  have hroute : ofTuple? (.app "core") tuple = some
      ⟨"detail", true, [⟨"pk", some .integer⟩, ⟨"slug", none⟩], "core:detail"⟩ := by
    decide +kernel
  obtain ⟨hsome, hdeclares⟩ := ofTuple?_declares (.app "core") tuple
  obtain ⟨hname, hargs, hhas⟩ := hdeclares _ hroute
  exact ⟨hroute, hsome.1 (Option.isSome_of_eq_some hroute), hname, hargs, hhas.1 rfl⟩

end SiteSurvey.Route
