import SiteSurvey.Proofs.Source.Literal
import SiteSurvey.Proofs.Text.Occurrence

/-!
# Where a name is assigned a value

The values that a text assigns to a name are the quoted texts behind the name and an equals sign,
one for each place where the name stands so and continues no word (`enumerates_assignedValues`).
-/

namespace SiteSurvey.Source

open Text

/-- The text begins with an equals sign and the quoted value, blanks aside. -/
def Assigns (value text : List Char) : Prop :=
  ∃ blanks blanks' quote quote' after,
    text = blanks ++ '=' :: (blanks' ++ quote :: (value ++ quote' :: after)) ∧
    (∀ c ∈ blanks, isBlank c) ∧ (∀ c ∈ blanks', isBlank c) ∧ isQuote quote ∧ isQuote quote' ∧
    ∀ c ∈ value, ¬ isQuote c

/--
The name stands behind `before`, continues no word there and is assigned the value; `inWord` says
whether a word character comes before the text.
-/
structure IsAssigned (name : List Char) (inWord : Bool) (text before value : List Char) : Prop where
  stands : ∃ after, text = before ++ (name ++ after) ∧ Assigns value after
  apart : (before.getLast?.map isWord).getD inWord = false

theorem exists_eq_append_of_dropWhile {p : Char → Bool} {text rest : List Char}
    (h : text.dropWhile p = rest) : ∃ dropped, text = dropped ++ rest ∧ ∀ c ∈ dropped, p c :=
  ⟨text.takeWhile p, by rw [← h, List.takeWhile_append_dropWhile], fun _ hc =>
    List.mem_takeWhile_imp hc⟩

/-- A text that holds a quote goes on with one behind its part without quotes. -/
theorem exists_eq_append_quote {text : List Char} (h : text.any isQuote) :
    ∃ quote after, text = text.takeWhile (!isQuote ·) ++ quote :: after ∧ isQuote quote := by
  obtain ⟨c, hc, hquote⟩ := List.any_eq_true.1 h
  have hne : text.dropWhile (!isQuote ·) ≠ [] := by
    rw [Ne, List.dropWhile_eq_nil_iff]
    intro hnone
    simpa [hquote] using hnone c hc
  obtain ⟨quote, after, hafter⟩ := List.exists_cons_of_ne_nil hne
  refine ⟨quote, after, ?_, ?_⟩
  · rw [← hafter, List.takeWhile_append_dropWhile]
  · have hhead := List.head_dropWhile_not (!isQuote ·) hne
    simpa [hafter] using hhead

theorem assignedValue?_eq_some_iff (text value : List Char) :
    assignedValue? text = some value ↔ Assigns value text := by
  constructor
  · intro h
    unfold assignedValue? at h
    split at h
    · next rest hequals =>
      split at h
      · next quote content hopening =>
        split_ifs at h with hquotes
        rw [Bool.and_eq_true] at hquotes
        obtain ⟨blanks, rfl, hblanks⟩ := exists_eq_append_of_dropWhile hequals
        obtain ⟨blanks', rfl, hblanks'⟩ := exists_eq_append_of_dropWhile hopening
        obtain ⟨quote', after, hcontent, hquote'⟩ := exists_eq_append_quote hquotes.2
        cases h
        refine ⟨blanks, blanks', quote, quote', after, by rw [← hcontent], hblanks, hblanks',
          hquotes.1, hquote', fun c hc => ?_⟩
        simpa using List.mem_takeWhile_imp hc
      · cases h
    · cases h
  · rintro ⟨blanks, blanks', quote, quote', after, rfl, hblanks, hblanks', hquote, hquote', hvalue⟩
    rw [assignedValue?_blanks_append hblanks]
    exact assignedValue?_equals hblanks' hquote hquote' hvalue after

theorem not_assigns_nil (value : List Char) : ¬ Assigns value [] := by
  rintro ⟨blanks, blanks', quote, quote', after, h, -⟩
  simp at h

/-- The name is assigned a value right at the beginning of a text, or behind its first character. -/
theorem isAssigned_cons_iff (name : List Char) (inWord : Bool) (c : Char)
    (text before value : List Char) :
    IsAssigned name inWord (c :: text) before value ↔
      (before = [] ∧ (if inWord then none else (after? name (c :: text)).bind assignedValue?) =
        some value) ∨
      ∃ rest, before = c :: rest ∧ IsAssigned name (isWord c) text rest value := by
  have hhere : (if inWord then none else (after? name (c :: text)).bind assignedValue?) =
      some value ↔ inWord = false ∧ ∃ after, c :: text = name ++ after ∧ Assigns value after := by
    cases inWord with
    | true => simp
    | false => simp [Option.bind_eq_some_iff, after?_eq_some_iff, assignedValue?_eq_some_iff]
  rw [hhere]
  constructor
  · rintro ⟨⟨after, htext, hafter⟩, hapart⟩
    rcases before with _ | ⟨d, rest⟩
    · exact Or.inl ⟨rfl, hapart, after, htext, hafter⟩
    · obtain ⟨rfl, hrest⟩ := List.cons.inj htext
      rw [isWord_getLast?_cons] at hapart
      exact Or.inr ⟨rest, rfl, ⟨after, hrest, hafter⟩, hapart⟩
  · rintro (⟨rfl, hapart, after, htext, hafter⟩ | ⟨rest, rfl, ⟨after, rfl, hafter⟩, hapart⟩)
    · exact ⟨⟨after, htext, hafter⟩, hapart⟩
    · exact ⟨⟨after, rfl, hafter⟩, (isWord_getLast?_cons inWord c rest).trans hapart⟩

theorem enumerates_assignedValuesFrom (name : List Char) (inWord : Bool) (text : List Char) :
    ∃ found, Enumerates (IsAssigned name inWord text) found ∧
      assignedValuesFrom name inWord text = found.map Prod.snd := by
  -- the first character of the text says whether a word goes on behind it
  induction text generalizing inWord with
  | nil =>
    refine ⟨[], Enumerates.nil fun before value h => ?_, rfl⟩
    obtain ⟨⟨after, htext, hafter⟩, -⟩ := h
    have hnil := (List.append_eq_nil_iff.1 htext.symm).2
    obtain rfl : after = [] := (List.append_eq_nil_iff.1 hnil).2
    exact not_assigns_nil value hafter
  | cons c text ih =>
    obtain ⟨found, hfound, heq⟩ := ih (isWord c)
    refine ⟨_, hfound.cons (isAssigned_cons_iff name inWord c text), ?_⟩
    rw [assignedValuesFrom, heq, List.map_append, List.map_map, List.map_map]
    congr 1
    exact (List.map_id _).symm

theorem enumerates_assignedValues (name text : List Char) :
    ∃ found, Enumerates (IsAssigned name false text) found ∧
      assignedValues name text = found.map Prod.snd :=
  enumerates_assignedValuesFrom name false text

/-- The first value that is wanted stands farthest to the left of those. -/
theorem find?_assignedValues_eq_some_iff (name text : List Char) (wanted : List Char → Bool)
    (value : List Char) :
    (assignedValues name text).find? wanted = some value ↔
      ∃ before, IsLeftmost
        (fun before value => IsAssigned name false text before value ∧ wanted value)
        before value := by
  obtain ⟨found, hfound, heq⟩ := enumerates_assignedValues name text
  rw [heq]
  exact hfound.find?_eq_some_iff wanted value

theorem head?_assignedValues_eq_some_iff (name text value : List Char) :
    (assignedValues name text).head? = some value ↔
      ∃ before, IsLeftmost (IsAssigned name false text) before value := by
  have hany (values : List (List Char)) : values.head? = values.find? fun _ => true := by
    cases values <;> rfl
  rw [hany, find?_assignedValues_eq_some_iff]
  simp

end SiteSurvey.Source
