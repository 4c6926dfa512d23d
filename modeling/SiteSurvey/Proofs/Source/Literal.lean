import Mathlib.Data.List.DropRight
import SiteSurvey.Proofs.Text.Split
import SiteSurvey.Source.Literal

/-!
# Assigned literals around equals signs

A value can be assigned only at an equals sign, and only if the text before that sign ends in the
name (`EndsInName`). So the values of a text are found by going from one equals sign to the next
(`assignedValuesFrom_append_equals`).
-/

namespace SiteSurvey.Source

open Text

/-! ## Names before an equals sign -/

/-- A name without equals signs and without a blank at its end. -/
structure IsName (name : List Char) : Prop where
  no_equals : '=' ∉ name
  last : ∃ front last, name = front ++ [last] ∧ ¬ isBlank last

/-- The name stands at the end of a text, blanks aside, and continues no word there. -/
def EndsInName (name : List Char) (inWord : Bool) (text : List Char) : Prop :=
  ∃ before blanks, text = before ++ name ++ blanks ∧ (∀ c ∈ blanks, isBlank c) ∧
    (before.getLast?.map isWord).getD inWord = false

theorem IsName.rdropWhile_append {name : List Char} (hname : IsName name) (before : List Char)
    {blanks : List Char} (h : ∀ c ∈ blanks, isBlank c) :
    (before ++ name ++ blanks).rdropWhile isBlank = before ++ name := by
  obtain ⟨front, last, rfl, hlast⟩ := hname.last
  have hblanks (text : List Char) :
      (text ++ blanks).rdropWhile isBlank = text.rdropWhile isBlank := by
    unfold List.rdropWhile
    rw [List.reverse_append, List.dropWhile_append_of_pos (by simpa using h)]
  rw [hblanks, ← List.append_assoc, List.rdropWhile_concat_neg _ _ _ hlast]

theorem EndsInName.isSuffix {name : List Char} (hname : IsName name) {inWord : Bool}
    {text : List Char} (h : EndsInName name inWord text) :
    name.IsSuffix (text.rdropWhile isBlank) := by
  obtain ⟨before, blanks, rfl, hb, -⟩ := h
  rw [hname.rdropWhile_append before hb]
  exact List.suffix_append _ _

/-- A text whose end is not the end of the name does not end in the name. -/
theorem IsName.not_endsInName_append {name last : List Char} (hname : IsName name)
    (hlast : IsName last) (hlength : last.length ≤ name.length) (h : ¬ last.IsSuffix name)
    (before : List Char) {blanks : List Char} (hb : ∀ c ∈ blanks, isBlank c) (inWord : Bool) :
    ¬ EndsInName name inWord (before ++ last ++ blanks) := by
  intro hends
  have hsuffix := hends.isSuffix hname
  rw [hlast.rdropWhile_append before hb] at hsuffix
  exact h (List.suffix_of_suffix_length_le (List.suffix_append before last) hsuffix hlength)

/-- The character before a place is the last one before it in the text, if there is one. -/
theorem isWord_getLast?_cons (inWord : Bool) (c : Char) (before : List Char) :
    ((c :: before).getLast?.map isWord).getD inWord =
      (before.getLast?.map isWord).getD (isWord c) := by
  rw [List.getLast?_cons]
  cases before.getLast? <;> rfl

theorem endsInName_cons_iff (name : List Char) (inWord : Bool) (c : Char) (text : List Char) :
    EndsInName name inWord (c :: text) ↔
      (inWord = false ∧ ∃ blanks, c :: text = name ++ blanks ∧ ∀ b ∈ blanks, isBlank b) ∨
        EndsInName name (isWord c) text := by
  constructor
  · rintro ⟨_ | ⟨d, before⟩, blanks, h, hb, hw⟩
    · exact Or.inl ⟨hw, blanks, h, hb⟩
    · obtain ⟨rfl, htext⟩ := List.cons.inj h
      exact Or.inr ⟨before, blanks, htext, hb, (isWord_getLast?_cons inWord _ before).symm.trans hw⟩
  · rintro (⟨hw, blanks, h, hb⟩ | ⟨before, blanks, rfl, hb, hw⟩)
    · exact ⟨[], blanks, h, hb, hw⟩
    · exact ⟨c :: before, blanks, rfl, hb, (isWord_getLast?_cons inWord c before).trans hw⟩

/-- A text that is the name and blanks has no further occurrence of the name at its end. -/
theorem not_endsInName_of_cons_eq {name : List Char} (hname : IsName name) {c : Char}
    {text blanks : List Char} (h : c :: text = name ++ blanks) (hb : ∀ b ∈ blanks, isBlank b)
    (inWord : Bool) : ¬ EndsInName name inWord text := by
  rintro ⟨before, blanks', rfl, hb', -⟩
  have h₁ := hname.rdropWhile_append [] hb
  have h₂ := hname.rdropWhile_append (c :: before) hb'
  have h₃ : (name ++ blanks).rdropWhile isBlank = c :: before ++ name := by
    rw [← h]
    exact h₂
  have hlength := congrArg List.length (h₁.symm.trans h₃)
  simp only [List.nil_append, List.cons_append, List.length_append, List.length_cons] at hlength
  omega

/-! ## Values behind an equals sign -/

theorem isQuote_iff (c : Char) : isQuote c ↔ c = '\x27' ∨ c = '"' := by
  simp [isQuote]

theorem isBlank_equals : ¬ isBlank '=' := by decide

theorem assignedValue?_blanks_append {blanks : List Char} (h : ∀ c ∈ blanks, isBlank c)
    (text : List Char) : assignedValue? (blanks ++ text) = assignedValue? text := by
  rw [assignedValue?, List.dropWhile_append_of_pos h, assignedValue?]

theorem assignedValue?_of_not_blank {before : List Char} (h : '=' ∉ before)
    (hb : ¬ ∀ c ∈ before, isBlank c) (text : List Char) :
    assignedValue? (before ++ text) = none := by
  induction before with
  | nil => simp at hb
  | cons c before ih =>
    rw [List.mem_cons, not_or] at h
    by_cases hc : isBlank c
    · have hrest : ¬ ∀ d ∈ before, isBlank d := fun hd => hb (by simpa [hc] using hd)
      have hskip : assignedValue? ([c] ++ (before ++ text)) = assignedValue? (before ++ text) :=
        assignedValue?_blanks_append (by simpa using hc) _
      exact hskip.trans (ih h.2 hrest)
    · rw [assignedValue?, List.cons_append, List.dropWhile_cons_of_neg hc]
      split
      · next heq => exact absurd (List.cons.inj heq).1.symm h.1
      · rfl

theorem assignedValue?_of_not_mem {text : List Char} (h : '=' ∉ text) :
    assignedValue? text = none := by
  rw [assignedValue?]
  split
  · next heq => exact absurd (List.dropWhile_subset _ (heq ▸ List.mem_cons_self)) h
  · rfl

/-- A quoted value behind an equals sign. -/
theorem assignedValue?_equals {blanks value : List Char} {quote quote' : Char}
    (hb : ∀ c ∈ blanks, isBlank c) (hq : isQuote quote) (hq' : isQuote quote')
    (hv : ∀ c ∈ value, ¬ isQuote c) (rest : List Char) :
    assignedValue? ('=' :: (blanks ++ quote :: (value ++ quote' :: rest))) = some value := by
  have hquote : ¬ isBlank quote := by
    rcases (isQuote_iff quote).1 hq with rfl | rfl <;> decide
  have hany : (value ++ quote' :: rest).any isQuote = true := by simp [hq']
  have htake : (value ++ quote' :: rest).takeWhile (!isQuote ·) = value := by
    rw [List.takeWhile_append_of_pos (by simpa using hv),
      List.takeWhile_cons_of_neg (by simpa using hq'), List.append_nil]
  simp only [assignedValue?, List.dropWhile_cons_of_neg isBlank_equals,
    List.dropWhile_append_of_pos hb, List.dropWhile_cons_of_neg hquote, hq, hany, htake,
    Bool.and_self, if_true]

/-! ## Values hold no quotes -/

theorem not_isQuote_of_assignedValue? {text value : List Char}
    (h : assignedValue? text = some value) : ∀ c ∈ value, isQuote c = false := by
  unfold assignedValue? at h
  split at h
  · split at h
    · split_ifs at h
      cases h
      intro c hc
      simpa using List.mem_takeWhile_imp hc
    · cases h
  · cases h

theorem not_isQuote_of_mem_assignedValuesFrom {name text : List Char} {inWord : Bool}
    {value : List Char} (h : value ∈ assignedValuesFrom name inWord text) :
    ∀ c ∈ value, isQuote c = false := by
  induction text generalizing inWord with
  | nil => exact absurd h List.not_mem_nil
  | cons c text ih =>
    rw [assignedValuesFrom] at h
    rcases List.mem_append.1 h with hhere | hlater
    · cases inWord with
      | true => exact absurd hhere List.not_mem_nil
      | false =>
        obtain ⟨rest, -, hvalue⟩ := Option.bind_eq_some_iff.1 (Option.mem_toList.1 hhere)
        exact not_isQuote_of_assignedValue? hvalue
    · exact ih hlater

theorem not_isQuote_of_mem_assignedValues {name text value : List Char}
    (h : value ∈ assignedValues name text) : ∀ c ∈ value, isQuote c = false :=
  not_isQuote_of_mem_assignedValuesFrom h

/-! ## From one equals sign to the next -/

theorem assignedValuesFrom_of_not_mem {text : List Char} (h : '=' ∉ text) (name : List Char)
    (inWord : Bool) : assignedValuesFrom name inWord text = [] := by
  induction text generalizing inWord with
  | nil => rfl
  | cons c text ih =>
    have hhere : (after? name (c :: text)).bind assignedValue? = none := by
      rw [Option.bind_eq_none_iff]
      intro later hl
      rw [after?_eq_some_iff] at hl
      exact assignedValue?_of_not_mem fun hmem => h (by rw [hl]; exact List.mem_append_right _ hmem)
    rw [assignedValuesFrom, hhere, ih fun hmem => h (List.mem_cons_of_mem _ hmem)]
    cases inWord <;> rfl

open scoped Classical in
/-- A match of the name right at the beginning of a text with its first equals sign. -/
theorem valueHere_eq {name chunk : List Char} (hname : IsName name) (hchunk : '=' ∉ chunk)
    (rest : List Char) :
    (after? name (chunk ++ '=' :: rest)).bind assignedValue? =
      if ∃ blanks, chunk = name ++ blanks ∧ ∀ b ∈ blanks, isBlank b then
        assignedValue? ('=' :: rest)
      else none := by
  split_ifs with h
  · obtain ⟨blanks, rfl, hb⟩ := h
    rw [List.append_assoc, after?_append, Option.bind_some, assignedValue?_blanks_append hb]
  · rcases ha : after? name (chunk ++ '=' :: rest) with _ | later
    · rfl
    · rw [after?_eq_some_iff] at ha
      rw [Option.bind_some]
      rcases List.append_eq_append_iff.1 ha with ⟨more, rfl, hmore⟩ | ⟨blanks, rfl, rfl⟩
      · rcases more with _ | ⟨c, more⟩
        · exact absurd ⟨[], by simp⟩ h
        · obtain ⟨rfl, -⟩ := List.cons.inj hmore
          exact absurd hname.no_equals (by simp)
      · refine assignedValue?_of_not_blank (fun hmem => hchunk (by simp [hmem])) ?_ _
        exact fun hb => h ⟨blanks, rfl, hb⟩

open scoped Classical in
theorem assignedValuesFrom_append_equals {name chunk : List Char} (hname : IsName name)
    (hchunk : '=' ∉ chunk) (inWord : Bool) (rest : List Char) :
    assignedValuesFrom name inWord (chunk ++ '=' :: rest) =
      (if EndsInName name inWord chunk then (assignedValue? ('=' :: rest)).toList else []) ++
        assignedValuesFrom name false rest := by
  induction chunk generalizing inWord with
  | nil =>
    -- no name begins with the equals sign itself
    obtain ⟨front, last, rfl, -⟩ := hname.last
    have hends : ¬ EndsInName (front ++ [last]) inWord [] := by
      rintro ⟨before, blanks, h, -⟩
      simp at h
    have hhere : (after? (front ++ [last]) ('=' :: rest)).bind assignedValue? = none := by
      rw [← List.nil_append ('=' :: rest), valueHere_eq hname List.not_mem_nil, if_neg]
      rintro ⟨blanks, h, -⟩
      simp at h
    rw [if_neg hends, List.nil_append, assignedValuesFrom, hhere]
    cases inWord <;> rfl
  | cons c chunk ih =>
    have hrest := hchunk
    rw [List.mem_cons, not_or] at hrest
    rw [List.cons_append, assignedValuesFrom, ih hrest.2, ← List.cons_append,
      valueHere_eq hname hchunk, endsInName_cons_iff, ← List.append_assoc]
    congr 1
    by_cases hhere : ∃ blanks, c :: chunk = name ++ blanks ∧ ∀ b ∈ blanks, isBlank b
    · obtain ⟨blanks, h, hb⟩ := id hhere
      rw [if_pos hhere, if_neg (not_endsInName_of_cons_eq hname h hb _), List.append_nil]
      cases inWord <;> simp [hhere, not_endsInName_of_cons_eq hname h hb]
    · rw [if_neg hhere]
      cases inWord <;> simp [hhere]

end SiteSurvey.Source
