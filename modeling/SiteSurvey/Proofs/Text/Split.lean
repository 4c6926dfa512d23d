import SiteSurvey.Text.Split

/-!
# The parts between separators

Cutting at a separator undoes joining by it (`splitAt_append_cons`), and a text without the
separator is its only part. So the lines of a text put together from lines are these lines
(`lines_joinLines`). What follows a beginning is what was put after it (`after?_eq_some_iff`).
-/

namespace SiteSurvey.Text

theorem splitAt_ne_nil (separator : Char) (text : List Char) : splitAt separator text ≠ [] := by
  cases text with
  | nil => simp [splitAt]
  | cons c rest =>
    rw [splitAt]
    split
    · simp
    · split <;> simp

theorem splitAt_cons_of_ne {separator c : Char} (h : c ≠ separator) {text part : List Char}
    {parts : List (List Char)} (ht : splitAt separator text = part :: parts) :
    splitAt separator (c :: text) = (c :: part) :: parts := by
  rw [splitAt, if_neg h, ht]

theorem splitAt_append_cons (separator : Char) (first rest : List Char) :
    splitAt separator (first ++ separator :: rest) =
      splitAt separator first ++ splitAt separator rest := by
  induction first with
  | nil => simp [splitAt]
  | cons c first ih =>
    by_cases h : c = separator
    · rw [List.cons_append, splitAt, if_pos h, ih, splitAt, if_pos h, List.cons_append]
    · obtain ⟨part, parts, hp⟩ := List.exists_cons_of_ne_nil (splitAt_ne_nil separator first)
      rw [hp, List.cons_append] at ih
      rw [List.cons_append, splitAt_cons_of_ne h ih, splitAt_cons_of_ne h hp, List.cons_append]

theorem splitAt_of_not_mem {separator : Char} {text : List Char} (h : separator ∉ text) :
    splitAt separator text = [text] := by
  induction text with
  | nil => rfl
  | cons c text ih =>
    rw [List.mem_cons, not_or] at h
    rw [splitAt_cons_of_ne (fun e => h.1 e.symm) (ih h.2)]

theorem not_mem_of_mem_splitAt {separator : Char} {text part : List Char}
    (h : part ∈ splitAt separator text) : separator ∉ part := by
  induction text generalizing part with
  | nil =>
    obtain rfl := List.mem_singleton.1 h
    exact List.not_mem_nil
  | cons c text ih =>
    by_cases hc : c = separator
    · rw [splitAt, if_pos hc] at h
      rcases List.mem_cons.1 h with rfl | h
      · exact List.not_mem_nil
      · exact ih h
    · obtain ⟨first, parts, hparts⟩ := List.exists_cons_of_ne_nil (splitAt_ne_nil separator text)
      rw [splitAt_cons_of_ne hc hparts] at h
      rw [hparts] at ih
      rcases List.mem_cons.1 h with rfl | h
      · rw [List.mem_cons, not_or]
        exact ⟨Ne.symm hc, ih List.mem_cons_self⟩
      · exact ih (List.mem_cons_of_mem _ h)

/-! ## Lines -/

/-- The text of many lines; the last of them has a newline only if the text is `ended`. -/
def joinLines (ended : Bool) : List (List Char) → List Char
  | [] => []
  | [line] => line ++ if ended then ['\n'] else []
  | line :: lines => line ++ '\n' :: joinLines ended lines

theorem joinLines_cons (ended : Bool) (line : List Char) {lines : List (List Char)}
    (h : lines ≠ []) : joinLines ended (line :: lines) = line ++ '\n' :: joinLines ended lines := by
  cases lines with
  | nil => exact absurd rfl h
  | cons next lines => rfl

theorem joinLines_true_cons (line : List Char) (all : List (List Char)) :
    joinLines true (line :: all) = line ++ '\n' :: joinLines true all := by
  cases all <;> rfl

theorem mem_joinLines {c : Char} {ended : Bool} {all : List (List Char)}
    (h : c ∈ joinLines ended all) : (∃ line ∈ all, c ∈ line) ∨ c = '\n' := by
  induction all with
  | nil => cases h
  | cons line all ih =>
    by_cases hall : all = []
    · subst hall
      cases ended with
      | true => simpa [joinLines] using h
      | false => exact Or.inl ⟨line, List.mem_cons_self, by simpa [joinLines] using h⟩
    · rw [joinLines_cons ended line hall, List.mem_append, List.mem_cons] at h
      rcases h with h | h | h
      · exact Or.inl ⟨line, List.mem_cons_self, h⟩
      · exact Or.inr h
      · refine (ih h).imp_left ?_
        rintro ⟨other, hother, hc⟩
        exact ⟨other, List.mem_cons_of_mem _ hother, hc⟩

theorem lines_append_newline {line : List Char} (h : '\n' ∉ line) (rest : List Char) :
    lines (line ++ '\n' :: rest) = line :: lines rest := by
  unfold lines
  rw [splitAt_append_cons, splitAt_of_not_mem h, List.singleton_append]

theorem lines_joinLines (ended : Bool) {all : List (List Char)} (hne : all ≠ [])
    (h : ∀ line ∈ all, '\n' ∉ line) :
    lines (joinLines ended all) = all ++ if ended then [[]] else [] := by
  induction all with
  | nil => exact absurd rfl hne
  | cons line all ih =>
    rw [List.forall_mem_cons] at h
    by_cases hall : all = []
    · subst hall
      cases ended with
      | false => simpa [joinLines, lines] using splitAt_of_not_mem h.1
      | true => exact lines_append_newline h.1 []
    · rw [joinLines_cons ended line hall, lines_append_newline h.1, ih hall h.2, List.cons_append]

/-! ## Beginnings -/

theorem after?_append (start rest : List Char) : after? start (start ++ rest) = some rest := by
  induction start with
  | nil => rfl
  | cons c start ih => rw [List.cons_append, after?, if_pos rfl, ih]

theorem after?_eq_some_iff {start text rest : List Char} :
    after? start text = some rest ↔ text = start ++ rest := by
  refine ⟨fun h => ?_, fun h => h ▸ after?_append start rest⟩
  induction start generalizing text with
  | nil => simpa [after?] using h
  | cons s start ih =>
    cases text with
    | nil => simp [after?] at h
    | cons c text =>
      rw [after?] at h
      split at h
      · next e => rw [← e, ih h, List.cons_append]
      · cases h

end SiteSurvey.Text
