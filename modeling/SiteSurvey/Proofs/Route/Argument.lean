import Mathlib.Data.List.TakeWhile
import SiteSurvey.Route.Argument

/-!
# Placeholders of a text in pieces

Text without `<` adds no placeholder, and a name between angle brackets adds one
(`placeholders_append`, `placeholders_token`). A token gives back the converter and the name that it
was made of. Whatever the text, no name of an argument holds an angle bracket
(`IsToken.not_mem_name`).
-/

namespace SiteSurvey.Route

/-! ## Finding tokens -/

theorem placeholders_append {text : List Char} (h : '<' ∉ text) (rest : List Char) :
    placeholders (text ++ rest) = placeholders rest := by
  unfold placeholders
  induction text with
  | nil => rfl
  | cons c text ih =>
    rw [List.mem_cons, not_or] at h
    rw [List.cons_append, placeholdersFrom, if_neg fun e => h.1 e.symm]
    exact ih h.2

theorem placeholdersFrom_some_append {text : List Char} (h : '<' ∉ text) (h' : '>' ∉ text)
    (token rest : List Char) :
    placeholdersFrom (some token) (text ++ rest) =
      placeholdersFrom (some (text.reverse ++ token)) rest := by
  induction text generalizing token with
  | nil => rfl
  | cons c text ih =>
    rw [List.mem_cons, not_or] at h h'
    rw [List.cons_append, placeholdersFrom, if_neg fun e => h.1 e.symm]
    rw [if_neg fun e => h'.1 e.symm, ih h.2 h'.2, List.reverse_cons, List.append_assoc,
      List.singleton_append]

theorem placeholders_token {name : List Char} (h : '<' ∉ name) (h' : '>' ∉ name)
    (hname : name ≠ []) (rest : List Char) :
    placeholders ('<' :: (name ++ '>' :: rest)) =
      ('<' :: (name ++ ['>'])) :: placeholders rest := by
  have hlength : (name.reverse ++ ['<']).length ≠ 1 := by
    rw [List.length_append, List.length_reverse, List.length_singleton]
    have := List.length_pos_iff.2 hname
    omega
  rw [placeholders, placeholdersFrom, if_pos rfl, placeholdersFrom_some_append h h',
    placeholdersFrom, if_neg (by decide)]
  rw [if_pos rfl, if_neg hlength, List.reverse_cons, List.reverse_append, List.reverse_reverse]
  rfl

/-! ## Reading tokens -/

namespace Argument

theorem bareToken_token (name : List Char) : bareToken ('<' :: (name ++ ['>'])) = name := by
  have h : Text.dropStart ['<'] ('<' :: (name ++ ['>'])) = name ++ ['>'] := rfl
  rw [bareToken, h, List.getLast?_concat, if_pos rfl, List.dropLast_concat]

theorem ofToken_untyped {name : List Char} (h : ':' ∉ name) :
    ofToken ('<' :: (name ++ ['>'])) = ⟨String.ofList name, none⟩ := by
  have hdrop : name.dropWhile (· != ':') = [] := by
    rw [List.dropWhile_eq_nil_iff]
    intro c hc
    simpa using fun e : c = ':' => h (e ▸ hc)
  rw [ofToken, bareToken_token, hdrop]

theorem ofToken_typed {converter : List Char} (h : ':' ∉ converter) (name : List Char) :
    ofToken ('<' :: (converter ++ ':' :: name ++ ['>'])) =
      ⟨String.ofList name, Converter.ofTag? (String.ofList converter)⟩ := by
  have hall : ∀ c ∈ converter, (c != ':') = true := by
    intro c hc
    simpa using fun e : c = ':' => h (e ▸ hc)
  have hdrop : (converter ++ ':' :: name).dropWhile (· != ':') = ':' :: name := by
    rw [List.dropWhile_append_of_pos hall, List.dropWhile_cons_of_neg (by decide)]
  have htake : (converter ++ ':' :: name).takeWhile (· != ':') = converter := by
    rw [List.takeWhile_append_of_pos hall, List.takeWhile_cons_of_neg (by decide),
      List.append_nil]
  rw [ofToken, bareToken_token, hdrop, htake]

end Argument

/-! ## Tokens hold no further brackets -/

/-- A name between angle brackets that holds none itself. -/
def IsToken (token : List Char) : Prop :=
  ∃ name, token = '<' :: (name ++ ['>']) ∧ '<' ∉ name ∧ '>' ∉ name

/-- The beginning of a token, in reverse. -/
def IsTokenStart (held : List Char) : Prop :=
  ∃ name, held = name ++ ['<'] ∧ '<' ∉ name ∧ '>' ∉ name

theorem isTokenStart_opening : IsTokenStart ['<'] :=
  ⟨[], rfl, List.not_mem_nil, List.not_mem_nil⟩

theorem IsTokenStart.cons {held : List Char} (h : IsTokenStart held) {c : Char} (hopen : c ≠ '<')
    (hclose : c ≠ '>') : IsTokenStart (c :: held) := by
  obtain ⟨name, rfl, hleft, hright⟩ := h
  refine ⟨c :: name, rfl, ?_, ?_⟩
  · exact List.not_mem_cons_of_ne_of_not_mem hopen.symm hleft
  · exact List.not_mem_cons_of_ne_of_not_mem hclose.symm hright

theorem IsTokenStart.isToken {held : List Char} (h : IsTokenStart held) :
    IsToken ('>' :: held).reverse := by
  obtain ⟨name, rfl, hleft, hright⟩ := h
  exact ⟨name.reverse, by simp, by simpa using hleft, by simpa using hright⟩

theorem isToken_of_mem_placeholdersFrom {held : Option (List Char)}
    (hheld : ∀ read ∈ held, IsTokenStart read) {text token : List Char}
    (h : token ∈ placeholdersFrom held text) : IsToken token := by
  have hnone : ∀ read ∈ (none : Option (List Char)), IsTokenStart read := by simp
  have hsome {read : List Char} (hread : IsTokenStart read) :
      ∀ read' ∈ some read, IsTokenStart read' := by simpa using hread
  induction text generalizing held with
  | nil => cases held <;> exact absurd h List.not_mem_nil
  | cons c text ih =>
    cases held with
    | none =>
      rw [placeholdersFrom] at h
      split_ifs at h with hopen
      · exact ih (hsome (hopen ▸ isTokenStart_opening)) h
      · exact ih hnone h
    | some read =>
      have hread : IsTokenStart read := hheld read rfl
      rw [placeholdersFrom] at h
      split_ifs at h with hopen hclose hempty
      · exact ih (hsome (hopen ▸ isTokenStart_opening)) h
      · exact ih hnone h
      · rcases List.mem_cons.1 h with rfl | h
        · rw [hclose]
          exact hread.isToken
        · exact ih hnone h
      · exact ih (hsome (hread.cons hopen hclose)) h

theorem isToken_of_mem_placeholders {text token : List Char} (h : token ∈ placeholders text) :
    IsToken token :=
  isToken_of_mem_placeholdersFrom (by simp) h

theorem IsToken.not_mem_name {token : List Char} (h : IsToken token) :
    '<' ∉ (Argument.ofToken token).name.toList ∧ '>' ∉ (Argument.ofToken token).name.toList := by
  obtain ⟨name, rfl, hleft, hright⟩ := h
  have hsubset : (Argument.ofToken ('<' :: (name ++ ['>']))).name.toList ⊆ name := by
    rw [Argument.ofToken, Argument.bareToken_token]
    split
    · rw [String.toList_ofList]
      exact List.Subset.refl _
    · next hdrop =>
      rw [String.toList_ofList]
      exact fun c hc => List.dropWhile_subset _ (hdrop ▸ List.mem_cons_of_mem _ hc)
  exact ⟨fun h => hleft (hsubset h), fun h => hright (hsubset h)⟩

end SiteSurvey.Route
