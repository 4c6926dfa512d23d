import Mathlib.Data.List.TakeWhile
import SiteSurvey.Proofs.Text.Word

/-!
# White space at the end of a text

A reader that goes through a text from its beginning by dropping characters and by taking fixed
beginnings keeps white space at the end of the text as it is (`Padded.dropWhile`, `Padded.after?`),
and trimming takes it away (`trim_append`) up to what is kept (`trimBy_append`). Two readings that
go the same way are compared step by step (`Option.Rel.bind_eq`).
-/

namespace Option.Rel

variable {α β γ δ : Type} {r : α → β → Prop} {first : Option α} {second : Option β}

theorem bind {s : γ → δ → Prop} (h : Option.Rel r first second) {f : α → Option γ}
    {g : β → Option δ} (hnext : ∀ {a b}, r a b → Option.Rel s (f a) (g b)) :
    Option.Rel s (first.bind f) (second.bind g) := by
  cases h with
  | some h => exact hnext h
  | none => exact .none

theorem bind_eq (h : Option.Rel r first second) {f : α → Option γ} {g : β → Option γ}
    (hnext : ∀ {a b}, r a b → f a = g b) : first.bind f = second.bind g := by
  cases h with
  | some h => exact hnext h
  | none => rfl

theorem eq_none (h : Option.Rel r Option.none second) : second = Option.none := by
  cases h
  rfl

theorem exists_of_some {a : α} (h : Option.Rel r (Option.some a) second) :
    ∃ b, second = Option.some b ∧ r a b := by
  cases h with
  | some h => exact ⟨_, rfl, h⟩

end Option.Rel

namespace SiteSurvey.Text

/-- Nothing but white space. -/
def AllBlank (text : List Char) : Prop :=
  ∀ c ∈ text, isBlank c = true

instance (text : List Char) : Decidable (AllBlank text) :=
  List.decidableBAll _ text

theorem allBlank_nil : AllBlank [] :=
  List.forall_mem_nil _

theorem AllBlank.append {text rest : List Char} (h : AllBlank text) (hrest : AllBlank rest) :
    AllBlank (text ++ rest) :=
  List.forall_mem_append.2 ⟨h, hrest⟩

theorem AllBlank.of_suffix {text rest : List Char} (h : AllBlank text) (hrest : rest <:+ text) :
    AllBlank rest :=
  fun c hc => h c (hrest.subset hc)

theorem isWord_eq_false {c : Char} (h : isBlank c = true) : isWord c = false := by
  by_contra hword
  rw [isBlank_eq_false (by simpa using hword)] at h
  cases h

theorem AllBlank.head? {text : List Char} (h : AllBlank text) :
    ∀ c ∈ text.head?, isBlank c = true :=
  fun c hc => h c (List.mem_of_mem_head? hc)

theorem ne_of_isBlank {s c : Char} (hc : isBlank c = true) (hs : isBlank s = false) : s ≠ c := by
  rintro rfl
  rw [hc] at hs
  cases hs

/-- Nothing is read at the beginning of a text that begins with white space. -/
theorem after?_of_isBlank_head {text start : List Char} (h : ∀ c ∈ text.head?, isBlank c = true)
    {s : Char} (hs : isBlank s = false) : after? (s :: start) text = none := by
  cases text with
  | nil => rfl
  | cons c text =>
    have hne : s ≠ c := ne_of_isBlank (h c rfl) hs
    simp [after?, hne]

theorem AllBlank.endsWord {text : List Char} (h : AllBlank text) : EndsWord text :=
  fun c hc => isWord_eq_false (h.head? c hc)

/-! ## Trimming -/

section Trim

variable {drop : Char → Bool}

theorem dropWhile_append_of_head {text : List Char} (hne : text ≠ [])
    (h : ∀ c ∈ text.head?, drop c = false) (left right : List Char) :
    (left ++ (text ++ right)).dropWhile drop = left.dropWhile drop ++ (text ++ right) := by
  obtain ⟨c, rest, rfl⟩ := List.exists_cons_of_ne_nil hne
  have hkeep : (c :: rest ++ right).dropWhile drop = c :: rest ++ right := by
    rw [List.cons_append]
    exact List.dropWhile_cons_of_neg (by simp [h c rfl])
  rw [List.dropWhile_append, hkeep]
  split_ifs with hleft
  · rw [List.isEmpty_iff.1 hleft, List.nil_append]
  · rfl

/-- Trimming stops at both ends of a text that begins and ends in characters that are kept. -/
theorem trimBy_append {text : List Char} (hne : text ≠ [])
    (hfirst : ∀ c ∈ text.head?, drop c = false) (hlast : ∀ c ∈ text.getLast?, drop c = false)
    (left right : List Char) : trimBy drop (left ++ (text ++ right)) =
      left.dropWhile drop ++ (text ++ (right.reverse.dropWhile drop).reverse) := by
  have hreverse : text.reverse ≠ [] := List.reverse_ne_nil_iff.2 hne
  have hend : ∀ c ∈ text.reverse.head?, drop c = false := by simpa using hlast
  unfold trimBy
  rw [dropWhile_append_of_head hne hfirst, List.reverse_append, List.reverse_append,
    List.append_assoc, dropWhile_append_of_head hreverse hend]
  simp

theorem mem_of_mem_trimBy {c : Char} {text : List Char} (h : c ∈ trimBy drop text) : c ∈ text := by
  have hdrop := (List.dropWhile_sublist drop).subset (List.mem_reverse.1 h)
  exact (List.dropWhile_sublist drop).subset (List.mem_reverse.1 hdrop)

end Trim

theorem trim_blanks_append {blanks : List Char} (h : AllBlank blanks) (text : List Char) :
    trim (blanks ++ text) = trim text := by
  unfold trim trimBy
  rw [List.dropWhile_append_of_pos h]

theorem trim_append {blanks : List Char} (h : AllBlank blanks) (text : List Char) :
    trim (text ++ blanks) = trim text := by
  have hdrop : blanks.dropWhile isBlank = [] := List.dropWhile_eq_nil_iff.2 h
  have hreverse : ∀ c ∈ blanks.reverse, isBlank c = true :=
    fun c hc => h c (List.mem_reverse.1 hc)
  unfold trim trimBy
  rw [List.dropWhile_append]
  split_ifs with hempty
  · rw [hdrop, List.isEmpty_iff.1 hempty]
  · rw [List.reverse_append, List.dropWhile_append_of_pos hreverse]

/-! ## Padded lines -/

/-- The second text is the first one with white space behind it; the first is not continued. -/
structure Padded (text padded : List Char) : Prop where
  exists_blanks : ∃ blanks, AllBlank blanks ∧ padded = text ++ blanks
  not_continued : text.getLast? ≠ some '\\'

theorem Padded.of_suffix {text rest blanks : List Char} (h : text.getLast? ≠ some '\\')
    (hsuffix : rest <:+ text) (hblanks : AllBlank blanks) : Padded rest (rest ++ blanks) where
  exists_blanks := ⟨blanks, hblanks, rfl⟩
  not_continued := by
    obtain ⟨first, rfl⟩ := hsuffix
    cases rest with
    | nil => simp
    | cons c rest => rwa [List.getLast?_append_of_ne_nil _ (List.cons_ne_nil c rest)] at h

theorem Padded.dropWhile {text padded : List Char} (h : Padded text padded) (drop : Char → Bool) :
    Padded (text.dropWhile drop) (padded.dropWhile drop) := by
  obtain ⟨blanks, hblanks, rfl⟩ := h.exists_blanks
  rw [List.dropWhile_append]
  split_ifs with hempty
  · have hnil : text.dropWhile drop = [] := List.isEmpty_iff.1 hempty
    have hrest : AllBlank (blanks.dropWhile drop) := hblanks.of_suffix (List.dropWhile_suffix drop)
    rw [hnil]
    exact .of_suffix h.not_continued List.nil_suffix hrest
  · exact .of_suffix h.not_continued (List.dropWhile_suffix drop) hblanks

theorem Padded.takeWhile {text padded : List Char} (h : Padded text padded) {take : Char → Bool}
    (htake : ∀ c, isBlank c = true → take c = false) :
    padded.takeWhile take = text.takeWhile take := by
  obtain ⟨blanks, hblanks, rfl⟩ := h.exists_blanks
  have hnone : blanks.takeWhile take = [] := by
    cases blanks with
    | nil => rfl
    | cons c blanks =>
      have hc : take c = false := htake c (hblanks c List.mem_cons_self)
      exact List.takeWhile_cons_of_neg (by simp [hc])
  rw [List.takeWhile_append, hnone, List.append_nil]
  split_ifs with hlength
  · exact (List.takeWhile_prefix take).eq_of_length hlength |>.symm
  · rfl

/-- Whatever is read at the beginning of a padded text is read without the padding as well. -/
theorem Padded.after? {text padded start : List Char} (h : Padded text padded)
    (hstart : ∀ c ∈ start, isBlank c = false) :
    Option.Rel Padded (Text.after? start text) (Text.after? start padded) := by
  obtain ⟨blanks, hblanks, rfl⟩ := h.exists_blanks
  rw [after?_append_of_ne fun s hs c hc => ne_of_isBlank (hblanks.head? c hc) (hstart s hs)]
  cases hafter : Text.after? start text with
  | none => exact .none
  | some rest =>
    have hsuffix : rest <:+ text := ⟨start, (after?_eq_some_iff.1 hafter).symm⟩
    exact .some (.of_suffix h.not_continued hsuffix hblanks)

theorem AllBlank.padded {blanks : List Char} (h : AllBlank blanks) : Padded [] blanks where
  exists_blanks := ⟨blanks, h, rfl⟩
  not_continued := by simp

theorem Padded.allBlank {padded : List Char} (h : Padded [] padded) : AllBlank padded := by
  obtain ⟨blanks, hblanks, rfl⟩ := h.exists_blanks
  exact hblanks

/-! ## Parts of a text -/

theorem splitAt_append_of_not_mem {separator : Char} {first : List Char} (h : separator ∉ first)
    {text part : List Char} {parts : List (List Char)}
    (htext : splitAt separator text = part :: parts) :
    splitAt separator (first ++ text) = (first ++ part) :: parts := by
  induction first with
  | nil => exact htext
  | cons c first ih =>
    rw [List.mem_cons, not_or] at h
    exact splitAt_cons_of_ne (fun e => h.1 e.symm) (ih h.2)

/-- Text without separators goes to the last part. -/
theorem exists_splitAt_append (separator : Char) {more : List Char} (h : separator ∉ more)
    (text : List Char) : ∃ parts last, splitAt separator text = parts ++ [last] ∧
      splitAt separator (text ++ more) = parts ++ [last ++ more] := by
  induction text with
  | nil => exact ⟨[], [], rfl, splitAt_of_not_mem h⟩
  | cons c text ih =>
    obtain ⟨parts, last, htext, hmore⟩ := ih
    by_cases hc : c = separator
    · refine ⟨[] :: parts, last, ?_, ?_⟩
      · rw [splitAt, if_pos hc, htext, List.cons_append]
      · rw [List.cons_append, splitAt, if_pos hc, hmore, List.cons_append]
    · cases parts with
      | nil =>
        exact ⟨[], c :: last, splitAt_cons_of_ne hc htext, splitAt_cons_of_ne hc hmore⟩
      | cons part parts =>
        exact ⟨(c :: part) :: parts, last, splitAt_cons_of_ne hc htext, splitAt_cons_of_ne hc hmore⟩

end SiteSurvey.Text
