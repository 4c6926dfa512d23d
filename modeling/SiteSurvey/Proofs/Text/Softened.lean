import SiteSurvey.Proofs.Text.Trailing

/-!
# Spaces for newlines

A text in which spaces stand for some of the newlines in front of blank lines, and maybe for the end
of the text (`Softened`). A reader to whom a newline and a space are the same goes through both
texts at the same pace (`Softened.dropWhile_of_drops`, `Softened.after?`) and finds the same words
in them (`Softened.words_eq`).
-/

namespace SiteSurvey.Text

/-- The first line of the text is blank. -/
def BeginsBlank (text : List Char) : Prop :=
  AllBlank (text.takeWhile (· != '\n'))

/--
The second text is the first with spaces for newlines; `padded` says whether a space stands behind
its end.
-/
inductive Softened : (padded : Bool) → (text soft : List Char) → Prop where
  | nil : Softened false [] []
  | padding : Softened true [] [' ']
  | keep {padded text soft} (c : Char) (h : Softened padded text soft) :
      Softened padded (c :: text) (c :: soft)
  | newline {padded text soft} (hblank : BeginsBlank text) (h : Softened padded text soft) :
      Softened padded ('\n' :: text) (' ' :: soft)

namespace BeginsBlank

theorem nil : BeginsBlank [] :=
  allBlank_nil

theorem of_cons {c : Char} {text : List Char} (h : BeginsBlank (c :: text)) (hc : c ≠ '\n') :
    isBlank c = true ∧ BeginsBlank text := by
  have htake : (c :: text).takeWhile (· != '\n') = c :: text.takeWhile (· != '\n') :=
    List.takeWhile_cons_of_pos (by simpa using hc)
  unfold BeginsBlank at h
  rw [htake] at h
  exact List.forall_mem_cons.1 h

theorem cons {c : Char} {text : List Char} (hc : isBlank c = true) (h : BeginsBlank text) :
    BeginsBlank (c :: text) := by
  unfold BeginsBlank
  rw [List.takeWhile_cons]
  split_ifs
  · exact List.forall_mem_cons.2 ⟨hc, h⟩
  · exact allBlank_nil

theorem newline (text : List Char) : BeginsBlank ('\n' :: text) :=
  allBlank_nil

theorem append {first text : List Char} (hfirst : AllBlank first) (h : BeginsBlank text) :
    BeginsBlank (first ++ text) := by
  induction first with
  | nil => exact h
  | cons c first ih =>
    obtain ⟨hc, hfirst⟩ := List.forall_mem_cons.1 hfirst
    exact .cons hc (ih hfirst)

theorem of_prefix {text first : List Char} (h : BeginsBlank text) (hfirst : first <+: text) :
    BeginsBlank first := by
  induction text generalizing first with
  | nil =>
    rw [List.prefix_nil.1 hfirst]
    exact h
  | cons c text ih =>
    cases first with
    | nil => exact .nil
    | cons d first =>
      obtain ⟨rfl, hrest⟩ := List.cons_prefix_cons.1 hfirst
      by_cases hc : d = '\n'
      · rw [hc]
        exact .newline _
      · obtain ⟨hblank, htext⟩ := h.of_cons hc
        exact .cons hblank (ih htext hrest)

theorem head?_dropWhile_isIndent {text : List Char} (h : BeginsBlank text) :
    ∀ c ∈ (text.dropWhile isIndent).head?, isBlank c = true := by
  induction text with
  | nil => simp
  | cons c text ih =>
    by_cases hc : c = '\n'
    · rintro d hd
      rw [hc] at hd
      cases hd
      decide
    · obtain ⟨hblank, htext⟩ := h.of_cons hc
      by_cases hindent : isIndent c = true
      · rw [List.dropWhile_cons_of_pos hindent]
        exact ih htext
      · rw [List.dropWhile_cons_of_neg hindent]
        simpa using hblank

end BeginsBlank

namespace Softened

variable {padded : Bool} {text soft : List Char}

theorem append (h : Softened padded text soft) (first : List Char) :
    Softened padded (first ++ text) (first ++ soft) := by
  induction first with
  | nil => exact h
  | cons c first ih => exact .keep c ih

theorem refl (text : List Char) : Softened false text text := by
  have h := Softened.nil.append text
  rwa [List.append_nil] at h

theorem length_eq (h : Softened padded text soft) :
    soft.length = text.length + padded.toNat := by
  induction h with
  | nil => rfl
  | padding => rfl
  | keep c h ih => rw [List.length_cons, List.length_cons, ih, Nat.add_right_comm]
  | newline hblank h ih => rw [List.length_cons, List.length_cons, ih, Nat.add_right_comm]

/-- A blank line stays at the beginning when it is joined with blank lines. -/
theorem beginsBlank (h : Softened padded text soft) (hblank : BeginsBlank text) :
    BeginsBlank soft := by
  induction h with
  | nil => exact hblank
  | padding => exact .cons (by decide) .nil
  | keep c h ih =>
    by_cases hc : c = '\n'
    · rw [hc]
      exact .newline _
    · obtain ⟨hc', hblank⟩ := hblank.of_cons hc
      exact .cons hc' (ih hblank)
  | newline hnext h ih => exact .cons (by decide) (ih hnext)

/-! ## Dropping and taking -/

/-- Dropping stops in both texts at the same character if it goes on behind white space. -/
theorem dropWhile_of_drops (h : Softened padded text soft) (drop : Char → Bool)
    (hspace : drop ' ' = true) (hnewline : drop '\n' = true) :
    (text.dropWhile drop = [] ∧ soft.dropWhile drop = []) ∨
      ∃ c rest rest', text.dropWhile drop = c :: rest ∧ soft.dropWhile drop = c :: rest' ∧
        Softened padded rest rest' := by
  induction h with
  | nil => exact Or.inl ⟨rfl, rfl⟩
  | padding => exact Or.inl ⟨rfl, List.dropWhile_cons_of_pos hspace⟩
  | @keep padded text soft c h ih =>
    by_cases hc : drop c = true
    · rwa [List.dropWhile_cons_of_pos hc, List.dropWhile_cons_of_pos hc]
    · rw [List.dropWhile_cons_of_neg hc, List.dropWhile_cons_of_neg hc]
      exact Or.inr ⟨c, text, soft, rfl, rfl, h⟩
  | newline hblank h ih =>
    rwa [List.dropWhile_cons_of_pos hnewline, List.dropWhile_cons_of_pos hspace]

theorem dropWhile_of_keeps (h : Softened padded text soft) (drop : Char → Bool)
    (hspace : drop ' ' = false) (hnewline : drop '\n' = false) :
    Softened padded (text.dropWhile drop) (soft.dropWhile drop) := by
  induction h with
  | nil => exact .nil
  | padding =>
    rw [List.dropWhile_cons_of_neg (by simp [hspace])]
    exact .padding
  | keep c h ih =>
    by_cases hc : drop c = true
    · rwa [List.dropWhile_cons_of_pos hc, List.dropWhile_cons_of_pos hc]
    · rw [List.dropWhile_cons_of_neg hc, List.dropWhile_cons_of_neg hc]
      exact .keep c h
  | newline hblank h ih =>
    rw [List.dropWhile_cons_of_neg (by simp [hnewline]),
      List.dropWhile_cons_of_neg (by simp [hspace])]
    exact .newline hblank h

theorem exists_takeWhile (h : Softened padded text soft) (take : Char → Bool)
    (htake : take '\n' = take ' ') :
    ∃ padded, Softened padded (text.takeWhile take) (soft.takeWhile take) := by
  induction h with
  | nil => exact ⟨false, .nil⟩
  | padding =>
    by_cases hspace : take ' ' = true
    · rw [List.takeWhile_cons_of_pos hspace]
      exact ⟨true, .padding⟩
    · rw [List.takeWhile_cons_of_neg hspace]
      exact ⟨false, .nil⟩
  | keep c h ih =>
    by_cases hc : take c = true
    · obtain ⟨padded, ih⟩ := ih
      rw [List.takeWhile_cons_of_pos hc, List.takeWhile_cons_of_pos hc]
      exact ⟨padded, .keep c ih⟩
    · rw [List.takeWhile_cons_of_neg hc, List.takeWhile_cons_of_neg hc]
      exact ⟨false, .nil⟩
  | newline hblank h ih =>
    by_cases hspace : take ' ' = true
    · obtain ⟨padded, ih⟩ := ih
      rw [List.takeWhile_cons_of_pos (htake.trans hspace), List.takeWhile_cons_of_pos hspace]
      exact ⟨padded, .newline (hblank.of_prefix (List.takeWhile_prefix take)) ih⟩
    · rw [List.takeWhile_cons_of_neg (by rwa [htake]), List.takeWhile_cons_of_neg hspace]
      exact ⟨false, .nil⟩

/-- Where indentation goes on behind a newline in one of the texts, nothing but blanks follows. -/
theorem dropWhile_isIndent (h : Softened padded text soft) :
    Softened padded (text.dropWhile isIndent) (soft.dropWhile isIndent) ∨
      ((∀ c ∈ (text.dropWhile isIndent).head?, isBlank c = true) ∧
        ∀ c ∈ (soft.dropWhile isIndent).head?, isBlank c = true) := by
  induction h with
  | nil => exact Or.inl .nil
  | padding => exact Or.inr ⟨BeginsBlank.nil.head?_dropWhile_isIndent, by simp [isIndent]⟩
  | keep c h ih =>
    by_cases hc : isIndent c = true
    · rwa [List.dropWhile_cons_of_pos hc, List.dropWhile_cons_of_pos hc]
    · rw [List.dropWhile_cons_of_neg hc, List.dropWhile_cons_of_neg hc]
      exact Or.inl (.keep c h)
  | newline hblank h ih =>
    have hspace : isBlank ' ' = true := by decide
    have hsoft := BeginsBlank.cons hspace (h.beginsBlank hblank)
    exact Or.inr ⟨(BeginsBlank.newline _).head?_dropWhile_isIndent, hsoft.head?_dropWhile_isIndent⟩

/-! ## Reading -/

theorem after? (h : Softened padded text soft) {start : List Char}
    (hstart : ∀ c ∈ start, isBlank c = false) :
    Option.Rel (Softened padded) (Text.after? start text) (Text.after? start soft) := by
  induction start generalizing text soft with
  | nil => exact .some h
  | cons s start ih =>
    rw [List.forall_mem_cons] at hstart
    have hspace : s ≠ ' ' := ne_of_isBlank (by decide) hstart.1
    have hnewline : s ≠ '\n' := ne_of_isBlank (by decide) hstart.1
    cases h with
    | nil => exact .none
    | padding => simp [Text.after?, hspace]
    | keep c h =>
      rw [Text.after?, Text.after?]
      split_ifs
      · exact ih h hstart.2
      · exact .none
    | newline hblank h => simp [Text.after?, hspace, hnewline]

theorem after?_dropWhile_isBlank (h : Softened padded text soft) {start : List Char}
    (hne : start ≠ []) (hstart : ∀ c ∈ start, isBlank c = false) :
    Option.Rel (Softened padded) (Text.after? start (text.dropWhile isBlank))
      (Text.after? start (soft.dropWhile isBlank)) := by
  rcases h.dropWhile_of_drops isBlank (by decide) (by decide) with
    ⟨htext, hsoft⟩ | ⟨c, rest, rest', htext, hsoft, h⟩
  · obtain ⟨s, start, rfl⟩ := List.exists_cons_of_ne_nil hne
    rw [htext, hsoft]
    exact .none
  · rw [htext, hsoft]
    exact (Softened.keep c h).after? hstart

theorem head?_dropWhile_isBlank (h : Softened padded text soft) :
    (text.dropWhile isBlank).head? = (soft.dropWhile isBlank).head? := by
  rcases h.dropWhile_of_drops isBlank (by decide) (by decide) with
    ⟨htext, hsoft⟩ | ⟨c, rest, rest', htext, hsoft, -⟩
  · rw [htext, hsoft]
  · rw [htext, hsoft, List.head?_cons, List.head?_cons]

theorem takeWhile_isWord (h : Softened padded text soft) :
    text.takeWhile isWord = soft.takeWhile isWord := by
  induction h with
  | nil => rfl
  | padding => rfl
  | keep c h ih => rw [List.takeWhile_cons, List.takeWhile_cons, ih]
  | newline hblank h ih => rfl

theorem wordsFrom_eq (h : Softened padded text soft) (held : List Char) :
    wordsFrom held text = wordsFrom held soft := by
  induction h generalizing held with
  | nil => rfl
  | padding => cases held <;> rfl
  | keep c h ih => simp only [wordsFrom, ih]
  | newline hblank h ih =>
    have hnewline : isWord '\n' = false := by decide
    have hspace : isWord ' ' = false := by decide
    simp only [wordsFrom, hnewline, hspace, ih, Bool.false_eq_true, if_false]

theorem words_eq (h : Softened padded text soft) : words text = words soft :=
  h.wordsFrom_eq []

end Softened

end SiteSurvey.Text
