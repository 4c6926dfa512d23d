import Mathlib.Data.List.Basic
import Mathlib.Data.List.TakeWhile
import SiteSurvey.Proofs.Text.Split
import SiteSurvey.Text.Blank
import SiteSurvey.Text.Word

/-!
# Words in a text

A word in front of a text that does not go on with a word character is found as it stands: it is the
first word of the text (`words_append`), and what is read at its beginning lies within it
(`after?_append_of_endsWord`).
-/

namespace SiteSurvey.Text

/-! ## Classes of characters -/

theorem CharRanges.exists_of_hasCode {ranges : CharRanges} {n : Nat} (h : ranges.hasCode n = true) :
    ∃ range ∈ ranges, range.1 ≤ n ∧ n ≤ range.2 := by
  induction ranges with
  | nil => simp [hasCode] at h
  | cons range ranges ih =>
    obtain ⟨low, high⟩ := range
    rw [hasCode] at h
    split_ifs at h with hlow
    by_cases hhigh : n ≤ high
    · exact ⟨(low, high), by simp, by omega, hhigh⟩
    · obtain ⟨range, hmem, hrange⟩ := ih (by simpa [hhigh] using h)
      exact ⟨range, List.mem_cons_of_mem _ hmem, hrange⟩

/-- No white space is a word character. -/
theorem isBlank_eq_false {c : Char} (h : isWord c = true) : isBlank c = false := by
  have hblank : ∀ range ∈ blankRanges, ∀ k < range.2 + 1 - range.1,
      wordRanges.hasCode (range.1 + k) = false := by decide +kernel
  by_contra hc
  rw [Bool.not_eq_false] at hc
  obtain ⟨range, hmem, hlow, hhigh⟩ := CharRanges.exists_of_hasCode hc
  have hword := hblank range hmem (c.toNat - range.1) (by omega)
  rw [Nat.add_sub_cancel' hlow] at hword
  exact absurd (h.symm.trans hword) (by decide)

/-- A word character is none that is not. -/
theorem ne_of_isWord {c d : Char} (h : isWord c = true) (hd : isWord d = false) : c ≠ d := by
  rintro rfl
  rw [h] at hd
  cases hd

theorem isIndent_eq_false {c : Char} (h : isWord c = true) : isIndent c = false := by
  have hspace : c ≠ ' ' := ne_of_isWord h (by decide)
  have htab : c ≠ '\t' := ne_of_isWord h (by decide)
  simp [isIndent, hspace, htab]

/-! ## Words and what follows them -/

/-- The text does not go on with a word character. -/
def EndsWord (text : List Char) : Prop :=
  ∀ c ∈ text.head?, isWord c = false

theorem endsWord_nil : EndsWord [] := by
  simp [EndsWord]

theorem endsWord_cons {c : Char} (h : isWord c = false) (text : List Char) :
    EndsWord (c :: text) := by
  simpa [EndsWord] using h

theorem EndsWord.append {text rest : List Char} (h : EndsWord text) (hrest : EndsWord rest) :
    EndsWord (text ++ rest) := by
  cases text with
  | nil => exact hrest
  | cons c text => exact endsWord_cons (h c rfl) _

section Append

variable {word rest : List Char} (hword : ∀ c ∈ word, isWord c = true) (hrest : EndsWord rest)

include hword hrest

theorem takeWhile_isWord_append : (word ++ rest).takeWhile isWord = word := by
  rw [List.takeWhile_append_of_pos hword]
  cases rest with
  | nil => simp
  | cons c rest =>
    have hc : ¬ isWord c = true := by simp [hrest c rfl]
    rw [List.takeWhile_cons_of_neg hc, List.append_nil]

theorem dropWhile_isWord_append : (word ++ rest).dropWhile isWord = rest := by
  rw [List.dropWhile_append_of_pos hword]
  cases rest with
  | nil => rfl
  | cons c rest =>
    have hc : ¬ isWord c = true := by simp [hrest c rfl]
    rw [List.dropWhile_cons_of_neg hc]

omit hrest in
theorem wordsFrom_append (held rest : List Char) :
    wordsFrom held (word ++ rest) = wordsFrom (word.reverse ++ held) rest := by
  induction word generalizing held with
  | nil => rfl
  | cons c word ih =>
    rw [List.forall_mem_cons] at hword
    rw [List.cons_append, wordsFrom, if_pos hword.1, ih hword.2, List.reverse_cons,
      List.append_assoc, List.singleton_append]

theorem words_append (hne : word ≠ []) : words (word ++ rest) = word :: words rest := by
  have hheld : (word.reverse ++ []).isEmpty = false := by simpa using hne
  unfold words
  rw [wordsFrom_append hword]
  cases rest with
  | nil =>
    rw [wordsFrom, hheld]
    simp [wordsFrom]
  | cons c rest =>
    have hc : isWord c = false := hrest c rfl
    simp only [wordsFrom, hc, hheld, Bool.false_eq_true, if_false]
    simp

end Append

theorem isWord_of_mem_wordsFrom {held text word : List Char} (hheld : ∀ c ∈ held, isWord c = true)
    (h : word ∈ wordsFrom held text) : word ≠ [] ∧ ∀ c ∈ word, isWord c = true := by
  induction text generalizing held with
  | nil =>
    rw [wordsFrom] at h
    split_ifs at h with hempty
    · cases h
    · obtain rfl := List.mem_singleton.1 h
      exact ⟨by simpa using hempty, by simpa using hheld⟩
  | cons c text ih =>
    rw [wordsFrom] at h
    split_ifs at h with hc hempty
    · exact ih (List.forall_mem_cons.2 ⟨hc, hheld⟩) h
    · exact ih (fun _ h => absurd h List.not_mem_nil) h
    · rcases List.mem_cons.1 h with rfl | h
      · exact ⟨by simpa using hempty, by simpa using hheld⟩
      · exact ih (fun _ h => absurd h List.not_mem_nil) h

theorem isWord_of_mem_words {text word : List Char} (h : word ∈ words text) :
    word ≠ [] ∧ ∀ c ∈ word, isWord c = true :=
  isWord_of_mem_wordsFrom (fun _ h => absurd h List.not_mem_nil) h

/-! ## The words of a text -/

/-- The words are the longest runs of word characters in the text, from left to right. -/
inductive HasWords : List Char → List (List Char) → Prop where
  | none {gap : List Char} (hgap : ∀ c ∈ gap, isWord c = false) : HasWords gap []
  | word {gap word rest : List Char} {found : List (List Char)}
    (hgap : ∀ c ∈ gap, isWord c = false) (hne : word ≠ []) (hword : ∀ c ∈ word, isWord c = true)
    (hend : EndsWord rest) (hrest : HasWords rest found) :
    HasWords (gap ++ (word ++ rest)) (word :: found)

theorem words_gap_append {gap : List Char} (h : ∀ c ∈ gap, isWord c = false) (rest : List Char) :
    words (gap ++ rest) = words rest := by
  induction gap with
  | nil => rfl
  | cons c gap ih =>
    rw [List.forall_mem_cons] at h
    have hskip : words (c :: (gap ++ rest)) = words (gap ++ rest) := by simp [words, wordsFrom, h.1]
    rw [List.cons_append, hskip, ih h.2]

theorem HasWords.words_eq {text : List Char} {found : List (List Char)} (h : HasWords text found) :
    words text = found := by
  induction h with
  | none hgap =>
    have hwords := words_gap_append hgap []
    rwa [List.append_nil] at hwords
  | word hgap hne hword hend _ ih => rw [words_gap_append hgap, words_append hword hend hne, ih]

theorem endsWord_dropWhile (text : List Char) : EndsWord (text.dropWhile isWord) := by
  intro c hc
  have hne : text.dropWhile isWord ≠ [] := by
    intro hnil
    rw [hnil] at hc
    cases hc
  rw [List.head?_eq_some_head hne] at hc
  cases hc
  exact List.head_dropWhile_not isWord hne

/-- The first word is what stands behind the gap before it, and the rest is shorter. -/
theorem exists_hasWords (text : List Char) : ∃ found, HasWords text found := by
  have hgap : ∀ c ∈ text.takeWhile (!isWord ·), isWord c = false := fun c hc => by
    simpa using List.mem_takeWhile_imp hc
  have htext := List.takeWhile_append_dropWhile (p := (!isWord ·)) (l := text)
  rcases hrest : text.dropWhile (!isWord ·) with _ | ⟨c, rest⟩
  · rw [hrest, List.append_nil] at htext
    exact ⟨[], htext ▸ .none hgap⟩
  · have hc : isWord c = true := by
      have hhead := List.head_dropWhile_not (!isWord ·) (l := text) (by simp [hrest])
      simpa [hrest] using hhead
    have hword : c :: rest = (c :: rest.takeWhile isWord) ++ rest.dropWhile isWord := by
      rw [List.cons_append, List.takeWhile_append_dropWhile]
    have hshort : (rest.dropWhile isWord).length < text.length := by
      have hlength := congrArg List.length htext
      have hle := (List.dropWhile_sublist isWord (l := rest)).length_le
      rw [hrest, List.length_append, List.length_cons] at hlength
      omega
    obtain ⟨found, hfound⟩ := exists_hasWords (rest.dropWhile isWord)
    refine ⟨(c :: rest.takeWhile isWord) :: found, ?_⟩
    rw [← htext, hrest, hword]
    exact .word hgap (List.cons_ne_nil _ _)
      (List.forall_mem_cons.2 ⟨hc, fun _ hd => List.mem_takeWhile_imp hd⟩)
      (endsWord_dropWhile rest) hfound
termination_by text.length

theorem words_eq_iff {text : List Char} {found : List (List Char)} :
    words text = found ↔ HasWords text found := by
  refine ⟨fun h => ?_, HasWords.words_eq⟩
  obtain ⟨other, hother⟩ := exists_hasWords text
  rwa [← h, hother.words_eq]

/-! ## Beginnings -/

/-- What is read at the beginning of a text does not reach into what cannot go on with it. -/
theorem after?_append_of_ne {start rest : List Char}
    (h : ∀ s ∈ start, ∀ c ∈ rest.head?, s ≠ c) (text : List Char) :
    after? start (text ++ rest) = (after? start text).map (· ++ rest) := by
  induction start generalizing text with
  | nil => rfl
  | cons s start ih =>
    rw [List.forall_mem_cons] at h
    cases text with
    | nil =>
      cases rest with
      | nil => rfl
      | cons c rest =>
        have hne : s ≠ c := h.1 c rfl
        simp [after?, hne]
    | cons c text =>
      rw [List.cons_append, after?, after?]
      split_ifs
      · exact ih h.2 text
      · rfl

/-- What is read at the beginning of a word lies within the word. -/
theorem after?_append_of_endsWord {start rest : List Char} (hstart : ∀ c ∈ start, isWord c = true)
    (hrest : EndsWord rest) (word : List Char) :
    after? start (word ++ rest) = (after? start word).map (· ++ rest) :=
  after?_append_of_ne (fun s hs c hc => ne_of_isWord (hstart s hs) (hrest c hc)) word

/-! ## Words -/

/-- A non-empty run of word characters. -/
structure Word where
  text : String
  nonempty : text ≠ ""
  isWord : ∀ c ∈ text.toList, isWord c = true

namespace Word

def chars (word : Word) : List Char :=
  word.text.toList

variable (word : Word)

theorem isWord_chars : ∀ c ∈ word.chars, Text.isWord c = true :=
  word.isWord

theorem chars_ne_nil : word.chars ≠ [] := by
  simpa [chars] using word.nonempty

theorem exists_chars_eq_cons : ∃ c rest, word.chars = c :: rest ∧ Text.isWord c = true := by
  obtain ⟨c, rest, h⟩ := List.exists_cons_of_ne_nil word.chars_ne_nil
  exact ⟨c, rest, h, word.isWord_chars c (by simp [h])⟩

theorem not_mem_chars {c : Char} (h : Text.isWord c = false) : c ∉ word.chars := by
  intro hc
  rw [word.isWord_chars c hc] at h
  cases h

omit word in
theorem exists_chars_eq {text : List Char} (hne : text ≠ [])
    (h : ∀ c ∈ text, Text.isWord c = true) : ∃ word : Word, text = word.chars := by
  refine ⟨⟨String.ofList text, ?_, ?_⟩, ?_⟩
  · intro hempty
    rw [← String.toList_inj, String.toList_ofList] at hempty
    exact hne hempty
  · rwa [String.toList_ofList]
  · exact String.toList_ofList.symm

end Word

end SiteSurvey.Text
