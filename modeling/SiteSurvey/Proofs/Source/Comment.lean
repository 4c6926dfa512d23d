import Mathlib.Data.List.Infix
import SiteSurvey.Source.Comment

/-!
# Removing comments

What comment removal does to a text that is put together from pieces: text without three double
quotes in a row has no block, text without a hash is kept, and a comment goes together with the
newline that ends it.
-/

namespace SiteSurvey.Source

/-! ## Blocks -/

/-- The text holds no three double quotes in a row. -/
def NoTriple (text : List Char) : Prop :=
  ¬ ['"', '"', '"'].IsInfix text

theorem noTriple_nil : NoTriple [] := by
  simp [NoTriple]

theorem NoTriple.tail {c : Char} {text : List Char} (h : NoTriple (c :: text)) : NoTriple text :=
  fun hi => h (hi.trans (List.suffix_cons c text).isInfix)

theorem noTriple_of_not_mem {text : List Char} (h : '"' ∉ text) : NoTriple text :=
  fun hi => h (hi.subset (by simp))

/-- Another character keeps the quotes on its two sides apart. -/
theorem noTriple_append_cons {first rest : List Char} {c : Char} (hc : c ≠ '"')
    (h : NoTriple first) (h' : NoTriple rest) : NoTriple (first ++ c :: rest) := by
  induction first with
  | nil =>
    intro hi
    rcases List.infix_cons_iff.1 hi with hp | hi
    · exact hc (List.cons_prefix_cons.1 hp).1.symm
    · exact h' hi
  | cons d first ih =>
    intro hi
    rw [List.cons_append] at hi
    rcases List.infix_cons_iff.1 hi with hp | hi
    · -- the three quotes lie in `first` or reach as far as `c`
      rcases first with _ | ⟨e, _ | ⟨f, first⟩⟩ <;>
        simp only [List.cons_append, List.nil_append, List.cons_prefix_cons] at hp
      · exact hc hp.2.1.symm
      · exact hc hp.2.2.1.symm
      · obtain ⟨rfl, rfl, rfl, -⟩ := hp
        exact h ⟨[], first, rfl⟩
    · exact ih h.tail hi

theorem withoutBlocksFrom_cons {c : Char} {rest : List Char}
    (h : ¬ ['"', '"', '"'].IsPrefix (c :: rest)) :
    withoutBlocksFrom none (c :: rest) = c :: withoutBlocksFrom none rest := by
  rw [withoutBlocksFrom]
  rintro later rfl rfl
  exact h ⟨later, rfl⟩

theorem withoutBlocks_of_noTriple {text : List Char} (h : NoTriple text) :
    withoutBlocks text = text := by
  unfold withoutBlocks
  induction text with
  | nil => rfl
  | cons c text ih => rw [withoutBlocksFrom_cons fun hp => h hp.isInfix, ih h.tail]

/-! ## Line comments -/

theorem withoutLineCommentsFrom_append {kept : List Char} (h : '#' ∉ kept) (rest : List Char) :
    withoutLineCommentsFrom false (kept ++ rest) = kept ++ withoutLineCommentsFrom false rest := by
  induction kept with
  | nil => rfl
  | cons c kept ih =>
    rw [List.mem_cons, not_or] at h
    rw [List.cons_append, withoutLineCommentsFrom, if_neg fun e => h.1 e.symm, ih h.2,
      List.cons_append]

theorem withoutLineCommentsFrom_of_not_mem {text : List Char} (h : '#' ∉ text) :
    withoutLineCommentsFrom false text = text := by
  have hkept := withoutLineCommentsFrom_append h []
  rwa [List.append_nil, withoutLineCommentsFrom, List.append_nil] at hkept

/-- An open comment takes all of its line. -/
theorem withoutLineCommentsFrom_comment {comment : List Char} (h : '\n' ∉ comment)
    (rest : List Char) :
    withoutLineCommentsFrom true (comment ++ '\n' :: rest) =
      withoutLineCommentsFrom false rest := by
  induction comment with
  | nil => simp [withoutLineCommentsFrom]
  | cons c comment ih =>
    rw [List.mem_cons, not_or] at h
    have hc : (c != '\n') = true := by simpa using fun e => h.1 e.symm
    rw [List.cons_append, withoutLineCommentsFrom, hc, ih h.2]

theorem withoutLineCommentsFrom_last {comment : List Char} (h : '\n' ∉ comment) :
    withoutLineCommentsFrom true comment = [] := by
  induction comment with
  | nil => rfl
  | cons c comment ih =>
    rw [List.mem_cons, not_or] at h
    have hc : (c != '\n') = true := by simpa using fun e => h.1 e.symm
    rw [withoutLineCommentsFrom, hc, ih h.2]

/-- A newline ends the comment that is open, if one is. -/
theorem withoutLineCommentsFrom_newline (inComment : Bool) (first rest : List Char) :
    withoutLineCommentsFrom inComment (first ++ '\n' :: rest) =
      withoutLineCommentsFrom inComment (first ++ ['\n']) ++
        withoutLineCommentsFrom false rest := by
  induction first generalizing inComment with
  | nil => cases inComment <;> rfl
  | cons c first ih =>
    cases inComment with
    | true => simp only [List.cons_append, withoutLineCommentsFrom, ih]
    | false =>
      simp only [List.cons_append, withoutLineCommentsFrom]
      split_ifs
      · exact ih true
      · rw [ih false, List.cons_append]

theorem uncommented_of_noTriple {text : List Char} (hhash : '#' ∉ text) (h : NoTriple text) :
    uncommented text = text := by
  rw [uncommented, withoutBlocks_of_noTriple h, withoutLineComments,
    withoutLineCommentsFrom_of_not_mem hhash]

/-- A text without hashes and double quotes has nothing to remove. -/
theorem uncommented_of_not_mem {text : List Char} (hhash : '#' ∉ text) (hquote : '"' ∉ text) :
    uncommented text = text :=
  uncommented_of_noTriple hhash (noTriple_of_not_mem hquote)

/-! ## Joining the first line -/

theorem joinFirstLine_append_of_not_mem {first : List Char} (h : '\n' ∉ first) (rest : List Char) :
    joinFirstLine (first ++ rest) = first ++ joinFirstLine rest := by
  induction first with
  | nil => rfl
  | cons c first ih =>
    rw [List.mem_cons, not_or] at h
    rw [List.cons_append, joinFirstLine, if_neg fun e => h.1 e.symm, ih h.2, List.cons_append]

theorem joinFirstLine_append_of_mem {first : List Char} (h : '\n' ∈ first) (rest : List Char) :
    joinFirstLine (first ++ rest) = joinFirstLine first ++ rest := by
  induction first with
  | nil => exact absurd h List.not_mem_nil
  | cons c first ih =>
    rw [List.cons_append, joinFirstLine, joinFirstLine]
    split_ifs with hc
    · rfl
    · rw [ih ((List.mem_cons.1 h).resolve_left fun e => hc e.symm), List.cons_append]

theorem mem_joinFirstLine {c : Char} {text : List Char} (h : c ∈ joinFirstLine text) :
    c ∈ text ∨ c = ' ' := by
  induction text with
  | nil => exact Or.inl h
  | cons d text ih =>
    rw [joinFirstLine] at h
    split_ifs at h with hd
    · rcases List.mem_cons.1 h with rfl | h
      · exact Or.inr rfl
      · exact Or.inl (List.mem_cons_of_mem _ h)
    · rcases List.mem_cons.1 h with rfl | h
      · exact Or.inl (List.mem_cons_self ..)
      · exact (ih h).imp_left (List.mem_cons_of_mem _)

end SiteSurvey.Source
