import SiteSurvey.Admin.Import
import SiteSurvey.Proofs.Text.Trailing

/-!
# Reading the name of the admin site

What is read of an entry of an import list, whatever parentheses and white space stand around it
(`ofPart?_wrapped`), of an import of the admin module (`bound?_opening`), and of a line that sets a
variable to the site (`reboundInLine?_site`). A line that has no equals sign behind its first word
sets nothing. White space at the end of a line changes nothing (`bound?_padded`,
`reboundInLine?_padded`), unless a backslash stands before it. The name that is found is a word
(`exists_word_registrar?`).
-/

namespace SiteSurvey.Admin

open Text

/-! ## Entries -/

/-- What may stand around an entry: parentheses, with white space outside and inside of them. -/
def IsWrapping (text : List Char) : Prop :=
  ∃ outer parentheses inner, AllBlank outer ∧ (∀ c ∈ parentheses, isParenthesis c = true) ∧
    AllBlank inner ∧ text = outer ++ (parentheses ++ inner)

theorem isBlank_of_isParenthesis {c : Char} (h : isParenthesis c = true) : isBlank c = false := by
  simp only [isParenthesis, Bool.or_eq_true, beq_iff_eq] at h
  rcases h with rfl | rfl <;> decide

theorem isWord_of_isParenthesis {c : Char} (h : isParenthesis c = true) : isWord c = false := by
  simp only [isParenthesis, Bool.or_eq_true, beq_iff_eq] at h
  rcases h with rfl | rfl <;> decide

theorem isParenthesis_eq_false {c : Char} (h : isWord c = true) : isParenthesis c = false := by
  refine Bool.eq_false_iff.2 fun hc => ?_
  rw [isWord_of_isParenthesis hc] at h
  cases h

theorem isWrapping_of_allBlank {text : List Char} (h : AllBlank text) : IsWrapping text :=
  ⟨text, [], [], h, List.forall_mem_nil _, allBlank_nil, by simp⟩

namespace IsWrapping

variable {text : List Char} (h : IsWrapping text)

include h

theorem append_blanks {blanks : List Char} (hblanks : AllBlank blanks) :
    IsWrapping (text ++ blanks) := by
  obtain ⟨outer, parentheses, inner, houter, hparentheses, hinner, rfl⟩ := h
  exact ⟨outer, parentheses, inner ++ blanks, houter, hparentheses, hinner.append hblanks,
    by simp⟩

theorem blanks_append {blanks : List Char} (hblanks : AllBlank blanks) :
    IsWrapping (blanks ++ text) := by
  obtain ⟨outer, parentheses, inner, houter, hparentheses, hinner, rfl⟩ := h
  exact ⟨blanks ++ outer, parentheses, inner, hblanks.append houter, hparentheses, hinner,
    by simp⟩

theorem reverse : IsWrapping text.reverse := by
  obtain ⟨outer, parentheses, inner, houter, hparentheses, hinner, rfl⟩ := h
  have hreverse {text : List Char} (h : AllBlank text) : AllBlank text.reverse :=
    fun c hc => h c (List.mem_reverse.1 hc)
  refine ⟨inner.reverse, parentheses.reverse, outer.reverse, hreverse hinner, fun c hc => ?_,
    hreverse houter, by simp⟩
  exact hparentheses c (List.mem_reverse.1 hc)

theorem isWord_eq_false : ∀ c ∈ text, isWord c = false := by
  obtain ⟨outer, parentheses, inner, houter, hparentheses, hinner, rfl⟩ := h
  simp only [List.forall_mem_append]
  exact ⟨fun c hc => Text.isWord_eq_false (houter c hc),
    fun c hc => isWord_of_isParenthesis (hparentheses c hc),
    fun c hc => Text.isWord_eq_false (hinner c hc)⟩

theorem comma_not_mem : ',' ∉ text := by
  obtain ⟨outer, parentheses, inner, houter, hparentheses, hinner, rfl⟩ := h
  have hblank {blanks : List Char} (h : AllBlank blanks) : ',' ∉ blanks :=
    fun hc => absurd (h ',' hc) (by decide)
  have hmiddle : ',' ∉ parentheses := fun hc => absurd (hparentheses ',' hc) (by decide)
  simp [hblank houter, hmiddle, hblank hinner]

theorem dropWhile_eq_nil :
    ((text.dropWhile isBlank).dropWhile isParenthesis).dropWhile isBlank = [] := by
  obtain ⟨outer, parentheses, inner, houter, hparentheses, hinner, rfl⟩ := h
  have hrest {rest : List Char} (h : rest <:+ inner) : rest.dropWhile isBlank = [] :=
    List.dropWhile_eq_nil_iff.2 (hinner.of_suffix h)
  rw [List.dropWhile_append_of_pos houter]
  cases parentheses with
  | nil => rw [List.nil_append, hrest List.suffix_rfl, List.dropWhile_nil, List.dropWhile_nil]
  | cons c parentheses =>
    have hc : isBlank c = false := isBlank_of_isParenthesis (hparentheses c List.mem_cons_self)
    rw [List.cons_append, List.dropWhile_cons_of_neg (by simp [hc]), ← List.cons_append,
      List.dropWhile_append_of_pos hparentheses]
    exact hrest (List.dropWhile_suffix _)

end IsWrapping

/-- An entry as it is written, a name that may be given an alias. -/
def entryText (name : Word) (given? : Option Word) : List Char :=
  name.chars ++ (given?.map fun given => " as ".toList ++ given.chars).getD []

section EntryText

variable (name : Word) (given? : Option Word)

theorem entryText_some (given : Word) :
    entryText name (some given) = name.chars ++ (" as ".toList ++ given.chars) :=
  rfl

theorem entryText_none : entryText name none = name.chars := by
  simp [entryText]

theorem entryText_ne_nil : entryText name given? ≠ [] :=
  List.append_ne_nil_of_left_ne_nil name.chars_ne_nil _

theorem isWord_head_entryText : ∀ c ∈ (entryText name given?).head?, isWord c = true := by
  intro c hc
  rw [entryText, List.head?_append_of_ne_nil _ name.chars_ne_nil] at hc
  exact name.isWord_chars c (List.mem_of_mem_head? hc)

theorem isWord_getLast_entryText : ∀ c ∈ (entryText name given?).getLast?, isWord c = true := by
  intro c hc
  cases given? with
  | none =>
    rw [entryText_none] at hc
    exact name.isWord_chars c (List.mem_of_mem_getLast? hc)
  | some given =>
    rw [entryText_some, ← List.append_assoc,
      List.getLast?_append_of_ne_nil _ given.chars_ne_nil] at hc
    exact given.isWord_chars c (List.mem_of_mem_getLast? hc)

theorem isWord_or_space_entryText : ∀ c ∈ entryText name given?, isWord c = true ∨ c = ' ' := by
  have hword (word : Word) : ∀ c ∈ word.chars, isWord c = true ∨ c = ' ' :=
    fun c hc => Or.inl (word.isWord_chars c hc)
  have has : ∀ c ∈ " as ".toList, isWord c = true ∨ c = ' ' := by decide
  cases given? with
  | none =>
    rw [entryText_none]
    exact hword name
  | some given =>
    rw [entryText_some]
    exact List.forall_mem_append.2 ⟨hword name, List.forall_mem_append.2 ⟨has, hword given⟩⟩

theorem not_mem_entryText {c : Char} (hword : isWord c = false) (hspace : c ≠ ' ') :
    c ∉ entryText name given? := by
  intro hc
  rcases isWord_or_space_entryText name given? c hc with h | h
  · rw [hword] at h
    cases h
  · exact hspace h

end EntryText

/-- Of an entry with parentheses and white space around it these are dropped. -/
theorem trim_wrapped {left right : List Char} (hleft : IsWrapping left) (hright : IsWrapping right)
    (name : Word) (given? : Option Word) :
    trim (trimBy isParenthesis (trim (left ++ (entryText name given? ++ right)))) =
      entryText name given? := by
  have hne := entryText_ne_nil name given?
  have hfirst := isWord_head_entryText name given?
  have hlast := isWord_getLast_entryText name given?
  have htrim := trimBy_append hne (fun c hc => isBlank_eq_false (hfirst c hc))
    (fun c hc => isBlank_eq_false (hlast c hc))
  have hbare := trimBy_append hne (fun c hc => isParenthesis_eq_false (hfirst c hc))
    (fun c hc => isParenthesis_eq_false (hlast c hc))
  unfold trim
  rw [htrim, hbare, htrim, List.reverse_reverse, List.reverse_reverse, hleft.dropWhile_eq_nil,
    hright.reverse.dropWhile_eq_nil, List.reverse_nil, List.append_nil, List.nil_append]

theorem afterIndent?_cons {c d : Char} (hc : isIndent c = true) (hd : isIndent d = false)
    (rest : List Char) : afterIndent? (c :: d :: rest) = some (d :: rest) := by
  unfold afterIndent?
  rw [List.head?_cons, Option.any_some, if_pos hc, List.dropWhile_cons_of_pos hc,
    List.dropWhile_cons_of_neg (by simp [hd])]

theorem ofPart?_wrapped {left right : List Char} (hleft : IsWrapping left)
    (hright : IsWrapping right) (name : Word) (given? : Option Word) :
    Entry.ofPart? (left ++ (entryText name given? ++ right)) =
      some ⟨name.chars, given?.map Word.chars⟩ := by
  have hname : name.chars.isEmpty = false := by simp [name.chars_ne_nil]
  unfold Entry.ofPart?
  rw [trim_wrapped hleft hright]
  cases given? with
  | none =>
    have htake := takeWhile_isWord_append name.isWord_chars endsWord_nil
    have hdrop := dropWhile_isWord_append name.isWord_chars endsWord_nil
    rw [List.append_nil] at htake hdrop
    simp [entryText_none, htake, hdrop, hname]
  | some given =>
    obtain ⟨c, rest, hchars, hc⟩ := given.exists_chars_eq_cons
    have hends : EndsWord (" as ".toList ++ given.chars) := endsWord_cons (by decide) _
    have htake := takeWhile_isWord_append name.isWord_chars hends
    have hdrop := dropWhile_isWord_append name.isWord_chars hends
    have hafter : afterIndent? (' ' :: given.chars) = some given.chars := by
      rw [hchars]
      exact afterIndent?_cons rfl (isIndent_eq_false hc) rest
    have hall : (!given.chars.isEmpty && given.chars.all isWord) = true := by
      have hword := List.all_eq_true.2 given.isWord_chars
      simp [given.chars_ne_nil, hword]
    have hgiven : ((afterIndent? (' ' :: given.chars)).bind fun given =>
        if (!given.isEmpty && given.all isWord) = true then
          some (⟨name.chars, some given⟩ : Entry)
        else none) = some ⟨name.chars, some given.chars⟩ := by
      rw [hafter, Option.bind_some, if_pos hall]
    rw [entryText_some]
    dsimp only
    rw [htake, hdrop, hname, if_neg Bool.false_ne_true]
    exact hgiven

/-- A part without a word, such as what follows the last comma, is no entry. -/
theorem ofPart?_eq_none {part : List Char} (h : ∀ c ∈ part, isWord c = false) :
    Entry.ofPart? part = none := by
  have htake : (trim (trimBy isParenthesis (trim part))).takeWhile isWord = [] := by
    refine List.takeWhile_eq_nil_iff.2 fun hpos => ?_
    have hmem := mem_of_mem_trimBy (mem_of_mem_trimBy (mem_of_mem_trimBy (List.getElem_mem hpos)))
    simp [h _ hmem]
  unfold Entry.ofPart?
  simp [htake]

/-! ## The import of the admin module -/

/-- The list of an import of the admin module, under the name that is given or its own. -/
def importList (given? : Option Word) : List Char :=
  "admin".toList ++ (given?.map fun given => " as ".toList ++ given.chars).getD []

/-- The name that such an import binds. -/
def importedName (given? : Option Word) : Word :=
  given?.getD ⟨"admin", by decide, by decide⟩

theorem ofLine?_opening (given? : Option Word) :
    Import.ofLine? ("from django.contrib import ".toList ++ importList given?) =
      some (.modules (importList given?)) := by
  rfl

/-- The admin module under its own name. -/
def adminWord : Word :=
  ⟨"admin", by decide, by decide⟩

theorem importList_eq_entryText (given? : Option Word) :
    importList given? = entryText adminWord given? :=
  rfl

theorem entries_eq_of_not_continued {list : List Char} (h : list.getLast? ≠ some '\\') :
    entries list = (splitAt ',' list).filterMap Entry.ofPart? := by
  have hkeep : list.reverse.dropWhile (· == '\\') = list.reverse := by
    cases hr : list.reverse with
    | nil => rfl
    | cons c rest =>
      have hc : c ≠ '\\' := by
        rintro rfl
        rw [← List.head?_reverse, hr] at h
        exact h rfl
      exact List.dropWhile_cons_of_neg (by simpa using hc)
  unfold entries
  rw [hkeep, List.reverse_reverse]

theorem entries_entryText (name : Word) (given? : Option Word) :
    entries (entryText name given?) = [⟨name.chars, given?.map Word.chars⟩] := by
  have hcomma : ',' ∉ entryText name given? := not_mem_entryText name given? (by decide) (by decide)
  have hlast : (entryText name given?).getLast? ≠ some '\\' := by
    intro hc
    exact absurd (isWord_getLast_entryText name given? _ hc) (by decide)
  have hpart := ofPart?_wrapped (isWrapping_of_allBlank allBlank_nil)
    (isWrapping_of_allBlank allBlank_nil) name given?
  rw [List.nil_append, List.append_nil] at hpart
  rw [entries_eq_of_not_continued hlast, splitAt_of_not_mem hcomma, List.filterMap_cons,
    List.filterMap_nil, hpart]

theorem bound?_opening (given? : Option Word) :
    (Import.modules (importList given?)).bound? = some (importedName given?).chars := by
  have hbound : boundName? ["admin".toList] (importList given?) =
      some (importedName given?).chars := by
    unfold boundName?
    rw [importList_eq_entryText, entries_entryText]
    cases given? <;> rfl
  exact hbound

/-! ## Variables for the site -/

theorem reboundInLine?_site (target scope : Word) :
    reboundInLine? scope.chars
        (target.chars ++ (" = ".toList ++ (scope.chars ++ ".site".toList))) =
      some target.chars := by
  obtain ⟨c, rest, hchars, hc⟩ := scope.exists_chars_eq_cons
  have hends : EndsWord (" = ".toList ++ (scope.chars ++ ".site".toList)) :=
    endsWord_cons (by decide) _
  have htake := takeWhile_isWord_append target.isWord_chars hends
  have hdrop := dropWhile_isWord_append target.isWord_chars hends
  have hequals : (" = ".toList ++ (scope.chars ++ ".site".toList)).dropWhile isIndent =
      ['='] ++ (' ' :: (scope.chars ++ ".site".toList)) := rfl
  have hscope : (' ' :: (scope.chars ++ ".site".toList)).dropWhile isIndent =
      scope.chars ++ ".site".toList := by
    have hindent : isIndent c = false := isIndent_eq_false hc
    rw [List.dropWhile_cons_of_pos rfl, hchars]
    exact List.dropWhile_cons_of_neg (by simp [hindent])
  have hsite : (!target.chars.isEmpty && !(".site".toList.head?.any isWord)) = true := by
    have hdot : isWord '.' = false := by decide
    simp [target.chars_ne_nil, hdot]
  unfold reboundInLine?
  rw [htake, hdrop, hequals, after?_append]
  simp only [Option.bind_eq_bind, Option.bind_some, hscope, after?_append, hsite, if_true]

/-- A line without an equals sign behind its first word sets nothing. -/
theorem reboundInLine?_of_ne {line : List Char}
    (h : ((line.dropWhile isWord).dropWhile isIndent).head? ≠ some '=') (scope : List Char) :
    reboundInLine? scope line = none := by
  have hafter : after? ['='] ((line.dropWhile isWord).dropWhile isIndent) = none := by
    cases hrest : (line.dropWhile isWord).dropWhile isIndent with
    | nil => rfl
    | cons c rest =>
      rw [hrest, List.head?_cons] at h
      have hc : '=' ≠ c := fun e => h (by rw [e])
      simp [after?, hc]
  unfold reboundInLine?
  rw [hafter]
  rfl

/-! ## White space at the end of a line -/

theorem isDotted_eq_false {c : Char} (h : isBlank c = true) : isDotted c = false := by
  have hdot : c ≠ '.' := by
    rintro rfl
    exact absurd h (by decide)
  simp [isDotted, isWord_eq_false h, hdot]

theorem afterIndent?_dropWhile (text : List Char) :
    afterIndent? (text.dropWhile isIndent) = none := by
  induction text with
  | nil => rfl
  | cons c text ih =>
    by_cases hc : isIndent c = true
    · rw [List.dropWhile_cons_of_pos hc, ih]
    · rw [List.dropWhile_cons_of_neg hc]
      simp [afterIndent?, hc]

/-- Only where a text ends can the white space behind it be taken for its own. -/
theorem afterIndent?_padded_bind {α : Type} {text padded : List Char} (h : Padded text padded)
    {read read' : List Char → Option α}
    (hrest : ∀ {rest more}, Padded rest more → read rest = read' more)
    (hblank : ∀ {blanks}, AllBlank blanks → afterIndent? blanks = none → read' blanks = none) :
    (afterIndent? text).bind read = (afterIndent? padded).bind read' := by
  have hdrop := h.dropWhile isIndent
  cases text with
  | nil =>
    have hnil : afterIndent? [] = none := rfl
    rw [hnil, Option.bind_none]
    by_cases hindent : padded.head?.any isIndent = true
    · rw [afterIndent?, if_pos hindent, Option.bind_some]
      exact (hblank hdrop.allBlank (afterIndent?_dropWhile padded)).symm
    · rw [afterIndent?, if_neg hindent, Option.bind_none]
  | cons c text =>
    obtain ⟨blanks, -, rfl⟩ := h.exists_blanks
    by_cases hc : isIndent c = true
    · simpa [afterIndent?, hc] using hrest hdrop
    · simp [afterIndent?, hc]

theorem entries_padded {list padded : List Char} (h : Padded list padded) :
    entries list = entries padded := by
  obtain ⟨blanks, hblanks, rfl⟩ := h.exists_blanks
  have hcomma : ',' ∉ blanks := fun hc => absurd (hblanks ',' hc) (by decide)
  have hlast : (list ++ blanks).getLast? ≠ some '\\' := by
    by_cases hnil : blanks = []
    · subst hnil
      rw [List.append_nil]
      exact h.not_continued
    · intro hc
      rw [List.getLast?_append_of_ne_nil _ hnil] at hc
      exact absurd (hblanks _ (List.mem_of_mem_getLast? hc)) (by decide)
  obtain ⟨parts, last, hlist, hpadded⟩ := exists_splitAt_append ',' hcomma list
  have hpart : Entry.ofPart? (last ++ blanks) = Entry.ofPart? last := by
    unfold Entry.ofPart?
    rw [trim_append hblanks]
  rw [entries_eq_of_not_continued hlast, entries_eq_of_not_continued h.not_continued, hlist,
    hpadded, List.filterMap_append, List.filterMap_append, List.filterMap_cons,
    List.filterMap_cons, hpart]

theorem boundName?_padded {list padded : List Char} (h : Padded list padded)
    (wanted : List (List Char)) : boundName? wanted list = boundName? wanted padded := by
  unfold boundName?
  rw [entries_padded h]

theorem boundName?_allBlank {list : List Char} (h : AllBlank list) (wanted : List (List Char)) :
    boundName? wanted list = none := by
  rw [← boundName?_padded h.padded]
  rfl

/-- White space at its end is no part of an import line. -/
theorem bound?_padded {line padded : List Char} (h : Padded line padded) :
    (Import.ofLine? line).bind Import.bound? = (Import.ofLine? padded).bind Import.bound? := by
  have hfrom : ∀ c ∈ "from".toList, isBlank c = false := by decide
  have himport : ∀ c ∈ "import".toList, isBlank c = false := by decide
  unfold Import.ofLine?
  simp only [Option.bind_eq_bind, Option.bind_assoc]
  refine ((h.dropWhile isIndent).after? hfrom).bind_eq fun h => ?_
  refine afterIndent?_padded_bind h (fun h => ?_) fun {blanks} hblanks hnone => ?_
  · rw [h.takeWhile fun c => isDotted_eq_false]
    refine afterIndent?_padded_bind (h.dropWhile isDotted) (fun h => ?_)
      fun {blanks} hblanks _ => ?_
    · refine (h.after? himport).bind_eq fun h => ?_
      refine afterIndent?_padded_bind h (fun h => ?_) fun hblanks _ => ?_
      · split_ifs
        · exact boundName?_padded h _
        · exact boundName?_padded h _
        · rfl
      · -- a list of nothing but white space binds no name
        split_ifs
        · exact boundName?_allBlank hblanks _
        · exact boundName?_allBlank hblanks _
        · rfl
    · have hafter : after? "import".toList blanks = none :=
        after?_of_isBlank_head hblanks.head? (by decide)
      rw [hafter, Option.bind_none]
  · have hdotted : blanks.dropWhile isDotted = blanks := by
      cases blanks with
      | nil => rfl
      | cons c blanks =>
        have hc : isDotted c = false := isDotted_eq_false (hblanks c List.mem_cons_self)
        exact List.dropWhile_cons_of_neg (by simp [hc])
    rw [hdotted, hnone, Option.bind_none]

theorem reboundInLine?_padded {line padded : List Char} (h : Padded line padded) (scope : Word) :
    reboundInLine? scope.chars line = reboundInLine? scope.chars padded := by
  have hequals : ∀ c ∈ ['='], isBlank c = false := by decide
  have hscope : ∀ c ∈ scope.chars, isBlank c = false :=
    fun c hc => isBlank_eq_false (scope.isWord_chars c hc)
  unfold reboundInLine?
  simp only [Option.bind_eq_bind, h.takeWhile fun c => isWord_eq_false]
  refine (((h.dropWhile isWord).dropWhile isIndent).after? hequals).bind_eq fun h => ?_
  refine ((h.dropWhile isIndent).after? hscope).bind_eq fun {rest more} h => ?_
  have hhead : rest.head?.any isWord = more.head?.any isWord := by
    cases rest with
    | nil =>
      have hends := h.allBlank.endsWord
      cases hmore : more.head? with
      | none => rfl
      | some c => simp [hends c hmore]
    | cons c rest =>
      obtain ⟨blanks, -, rfl⟩ := h.exists_blanks
      rfl
  rw [hhead]

/-! ## The name is a word -/

theorem Entry.exists_word_bound {part : List Char} {entry : Entry}
    (h : Entry.ofPart? part = some entry) : ∃ word : Word, entry.bound = word.chars := by
  unfold Entry.ofPart? at h
  dsimp only at h
  split_ifs at h with hname
  split at h
  · cases h
    exact Word.exists_chars_eq (fun hnil => hname (List.isEmpty_iff.2 hnil)) fun c hc =>
      List.mem_takeWhile_imp hc
  · simp only [Option.bind_eq_bind, Option.bind_eq_some_iff] at h
    obtain ⟨_, -, _, -, given, -, h⟩ := h
    split_ifs at h with hgiven
    cases h
    rw [Bool.and_eq_true, List.all_eq_true] at hgiven
    have hne : given ≠ [] := by simpa using hgiven.1
    exact Word.exists_chars_eq hne hgiven.2

theorem exists_word_boundName? {wanted : List (List Char)} {list name : List Char}
    (h : boundName? wanted list = some name) : ∃ word : Word, name = word.chars := by
  obtain ⟨entry, hentry, rfl⟩ := Option.map_eq_some_iff.1 h
  obtain ⟨part, -, hpart⟩ := List.mem_filterMap.1 (List.mem_of_find?_eq_some hentry)
  exact Entry.exists_word_bound hpart

theorem exists_word_scope? {text name : List Char} (h : scope? text = some name) :
    ∃ word : Word, name = word.chars := by
  obtain ⟨line, -, hline⟩ := List.exists_of_findSome?_eq_some h
  obtain ⟨source, -, hsource⟩ := Option.bind_eq_some_iff.1 hline
  cases source with
  | members list => exact exists_word_boundName? hsource
  | modules list => exact exists_word_boundName? hsource

theorem exists_word_rebound? {compiler : Compiler} {scope text name : List Char}
    (h : rebound? compiler scope text = some name) : ∃ word : Word, name = word.chars := by
  unfold rebound? at h
  split_ifs at h
  obtain ⟨line, -, hline⟩ := List.exists_of_findSome?_eq_some h
  simp only [reboundInLine?, Option.bind_eq_bind, Option.bind_eq_some_iff] at hline
  obtain ⟨_, -, _, -, hline⟩ := hline
  split_ifs at hline with htarget
  cases hline
  rw [Bool.and_eq_true] at htarget
  exact Word.exists_chars_eq (by simpa using htarget.1) fun c hc => List.mem_takeWhile_imp hc

/-- The name by which a module calls the site is a word. -/
theorem exists_word_registrar? {compiler : Compiler} {text name : List Char}
    (h : registrar? compiler text = some name) : ∃ word : Word, name = word.chars := by
  obtain ⟨scope, hscope, rfl⟩ := Option.map_eq_some_iff.1 h
  cases hrebound : rebound? compiler scope text with
  | none => exact exists_word_scope? hscope
  | some target => exact exists_word_rebound? hrebound

end SiteSurvey.Admin
