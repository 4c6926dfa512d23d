import SiteSurvey.Proofs.Admin.Comments
import SiteSurvey.Proofs.Admin.Written

/-!
# Import lines

A sequence of import lines calls the admin site by the name that the first wanted entry binds, in
the order of the lines and of the entries of each (`scope?_importLines`). Parentheses around a list,
a comma and a backslash behind it, and white space between all of these are no part of its entries
(`entries_chars`). A package is known by what its name ends in, and an entry by its whole name.
-/

namespace SiteSurvey.Admin

open Text

/-! ## White space and backslashes around a list -/

theorem isBlank_of_isIndent {c : Char} (h : isIndent c = true) : isBlank c = true := by
  simp only [isIndent, Bool.or_eq_true, beq_iff_eq] at h
  rcases h with rfl | rfl <;> decide

theorem entries_append_backslash (list : List Char) : entries (list ++ ['\\']) = entries list := by
  unfold entries
  rw [List.reverse_append, List.reverse_singleton, List.singleton_append,
    List.dropWhile_cons_of_pos (by decide)]

/-- White space in front of a list is no part of its first entry. -/
theorem entries_blanks_append {blanks : List Char} (h : AllBlank blanks) (list : List Char) :
    entries (blanks ++ list) = entries list := by
  have hcomma : ',' ∉ blanks := fun hc => absurd (h ',' hc) (by decide)
  have hkeep : blanks.reverse.dropWhile (· == '\\') = blanks.reverse := by
    refine List.dropWhile_eq_self_iff.2 fun hpos hslash => ?_
    have hmem := List.mem_reverse.1 (List.getElem_mem hpos)
    rw [beq_iff_eq.1 hslash] at hmem
    exact absurd (h _ hmem) (by decide)
  have hcut : ((blanks ++ list).reverse.dropWhile (· == '\\')).reverse =
      blanks ++ (list.reverse.dropWhile (· == '\\')).reverse := by
    rw [List.reverse_append, List.dropWhile_append, hkeep]
    split_ifs with hlist
    · rw [List.isEmpty_iff.1 hlist]
      simp
    · simp
  obtain ⟨part, parts, hparts⟩ :=
    List.exists_cons_of_ne_nil (splitAt_ne_nil ',' (list.reverse.dropWhile (· == '\\')).reverse)
  have hpart : Entry.ofPart? (blanks ++ part) = Entry.ofPart? part := by
    unfold Entry.ofPart?
    rw [trim_blanks_append h]
  unfold entries
  rw [hcut, hparts, splitAt_append_of_not_mem hcomma hparts, List.filterMap_cons,
    List.filterMap_cons, hpart]

theorem entries_dropWhile_isIndent (list : List Char) :
    entries (list.dropWhile isIndent) = entries list := by
  have hblank : AllBlank (list.takeWhile isIndent) :=
    fun c hc => isBlank_of_isIndent (List.mem_takeWhile_imp hc)
  have h := entries_blanks_append hblank (list.dropWhile isIndent)
  rw [List.takeWhile_append_dropWhile] at h
  exact h.symm

/-! ## Packages -/

/-- What is imported from a package, if it is one that the admin site can be imported from. -/
def importFrom? (package list : List Char) : Option Import :=
  if "contrib.admin".toList.isSuffixOf package then some (.members list)
  else if "contrib".toList.isSuffixOf package then some (.modules list)
  else none

theorem afterIndent?_cons_of_isIndent {c : Char} (hc : isIndent c = true) (rest : List Char) :
    afterIndent? (c :: rest) = some (rest.dropWhile isIndent) := by
  unfold afterIndent?
  rw [List.head?_cons, Option.any_some, if_pos hc, List.dropWhile_cons_of_pos hc]

/-- A line is read up to its package, and from there up to its list. -/
theorem ofLine?_eq_bind (line : List Char) : Import.ofLine? line =
    ((after? "from".toList (line.dropWhile isIndent)).bind afterIndent?).bind fun source =>
      (((afterIndent? (source.dropWhile isDotted)).bind (after? "import".toList)).bind
        afterIndent?).bind (importFrom? (source.takeWhile isDotted)) := by
  simp only [Option.bind_assoc]
  rfl

/-- No line imports the admin site from a package whose name ends otherwise. -/
theorem ofLine?_eq_none {line source : List Char}
    (hsource : (after? "from".toList (line.dropWhile isIndent)).bind afterIndent? = some source)
    (hpackage : importFrom? (source.takeWhile isDotted) = fun _ => none) :
    Import.ofLine? line = none := by
  rw [ofLine?_eq_bind, hsource, Option.bind_some, hpackage, Option.bind_fun_none]

theorem isIndent_of_isDotted {c : Char} (h : isDotted c = true) : isIndent c = false := by
  refine Bool.eq_false_iff.2 fun hindent => ?_
  rw [isDotted_eq_false (isBlank_of_isIndent hindent)] at h
  cases h

theorem ofLine?_from {package : List Char} (hpackage : ∀ c ∈ package, isDotted c = true)
    (list : List Char) :
    Import.ofLine? ("from ".toList ++ (package ++ (" import ".toList ++ list))) =
      importFrom? package (list.dropWhile isIndent) := by
  have hspace : ¬ isDotted ' ' = true := by decide
  cases package with
  | nil =>
    -- the keyword behind the package is read in its place
    have hsource : (after? "from".toList (("from ".toList ++ ([] ++ (" import ".toList ++
        list))).dropWhile isIndent)).bind afterIndent? = some ("import ".toList ++ list) := rfl
    exact ofLine?_eq_none hsource rfl
  | cons c package =>
    have hc : isIndent c = false := isIndent_of_isDotted (hpackage c List.mem_cons_self)
    have hsource : (after? "from".toList (("from ".toList ++ (c :: package ++ (" import ".toList ++
        list))).dropWhile isIndent)).bind afterIndent? =
        some (c :: package ++ (" import ".toList ++ list)) :=
      afterIndent?_cons (c := ' ') rfl hc (package ++ (" import ".toList ++ list))
    have htake : (c :: package ++ (" import ".toList ++ list)).takeWhile isDotted =
        c :: package := by
      rw [List.takeWhile_append_of_pos hpackage]
      exact (congrArg _ (List.takeWhile_cons_of_neg hspace)).trans (List.append_nil _)
    have hdrop : (c :: package ++ (" import ".toList ++ list)).dropWhile isDotted =
        " import ".toList ++ list := by
      rw [List.dropWhile_append_of_pos hpackage]
      exact List.dropWhile_cons_of_neg hspace
    have hlist : ((afterIndent? (" import ".toList ++ list)).bind (after? "import".toList)).bind
        afterIndent? = some (list.dropWhile isIndent) :=
      afterIndent?_cons_of_isIndent (c := ' ') rfl list
    rw [ofLine?_eq_bind, hsource, Option.bind_some, htake, hdrop, hlist, Option.bind_some]

/--
A line that begins with a word imports nothing from a package that holds the admin site, unless the
word is the keyword and such a package stands behind it.
-/
theorem ofLine?_word (indent : Written.Indent) (word : Word) {rest : List Char}
    (hrest : EndsWord rest)
    (hpackage : importFrom? ((rest.dropWhile isIndent).takeWhile isDotted) = fun _ => none) :
    Import.ofLine? (indent.chars ++ (word.chars ++ rest)) = none := by
  obtain ⟨w, letters, hchars, hw⟩ := word.exists_chars_eq_cons
  have hdrop : (indent.chars ++ (word.chars ++ rest)).dropWhile isIndent = word.chars ++ rest := by
    rw [hchars, List.cons_append]
    exact dropWhile_isIndent_append indent.isIndent (isIndent_eq_false hw) _
  have hkeyword : ∀ c ∈ "from".toList, isWord c = true := by decide
  have hfrom := after?_append_of_endsWord hkeyword hrest word.chars
  rw [ofLine?_eq_bind, hdrop, hfrom]
  cases hafter : after? "from".toList word.chars with
  | none => rfl
  | some left =>
    rw [Option.map_some, Option.bind_some]
    cases left with
    | nil =>
      rw [List.nil_append, afterIndent?]
      split_ifs
      · rw [Option.bind_some, hpackage, Option.bind_fun_none]
      · rfl
    | cons d left =>
      -- the word only begins with the keyword
      have hword : word.chars = "from".toList ++ d :: left := after?_eq_some_iff.1 hafter
      have hd : isIndent d = false := isIndent_eq_false (word.isWord_chars d (by simp [hword]))
      have hnone : afterIndent? (d :: left ++ rest) = none := by simp [afterIndent?, hd]
      rw [hnone, Option.bind_none]

/-! ## Entries -/

/-- The entry imports the admin module, or what registers models from that module. -/
def ImportsAdmin (package : List Char) (entry : Entry) : Prop :=
  "contrib".toList <:+ package ∧ entry.name = "admin".toList ∨
    "contrib.admin".toList <:+ package ∧ entry.name ∈ ["register".toList, "site".toList]

instance (package : List Char) (entry : Entry) : Decidable (ImportsAdmin package entry) :=
  inferInstanceAs (Decidable (_ ∨ _))

theorem bound?_importFrom (package list : List Char) :
    (importFrom? package list).bind Import.bound? =
      ((entries list).find? fun entry => ImportsAdmin package entry).map Entry.bound := by
  unfold importFrom?
  by_cases hmembers : "contrib.admin".toList <:+ package
  · have hmodules : ¬ "contrib".toList <:+ package := by
      intro h
      exact absurd (List.suffix_of_suffix_length_le h hmembers (by decide)) (by decide)
    have hwanted : (fun entry : Entry => ["register".toList, "site".toList].contains entry.name) =
        fun entry => decide (ImportsAdmin package entry) := by
      funext entry
      simp only [ImportsAdmin, hmodules, hmembers, false_and, true_and, false_or]
      exact List.contains_eq_mem _ _
    rw [if_pos (List.isSuffixOf_iff_suffix.2 hmembers), Option.bind_some, ← hwanted]
    rfl
  · rw [if_neg (mt List.isSuffixOf_iff_suffix.1 hmembers)]
    by_cases hmodules : "contrib".toList <:+ package
    · have hwanted : (fun entry : Entry => ["admin".toList].contains entry.name) =
          fun entry => decide (ImportsAdmin package entry) := by
        funext entry
        simp only [ImportsAdmin, hmodules, hmembers, false_and, true_and, or_false]
        rw [List.contains_eq_mem]
        exact decide_eq_decide.2 List.mem_singleton
      rw [if_pos (List.isSuffixOf_iff_suffix.2 hmodules), Option.bind_some, ← hwanted]
      rfl
    · have hnone : ((entries list).find? fun entry => ImportsAdmin package entry) = none := by
        rw [List.find?_eq_none]
        intro entry _
        simp only [ImportsAdmin, hmodules, hmembers, false_and, or_self, decide_false,
          Bool.false_eq_true, not_false_eq_true]
      rw [if_neg (mt List.isSuffixOf_iff_suffix.1 hmodules), Option.bind_none, hnone,
        Option.map_none]

namespace Written

theorem Indent.allBlank (indent : Indent) : AllBlank indent.chars :=
  fun c hc => isBlank_of_isIndent (indent.isIndent c hc)

/-- An entry of an import list with the spaces and tabs around it. -/
structure Listed where
  before : Indent
  name : Word
  given? : Option Word
  behind : Indent

namespace Listed

variable (listed : Listed)

def chars : List Char :=
  listed.before.chars ++ (entryText listed.name listed.given? ++ listed.behind.chars)

def entry : Entry :=
  ⟨listed.name.chars, listed.given?.map Word.chars⟩

theorem isPlain_chars : IsPlain listed.chars :=
  .append (.indent _) (.append (.entryText _ _) (.indent _))

theorem comma_not_mem : ',' ∉ listed.chars := by
  have hbefore := (isWrapping_of_allBlank listed.before.allBlank).comma_not_mem
  have hbehind := (isWrapping_of_allBlank listed.behind.allBlank).comma_not_mem
  have htext : ',' ∉ entryText listed.name listed.given? :=
    not_mem_entryText _ _ (by decide) (by decide)
  simp [chars, hbefore, htext, hbehind]

theorem ofPart?_chars {left right : List Char} (hleft : IsWrapping left)
    (hright : IsWrapping right) :
    Entry.ofPart? (left ++ listed.chars ++ right) = some listed.entry := by
  have hbefore := hleft.append_blanks listed.before.allBlank
  have hbehind := hright.blanks_append listed.behind.allBlank
  have h := ofPart?_wrapped hbefore hbehind listed.name listed.given?
  have htext : left ++ listed.chars ++ right = left ++ listed.before.chars ++
      (entryText listed.name listed.given? ++ (listed.behind.chars ++ right)) := by
    simp only [chars, List.append_assoc]
  rw [htext]
  exact h

end Listed

/-- A comma behind the last entry, if there is one. -/
def lastComma (comma? : Option Indent) : List Char :=
  (comma?.map fun blanks => ',' :: blanks.chars).getD []

/-- An import list, with a comma behind its last entry and parentheses around it or without. -/
structure ImportList where
  listed : List Listed
  comma? : Option Indent
  enclosure? : Option (Indent × Indent)
  continued : Bool

namespace ImportList

variable (list : ImportList)

/-- What stands before the entries. -/
def opening : List Char :=
  (list.enclosure?.map fun outer => outer.1.chars ++ ['(']).getD []

/-- What stands behind the entries, a comma and a backslash aside. -/
def closing : List Char :=
  (list.enclosure?.map fun outer => ')' :: outer.2.chars).getD []

/-- What stands between the parentheses, if there are any. -/
def inner : List Char :=
  [','].intercalate (list.listed.map Listed.chars) ++ lastComma list.comma?

def chars : List Char :=
  list.opening ++ (list.inner ++ list.closing) ++ if list.continued then ['\\'] else []

theorem isWrapping_opening : IsWrapping list.opening := by
  unfold opening
  cases list.enclosure? with
  | none => exact isWrapping_of_allBlank allBlank_nil
  | some outer => exact ⟨outer.1.chars, ['('], [], outer.1.allBlank, by decide, allBlank_nil, rfl⟩

theorem isWrapping_closing : IsWrapping list.closing := by
  unfold closing
  cases list.enclosure? with
  | none => exact isWrapping_of_allBlank allBlank_nil
  | some outer => exact ⟨[], [')'], outer.2.chars, allBlank_nil, by decide, outer.2.allBlank, rfl⟩

/-- Behind the last part stands the end of the list, and nothing is listed behind a last comma. -/
theorem filterMap_splitAt_comma {part right : List Char} {read? : Option Entry}
    (hpart : ',' ∉ part) (hright : IsWrapping right)
    (hentry : ∀ {right}, IsWrapping right → Entry.ofPart? (part ++ right) = read?)
    (comma? : Option Indent) :
    (splitAt ',' (part ++ (lastComma comma? ++ right))).filterMap Entry.ofPart? =
      read?.toList := by
  cases comma? with
  | none =>
    have hcomma : ',' ∉ part ++ right := by simp [hpart, hright.comma_not_mem]
    show (splitAt ',' (part ++ right)).filterMap Entry.ofPart? = read?.toList
    rw [splitAt_of_not_mem hcomma, List.filterMap_cons, List.filterMap_nil, hentry hright]
    cases read? <;> rfl
  | some blanks =>
    have hlast := hright.blanks_append blanks.allBlank
    have hnone : Entry.ofPart? (blanks.chars ++ right) = none :=
      ofPart?_eq_none hlast.isWord_eq_false
    have hbare := hentry (isWrapping_of_allBlank allBlank_nil)
    rw [List.append_nil] at hbare
    show (splitAt ',' (part ++ ',' :: (blanks.chars ++ right))).filterMap Entry.ofPart? = _
    rw [splitAt_append_cons, splitAt_of_not_mem hpart, splitAt_of_not_mem hlast.comma_not_mem,
      List.filterMap_append, List.filterMap_cons, List.filterMap_cons, List.filterMap_nil, hbare,
      hnone]
    cases read? <;> rfl

/-- The parts between the commas are the entries, each with what stands around it. -/
theorem filterMap_splitAt_listed {left right : List Char} (hleft : IsWrapping left)
    (hright : IsWrapping right) (listed : List Listed) (comma? : Option Indent) :
    (splitAt ',' (left ++ ([','].intercalate (listed.map Listed.chars) ++
      (lastComma comma? ++ right)))).filterMap Entry.ofPart? = listed.map Listed.entry := by
  -- along the entries; what stands before the first of them does not stand before the next
  induction listed generalizing left with
  | nil =>
    have hnone {right : List Char} (hright : IsWrapping right) :
        Entry.ofPart? (left ++ right) = none :=
      ofPart?_eq_none (List.forall_mem_append.2 ⟨hleft.isWord_eq_false, hright.isWord_eq_false⟩)
    exact filterMap_splitAt_comma hleft.comma_not_mem hright hnone comma?
  | cons first others ih =>
    have hcomma : ',' ∉ left ++ first.chars := by simp [hleft.comma_not_mem, first.comma_not_mem]
    have hfirst {right : List Char} (hright : IsWrapping right) :
        Entry.ofPart? (left ++ first.chars ++ right) = some first.entry :=
      first.ofPart?_chars hleft hright
    cases others with
    | nil =>
      rw [List.map_singleton, List.intercalate_singleton, ← List.append_assoc]
      exact filterMap_splitAt_comma hcomma hright hfirst comma?
    | cons next others =>
      have hbare := hfirst (isWrapping_of_allBlank allBlank_nil)
      have hothers := ih (isWrapping_of_allBlank allBlank_nil)
      rw [List.append_nil] at hbare
      rw [List.nil_append] at hothers
      rw [List.map_cons, List.map_cons, List.intercalate_cons_cons, List.append_assoc,
        List.append_assoc, ← List.append_assoc left, List.singleton_append, splitAt_append_cons,
        splitAt_of_not_mem hcomma, List.singleton_append, List.filterMap_cons, hbare]
      exact congrArg (first.entry :: ·) hothers

theorem isPlain_body : IsPlain (list.opening ++ (list.inner ++ list.closing)) := by
  have hopening : IsPlain list.opening := by
    unfold opening
    cases list.enclosure? with
    | none => exact List.forall_mem_nil _
    | some outer => exact .append (.indent outer.1) (by decide)
  have hclosing : IsPlain list.closing := by
    unfold closing
    cases list.enclosure? with
    | none => exact List.forall_mem_nil _
    | some outer => exact .cons (Or.inr (by decide)) (.indent outer.2)
  have hcomma : IsPlain (lastComma list.comma?) := by
    cases list.comma? with
    | none => exact List.forall_mem_nil _
    | some blanks => exact .cons (Or.inr (by decide)) (.indent blanks)
  have hlisted : IsPlain ([','].intercalate (list.listed.map Listed.chars)) := by
    apply IsPlain.intercalate (by decide)
    intro part hpart
    obtain ⟨listed, -, rfl⟩ := List.mem_map.1 hpart
    exact listed.isPlain_chars
  exact hopening.append ((hlisted.append hcomma).append hclosing)

/-- The entries of a list are those that are written in it. -/
theorem entries_chars : entries list.chars = list.listed.map Listed.entry := by
  have hslash := IsPlain.not_mem (c := '\\') (by decide) (by decide) list.isPlain_body
  have hlast : (list.opening ++ (list.inner ++ list.closing)).getLast? ≠ some '\\' :=
    fun hc => hslash (List.mem_of_mem_getLast? hc)
  have hbody : entries list.chars = entries (list.opening ++ (list.inner ++ list.closing)) := by
    unfold chars
    cases list.continued with
    | true => exact entries_append_backslash _
    | false => rw [if_neg Bool.false_ne_true, List.append_nil]
  rw [hbody, entries_eq_of_not_continued hlast, inner, List.append_assoc]
  exact filterMap_splitAt_listed list.isWrapping_opening list.isWrapping_closing _ _

end ImportList

/-! ## Lines -/

/-- An import from a package by its dotted name. -/
structure ImportLine where
  package : String
  isDotted : ∀ c ∈ package.toList, isDotted c = true
  list : ImportList

namespace ImportLine

variable (line : ImportLine)

def chars : List Char :=
  "from ".toList ++ (line.package.toList ++ (" import ".toList ++ line.list.chars))

/-- The entries of the line, each with the package that it is imported from. -/
def imported : List (List Char × Entry) :=
  line.list.listed.map fun listed => (line.package.toList, listed.entry)

theorem newline_not_mem : '\n' ∉ line.chars := by
  have hpackage : '\n' ∉ line.package.toList := by
    intro hc
    exact absurd (line.isDotted _ hc) (by decide)
  have hbody := IsPlain.not_mem (c := '\n') (by decide) (by decide) line.list.isPlain_body
  have hlist : '\n' ∉ line.list.chars := by
    unfold ImportList.chars
    cases line.list.continued <;> simpa using hbody
  have hkeywords : '\n' ∉ "from ".toList ∧ '\n' ∉ " import ".toList := by decide
  unfold chars
  simp only [List.mem_append, not_or]
  exact ⟨hkeywords.1, hpackage, hkeywords.2, hlist⟩

theorem bound?_chars : (Import.ofLine? line.chars).bind Import.bound? =
    ((line.list.listed.map Listed.entry).find? fun entry =>
      ImportsAdmin line.package.toList entry).map Entry.bound := by
  unfold chars
  rw [ofLine?_from line.isDotted, bound?_importFrom, entries_dropWhile_isIndent,
    line.list.entries_chars]

/-- A line binds the name of its first wanted entry. -/
theorem bound?_eq_imported : (Import.ofLine? line.chars).bind Import.bound? =
    (line.imported.find? fun (package, entry) => ImportsAdmin package entry).map (·.2.bound) := by
  rw [bound?_chars, imported, List.find?_map, List.find?_map, Option.map_map, Option.map_map]
  rfl

end ImportLine

/--
The name of the admin site is the one that the first entry binds which imports the admin module, or
its `register` or `site`, in the order of the lines and of the entries of each line.
-/
theorem scope?_importLines (ended : Bool) (all : List ImportLine) :
    scope? (joinLines ended (all.map ImportLine.chars)) =
      ((all.flatMap ImportLine.imported).find? fun (package, entry) =>
        ImportsAdmin package entry).map (·.2.bound) := by
  unfold scope?
  induction all with
  | nil => rfl
  | cons line all ih =>
    rw [List.map_cons, Source.Line.findSome?_lines_joinLines rfl ended line.newline_not_mem,
      line.bound?_eq_imported, ih, List.flatMap_cons, List.find?_append]
    cases line.imported.find? fun (package, entry) => ImportsAdmin package entry <;> rfl

example : scope? ("from django.contrib.admin import sites\n" ++
    "from contrib import ( tools, admin as ad ,) \\").toList = some "ad".toList := by decide +kernel

end Written

end SiteSurvey.Admin
