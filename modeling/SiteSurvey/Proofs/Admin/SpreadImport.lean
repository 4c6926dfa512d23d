import SiteSurvey.Proofs.Admin.ImportLines
import SiteSurvey.Proofs.Source.Insertion

/-!
# Imports over many lines

An import is read from the line that it begins on. So an import in parentheses whose entries stand
on lines of their own imports nothing, and the models are those of the text behind it
(`models_spreadImport`); on one line it gives the site its name (`models_inlineImport`). Lines that
register nothing are passed over, whatever follows them (`models_idle_append`).
-/

namespace SiteSurvey

open Text

/-! ## Lines before a text -/

theorem Text.lines_joinLines_append {all : List (List Char)} (h : ∀ line ∈ all, '\n' ∉ line)
    (rest : List Char) : lines (joinLines true all ++ rest) = all ++ lines rest := by
  induction all with
  | nil => rfl
  | cons line all ih =>
    rw [List.forall_mem_cons] at h
    rw [joinLines_true_cons, List.append_assoc, List.cons_append, lines_append_newline h.1, ih h.2,
      List.cons_append]

theorem Source.uncommented_append {first : List Char} (hhash : '#' ∉ first) (hquote : '"' ∉ first)
    (rest : List Char) : uncommented (first ++ rest) = first ++ uncommented rest := by
  have hlast : first.getLast? ≠ some '"' := fun h => hquote (List.mem_of_mem_getLast? h)
  unfold uncommented withoutBlocks withoutLineComments
  rw [withoutBlocksFrom_none_append (noTriple_of_not_mem hquote) hlast,
    withoutLineCommentsFrom_append hhash]

namespace Admin

open Source

/-- The name that a line binds to the site, if it imports it. -/
def boundInLine? (line : List Char) : Option (List Char) :=
  (Import.ofLine? line).bind Import.bound?

/-- The models that a text without comments registers where the site is imported as `scope`. -/
def modelsUnder (scope? : Option (List Char)) (text : List Char) : List String :=
  match scope? with
  | none => []
  | some scope =>
    (registered .bounded ((rebound? .bounded scope text).getD scope) text).map String.ofList

theorem models_eq_modelsUnder (text : String) :
    models text = modelsUnder (scope? (uncommented text.toList)) (uncommented text.toList) := by
  unfold models modelsWith modelsUnder registrar?
  dsimp only
  cases scope? (uncommented text.toList) <;> rfl

namespace Written

section Idle

variable {all : List (List Char)} (h : ∀ line ∈ all, IsIdle line)

include h

theorem newline_not_mem_of_isIdle : ∀ line ∈ all, '\n' ∉ line :=
  fun line hline => IsPlain.not_mem (by decide) (by decide) (h line hline).plain

theorem scope?_idle_append (rest : List Char) :
    scope? (joinLines true all ++ rest) = (all.findSome? boundInLine?).or (scope? rest) := by
  unfold scope?
  rw [lines_joinLines_append (newline_not_mem_of_isIdle h), List.findSome?_append]
  rfl

theorem rebound?_idle_append (compiler : Compiler) (scope : Word) (rest : List Char) :
    rebound? compiler scope.chars (joinLines true all ++ rest) =
      rebound? compiler scope.chars rest := by
  have hnone : all.findSome? (reboundInLine? scope.chars) = none :=
    List.findSome?_eq_none_iff.2 fun line hline => (h line hline).sets_nothing scope
  unfold rebound? firstRebound?
  rw [lines_joinLines_append (newline_not_mem_of_isIdle h), List.findSome?_append, hnone,
    Option.none_or]

theorem finds_idle_append {α : Type} {find? : List Char → Option (α × Nat)}
    (hnone : ∀ line ∈ all, FindsInLine find? line none) (rest : List Char) :
    finds find? (joinLines true all ++ rest) = finds find? rest := by
  have hnewline := newline_not_mem_of_isIdle h
  clear h
  induction all with
  | nil => rfl
  | cons line all ih =>
    rw [List.forall_mem_cons] at hnewline hnone
    have hrest : FollowsLine ('\n' :: (joinLines true all ++ rest)) := by simp [FollowsLine]
    rw [joinLines_true_cons, List.append_assoc, List.cons_append,
      finds_line hnewline.1 hrest hnone.1, List.tail_cons, ih hnone.2 hnewline.2]
    rfl

theorem registered_idle_append (compiler : Compiler) (name : Word) (rest : List Char) :
    registered compiler name.chars (joinLines true all ++ rest) =
      registered compiler name.chars rest := by
  unfold registered registeredUnder
  rw [finds_idle_append h fun line hline => (h line hline).no_decorator name,
    finds_idle_append h fun line hline => (h line hline).no_call name]

theorem modelsUnder_idle_append {scope : Word} (rest : List Char) :
    modelsUnder (some scope.chars) (joinLines true all ++ rest) =
      modelsUnder (some scope.chars) rest := by
  have hname : ∃ name : Word,
      (rebound? .bounded scope.chars rest).getD scope.chars = name.chars := by
    cases hrebound : rebound? .bounded scope.chars rest with
    | none => exact ⟨scope, rfl⟩
    | some target => exact exists_word_rebound? hrebound
  obtain ⟨name, hname⟩ := hname
  unfold modelsUnder
  dsimp only
  rw [rebound?_idle_append h, hname, registered_idle_append h]

/-- Lines that register nothing only give the site its name. -/
theorem models_idle_append (rest : String) :
    models (String.ofList (joinLines true all) ++ rest) =
      modelsUnder ((all.findSome? boundInLine?).or (scope? (uncommented rest.toList)))
        (uncommented rest.toList) := by
  have hplain : ∀ line ∈ all, IsPlain line := fun line hline => (h line hline).plain
  have hhash : '#' ∉ joinLines true all :=
    IsPlain.not_mem_joinLines (by decide) (by decide) hplain (by decide) true
  have hquote : '"' ∉ joinLines true all :=
    IsPlain.not_mem_joinLines (by decide) (by decide) hplain (by decide) true
  have htext : uncommented (String.ofList (joinLines true all) ++ rest).toList =
      joinLines true all ++ uncommented rest.toList := by
    rw [String.toList_append, String.toList_ofList]
    exact uncommented_append hhash hquote _
  rw [models_eq_modelsUnder, htext, ← scope?_idle_append h]
  cases hscope : scope? (joinLines true all ++ uncommented rest.toList) with
  | none => rfl
  | some scope =>
    obtain ⟨word, rfl⟩ := exists_word_scope? hscope
    exact modelsUnder_idle_append h _

end Idle

/-! ## A list in parentheses -/

namespace Listed

variable (listed : Listed)

/-- The entry without what stands around it. -/
def text : List Char :=
  entryText listed.name listed.given?

/-- What stands behind the name of an entry that has a line of its own. -/
def tail : List Char :=
  (listed.given?.map fun given => " as ".toList ++ given.chars).getD [] ++
    (listed.behind.chars ++ [','])

theorem chars_append_comma :
    listed.chars ++ [','] = listed.before.chars ++ (listed.name.chars ++ listed.tail) := by
  simp [chars, tail, entryText]

theorem dropWhile_tail : listed.tail.dropWhile isIndent = [','] ∨
    ∃ more, listed.tail.dropWhile isIndent = "as ".toList ++ more := by
  unfold tail
  cases listed.given? with
  | none =>
    left
    exact dropWhile_isIndent_append listed.behind.isIndent (by decide) []
  | some given => exact Or.inr ⟨given.chars ++ (listed.behind.chars ++ [',']), rfl⟩

/-- The name of an entry is followed by white space or a comma. -/
theorem exists_tail_eq_cons : ∃ c more, listed.tail = c :: more ∧ c ∈ [' ', '\t', ','] := by
  unfold tail
  cases listed.given? with
  | none =>
    cases hbehind : listed.behind.chars with
    | nil => exact ⟨',', [], rfl, by decide⟩
    | cons c more =>
      have hmem : c ∈ listed.behind.chars := by simp [hbehind]
      have hc : isIndent c = true := listed.behind.isIndent c hmem
      simp only [Text.isIndent, Bool.or_eq_true, beq_iff_eq] at hc
      refine ⟨c, more ++ [','], rfl, ?_⟩
      rcases hc with rfl | rfl <;> decide
  | some given => exact ⟨' ', _, rfl, by decide⟩

theorem isPlain_tail : IsPlain listed.tail := by
  have hcomma : IsPlain (listed.behind.chars ++ [',']) := .append (.indent _) (by decide)
  unfold tail
  cases listed.given? with
  | none => exact hcomma
  | some given => exact .append (.append (by decide) (.word given)) hcomma

theorem isIdle : IsIdle (listed.chars ++ [',']) := by
  obtain ⟨c, more, htail, hc⟩ := listed.exists_tail_eq_cons
  have hmark : ∀ c ∈ [' ', '\t', ','], isWord c = false ∧ c ≠ '.' ∧ c ≠ '(' := by decide
  obtain ⟨hword, hdot, hopen⟩ := hmark c hc
  have hequals : (listed.tail.dropWhile isIndent).head? ≠ some '=' := by
    rcases listed.dropWhile_tail with h | ⟨more, h⟩
    · rw [h]
      decide
    · rw [h]
      exact fun h => absurd h (by decide : some 'a' ≠ some '=')
  have hplain := listed.isPlain_tail
  rw [htail] at hequals hplain
  rw [chars_append_comma, htail]
  exact isIdle_of_word listed.before listed.name hplain hword hdot hopen hequals

/-- Even behind an entry named like the keyword no package stands that holds the admin site. -/
theorem boundInLine?_chars : boundInLine? (listed.chars ++ [',']) = none := by
  have hends : EndsWord listed.tail := by
    obtain ⟨c, more, htail, hc⟩ := listed.exists_tail_eq_cons
    have hmark : ∀ c ∈ [' ', '\t', ','], isWord c = false := by decide
    rw [htail]
    exact endsWord_cons (hmark c hc) more
  have hpackage : importFrom? ((listed.tail.dropWhile isIndent).takeWhile isDotted) =
      fun _ => none := by
    rcases listed.dropWhile_tail with h | ⟨more, h⟩
    · rw [h]
      rfl
    · rw [h]
      rfl
  have hline : Import.ofLine? (listed.chars ++ [',']) = none := by
    rw [chars_append_comma]
    exact ofLine?_word listed.before listed.name hends hpackage
  unfold boundInLine?
  rw [hline, Option.bind_none]

end Listed

/-- The name that an import of the entries from the parent of the admin module binds to it. -/
def importedAdmin? (all : List Listed) : Option (List Char) :=
  ((all.map Listed.entry).find? fun entry => entry.name = "admin".toList).map Entry.bound

/-- The lines of an import with a line for each entry. -/
def spreadLines (all : List Listed) : List (List Char) :=
  "from django.contrib import (".toList :: (all.map (fun listed => listed.chars ++ [',']) ++
    [")".toList])

def spreadImport (all : List Listed) : String :=
  String.ofList (joinLines true (spreadLines all))

/-- The same import on one line. -/
def inlineLine (all : List Listed) : List Char :=
  "from django.contrib import (".toList ++ (", ".toList.intercalate (all.map Listed.text) ++
    ")".toList)

def inlineImport (all : List Listed) : String :=
  String.ofList (joinLines true [inlineLine all])

theorem isIdle_parenthesis : IsIdle ")".toList where
  plain := by decide
  sets_nothing scope := reboundInLine?_of_ne (by decide) scope.chars
  no_decorator name :=
    finds_no_decorator (List.forall_mem_nil _) name.chars (by decide) (by decide) []
  no_call name := by
    obtain ⟨c, rest, hchars, hc⟩ := name.exists_chars_eq_cons
    have hhead : name.chars.head? = some c := by rw [hchars, List.head?_cons]
    have hne : c ≠ ')' := ne_of_isWord hc (by decide)
    exact finds_no_call_of_ne (List.forall_mem_nil _) hhead (by decide) hne []

theorem isIdle_spreadLines (all : List Listed) : ∀ line ∈ spreadLines all, IsIdle line := by
  have hlist : IsPlain ['('] := by decide
  have hopening : IsIdle "from django.contrib import (".toList := isIdle_import hlist
  intro line hline
  rcases List.mem_cons.1 hline with rfl | hline
  · exact hopening
  rcases List.mem_append.1 hline with hline | hline
  · obtain ⟨listed, -, rfl⟩ := List.mem_map.1 hline
    exact listed.isIdle
  · rw [List.mem_singleton.1 hline]
    exact isIdle_parenthesis

theorem findSome?_spreadLines (all : List Listed) :
    (spreadLines all).findSome? boundInLine? = none := by
  have hopening : boundInLine? "from django.contrib import (".toList = none := by decide
  have hclosing : boundInLine? ")".toList = none := by decide
  rw [List.findSome?_eq_none_iff]
  intro line hline
  rcases List.mem_cons.1 hline with rfl | hline
  · exact hopening
  rcases List.mem_append.1 hline with hline | hline
  · obtain ⟨listed, -, rfl⟩ := List.mem_map.1 hline
    exact listed.boundInLine?_chars
  · rw [List.mem_singleton.1 hline]
    exact hclosing

def spaces (n : Nat) : Indent where
  text := String.ofList (List.replicate n ' ')
  isIndent := by
    intro c hc
    rw [String.toList_ofList] at hc
    rw [List.eq_of_mem_replicate hc]
    rfl

@[simp] theorem chars_spaces (n : Nat) : (spaces n).chars = List.replicate n ' ' :=
  String.toList_ofList

/-- The entries with a space before each but the first. -/
def spaced : List Listed → List Listed
  | [] => []
  | first :: others =>
    ⟨spaces 0, first.name, first.given?, spaces 0⟩ ::
      others.map fun other => ⟨spaces 1, other.name, other.given?, spaces 0⟩

theorem map_entry_spaced (all : List Listed) :
    (spaced all).map Listed.entry = all.map Listed.entry := by
  cases all with
  | nil => rfl
  | cons first others => simp [spaced, Listed.entry, Function.comp_def]

def inlineImportLine (all : List Listed) : ImportLine where
  package := "django.contrib"
  isDotted := by decide
  list := ⟨spaced all, none, some (spaces 0, spaces 0), false⟩

theorem intercalate_cons (separator first : List Char) (others : List (List Char)) :
    separator.intercalate (first :: others) = first ++ others.flatMap (separator ++ ·) := by
  induction others generalizing first with
  | nil => simp
  | cons next others ih =>
    rw [List.intercalate_cons_cons, ih, List.flatMap_cons, List.append_assoc, List.append_assoc]

theorem intercalate_spaced (all : List Listed) :
    [','].intercalate ((spaced all).map Listed.chars) =
      ", ".toList.intercalate (all.map Listed.text) := by
  cases all with
  | nil => rfl
  | cons first others =>
    rw [spaced, List.map_cons, List.map_cons, intercalate_cons, intercalate_cons, List.map_map,
      List.flatMap_map, List.flatMap_map]
    simp [Listed.chars, Listed.text]

theorem chars_inlineImportLine (all : List Listed) :
    (inlineImportLine all).chars = inlineLine all := by
  have hlist : (inlineImportLine all).list.chars =
      (spaces 0).chars ++ ['('] ++ ([','].intercalate ((spaced all).map Listed.chars) ++ [] ++
        ')' :: (spaces 0).chars) ++ [] := rfl
  unfold ImportLine.chars inlineLine
  rw [hlist, intercalate_spaced]
  simp [inlineImportLine]

theorem isIdle_inlineLine (all : List Listed) : IsIdle (inlineLine all) := by
  have hlisted : IsPlain (", ".toList.intercalate (all.map Listed.text)) := by
    apply IsPlain.intercalate (by decide)
    intro part hpart
    obtain ⟨listed, -, rfl⟩ := List.mem_map.1 hpart
    exact .entryText listed.name listed.given?
  have hlist : IsPlain ('(' :: (", ".toList.intercalate (all.map Listed.text) ++ [')'])) :=
    .cons (Or.inr (by decide)) (hlisted.append (by decide))
  have hopening : "from django.contrib import (".toList =
      "from django.contrib import ".toList ++ ['('] := by decide
  unfold inlineLine
  rw [hopening, List.append_assoc]
  apply isIdle_import
  exact hlist

theorem importsAdmin_iff (entry : Entry) :
    ImportsAdmin "django.contrib".toList entry ↔ entry.name = "admin".toList := by
  have hmodules : "contrib".toList <:+ "django.contrib".toList := by decide
  have hmembers : ¬ "contrib.admin".toList <:+ "django.contrib".toList := by decide
  simp only [ImportsAdmin, hmodules, hmembers, true_and, false_and, or_false]

theorem boundInLine?_inlineLine (all : List Listed) :
    boundInLine? (inlineLine all) = importedAdmin? all := by
  have hbound := (inlineImportLine all).bound?_chars
  rw [chars_inlineImportLine] at hbound
  unfold boundInLine? importedAdmin?
  rw [hbound]
  simp only [inlineImportLine, importsAdmin_iff, map_entry_spaced]

/-- On one line an import gives the site its name. -/
theorem models_inlineImport (all : List Listed) (rest : String) :
    models (inlineImport all ++ rest) =
      modelsUnder ((importedAdmin? all).or (scope? (uncommented rest.toList)))
        (uncommented rest.toList) := by
  have hidle : ∀ line ∈ [inlineLine all], IsIdle line := by
    simpa using isIdle_inlineLine all
  rw [inlineImport, models_idle_append hidle, List.findSome?_singleton, boundInLine?_inlineLine]

/--
An import with a line for each entry imports nothing: the models are those of the text behind it. On
one line they are the same if no entry is the admin module, or if the text behind imports it under
the same name.
-/
theorem models_spreadImport (all : List Listed) (rest : String) :
    models (spreadImport all ++ rest) = models rest ∧
      ((∀ name ∈ importedAdmin? all, scope? (uncommented rest.toList) = some name) →
        models (spreadImport all ++ rest) = models (inlineImport all ++ rest)) := by
  have hspread : models (spreadImport all ++ rest) = models rest := by
    rw [spreadImport, models_idle_append (isIdle_spreadLines all), findSome?_spreadLines,
      Option.none_or, ← models_eq_modelsUnder]
  refine ⟨hspread, fun h => ?_⟩
  rw [hspread, models_inlineImport, models_eq_modelsUnder rest]
  cases hname : importedAdmin? all with
  | none => rw [Option.none_or]
  | some name => rw [h name hname, Option.some_or]

def messagesEntry : Listed :=
  ⟨spaces 4, ⟨"messages", by decide, by decide⟩, none, spaces 0⟩

def adminEntry (given? : Option Word) : Listed :=
  ⟨spaces 4, adminWord, given?, spaces 0⟩

def givenWord : Word :=
  ⟨"ad", by decide, by decide⟩

example : spreadImport [messagesEntry, adminEntry (some givenWord)] =
    "from django.contrib import (\n    messages,\n    admin as ad,\n)\n" := by decide +kernel

example : inlineImport [messagesEntry, adminEntry (some givenWord)] =
    "from django.contrib import (messages, admin as ad)\n" := by decide +kernel

/-- The import is repeated on one line. -/
theorem models_spreadImport_repeated :
    let all := [messagesEntry, adminEntry (some givenWord)]
    let rest := "from django.contrib import admin as ad\nad.site.register(Book)\n"
    (∀ name ∈ importedAdmin? all, scope? (uncommented rest.toList) = some name) ∧
      models (spreadImport all ++ rest) = models (inlineImport all ++ rest) ∧
      models (inlineImport all ++ rest) = ["Book"] := by
  intro all rest
  have h : ∀ name ∈ importedAdmin? all, scope? (uncommented rest.toList) = some name := by
    decide +kernel
  exact ⟨h, (models_spreadImport all rest).2 h, by decide +kernel⟩

/-- Only on one line the import of the admin module is read. -/
theorem models_spreadImport_ne : ¬ ∀ (all : List Listed) (rest : String), all ≠ [] →
    models (spreadImport all ++ rest) = models (inlineImport all ++ rest) := by
  intro h
  have hspread : models (spreadImport [adminEntry none] ++ "admin.site.register(Book)\n") = [] := by
    decide +kernel
  have hinline : models (inlineImport [adminEntry none] ++ "admin.site.register(Book)\n") =
      ["Book"] := by
    decide +kernel
  rw [h _ _ (List.cons_ne_nil _ _), hinline] at hspread
  cases hspread

end Written

end Admin

end SiteSurvey
