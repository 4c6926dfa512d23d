import SiteSurvey.Proofs.Admin.Import
import SiteSurvey.Proofs.Admin.Registration

/-!
# Written registrations

The lines of an admin module as an author writes them, and what each of them adds to what is read of
the module: a decorator adds the models that it lists (`Line.finds_decorator`), a call its model
(`Line.finds_call`), and only an assignment gives the site another name
(`Line.reboundInLine?_chars`).
-/

namespace SiteSurvey.Admin.Written

open Text

/-! ## Pieces of text -/

/-- Spaces and tabs at the beginning of a line. -/
structure Indent where
  text : String
  isIndent : ∀ c ∈ text.toList, isIndent c = true

def Indent.chars (indent : Indent) : List Char :=
  indent.text.toList

/-- The way from the name of the site to the function that registers models. -/
inductive Access where
  | direct
  | site
  | register
  | siteRegister
  deriving DecidableEq, Repr

def Access.chars : Access → List Char
  | direct => []
  | site => ".site".toList
  | register => ".register".toList
  | siteRegister => ".site.register".toList

theorem Access.chars_mem (access : Access) : access.chars ∈ accesses := by
  cases access with
  | direct => exact .head _
  | site => exact .tail _ (.head _)
  | register => exact .tail _ (.tail _ (.head _))
  | siteRegister => exact .tail _ (.tail _ (.tail _ (.head _)))

/-- A call begins with a dot or a parenthesis behind the name that is called. -/
theorem Access.exists_call_eq_cons (access : Access) (arguments : List Char) :
    ∃ mark more, access.chars ++ '(' :: arguments = mark :: more ∧ (mark = '.' ∨ mark = '(') := by
  cases access with
  | direct => exact ⟨'(', _, rfl, Or.inr rfl⟩
  | site => exact ⟨'.', _, rfl, Or.inl rfl⟩
  | register => exact ⟨'.', _, rfl, Or.inl rfl⟩
  | siteRegister => exact ⟨'.', _, rfl, Or.inl rfl⟩

/-- The models of a decorator, with commas between them. -/
def modelList (first : Word) (others : List Word) : List Char :=
  first.chars ++ others.flatMap fun other => ", ".toList ++ other.chars

def siteArgument (site? : Option Word) : List Char :=
  (site?.map fun site => ", site=".toList ++ site.chars).getD []

def secondArgument (second? : Option Word) : List Char :=
  (second?.map fun second => ", ".toList ++ second.chars).getD []

/-! ## Lines -/

inductive Line where
  /-- The import of the admin module. -/
  | opening (given? : Option Word)
  /-- Another name for the site. -/
  | assignment (target scope : Word)
  | decorator (indent : Indent) (access : Access) (first : Word) (others : List Word)
    (site? : Option Word)
  /-- The class that a decorator stands before. -/
  | body (indent : Indent) (className : Word)
  | call (indent : Indent) (access : Access) (model : Word) (second? : Option Word)

namespace Line

/-- The text of a line in a module that calls the site `name`. -/
def chars (name : Word) : Line → List Char
  | opening given? => "from django.contrib import ".toList ++ importList given?
  | assignment target scope => target.chars ++ (" = ".toList ++ (scope.chars ++ ".site".toList))
  | decorator indent access first others site? =>
    indent.chars ++ '@' :: callText name.chars access.chars
      (modelList first others ++ siteArgument site?)
  | body indent className =>
    indent.chars ++ ("class".toList ++ ' ' ::
      (className.chars ++ '(' :: (name.chars ++ ".ModelAdmin): pass".toList)))
  | call indent access model second? =>
    indent.chars ++ callText name.chars access.chars (model.chars ++ secondArgument second?)

section Chars

variable (name : Word) (indent : Indent) (access : Access)

@[simp] theorem chars_opening (given? : Option Word) : (opening given?).chars name =
    "from django.contrib import ".toList ++ importList given? := rfl

@[simp] theorem chars_assignment (target scope : Word) : (assignment target scope).chars name =
    target.chars ++ (" = ".toList ++ (scope.chars ++ ".site".toList)) := rfl

@[simp] theorem chars_decorator (first : Word) (others : List Word) (site? : Option Word) :
    (decorator indent access first others site?).chars name =
      indent.chars ++ '@' :: callText name.chars access.chars
        (modelList first others ++ siteArgument site?) := rfl

@[simp] theorem chars_body (className : Word) : (body indent className).chars name =
    indent.chars ++ ("class".toList ++ ' ' ::
      (className.chars ++ '(' :: (name.chars ++ ".ModelAdmin): pass".toList))) := rfl

@[simp] theorem chars_call (model : Word) (second? : Option Word) :
    (call indent access model second?).chars name = indent.chars ++
      callText name.chars access.chars (model.chars ++ secondArgument second?) := rfl

end Chars

/-- The models that a decorator lists. -/
def decorated? : Line → Option (List Char)
  | decorator _ _ first others _ => some (modelList first others)
  | _ => none

/-- The model that a call registers. -/
def called? : Line → Option (List Char)
  | call _ _ model _ => some model.chars
  | _ => none

end Line

/-! ## The characters of a line -/

/-- The text has no characters but words, spaces, tabs and the marks of imports and calls. -/
def IsPlain (text : List Char) : Prop :=
  ∀ c ∈ text, isWord c = true ∨ c ∈ [' ', '\t', '@', '.', '(', ')', ',', '=', ':']

instance (text : List Char) : Decidable (IsPlain text) :=
  List.decidableBAll _ text

namespace IsPlain

theorem append {text rest : List Char} (h : IsPlain text) (hrest : IsPlain rest) :
    IsPlain (text ++ rest) :=
  List.forall_mem_append.2 ⟨h, hrest⟩

theorem cons {c : Char} {rest : List Char}
    (h : isWord c = true ∨ c ∈ [' ', '\t', '@', '.', '(', ')', ',', '=', ':'])
    (hrest : IsPlain rest) : IsPlain (c :: rest) :=
  List.forall_mem_cons.2 ⟨h, hrest⟩

section NotMem

variable {c : Char} (hword : isWord c = false)
  (hmark : c ∉ [' ', '\t', '@', '.', '(', ')', ',', '=', ':'])

include hword hmark

theorem not_mem {text : List Char} (h : IsPlain text) : c ∉ text := by
  intro hc
  rcases h c hc with h | h
  · rw [hword] at h
    cases h
  · exact hmark h

theorem not_mem_joinLines {all : List (List Char)} (h : ∀ line ∈ all, IsPlain line)
    (hnewline : c ≠ '\n') (ended : Bool) : c ∉ joinLines ended all := by
  intro hc
  rcases mem_joinLines hc with ⟨line, hline, hc⟩ | hc
  · exact not_mem hword hmark (h line hline) hc
  · exact hnewline hc

end NotMem

theorem word (word : Word) : IsPlain word.chars :=
  fun c hc => Or.inl (word.isWord_chars c hc)

theorem indent (indent : Indent) : IsPlain indent.chars := by
  intro c hc
  have h := indent.isIndent c hc
  simp only [Text.isIndent, Bool.or_eq_true, beq_iff_eq] at h
  rcases h with rfl | rfl <;> exact Or.inr (by decide)

theorem entryText (name : Word) (given? : Option Word) : IsPlain (entryText name given?) := by
  intro c hc
  rcases isWord_or_space_entryText name given? c hc with hword | rfl
  · exact Or.inl hword
  · exact Or.inr (by decide)

theorem importList (given? : Option Word) : IsPlain (importList given?) :=
  entryText adminWord given?

theorem intercalate {separator : List Char} (hseparator : IsPlain separator)
    {parts : List (List Char)} (h : ∀ part ∈ parts, IsPlain part) :
    IsPlain (separator.intercalate parts) := by
  induction parts with
  | nil => exact List.forall_mem_nil _
  | cons part parts ih =>
    rw [List.forall_mem_cons] at h
    cases parts with
    | nil =>
      rw [List.intercalate_singleton]
      exact h.1
    | cons next parts =>
      rw [List.intercalate_cons_cons, List.append_assoc]
      exact append h.1 (append hseparator (ih h.2))

theorem callText (name : Word) (access : Access) {arguments : List Char} (h : IsPlain arguments) :
    IsPlain (callText name.chars access.chars arguments) := by
  have haccess : IsPlain access.chars := by cases access <;> decide
  exact append (word name) (append haccess (cons (by decide) (append h (by decide))))

theorem modelList (first : Word) (others : List Word) : IsPlain (modelList first others) := by
  refine append (word first) fun c hc => ?_
  obtain ⟨other, -, hother⟩ := List.mem_flatMap.1 hc
  exact append (by decide) (word other) c hother

theorem siteArgument (site? : Option Word) : IsPlain (siteArgument site?) := by
  cases site? with
  | none => decide
  | some site => exact append (by decide) (word site)

theorem secondArgument (second? : Option Word) : IsPlain (secondArgument second?) := by
  cases second? with
  | none => decide
  | some second => exact append (by decide) (word second)

end IsPlain

/-! ## Lines that register nothing -/

/-- An indented line has no equals sign behind its first word, which is empty. -/
theorem head?_indent (indent : Indent) {c : Char} {rest : List Char} (hc : isIndent c = false)
    (hne : c ≠ '=')
    (hbare : (((c :: rest).dropWhile isWord).dropWhile isIndent).head? ≠ some '=') :
    (((indent.chars ++ c :: rest).dropWhile isWord).dropWhile isIndent).head? ≠ some '=' := by
  have hindent : ∀ i ∈ indent.chars, isIndent i = true := indent.isIndent
  cases hchars : indent.chars with
  | nil => exact hbare
  | cons i more =>
    rw [hchars] at hindent
    have hi : isWord i = false := by
      have h := hindent i List.mem_cons_self
      simp only [Text.isIndent, Bool.or_eq_true, beq_iff_eq] at h
      rcases h with rfl | rfl <;> decide
    rw [List.cons_append, List.dropWhile_cons_of_neg (by simp [hi]), ← List.cons_append,
      dropWhile_isIndent_append hindent hc]
    simpa using hne

/-- A line whose first word has no equals sign behind it sets nothing. -/
theorem reboundInLine?_word (indent : Indent) (word : Word) {c : Char} {more : List Char}
    (hc : isWord c = false) (hequals : ((c :: more).dropWhile isIndent).head? ≠ some '=')
    (scope : List Char) :
    reboundInLine? scope (indent.chars ++ (word.chars ++ c :: more)) = none := by
  obtain ⟨w, rest, hchars, hw⟩ := word.exists_chars_eq_cons
  have hdrop := dropWhile_isWord_append word.isWord_chars (endsWord_cons hc more)
  rw [hchars, List.cons_append] at hdrop ⊢
  refine reboundInLine?_of_ne (head?_indent indent (isIndent_eq_false hw)
    (ne_of_isWord hw (by decide)) ?_) scope
  rw [hdrop]
  exact hequals

/-- The line adds nothing to what is read of a text, what it may import aside. -/
structure IsIdle (line : List Char) : Prop where
  plain : IsPlain line
  sets_nothing : ∀ scope : Word, reboundInLine? scope.chars line = none
  no_decorator : ∀ name : Word, FindsInLine (decorator? name.chars) line none
  no_call : ∀ name : Word, FindsInLine (call? name.chars) line none

/-- A line whose first word is neither called nor set is idle. -/
theorem isIdle_of_word (indent : Indent) (word : Word) {c : Char} {more : List Char}
    (hmore : IsPlain (c :: more)) (hc : isWord c = false) (hdot : c ≠ '.') (hopen : c ≠ '(')
    (hequals : ((c :: more).dropWhile isIndent).head? ≠ some '=') :
    IsIdle (indent.chars ++ (word.chars ++ c :: more)) where
  plain := .append (.indent indent) (.append (.word word) hmore)
  sets_nothing scope := reboundInLine?_word indent word hc hequals scope.chars
  no_decorator name := by
    obtain ⟨w, rest, hchars, hw⟩ := word.exists_chars_eq_cons
    rw [hchars, List.cons_append]
    exact finds_no_decorator indent.isIndent name.chars (isIndent_eq_false hw)
      (ne_of_isWord hw (by decide)) _
  no_call name :=
    finds_no_call_of_word indent.isIndent name.isWord_chars word.isWord_chars word.chars_ne_nil hc
      hdot hopen more

/-- An import line, whatever it lists. -/
theorem isIdle_import {list : List Char} (h : IsPlain list) :
    IsIdle ("from django.contrib import ".toList ++ list) := by
  have hmore : IsPlain (" django.contrib import ".toList ++ list) := .append (by decide) h
  have hhead : ((" django.contrib import ".toList ++ list).dropWhile isIndent).head? = some 'd' :=
    rfl
  refine isIdle_of_word ⟨"", by decide⟩ ⟨"from", by decide, by decide⟩ hmore (by decide) (by decide)
    (by decide) ?_
  exact fun h => absurd (hhead.symm.trans h) (by decide)

theorem isIdle_class (indent : Indent) (className : Word) {bases : List Char} (h : IsPlain bases) :
    IsIdle (indent.chars ++ ("class".toList ++ ' ' :: (className.chars ++ bases))) := by
  obtain ⟨c, rest, hchars, hc⟩ := className.exists_chars_eq_cons
  have hmore : IsPlain (' ' :: (className.chars ++ bases)) :=
    .cons (Or.inr (by decide)) (.append (.word className) h)
  have hdrop : (' ' :: (className.chars ++ bases)).dropWhile isIndent =
      className.chars ++ bases := by
    rw [List.dropWhile_cons_of_pos (by decide), hchars, List.cons_append]
    exact List.dropWhile_cons_of_neg (by simp [isIndent_eq_false hc])
  refine isIdle_of_word indent ⟨"class", by decide, by decide⟩ hmore (by decide) (by decide)
    (by decide) ?_
  rw [hdrop, hchars]
  simpa using ne_of_isWord hc (by decide)

/-- The class that a decorator stands before, the site being called `name`. -/
theorem isIdle_body (indent : Indent) (className name : Word) :
    IsIdle ((Line.body indent className).chars name) := by
  have hbase : IsPlain (name.chars ++ ".ModelAdmin): pass".toList) :=
    .append (.word name) (by decide)
  exact isIdle_class indent className (hbase.cons (Or.inr (by decide)))

theorem Line.isPlain_chars (line : Line) (name : Word) : IsPlain (line.chars name) := by
  cases line with
  | opening given? => exact (isIdle_import (.importList given?)).plain
  | assignment target scope =>
    have hsite : IsPlain ".site".toList := by decide
    have hscope : IsPlain (scope.chars ++ ".site".toList) := .append (.word scope) hsite
    have hequals : IsPlain " = ".toList := by decide
    exact .append (.word target) (hequals.append hscope)
  | decorator indent access first others site? =>
    have harguments := (IsPlain.modelList first others).append (.siteArgument site?)
    have hcall := IsPlain.callText name access harguments
    have hat : IsPlain ('@' :: Admin.callText name.chars access.chars _) :=
      hcall.cons (Or.inr (by decide))
    exact .append (.indent indent) hat
  | body indent className => exact (isIdle_body indent className name).plain
  | call indent access model second? =>
    have harguments := (IsPlain.word model).append (.secondArgument second?)
    exact .append (.indent indent) (.callText name access harguments)

/-! ## Decorators -/

theorem beforeSiteArgument_append {text : List Char} (h : ',' ∉ text) (rest : List Char) :
    beforeSiteArgument (text ++ rest) = text ++ beforeSiteArgument rest := by
  induction text with
  | nil => rfl
  | cons c text ih =>
    rw [List.mem_cons, not_or] at h
    have hsite : beginsSiteArgument (c :: (text ++ rest)) = false := by
      simp [beginsSiteArgument, after?, h.1]
    rw [List.cons_append, beforeSiteArgument, hsite, if_neg Bool.false_ne_true, ih h.2,
      List.cons_append]

/-- What may follow a model in a decorator: nothing or another argument. -/
def FollowsModel (rest : List Char) : Prop :=
  ∀ c ∈ rest.head?, c = ','

theorem FollowsModel.endsWord {rest : List Char} (h : FollowsModel rest) : EndsWord rest := by
  intro c hc
  rw [h c hc]
  decide

/-- A model named like the keyword is no keyword, as no equals sign follows it. -/
theorem beginsSiteArgument_model (model : Word) {rest : List Char} (hrest : FollowsModel rest) :
    beginsSiteArgument (',' :: ' ' :: (model.chars ++ rest)) = false := by
  obtain ⟨c, more, hchars, hc⟩ := model.exists_chars_eq_cons
  have hblank : (' ' :: (model.chars ++ rest)).dropWhile isBlank = model.chars ++ rest := by
    rw [List.dropWhile_cons_of_pos (by decide), hchars]
    exact List.dropWhile_cons_of_neg (by simp [isBlank_eq_false hc])
  have hsite : after? "site".toList (model.chars ++ rest) =
      (after? "site".toList model.chars).map (· ++ rest) :=
    after?_append_of_endsWord (by decide) hrest.endsWord _
  have hcomma : after? [','] (',' :: ' ' :: (model.chars ++ rest)) =
      some (' ' :: (model.chars ++ rest)) := after?_append [','] _
  unfold beginsSiteArgument
  rw [hcomma]
  dsimp only
  rw [hblank, hsite]
  cases hafter : after? "site".toList model.chars with
  | none => rfl
  | some left =>
    have hmodel : model.chars = "site".toList ++ left := after?_eq_some_iff.1 hafter
    rw [Option.map_some]
    dsimp only
    cases left with
    | nil =>
      cases rest with
      | nil => rfl
      | cons d rest =>
        rw [hrest d rfl]
        rfl
    | cons d left =>
      have hd : isWord d = true := model.isWord_chars d (by simp [hmodel])
      have hblank' : isBlank d = false := isBlank_eq_false hd
      have hequals : d ≠ '=' := ne_of_isWord hd (by decide)
      simp [hblank', hequals]

theorem beforeSiteArgument_siteArgument (site? : Option Word) :
    beforeSiteArgument (siteArgument site?) = [] := by
  cases site? <;> rfl

theorem followsModel_others (others : List Word) (site? : Option Word) :
    FollowsModel ((others.flatMap fun other => ", ".toList ++ other.chars) ++
      siteArgument site?) := by
  cases others with
  | nil => cases site? <;> simp [FollowsModel, siteArgument]
  | cons other others => simp [FollowsModel]

theorem beforeSiteArgument_modelList (first : Word) (others : List Word) (site? : Option Word) :
    beforeSiteArgument (modelList first others ++ siteArgument site?) =
      modelList first others := by
  unfold modelList
  rw [List.append_assoc, beforeSiteArgument_append (first.not_mem_chars (by decide))]
  congr 1
  induction others with
  | nil => exact beforeSiteArgument_siteArgument site?
  | cons other others ih =>
    have hother := beginsSiteArgument_model other (followsModel_others others site?)
    have hcomma : ',' ∉ other.chars := other.not_mem_chars (by decide)
    have hspace : ',' ∉ ' ' :: other.chars := by simp [hcomma]
    have htext : ((other :: others).flatMap fun other => ", ".toList ++ other.chars) ++
        siteArgument site? = ',' :: (' ' :: other.chars ++
          ((others.flatMap fun other => ", ".toList ++ other.chars) ++ siteArgument site?)) := by
      simp
    rw [htext, beforeSiteArgument, List.cons_append, hother, if_neg Bool.false_ne_true,
      ← List.cons_append, beforeSiteArgument_append hspace, ih]
    simp

theorem not_mem_arguments (first : Word) (others : List Word) (site? : Option Word) :
    ')' ∉ modelList first others ++ siteArgument site? := by
  have hword (word : Word) : ')' ∉ word.chars := word.not_mem_chars (by decide)
  cases site? with
  | none => simp [modelList, siteArgument, hword]
  | some site => simp [modelList, siteArgument, hword]

theorem words_modelList (first : Word) (others : List Word) :
    words (modelList first others) = (first :: others).map Word.chars := by
  unfold modelList
  induction others generalizing first with
  | nil =>
    have h := words_append first.isWord_chars endsWord_nil first.chars_ne_nil
    rw [List.flatMap_nil, h]
    rfl
  | cons other others ih =>
    have hends : EndsWord ((other :: others).flatMap fun other => ", ".toList ++ other.chars) :=
      endsWord_cons (by decide) _
    rw [words_append first.isWord_chars hends first.chars_ne_nil, List.flatMap_cons,
      List.append_assoc, List.map_cons, ← ih other]
    congr 1

/-! ## What a line adds -/

/-- A decorator adds the models that it lists, and no other line is found as one. -/
theorem Line.finds_decorator (line : Line) (name : Word) :
    FindsInLine (decorator? name.chars) (line.chars name) line.decorated? := by
  have hbare : ∀ c ∈ ([] : List Char), isIndent c = true := List.forall_mem_nil _
  cases line with
  | opening given? => exact (isIdle_import (.importList given?)).no_decorator name
  | assignment target scope =>
    obtain ⟨c, rest, hchars, hc⟩ := target.exists_chars_eq_cons
    have htext : (assignment target scope).chars name =
        [] ++ c :: (rest ++ (" = ".toList ++ (scope.chars ++ ".site".toList))) := by
      rw [chars_assignment, hchars, List.cons_append, List.nil_append]
    rw [htext]
    exact finds_no_decorator hbare name.chars (isIndent_eq_false hc) (ne_of_isWord hc (by decide)) _
  | decorator indent access first others site? =>
    have h := Admin.finds_decorator indent.isIndent name.chars access.chars_mem
      (not_mem_arguments first others site?)
    rw [beforeSiteArgument_modelList] at h
    exact h
  | body indent className => exact (isIdle_body indent className name).no_decorator name
  | call indent access model second? =>
    obtain ⟨c, rest, hchars, hc⟩ := name.exists_chars_eq_cons
    have htext : (call indent access model second?).chars name = indent.chars ++ c ::
        (rest ++ (access.chars ++ '(' :: (model.chars ++ secondArgument second? ++ [')']))) := by
      rw [chars_call, callText, hchars, List.cons_append]
    rw [htext]
    exact finds_no_decorator indent.isIndent name.chars (isIndent_eq_false hc)
      (ne_of_isWord hc (by decide)) _

/-- A call adds its model, and no other line is found as one. -/
theorem Line.finds_call (line : Line) (name : Word) :
    FindsInLine (call? name.chars) (line.chars name) line.called? := by
  have hbare : ∀ c ∈ ([] : List Char), isIndent c = true := List.forall_mem_nil _
  cases line with
  | opening given? => exact (isIdle_import (.importList given?)).no_call name
  | assignment target scope =>
    have htext : (assignment target scope).chars name =
        [] ++ (target.chars ++ ' ' :: ("= ".toList ++ (scope.chars ++ ".site".toList))) := by
      simp
    rw [htext]
    exact finds_no_call_of_word hbare name.isWord_chars target.isWord_chars target.chars_ne_nil
      (by decide) (by decide) (by decide) _
  | decorator indent access first others site? =>
    obtain ⟨c, rest, hchars, hc⟩ := name.exists_chars_eq_cons
    have hhead : name.chars.head? = some c := by rw [hchars, List.head?_cons]
    exact finds_no_call_of_ne indent.isIndent hhead (by decide) (ne_of_isWord hc (by decide)) _
  | body indent className => exact (isIdle_body indent className name).no_call name
  | call indent access model second? =>
    have hmore : EndsWord (secondArgument second?) := by
      cases second? with
      | none => exact endsWord_nil
      | some second => exact endsWord_cons (by decide) _
    exact Admin.finds_call indent.isIndent name.isWord_chars name.chars_ne_nil model.isWord_chars
      model.chars_ne_nil access.chars_mem hmore

/-- The name that a line gives the site. -/
def Line.assigned? : Line → Option (List Char)
  | assignment target _ => some target.chars
  | _ => none

/-- Whether an assignment, if it is one, is from the name that is given. -/
def Line.IsFrom (scope : Word) : Line → Prop
  | assignment _ source => source = scope
  | _ => True

/-- Only an assignment gives the site another name. -/
theorem Line.reboundInLine?_chars (line : Line) (name scope : Word) (h : line.IsFrom scope) :
    reboundInLine? scope.chars (line.chars name) = line.assigned? := by
  cases line with
  | opening given? => exact (isIdle_import (.importList given?)).sets_nothing scope
  | assignment target source =>
    subst h
    exact reboundInLine?_site target source
  | decorator indent access first others site? =>
    refine reboundInLine?_of_ne (head?_indent indent (by decide) (by decide) ?_) _
    rw [List.dropWhile_cons_of_neg (by decide), List.dropWhile_cons_of_neg (by decide)]
    simp
  | body indent className => exact (isIdle_body indent className name).sets_nothing scope
  | call indent access model second? =>
    obtain ⟨mark, more, htext, hmark⟩ := access.exists_call_eq_cons
      (model.chars ++ secondArgument second? ++ [')'])
    obtain ⟨hword, hindent, hequals⟩ :
        isWord mark = false ∧ isIndent mark = false ∧ mark ≠ '=' := by
      rcases hmark with rfl | rfl <;> decide
    have hhead : ((mark :: more).dropWhile isIndent).head? ≠ some '=' := by
      rw [List.dropWhile_cons_of_neg (by simp [hindent])]
      simpa using hequals
    rw [chars_call, callText, htext]
    exact reboundInLine?_word indent name hword hhead scope.chars

end SiteSurvey.Admin.Written
