import SiteSurvey.Admin.Module
import SiteSurvey.Proofs.Admin.Written
import SiteSurvey.Proofs.Source.Comment

/-!
# Reading back a written admin module

An admin module imports the admin module, may give the site another name, and then registers models.
Whatever names it gives and whatever it registers, the reader finds its registrations: the models of
decorators and of calls in rounds (`Written.models_text`). It finds none under a name that is too
long for the patterns of registrations (`Written.models_sprawl`).
-/

namespace SiteSurvey.Admin

open Text

/-! ## Written modules -/

namespace Written

/-- A decorator together with the class behind it, or a call. -/
inductive Registration where
  | decorator (indent : Indent) (access : Access) (first : Word) (others : List Word)
    (site? : Option Word) (classIndent : Indent) (className : Word)
  | call (indent : Indent) (access : Access) (model : Word) (second? : Option Word)

namespace Registration

def lines : Registration → List Line
  | decorator indent access first others site? classIndent className =>
    [.decorator indent access first others site?, .body classIndent className]
  | call indent access model second? => [.call indent access model second?]

/-- The models of a decorator. -/
def group? : Registration → Option (List Word)
  | decorator _ _ first others _ _ _ => some (first :: others)
  | call .. => none

/-- The model of a call. -/
def single? : Registration → Option Word
  | decorator .. => none
  | call _ _ model _ => some model

theorem filterMap_decorated?_lines (registrations : List Registration) :
    ((registrations.flatMap lines).filterMap Line.decorated?).map words =
      (registrations.filterMap group?).map (List.map Word.chars) := by
  induction registrations with
  | nil => rfl
  | cons registration registrations ih =>
    rw [List.flatMap_cons, List.filterMap_append, List.map_append, ih]
    cases registration with
    | decorator indent access first others site? classIndent className =>
      have hwords : ([modelList first others].map words) = [(first :: others).map Word.chars] := by
        rw [List.map_singleton, words_modelList]
      exact congrArg (· ++ _) hwords
    | call indent access model second? => rfl

theorem filterMap_called?_lines (registrations : List Registration) :
    (registrations.flatMap lines).filterMap Line.called? =
      (registrations.filterMap single?).map Word.chars := by
  induction registrations with
  | nil => rfl
  | cons registration registrations ih =>
    rw [List.flatMap_cons, List.filterMap_append, ih]
    cases registration <;> rfl

/-- No registration gives the site another name. -/
theorem assigned?_lines {registrations : List Registration} :
    ∀ line ∈ registrations.flatMap lines, line.assigned? = none := by
  intro line hline
  obtain ⟨registration, -, hmem⟩ := List.mem_flatMap.1 hline
  cases registration with
  | decorator indent access first others site? classIndent className =>
    simp only [lines, List.mem_cons, List.not_mem_nil, or_false] at hmem
    rcases hmem with rfl | rfl <;> rfl
  | call indent access model second? =>
    rw [List.mem_singleton.1 hmem]
    rfl

end Registration

end Written

structure Written where
  /-- The name under which the admin module is imported. -/
  given? : Option Word
  /-- The variable that is set to the site. -/
  target? : Option Word
  registrations : List Written.Registration
  /-- Whether a newline ends the last line. -/
  ended : Bool

namespace Written

variable (file : Written)

def scope : Word :=
  importedName file.given?

/-- The name by which the module calls the site. -/
def name : Word :=
  file.target?.getD file.scope

def lines : List Line :=
  .opening file.given? :: ((file.target?.map fun target => .assignment target file.scope).toList ++
    file.registrations.flatMap Registration.lines)

def chars : List Char :=
  joinLines file.ended (file.lines.map (Line.chars file.name))

def text : String :=
  String.ofList file.chars

/-! ## Lines of the module -/

theorem isPlain_lines : ∀ text ∈ file.lines.map (Line.chars file.name), IsPlain text := by
  intro text htext
  obtain ⟨line, -, rfl⟩ := List.mem_map.1 htext
  exact line.isPlain_chars file.name

theorem uncommented_chars : Source.uncommented file.chars = file.chars := by
  have hhash : '#' ∉ file.chars :=
    IsPlain.not_mem_joinLines (by decide) (by decide) file.isPlain_lines (by decide) file.ended
  have hquote : '"' ∉ file.chars :=
    IsPlain.not_mem_joinLines (by decide) (by decide) file.isPlain_lines (by decide) file.ended
  exact Source.uncommented_of_not_mem hhash hquote

theorem newline_not_mem_line : ∀ line ∈ file.lines, '\n' ∉ line.chars file.name :=
  fun line _ => IsPlain.not_mem (by decide) (by decide) (line.isPlain_chars file.name)

theorem lines_chars : Text.lines file.chars =
    file.lines.map (Line.chars file.name) ++ if file.ended then [[]] else [] := by
  refine lines_joinLines file.ended (by simp [lines]) fun text htext => ?_
  obtain ⟨line, hline, rfl⟩ := List.mem_map.1 htext
  exact file.newline_not_mem_line line hline

theorem isFrom_scope : ∀ line ∈ file.lines, line.IsFrom file.scope := by
  intro line hline
  rcases List.mem_cons.1 hline with rfl | hline
  · trivial
  rcases List.mem_append.1 hline with htarget | hregistration
  · simp only [Option.mem_toList, Option.map_eq_some_iff] at htarget
    obtain ⟨target, -, rfl⟩ := htarget
    rfl
  · have h := Registration.assigned?_lines line hregistration
    cases line with
    | assignment target source => cases h
    | _ => trivial

/-! ## The name of the site -/

theorem scope?_chars : scope? file.chars = some file.scope.chars := by
  have hopening : (Import.ofLine? ((Line.opening file.given?).chars file.name)).bind Import.bound? =
      some file.scope.chars := by
    rw [Line.chars_opening, ofLine?_opening, Option.bind_some, bound?_opening]
    rfl
  unfold scope?
  rw [file.lines_chars, lines, List.map_cons, List.cons_append, List.findSome?_cons, hopening]

theorem firstRebound?_chars :
    firstRebound? file.scope.chars file.chars = file.target?.map Word.chars := by
  have hline : ∀ line ∈ file.lines,
      (reboundInLine? file.scope.chars ∘ Line.chars file.name) line = line.assigned? :=
    fun line hmem => line.reboundInLine?_chars file.name file.scope (file.isFrom_scope line hmem)
  have hlast : (if file.ended then [[]] else []).findSome? (reboundInLine? file.scope.chars) =
      none := by
    cases file.ended <;> rfl
  have hregistrations : (file.registrations.flatMap Registration.lines).findSome? Line.assigned? =
      none :=
    List.findSome?_eq_none_iff.2 Registration.assigned?_lines
  unfold firstRebound?
  rw [file.lines_chars, List.findSome?_append, hlast, Option.or_none, List.findSome?_map,
    ← List.head?_filterMap, List.filterMap_congr hline, List.head?_filterMap]
  unfold lines
  cases file.target? with
  | none => exact hregistrations
  | some target => rfl

theorem registrar?_chars {compiler : Compiler}
    (h : file.target?.isSome → compiler.rebinding file.scope.chars) :
    registrar? compiler file.chars = some file.name.chars := by
  unfold registrar? rebound? name
  rw [file.scope?_chars, Option.map_some, file.firstRebound?_chars]
  cases htarget : file.target? with
  | none => simp
  | some target => simp [h (by simp [htarget])]

/-! ## The models -/

theorem finds_decorator_chars :
    (finds (decorator? file.name.chars) file.chars).map words =
      (file.registrations.filterMap Registration.group?).map (List.map Word.chars) := by
  have hfinds : finds (decorator? file.name.chars) file.chars =
      file.lines.filterMap Line.decorated? :=
    finds_joinLines file.ended file.newline_not_mem_line
      fun line _ => line.finds_decorator file.name
  rw [hfinds, ← Registration.filterMap_decorated?_lines]
  unfold lines
  cases file.target? <;> rfl

theorem finds_call_chars : finds (call? file.name.chars) file.chars =
    (file.registrations.filterMap Registration.single?).map Word.chars := by
  have hfinds : finds (call? file.name.chars) file.chars = file.lines.filterMap Line.called? :=
    finds_joinLines file.ended file.newline_not_mem_line fun line _ => line.finds_call file.name
  rw [hfinds, ← Registration.filterMap_called?_lines]
  unfold lines
  cases file.target? <;> rfl

/-- The models that the module registers, in rounds of a decorator and a call. -/
def registeredModels : List String :=
  rounds ((file.registrations.filterMap Registration.group?).map (List.map Word.text))
    ((file.registrations.filterMap Registration.single?).map Word.text)

theorem registeredUnder_chars : (registeredUnder file.name.chars file.chars).map String.ofList =
    file.registeredModels := by
  have htext : Word.text = String.ofList ∘ Word.chars := by
    funext word
    exact String.ofList_toList.symm
  unfold registeredUnder registeredModels
  rw [interleave_eq_rounds, file.finds_decorator_chars, file.finds_call_chars, rounds_map, htext]
  simp [Function.comp_def]

theorem modelsWith_text {compiler : Compiler}
    (h : file.target?.isSome → compiler.rebinding file.scope.chars) :
    modelsWith compiler file.text =
      if compiler.registration file.name.chars then file.registeredModels else [] := by
  unfold modelsWith text registered
  rw [String.toList_ofList, file.uncommented_chars]
  dsimp only
  rw [file.registrar?_chars h]
  dsimp only
  split_ifs
  · exact file.registeredUnder_chars
  · rfl

/--
The reader undoes the writing of a module: it finds the models of all registrations, in rounds of
the models of a decorator and the model of a call, if its patterns can be compiled for the names of
the module. It finds none if those of registrations cannot.
-/
theorem models_text (compiler : Compiler)
    (h : file.target?.isSome → compiler.rebinding file.scope.chars) :
    (compiler.registration file.name.chars →
      modelsWith compiler file.text = file.registeredModels) ∧
    (¬ compiler.registration file.name.chars → modelsWith compiler file.text = []) := by
  rw [file.modelsWith_text h]
  exact ⟨fun hname => if_pos hname, fun hname => if_neg hname⟩

/-- A module whose site is called by a name that begins with the alias of the import. -/
def shop : Written where
  given? := some ⟨"site", by decide, by decide⟩
  target? := some ⟨"site2", by decide, by decide⟩
  registrations :=
    let book : Word := ⟨"Book", by decide, by decide⟩
    let author : Word := ⟨"Author", by decide, by decide⟩
    let review : Word := ⟨"class", by decide, by decide⟩
    [.call ⟨"", by decide⟩ .register review none,
      .decorator ⟨"  ", by decide⟩ .direct book [author] (some review) ⟨"\t", by decide⟩ author]
  ended := false

example : shop.text =
    "from django.contrib import admin as site\nsite2 = site.site\nsite2.register(class)\n" ++
      "  @site2(Book, Author, site=class)\n\tclass Author(site2.ModelAdmin): pass" := by
  decide +kernel

theorem models_text_shop :
    (shop.target?.isSome ∧ Compiler.bounded.rebinding shop.scope.chars) ∧
      Compiler.bounded.registration shop.name.chars ∧
      modelsWith .bounded shop.text = ["Book", "Author", "class"] := by
  have hscope : Compiler.bounded.rebinding shop.scope.chars = true := by decide
  have hname : Compiler.bounded.registration shop.name.chars = true := by decide
  have hmodels := (models_text shop .bounded fun _ => hscope).1 hname
  exact ⟨⟨rfl, hscope⟩, hname, hmodels.trans (by decide)⟩

/-- A name of `count + 1` letters. -/
def letters (count : Nat) : Word where
  text := String.ofList (List.replicate (count + 1) 'a')
  nonempty h := by simpa [List.replicate_succ] using congrArg String.toList h
  isWord c hc := by
    rw [String.toList_ofList] at hc
    rw [List.eq_of_mem_replicate hc]
    decide

theorem registration_letters {count : Nat}
    (h : Compiler.programBound < Compiler.programFrame + 32 * (count + 1)) :
    Compiler.bounded.registration (letters count).chars = false := by
  have hprogram : Compiler.nameProgram (letters count).chars = 32 * (count + 1) := by
    rw [Compiler.nameProgram, Word.chars, letters, String.toList_ofList, List.map_replicate,
      ← List.sum_eq_foldr, List.sum_replicate_nat, show 'a'.utf8Size = 1 from rfl, Nat.mul_one]
  rw [Compiler.bounded]
  dsimp only
  rw [Compiler.isShort, hprogram]
  exact decide_eq_false (Nat.not_le.2 h)

/-- A module that imports the admin module under a name of 400000 letters. -/
def sprawl : Written where
  given? := some (letters 399999)
  target? := none
  registrations := [.call ⟨"", by decide⟩ .register ⟨"Book", by decide, by decide⟩ none]
  ended := true

/-- The patterns of registrations cannot be compiled for the name, and no model is found. -/
theorem models_sprawl : sprawl.registeredModels = ["Book"] ∧ models sprawl.text = [] := by
  have hlong : Compiler.bounded.registration sprawl.name.chars = false :=
    registration_letters (by decide)
  refine ⟨by decide, ?_⟩
  rw [models, sprawl.modelsWith_text nofun, hlong]
  rfl

end Written

end SiteSurvey.Admin
