import SiteSurvey.Proofs.Route.Written
import SiteSurvey.Route.File

/-!
# Written route files

A route file as an author writes it: an optional app name and a list of routes, each on a line that
may end in a comment. The reader gives back the namespace and the routes in order
(`Written.routes_read_text`).
-/

namespace SiteSurvey.Route

open Source

/-- A route file; it is `ended` if its last line has a newline. -/
structure Written where
  app : Option (Written.Name × Option Comment)
  opening : Option Comment
  entries : List (Written.Entry × Option Comment)
  closing : Option Comment
  ended : Bool

namespace Written

/-! ## Lines -/

/-- The line that declares an app name. -/
def Name.content (app : Name) : List Char :=
  "app_name = '".toList ++ app.text.toList ++ "'".toList

theorem Name.not_mem_content (app : Name) {c : Char} (hc : c ∈ marks) (h : c ∉ ['\x27', '=']) :
    c ∉ app.content := by
  have hfixed : ∀ c ∈ marks, c ∉ ['\x27', '='] → c ∉ "app_name = '".toList ∧ c ∉ "'".toList := by
    decide
  have happ : c ∉ app.text.toList := app.plain c hc
  obtain ⟨h₁, h₂⟩ := hfixed c hc h
  unfold Name.content
  rw [List.mem_append, List.mem_append, not_or, not_or]
  exact ⟨⟨h₁, happ⟩, h₂⟩

def appLine (app : Name × Option Comment) : Line where
  content := app.1.content
  plain c hc :=
    have hmarks : ∀ c ∈ ['#', '"', '\n'], c ∈ marks ∧ c ∉ ['\x27', '='] := by decide
    app.1.not_mem_content (hmarks c hc).1 (hmarks c hc).2
  comment := app.2

def entryLine (entry : Entry × Option Comment) : Line where
  content := entry.1.content
  plain c hc :=
    have hmarks : ∀ c ∈ ['#', '"', '\n'], c ∈ marks ∧ c ∉ ['<', '>', '\x27', '(', ')', '='] := by
      decide
    entry.1.not_mem_content (hmarks c hc).1 (hmarks c hc).2
  comment := entry.2

variable (file : Written)

def lines : List Line :=
  file.app.toList.map appLine ++
    ⟨"urlpatterns = [".toList, by decide, file.opening⟩ ::
      (file.entries.map entryLine ++ [⟨"]".toList, by decide, file.closing⟩])

def text : String :=
  String.ofList (Line.joined file.ended file.lines)

/-- The namespace of the file if its path is written `source`. -/
def space (source : String) : Namespace :=
  match file.app with
  | some app => .app app.1.text
  | none => .file source

/-! ## The text without comments -/

theorem contents_lines : file.lines.map Line.content =
    file.app.toList.map (·.1.content) ++
      "urlpatterns = [".toList ::
        ((file.entries.map Prod.fst).map Entry.content ++ ["]".toList]) := by
  rw [lines, List.map_append, List.map_cons, List.map_append, List.map_map, List.map_map,
    List.map_map]
  rfl

/-- What the reader sees of a file, in parts: gaps stand for comments and newlines. -/
structure Seen (file : Written) where
  head : List Char
  gap : List Char
  body : List Char
  last : List Char
  head_spaced : Spaced (file.app.toList.map (·.1.content)) head
  gap_isGap : IsGap gap
  body_spaced : Spaced ((file.entries.map Prod.fst).map Entry.content) body
  last_isGap : IsGap last

/-- The square group that lists the routes. -/
def Seen.list {file : Written} (seen : file.Seen) : List Char :=
  '[' :: (seen.gap ++ seen.body ++ [']'])

def Seen.text {file : Written} (seen : file.Seen) : List Char :=
  seen.head ++ "urlpatterns = ".toList ++ (seen.list ++ seen.last)

theorem exists_seen : ∃ seen : file.Seen, uncommentedJoined file.text.toList = seen.text := by
  have h := Line.spaced_uncommentedJoined file.ended file.lines
  rw [contents_lines] at h
  obtain ⟨head, listing, htext, hhead, h⟩ := h.append_elim
  obtain ⟨gap, rest, rfl, hgap, h⟩ := h.cons_elim
  obtain ⟨body, closing, rfl, hbody, h⟩ := h.append_elim
  obtain ⟨last, rest, rfl, hlast, h⟩ := h.cons_elim
  cases h
  refine ⟨⟨head, gap, body, last, hhead, hgap, hbody, hlast⟩, ?_⟩
  have hopen : "urlpatterns = [".toList = "urlpatterns = ".toList ++ ['['] := by decide
  have hclose : "]".toList = [']'] := by decide
  rw [text, String.toList_ofList, htext, Seen.text, Seen.list, hopen, hclose]
  simp only [List.append_assoc, List.cons_append, List.nil_append, List.append_nil]

/-! ## The tuples -/

/-- What is left of the lines of entries has one round group for each entry. -/
theorem hasGroups_entries {entries : List Entry} {body rest : List Char}
    (h : Spaced (entries.map Entry.content) body) (hrest : Bracket.round.HasGroups rest []) :
    Bracket.round.HasGroups (body ++ rest) (entries.map Entry.tuple) := by
  induction entries generalizing body with
  | nil =>
    cases h
    exact hrest
  | cons entry entries ih =>
    obtain ⟨gap, later, rfl, hgap, hlater⟩ := h.cons_elim
    have hgroups := entry.hasGroups_content ((ih hlater).append_free (hgap.free _))
    rw [List.append_assoc, List.append_assoc]
    exact hgroups

namespace Seen

variable {file} (seen : file.Seen)

theorem not_mem_head {c : Char} (hc : c ∈ marks) (h : c ∉ ['\x27', '=', '\n']) :
    c ∉ seen.head := by
  have hmarks : ∀ c ∈ marks, c ∉ ['\x27', '=', '\n'] → c ∉ [' ', '\n'] ∧ c ∉ ['\x27', '='] := by
    decide
  obtain ⟨h₁, h₂⟩ := hmarks c hc h
  refine seen.head_spaced.not_mem h₁ fun content hcontent => ?_
  obtain ⟨app, -, rfl⟩ := List.mem_map.1 hcontent
  exact app.1.not_mem_content hc h₂

theorem not_mem_body {c : Char} (hc : c ∈ marks)
    (h : c ∉ ['<', '>', '\x27', '(', ')', '=', '\n']) : c ∉ seen.body := by
  have hmarks : ∀ c ∈ marks, c ∉ ['<', '>', '\x27', '(', ')', '=', '\n'] →
      c ∉ [' ', '\n'] ∧ c ∉ ['<', '>', '\x27', '(', ')', '='] := by decide
  obtain ⟨h₁, h₂⟩ := hmarks c hc h
  refine seen.body_spaced.not_mem h₁ fun content hcontent => ?_
  obtain ⟨entry, -, rfl⟩ := List.mem_map.1 hcontent
  exact entry.not_mem_content hc h₂

theorem groups_text : Bracket.square.groups seen.text = .ok [seen.list] := by
  have hhead : Bracket.square.Free seen.head :=
    ⟨seen.not_mem_head (by decide) (by decide), seen.not_mem_head (by decide) (by decide)⟩
  have hfront : Bracket.square.Free (seen.head ++ "urlpatterns = ".toList) :=
    hhead.append ⟨by decide, by decide⟩
  have hbody : Bracket.square.Free seen.body :=
    ⟨seen.not_mem_body (by decide) (by decide), seen.not_mem_body (by decide) (by decide)⟩
  have hinner : Bracket.square.Free (seen.gap ++ seen.body) := (seen.gap_isGap.free _).append hbody
  have hend : Bracket.square.HasGroups (seen.last ++ []) [] :=
    .append_free (seen.last_isGap.free _) .nil
  rw [List.append_nil] at hend
  have htext : seen.list ++ seen.last = Bracket.square.opener ::
      (seen.gap ++ seen.body ++ Bracket.square.closer :: seen.last) := by
    unfold list
    simp only [List.append_assoc, List.cons_append, List.nil_append]
    rfl
  rw [text, htext]
  exact (hend.append_group hinner).append_free hfront |>.groups_eq

theorem groups_list :
    Bracket.round.groups seen.list = .ok ((file.entries.map Prod.fst).map Entry.tuple) := by
  have hopen : Bracket.round.Free ['['] := ⟨by decide, by decide⟩
  have hclose : Bracket.round.Free [']'] := ⟨by decide, by decide⟩
  have hend : Bracket.round.HasGroups ([']'] ++ []) [] := .append_free hclose .nil
  have hbody := hasGroups_entries seen.body_spaced hend
  have h := hbody.append_free (hopen.append (seen.gap_isGap.free _))
  rw [list, List.append_assoc]
  exact h.groups_eq

theorem tuplesOf_text :
    File.tuplesOf seen.text = .ok ((file.entries.map Prod.fst).map Entry.tuple) := by
  rw [File.tuplesOf, seen.groups_text]
  dsimp only
  rw [File.tuplesOfLists, seen.groups_list]
  dsimp only
  rw [File.tuplesOfLists, Except.map, List.append_nil]

end Seen

/-! ## The app name -/

theorem isName_appName : IsName "app_name".toList :=
  ⟨by decide, "app_nam".toList, 'e', by decide, by decide⟩

/-- The name of an entry is no app name: a blank stands before it. -/
theorem Entry.not_endsInName_appName (entry : Entry) (before : List Char) (inWord : Bool) :
    ¬ EndsInName "app_name".toList inWord (before ++ (entry.front ++ "name".toList)) := by
  have hlast : IsName " name".toList := ⟨by decide, " nam".toList, 'e', by decide, by decide⟩
  have hblank : [' '] ++ "name".toList = " name".toList := by decide
  obtain ⟨more, hmore⟩ := entry.front_eq
  have h := isName_appName.not_endsInName_append hlast (by decide) (by decide) (before ++ more)
    (List.forall_mem_nil _) inWord
  rwa [hmore, List.append_assoc more, hblank, ← List.append_assoc, ← List.append_nil (_ ++ _)]

theorem assignedValuesFrom_entries {entries : List Entry} {front body rest : List Char}
    (hfront : '=' ∉ front) (h : Spaced (entries.map Entry.content) body) (hrest : '=' ∉ rest)
    (inWord : Bool) :
    assignedValuesFrom "app_name".toList inWord (front ++ (body ++ rest)) = [] := by
  induction entries generalizing front body inWord with
  | nil =>
    cases h
    refine assignedValuesFrom_of_not_mem ?_ _ _
    simp [hfront, hrest]
  | cons entry entries ih =>
    obtain ⟨gap, later, rfl, hgap, hlater⟩ := h.cons_elim
    have hgap' : '=' ∉ gap := hgap.not_mem (by decide)
    have hentry : '=' ∉ entry.front := entry.not_mem_front (by decide) (by decide)
    have hback : '=' ∉ entry.back := entry.not_mem_back (by decide) (by decide)
    have hchunk : '=' ∉ front ++ "    path(".toList ++ (entry.front ++ "name".toList) := by
      simp [hfront, hentry]
    have hnext : '=' ∉ entry.back ++ "),".toList ++ gap := by
      simp [hback, hgap']
    have htext : front ++ (entry.content ++ (gap ++ later) ++ rest) =
        front ++ "    path(".toList ++ (entry.front ++ "name".toList) ++ '=' ::
          (entry.back ++ "),".toList ++ gap ++ (later ++ rest)) := by
      have hopen : "    path(".toList = "    path".toList ++ ['('] := by decide
      have hclose : "),".toList = [')', ','] := by decide
      rw [Entry.content_eq, Entry.tuple, hopen, hclose]
      simp only [List.append_assoc, List.cons_append, List.nil_append]
    rw [htext, assignedValuesFrom_append_equals isName_appName hchunk,
      if_neg (entry.not_endsInName_appName _ _), List.nil_append]
    exact ih hnext hlater _

namespace Seen

variable {file} (seen : file.Seen)

theorem appName?_of_none (h : file.app = none) : File.appName? seen.text = none := by
  have hhead : seen.head = [] := by
    have hspaced := seen.head_spaced
    rw [h] at hspaced
    exact hspaced.nil_elim
  have hpatterns : IsName "s".toList := ⟨by decide, [], 's', by decide, by decide⟩
  have hends : ¬ EndsInName "app_name".toList false ("urlpattern".toList ++ "s".toList ++ [' ']) :=
    isName_appName.not_endsInName_append hpatterns (by decide) (by decide) _ (by decide) _
  have hfront : '=' ∉ " [".toList ++ seen.gap := by
    have hgap : '=' ∉ seen.gap := seen.gap_isGap.not_mem (by decide)
    simp [hgap]
  have hlast : '=' ∉ "]".toList ++ seen.last := by
    have hlast' : '=' ∉ seen.last := seen.last_isGap.not_mem (by decide)
    simp [hlast']
  have htext : seen.text = "urlpattern".toList ++ "s".toList ++ [' '] ++ '=' ::
      (" [".toList ++ seen.gap ++ (seen.body ++ ("]".toList ++ seen.last))) := by
    have hname : "urlpatterns = ".toList =
        "urlpattern".toList ++ "s".toList ++ [' '] ++ ['=', ' '] := by decide
    have hopen : " [".toList = [' ', '['] := by decide
    have hclose : "]".toList = [']'] := by decide
    rw [text, hhead, list, hname, hopen, hclose]
    simp only [List.append_assoc, List.cons_append, List.nil_append]
  rw [File.appName?, assignedValues, htext,
    assignedValuesFrom_append_equals isName_appName (by decide), if_neg hends, List.nil_append,
    assignedValuesFrom_entries hfront seen.body_spaced hlast]
  rfl

theorem appName?_of_some {app : Name × Option Comment} (h : file.app = some app) :
    File.appName? seen.text = some app.1.text.toList := by
  obtain ⟨gap, hhead⟩ : ∃ gap, seen.head = app.1.content ++ gap := by
    have hspaced := seen.head_spaced
    rw [h] at hspaced
    obtain ⟨gap, rest, hhead, -, -⟩ := hspaced.cons_elim
    exact ⟨gap ++ rest, hhead⟩
  have hends : EndsInName "app_name".toList false "app_name ".toList :=
    ⟨[], [' '], by decide, by decide, rfl⟩
  have hquote : isQuote '\x27' := by decide
  have hblank : ∀ c ∈ [' '], Text.isBlank c := by decide
  have htext : seen.text = "app_name ".toList ++ '=' :: ([' '] ++ '\x27' ::
      (app.1.text.toList ++ '\x27' ::
        (gap ++ "urlpatterns = ".toList ++ (seen.list ++ seen.last)))) := by
    have hname : "app_name = '".toList = "app_name ".toList ++ ['=', ' ', '\x27'] := by decide
    have hend : "'".toList = ['\x27'] := by decide
    unfold text
    rw [hhead]
    unfold Name.content
    rw [hname, hend]
    simp only [List.append_assoc, List.cons_append, List.nil_append]
  have hnonempty : app.1.text.toList.isEmpty = false := by
    simpa using app.1.nonempty
  rw [File.appName?, assignedValues, htext,
    assignedValuesFrom_append_equals isName_appName (by decide), if_pos hends,
    assignedValue?_equals hblank hquote hquote app.1.not_isQuote, Option.toList_some,
    List.singleton_append, List.head?_cons, Option.filter_some, hnonempty]
  rfl

theorem spaceOf_text (source : String) : File.spaceOf seen.text source = file.space source := by
  unfold File.spaceOf space
  rcases h : file.app with _ | app
  · rw [seen.appName?_of_none h]
  · rw [seen.appName?_of_some h]
    dsimp only
    rw [String.ofList_toList]

end Seen

/-! ## The whole file -/

theorem read_text (source : String) :
    File.read file.text source =
      ⟨file.space source, (file.entries.map Prod.fst).map (String.ofList ·.tuple), none⟩ := by
  obtain ⟨seen, htext⟩ := file.exists_seen
  have htuples := seen.tuplesOf_text
  unfold File.read
  rw [htext]
  dsimp only
  rw [htuples, seen.spaceOf_text]
  simp

theorem entries_ofRawTables_read_text (source : String) :
    (Table.ofRawTables [(File.read file.text source).raw]).entries =
      [(file.space source, file.entries.map (·.1.route (file.space source)))] := by
  have hentries (space : Namespace) (tuples : List String) :
      (Table.ofRawTables [File.raw ⟨space, tuples, none⟩]).entries =
        [(space, tuples.filterMap fun tuple => ofTuple? space tuple.toList)] := rfl
  rw [read_text, hentries]
  simp [List.filterMap_map, Function.comp_def, Entry.ofTuple?_tuple]

/--
The reader undoes the writing of a file: it finds no fault, and the table of the file has one entry,
the namespace with the routes of all entries in order.
-/
theorem routes_read_text (source : String) :
    (File.read file.text source).fault = none ∧
      (Table.ofRawTables [(File.read file.text source).raw]).entries =
        [(file.space source, file.entries.map (·.1.route (file.space source)))] := by
  refine ⟨?_, file.entries_ofRawTables_read_text source⟩
  rw [read_text]

/-- A file with one route, whose comments hold a quote and a bracket. -/
def sample : Written where
  app := some (⟨⟨"core", by decide⟩, by decide⟩, none)
  opening := some ⟨"all [", by decide, noTriple_of_not_mem (by decide)⟩
  entries :=
    let path : List Segment :=
      [.literal ⟨"p/", by decide⟩, .typed ⟨"int", by decide⟩ ⟨"pk", by decide⟩ (by decide)]
    let entry : Entry := ⟨path, ⟨"views.show", by decide⟩, ⟨⟨"show", by decide⟩, by decide⟩⟩
    [(entry, some ⟨"isn't old", by decide, noTriple_of_not_mem (by decide)⟩)]
  closing := none
  ended := true

example : sample.text =
    "app_name = 'core'\nurlpatterns = [ # all [\n" ++
      "    path('p/<int:pk>', views.show, name='show'), # isn't old\n]\n" := by decide

example : (Table.ofRawTables [(File.read sample.text "core/urls.py").raw]).entries =
    [(.app "core", [⟨"show", true, [⟨"pk", some .integer⟩], "core:show"⟩])] := by decide +kernel

end Written

end SiteSurvey.Route
