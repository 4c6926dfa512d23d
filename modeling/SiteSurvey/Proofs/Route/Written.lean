import SiteSurvey.Proofs.Route.Argument
import SiteSurvey.Proofs.Source.Bracket
import SiteSurvey.Proofs.Source.Lines
import SiteSurvey.Proofs.Source.Literal
import SiteSurvey.Route.Table

/-!
# Written routes

A route as an author writes it, on a line `path('<path>', <view>, name='<name>'),`, and what the
reader finds in such a line: one round group (`Entry.hasGroups_content`), one name
(`Entry.routeName?_tuple`) and the placeholders of the path (`Entry.placeholders_tuple`).
-/

namespace SiteSurvey.Route.Written

open Source

/-! ## Pieces of text -/

/-- The characters that mean something to the reader of a route file. -/
def marks : List Char :=
  ['\x27', '"', '(', ')', '[', ']', '<', '>', '#', '=', '\n']

structure PlainText where
  text : String
  plain : ∀ c ∈ marks, c ∉ text.toList

theorem PlainText.not_isQuote (text : PlainText) : ∀ c ∈ text.text.toList, ¬ isQuote c := by
  intro c hc hq
  rcases (isQuote_iff c).1 hq with rfl | rfl
  · exact text.plain _ (by decide) hc
  · exact text.plain _ (by decide) hc

structure Name extends PlainText where
  nonempty : text ≠ ""

/-- A piece of a path: text, a placeholder `<name>` or a placeholder `<converter:name>`. -/
inductive Segment where
  | literal (text : PlainText)
  | untyped (name : Name) (no_colon : ':' ∉ name.text.toList)
  | typed (converter name : PlainText) (no_colon : ':' ∉ converter.text.toList)

namespace Segment

def chars : Segment → List Char
  | literal text => text.text.toList
  | untyped name _ => '<' :: (name.text.toList ++ ['>'])
  | typed converter name _ => '<' :: (converter.text.toList ++ ':' :: name.text.toList ++ ['>'])

/-- The argument that a placeholder stands for. -/
def argument? : Segment → Option Argument
  | literal _ => none
  | untyped name _ => some ⟨name.text, none⟩
  | typed converter name _ => some ⟨name.text, Converter.ofTag? converter.text⟩

end Segment

/-! ## Entries -/

structure Entry where
  path : List Segment
  view : PlainText
  name : Name

namespace Entry

def pathChars (entry : Entry) : List Char :=
  entry.path.flatMap Segment.chars

/-- The line of an entry, without a comment. -/
def content (entry : Entry) : List Char :=
  "    path('".toList ++ entry.pathChars ++ "', ".toList ++ entry.view.text.toList ++
    ", name='".toList ++ entry.name.text.toList ++ "'),".toList

def arguments (entry : Entry) : List Argument :=
  entry.path.filterMap Segment.argument?

/-- The route that an entry stands for. -/
def route (entry : Entry) (space : Namespace) : Route where
  name := entry.name.text
  hasArgs := entry.path.any (·.argument?.isSome)
  args := entry.arguments
  qualifiedName := space.qualify entry.name.text

/-- What stands between the opening bracket of an entry and the name of its name. -/
def front (entry : Entry) : List Char :=
  '\x27' :: (entry.pathChars ++ "', ".toList ++ entry.view.text.toList ++ ", ".toList)

/-- What stands behind the equals sign of an entry and before its closing bracket. -/
def back (entry : Entry) : List Char :=
  '\x27' :: (entry.name.text.toList ++ ['\x27'])

/-- The text of an entry's route tuple. -/
def tuple (entry : Entry) : List Char :=
  '(' :: (entry.front ++ "name".toList ++ '=' :: entry.back ++ [')'])

theorem front_eq (entry : Entry) : ∃ before, entry.front = before ++ [' '] := by
  refine ⟨'\x27' :: (entry.pathChars ++ "', ".toList ++ entry.view.text.toList ++ [',']), ?_⟩
  have hblank : ", ".toList = [','] ++ [' '] := by decide
  rw [front, hblank, ← List.append_assoc, List.cons_append]

theorem content_eq (entry : Entry) :
    entry.content = "    path".toList ++ (entry.tuple ++ [',']) := by
  have hpath : "    path('".toList = "    path".toList ++ ['(', '\x27'] := by decide
  have hname : ", name='".toList = ", ".toList ++ ("name".toList ++ ['=', '\x27']) := by decide
  have hend : "'),".toList = ['\x27', ')', ','] := by decide
  unfold content tuple front back
  rw [hpath, hname, hend]
  simp only [List.append_assoc, List.cons_append, List.nil_append]

end Entry

/-! ## Marks in the pieces -/

theorem Segment.not_mem_chars (segment : Segment) {c : Char} (hc : c ∈ marks)
    (h : c ∉ ['<', '>']) : c ∉ segment.chars := by
  have hcolon : c ≠ ':' := by
    rintro rfl
    exact absurd hc (by decide)
  simp only [List.mem_cons, List.not_mem_nil, or_false, not_or] at h
  cases segment with
  | literal text => exact text.plain c hc
  | untyped name _ => simp [chars, h, name.plain c hc]
  | typed converter name _ => simp [chars, h, hcolon, converter.plain c hc, name.plain c hc]

theorem Entry.not_mem_pathChars (entry : Entry) {c : Char} (hc : c ∈ marks)
    (h : c ∉ ['<', '>']) : c ∉ entry.pathChars := by
  intro hmem
  obtain ⟨segment, -, hs⟩ := List.mem_flatMap.1 hmem
  exact segment.not_mem_chars hc h hs

theorem Entry.not_mem_front (entry : Entry) {c : Char} (hc : c ∈ marks)
    (h : c ∉ ['<', '>', '\x27']) : c ∉ entry.front := by
  have hfixed : ∀ c ∈ marks, c ∉ ['<', '>', '\x27'] → c ≠ '\x27' ∧ c ≠ ',' ∧ c ≠ ' ' := by decide
  have hpath : c ∉ entry.pathChars :=
    entry.not_mem_pathChars hc fun hmem => h (List.mem_append_left ['\x27'] hmem)
  simp [front, hfixed c hc h, hpath, entry.view.plain c hc]

theorem Entry.not_mem_back (entry : Entry) {c : Char} (hc : c ∈ marks) (h : c ≠ '\x27') :
    c ∉ entry.back := by
  simp [back, h, entry.name.plain c hc]

theorem Entry.not_mem_content (entry : Entry) {c : Char} (hc : c ∈ marks)
    (h : c ∉ ['<', '>', '\x27', '(', ')', '=']) : c ∉ entry.content := by
  have hfixed : ∀ c ∈ marks, c ∉ ['<', '>', '\x27', '(', ')', '='] →
      c ∉ ['<', '>', '\x27'] ∧ c ≠ '\x27' ∧ c ∉ "    path".toList ∧ c ≠ '(' ∧
        c ∉ "name".toList ∧ c ≠ '=' ∧ c ≠ ')' ∧ c ≠ ',' := by decide
  obtain ⟨h₁, h₂, hpath, hopen, hname, hequals, hclose, hcomma⟩ := hfixed c hc h
  have hfront := entry.not_mem_front hc h₁
  have hback := entry.not_mem_back hc h₂
  rw [content_eq, tuple]
  simp only [List.mem_append, List.mem_cons, not_or]
  exact ⟨hpath, ⟨hopen, ⟨⟨hfront, hname⟩, hequals, hback⟩, hclose, List.not_mem_nil⟩, hcomma,
    List.not_mem_nil⟩

/-! ## Reading an entry -/

theorem Entry.free_tuple (entry : Entry) :
    Bracket.round.Free (entry.front ++ "name".toList ++ '=' :: entry.back) := by
  have hfront : '(' ∉ entry.front := entry.not_mem_front (by decide) (by decide)
  have hfront' : ')' ∉ entry.front := entry.not_mem_front (by decide) (by decide)
  have hback : '(' ∉ entry.back := entry.not_mem_back (by decide) (by decide)
  have hback' : ')' ∉ entry.back := entry.not_mem_back (by decide) (by decide)
  exact ⟨by simp [Bracket.opener, hfront, hback], by simp [Bracket.closer, hfront', hback']⟩

theorem Entry.hasGroups_content (entry : Entry) {rest : List Char} {groups : List (List Char)}
    (h : Bracket.round.HasGroups rest groups) :
    Bracket.round.HasGroups (entry.content ++ rest) (entry.tuple :: groups) := by
  have hpath : Bracket.round.Free "    path".toList := ⟨by decide, by decide⟩
  have hcomma : Bracket.round.HasGroups ([','] ++ rest) groups :=
    .append_free ⟨by decide, by decide⟩ h
  have htext : entry.content ++ rest = "    path".toList ++ Bracket.round.opener ::
      (entry.front ++ "name".toList ++ '=' :: entry.back ++
        Bracket.round.closer :: ([','] ++ rest)) := by
    rw [content_eq, tuple]
    simp only [List.append_assoc, List.cons_append, List.nil_append]
    rfl
  rw [htext]
  exact .append_free hpath (hcomma.append_group entry.free_tuple)

/-! ## The name of a tuple -/

theorem isName_name : IsName "name".toList :=
  ⟨by decide, "nam".toList, 'e', by decide, by decide⟩

theorem Entry.assignedValues_tuple (entry : Entry) :
    assignedValues "name".toList entry.tuple = [entry.name.text.toList] := by
  have hchunk : '=' ∉ '(' :: (entry.front ++ "name".toList) := by
    have hfront : '=' ∉ entry.front := entry.not_mem_front (by decide) (by decide)
    simp [hfront]
  have hback : '=' ∉ entry.back ++ [')'] := by
    have h : '=' ∉ entry.back := entry.not_mem_back (by decide) (by decide)
    simp [h]
  have hends : EndsInName "name".toList false ('(' :: (entry.front ++ "name".toList)) := by
    refine ⟨'(' :: entry.front, [], by simp, by simp, ?_⟩
    have hlast : ('(' :: entry.front).getLast? = some ' ' := by
      obtain ⟨before, hbefore⟩ := entry.front_eq
      rw [hbefore, ← List.cons_append, List.getLast?_concat]
    rw [hlast]
    decide
  have hvalue : assignedValue? ('=' :: (entry.back ++ [')'])) = some entry.name.text.toList := by
    have hquote : isQuote '\x27' := by decide
    have h :=
      assignedValue?_equals (List.forall_mem_nil _) hquote hquote entry.name.not_isQuote [')']
    rw [back, List.cons_append, List.append_assoc]
    exact h
  have htuple : entry.tuple =
      '(' :: (entry.front ++ "name".toList) ++ '=' :: (entry.back ++ [')']) := by
    simp only [tuple, List.append_assoc, List.cons_append]
  rw [assignedValues, htuple, assignedValuesFrom_append_equals isName_name hchunk, if_pos hends,
    hvalue, assignedValuesFrom_of_not_mem hback]
  rfl

theorem Entry.routeName?_tuple (entry : Entry) :
    routeName? entry.tuple = some entry.name.text.toList := by
  have h : entry.name.text.toList.isEmpty = false := by
    simpa using entry.name.nonempty
  rw [routeName?, assignedValues_tuple]
  simp [h]

/-! ## The placeholders of a tuple -/

theorem Segment.placeholders_chars (segment : Segment) (rest : List Char) :
    (placeholders (segment.chars ++ rest)).map Argument.ofToken =
      segment.argument?.toList ++ (placeholders rest).map Argument.ofToken := by
  cases segment with
  | literal text =>
    rw [chars, placeholders_append (text.plain '<' (by decide))]
    rfl
  | untyped name no_colon =>
    have hname : name.text.toList ≠ [] := by simpa using name.nonempty
    have hopen : '<' ∉ name.text.toList := name.plain '<' (by decide)
    have hclose : '>' ∉ name.text.toList := name.plain '>' (by decide)
    have h := placeholders_token hopen hclose hname rest
    rw [chars, List.cons_append, List.append_assoc, List.singleton_append, h, List.map_cons,
      Argument.ofToken_untyped no_colon, String.ofList_toList]
    rfl
  | typed converter name no_colon =>
    have hopen : '<' ∉ converter.text.toList ++ ':' :: name.text.toList := by
      simp [converter.plain '<' (by decide), name.plain '<' (by decide)]
    have hclose : '>' ∉ converter.text.toList ++ ':' :: name.text.toList := by
      simp [converter.plain '>' (by decide), name.plain '>' (by decide)]
    have h := placeholders_token hopen hclose (by simp) rest
    rw [chars, List.cons_append, List.append_assoc, List.singleton_append, h, List.map_cons,
      Argument.ofToken_typed no_colon, String.ofList_toList, String.ofList_toList]
    rfl

theorem Entry.placeholders_pathChars (entry : Entry) (rest : List Char) :
    (placeholders (entry.pathChars ++ rest)).map Argument.ofToken =
      entry.arguments ++ (placeholders rest).map Argument.ofToken := by
  unfold pathChars arguments
  induction entry.path with
  | nil => rfl
  | cons segment path ih =>
    rw [List.flatMap_cons, List.append_assoc, segment.placeholders_chars, ih, List.filterMap_cons]
    cases segment.argument? <;> rfl

theorem Entry.placeholders_tuple (entry : Entry) :
    (placeholders entry.tuple).map Argument.ofToken = entry.arguments := by
  have hrest : '<' ∉ "', ".toList ++ entry.view.text.toList ++ ", name=".toList ++
      entry.back ++ [')'] := by
    have hview : '<' ∉ entry.view.text.toList := entry.view.plain '<' (by decide)
    have hback : '<' ∉ entry.back := entry.not_mem_back (by decide) (by decide)
    simp [hview, hback]
  have htuple : entry.tuple = "('".toList ++ (entry.pathChars ++
      ("', ".toList ++ entry.view.text.toList ++ ", name=".toList ++ entry.back ++ [')'])) := by
    have hopen : "('".toList = ['(', '\x27'] := by decide
    have hname : ", name=".toList = ", ".toList ++ ("name".toList ++ ['=']) := by decide
    unfold tuple front
    rw [hopen, hname]
    simp only [List.append_assoc, List.cons_append, List.nil_append]
  have hnone := placeholders_append hrest []
  rw [List.append_nil] at hnone
  rw [htuple, placeholders_append (by decide), placeholders_pathChars, hnone]
  exact List.append_nil _

/-! ## The route of a tuple -/

/-- The reader gives back the route that an entry stands for. -/
theorem Entry.ofTuple?_tuple (entry : Entry) (space : Namespace) :
    ofTuple? space entry.tuple = some (entry.route space) := by
  have hargs : (!entry.arguments.isEmpty) = entry.path.any (·.argument?.isSome) := by
    rw [arguments]
    induction entry.path with
    | nil => rfl
    | cons segment path ih =>
      rw [List.filterMap_cons, List.any_cons, ← ih]
      cases segment.argument? <;> rfl
  rw [ofTuple?, routeName?_tuple, Option.map_some, placeholders_tuple, String.ofList_toList, route,
    ← hargs]

end SiteSurvey.Route.Written
