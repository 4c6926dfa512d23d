import SiteSurvey.Proofs.Config.Reader

/-!
# Objects that describe configurations

The text of an object describes a configuration if each of the four fields has the value that the
object gives it, or its default where the object gives it none (`Describes`). Members stand in any
order, and those with other names hold any values. An object is read as the configuration that it
describes and as no other; one that gives a field twice or a depth that is not the decimal digits of
a number of 64 bits describes none and is refused (`read_as_described`).
-/

namespace SiteSurvey.Config

open Json

/-! ## Descriptions -/

/-- The texts of the values that the members with a name have. -/
def valuesOf (name : String) (members : List (String × List Char)) : List (List Char) :=
  members.filterMap fun member => if member.1 = name then some member.2 else none

/-- What a field is worth that has a default and is given at most once. -/
inductive Given {α : Type} (IsText : List Char → α → Prop) (default : α) :
    List (List Char) → α → Prop where
  | absent : Given IsText default [] default
  | once {text : List Char} {value : α} (h : IsText text value) :
    Given IsText default [text] value

/-- The members of an object give the configuration. -/
structure Describes (members : List (String × List Char)) (config : Config) : Prop where
  ignores : Given IsStrings [] (valuesOf "ignores" members) config.ignores
  projectDepth : Given IsNatural 3 (valuesOf "projectDepth" members) config.projectDepth
  appDepth : Given IsNatural 2 (valuesOf "appDepth" members) config.appDepth
  paths : Given IsStrings ["."] (valuesOf "paths" members) config.paths

/--
The text is that of an object with these members, but for white space. The names are strings, and
each has the text of any value.
-/
def IsObject (text : String) (members : List (String × List Char)) : Prop :=
  (∀ member ∈ members, IsValue member.2) ∧
    ∃ gap object gap', IsSpaces gap ∧ IsSpaces gap' ∧
      IsBracketed IsMember '{' '}' members object ∧ text.toList = gap ++ (object ++ gap')

/-! ## Fields -/

theorem Field.name_of_ofName? {name : String} {field : Field}
    (h : Field.ofName? name = some field) : name = field.name := by
  have hname := List.find?_some h
  exact (beq_iff_eq.1 hname).symm

theorem Field.ne_name_of_ofName? {name : String} (h : Field.ofName? name = none) (field : Field) :
    name ≠ field.name := by
  rintro rfl
  cases field <;> exact absurd h (by decide)

theorem valuesOf_cons (name other : String) (value : List Char)
    (members : List (String × List Char)) :
    valuesOf name ((other, value) :: members) =
      if other = name then value :: valuesOf name members else valuesOf name members := by
  by_cases h : other = name <;> simp [valuesOf, h]

/-! ## Drafts that are completed -/

variable {α : Type} {IsText : List Char → α → Prop}

/-- What a field that may have been given before becomes when the values are given. -/
inductive Fills (IsText : List Char → α → Prop) :
    Option α → List (List Char) → Option α → Prop where
  | kept {prior : Option α} : Fills IsText prior [] prior
  | once {text : List Char} {value : α} (h : IsText text value) :
    Fills IsText none [text] (some value)

theorem fills_nil_iff {prior later : Option α} : Fills IsText prior [] later ↔ later = prior := by
  constructor
  · rintro ⟨⟩
    rfl
  · rintro rfl
    exact .kept

theorem fills_cons_iff {prior later : Option α} {text : List Char} {values : List (List Char)} :
    Fills IsText prior (text :: values) later ↔
      prior = none ∧ ∃ value, IsText text value ∧ Fills IsText (some value) values later := by
  constructor
  · rintro ⟨⟩
    exact ⟨rfl, _, ‹_›, .kept⟩
  · rintro ⟨rfl, value, h, hlater⟩
    cases hlater
    exact .once h

theorem given_iff {default value : α} {values : List (List Char)} :
    Given IsText default values value ↔
      ∃ later, Fills IsText none values later ∧ later.getD default = value := by
  constructor
  · rintro (_ | h)
    exacts [⟨none, .kept, rfl⟩, ⟨_, .once h, rfl⟩]
  · rintro ⟨_, _ | h, rfl⟩
    exacts [.absent, .once h]

/-- What a draft becomes when the members are read. -/
@[mk_iff]
structure Completes (draft : Draft) (members : List (String × List Char)) (last : Draft) :
    Prop where
  ignores : Fills IsStrings draft.ignores (valuesOf "ignores" members) last.ignores
  projectDepth : Fills IsNatural draft.projectDepth (valuesOf "projectDepth" members)
    last.projectDepth
  appDepth : Fills IsNatural draft.appDepth (valuesOf "appDepth" members) last.appDepth
  paths : Fills IsStrings draft.paths (valuesOf "paths" members) last.paths

section Completes

variable {draft last : Draft} {key : String} {value : List Char}
  {members : List (String × List Char)}

theorem completes_nil_iff : Completes draft [] last ↔ last = draft := by
  cases draft
  cases last
  simp [completes_iff, valuesOf, fills_nil_iff]

theorem completes_cons_unknown_iff (h : Field.ofName? key = none) :
    Completes draft ((key, value) :: members) last ↔ Completes draft members last := by
  have hignores : key ≠ "ignores" := Field.ne_name_of_ofName? h .ignores
  have hproject : key ≠ "projectDepth" := Field.ne_name_of_ofName? h .projectDepth
  have happ : key ≠ "appDepth" := Field.ne_name_of_ofName? h .appDepth
  have hpaths : key ≠ "paths" := Field.ne_name_of_ofName? h .paths
  simp only [completes_iff, valuesOf_cons, hignores, hproject, happ, hpaths, if_false]

theorem completes_cons_iff {field : Field} (h : Field.ofName? key = some field) :
    Completes draft ((key, value) :: members) last ↔
      draft.has field = false ∧ ∃ later, Sets draft field value later ∧
        Completes later members last := by
  obtain rfl := Field.name_of_ofName? h
  cases field <;>
    simp only [completes_iff, valuesOf_cons, Field.name, fills_cons_iff, Draft.has, sets_iff,
      reduceCtorEq, String.reduceEq, false_and, true_and, if_true, if_false,
      Option.isSome_eq_false_iff, Option.isNone_iff_eq_none] <;>
    grind

theorem Completes.readsMembers (h : Completes draft members last)
    (hvalues : ∀ member ∈ members, IsValue member.2) : ReadsMembers draft members last := by
  induction members generalizing draft with
  | nil =>
    obtain rfl := completes_nil_iff.1 h
    exact .none
  | cons member members ih =>
    obtain ⟨key, value⟩ := member
    have hvalue : IsValue value := hvalues _ List.mem_cons_self
    have hothers : ∀ member ∈ members, IsValue member.2 :=
      fun member h => hvalues member (List.mem_cons_of_mem _ h)
    cases hkey : Field.ofName? key with
    | none => exact .unknown hkey hvalue (ih ((completes_cons_unknown_iff hkey).1 h) hothers)
    | some field =>
      obtain ⟨hnew, later, hsets, hlater⟩ := (completes_cons_iff hkey).1 h
      exact .field hkey hsets hnew (ih hlater hothers)

end Completes

/-! ## Objects that are refused -/

/-- A field that comes again and a value that is refused are both as good as the end of the text. -/
theorem readMembersWith_of_refuses {draft : Draft} {part : List Char} {member : String × List Char}
    (h : IsMember part member)
    (hbad : ((Field.ofName? member.1).filter draft.has).isSome ∨
      Refuses (readMember draft member.1) member.2)
    {rest : List Char} (hrest : EndsNumber rest) (fuel : Nat) (position : Position) :
    ∃ fault, readMembersWith fuel draft ⟨part ++ rest, position⟩ = .error fault := by
  cases fuel with
  | zero => exact ⟨_, rfl⟩
  | succ fuel =>
    obtain ⟨key, value⟩ := member
    obtain ⟨_, behind, before, hquoted, hbehind, hbefore, rfl⟩ := h
    obtain ⟨body, rfl, hkey⟩ := hquoted.string
    simp only [List.append_assoc, List.cons_append]
    cases hold : (Field.ofName? key).filter draft.has with
    | some field =>
      refine ⟨repeatedFault field ⟨behind ++ ':' :: (before ++ (value ++ rest)),
        (position.past '"').pastAll body⟩, ?_⟩
      simp [readMembersWith, hkey, hold]
    | none =>
      have hrefuse : Refuses (readMember draft key) value :=
        hbad.resolve_left (by simp [hold])
      obtain ⟨fault, hfault⟩ := hrefuse before rest
        ((((position.past '"').pastAll body).pastAll behind).past ':') hbefore hrest
      refine ⟨fault, ?_⟩
      simp [readMembersWith, hkey, hold, Cursor.skipSpace_append_cons (c := ':') hbehind rfl,
        hfault]

/-- A member is refused, or it completes the draft with whatever completes it then. -/
theorem completes_or_refuses (draft : Draft) {member : String × List Char}
    (hvalue : IsValue member.2) (members : List (String × List Char)) :
    (((Field.ofName? member.1).filter draft.has).isSome ∨
        Refuses (readMember draft member.1) member.2) ∨
      (Field.ofName? member.1).filter draft.has = none ∧
        ∃ later, Reads (readMember draft member.1) member.2 later ∧ ∀ last,
          Completes later members last → Completes draft (member :: members) last := by
  obtain ⟨key, value⟩ := member
  cases hkey : Field.ofName? key with
  | none =>
    refine .inr ⟨rfl, draft, reads_readMember_unknown draft hkey hvalue, fun last h => ?_⟩
    exact (completes_cons_unknown_iff hkey).2 h
  | some field =>
    cases hhas : draft.has field with
    | true => exact .inl (.inl (by simp [hhas]))
    | false =>
      rcases judges_readField draft field hvalue with ⟨later, hsets, -⟩ | hrefuse
      · refine .inr ⟨by simp [hhas], later, reads_readMember hkey hsets, fun last h => ?_⟩
        exact (completes_cons_iff hkey).2 ⟨hhas, later, hsets, h⟩
      · refine .inl (.inr fun gap rest position hgap hrest => ?_)
        rw [readMember, hkey]
        exact hrefuse gap rest position hgap hrest

theorem readMembersWith_judged (draft : Draft) {members : List (String × List Char)}
    {text : List Char} (h : Laid IsMember '}' members text)
    (hvalues : ∀ member ∈ members, IsValue member.2) :
    (∃ last, Completes draft members last) ∨ ∀ fuel rest position, ∃ fault,
      readMembersWith fuel draft ⟨text ++ rest, position⟩ = .error fault := by
  -- Along the members, as each value changes the draft that the next one is read into.
  induction h generalizing draft with
  | @last member part gap hmember hgap =>
    rcases completes_or_refuses draft (hvalues member List.mem_cons_self) [] with
      hbad | ⟨-, later, -, hcompletes⟩
    · refine .inr fun fuel rest position => ?_
      rw [List.append_assoc, List.append_assoc, List.singleton_append]
      exact readMembersWith_of_refuses hmember hbad (endsNumber_append_cons hgap (by decide) rest)
        _ _
    · exact .inl ⟨later, hcompletes later (completes_nil_iff.2 rfl)⟩
  | @more member members part gap gap' text hmember hgap hgap' htext ih =>
    rcases completes_or_refuses draft (hvalues member List.mem_cons_self) members with
      hbad | ⟨hnew, later, hread, hcompletes⟩
    · refine .inr fun fuel rest position => ?_
      rw [List.append_assoc, List.append_assoc, List.cons_append, List.append_assoc]
      exact readMembersWith_of_refuses hmember hbad (endsNumber_append_cons hgap (by decide) _) _ _
    · rcases ih later fun member h => hvalues member (List.mem_cons_of_mem _ h) with
        ⟨last, hlast⟩ | hlater
      · exact .inl ⟨last, hcompletes last hlast⟩
      · refine .inr fun fuel rest position => ?_
        obtain ⟨body, rfl⟩ := htext.exists_cons fun _ _ h => h.exists_cons
        simp only [List.append_assoc, List.cons_append] at hlater ⊢
        cases fuel with
        | zero => exact ⟨_, rfl⟩
        | succ fuel =>
          rw [readMembersWith_more hmember hnew hread hgap hgap']
          exact hlater fuel rest _

/-- An object that does not complete the empty draft is refused. -/
theorem read_judged {text : String} {members : List (String × List Char)}
    (h : IsObject text members) :
    (∃ last, Completes {} members last) ∨ ∃ fault, read text = .error fault := by
  obtain ⟨hvalues, gap, object, gap', hgap, -, hobject, htext⟩ := h
  cases hobject with
  | empty => exact .inl ⟨{}, completes_nil_iff.2 rfl⟩
  | @items _ inner object hinner hlaid =>
    refine (readMembersWith_judged {} hlaid hvalues).imp_right fun hrefuse => ?_
    obtain ⟨body, rfl⟩ := hlaid.exists_cons fun _ _ h => h.exists_cons
    simp only [List.append_assoc, List.cons_append] at hrefuse htext
    obtain ⟨fault, hfault⟩ := hrefuse (body.length + gap'.length + 1) gap'
      (((Position.pastAll {} gap).past '{').pastAll inner)
    rw [read, readDraft, Cursor.ofText, htext, Cursor.skipSpace_append_cons hgap rfl]
    exact ⟨fault, by simp [readObject, Cursor.skipSpace_append_cons (c := '"') hinner rfl, hfault]⟩

/-! ## Objects on one line -/

/-- The text of an object from the texts of its members. -/
def objectText (parts : List String) : String :=
  "\x7b" ++ joinWith "," parts ++ "\x7d"

theorem isMember_text {name key value : String} (h : IsQuoted key.toList name) :
    IsMember (key ++ ":" ++ value).toList (name, value.toList) :=
  ⟨key.toList, [], [], h, isSpaces_nil, isSpaces_nil, by simp⟩

theorem isObject_objectText {parts : List String} {members : List (String × List Char)}
    (hvalues : ∀ member ∈ members, IsValue member.2)
    (h : List.Forall₂ (fun part member => IsMember part.toList member) parts members) :
    IsObject (objectText parts) members :=
  ⟨hvalues, [], (objectText parts).toList, [], isSpaces_nil, isSpaces_nil,
    isBracketed_joinWith rfl rfl h, by simp⟩

theorem isValue_digits {digits : List Char} (h : IsInteger digits) : IsValue digits :=
  .number (isNumber_of_isInteger h)

/-! ## Objects -/

theorem describes_iff {members : List (String × List Char)} {config : Config} :
    Describes members config ↔ ∃ last, Completes {} members last ∧ last.config = config := by
  constructor
  · rintro ⟨hignores, hproject, happ, hpaths⟩
    obtain ⟨ignores, hignores, hignores'⟩ := given_iff.1 hignores
    obtain ⟨project, hproject, hproject'⟩ := given_iff.1 hproject
    obtain ⟨app, happ, happ'⟩ := given_iff.1 happ
    obtain ⟨paths, hpaths, hpaths'⟩ := given_iff.1 hpaths
    refine ⟨⟨ignores, project, app, paths⟩, ⟨hignores, hproject, happ, hpaths⟩, ?_⟩
    cases config
    simp_all [Draft.config]
  · rintro ⟨last, ⟨hignores, hproject, happ, hpaths⟩, rfl⟩
    exact ⟨given_iff.2 ⟨_, hignores, rfl⟩, given_iff.2 ⟨_, hproject, rfl⟩,
      given_iff.2 ⟨_, happ, rfl⟩, given_iff.2 ⟨_, hpaths, rfl⟩⟩

theorem read_eq_ok_iff {text : String} {members : List (String × List Char)}
    (h : IsObject text members) {config : Config} :
    read text = .ok config ↔ Describes members config := by
  have hread {last : Draft} (hlast : Completes {} members last) : read text = .ok last.config := by
    obtain ⟨hvalues, gap, object, gap', hgap, hgap', hobject, htext⟩ := h
    rw [← String.ofList_toList (s := text), htext]
    exact read_of_isBracketed hobject (hlast.readsMembers hvalues) hgap hgap'
  rw [describes_iff]
  constructor
  · intro hok
    rcases read_judged h with ⟨last, hlast⟩ | ⟨fault, hfault⟩
    · rw [hread hlast] at hok
      exact ⟨last, hlast, Except.ok.inj hok⟩
    · rw [hfault] at hok
      cases hok
  · rintro ⟨last, hlast, rfl⟩
    exact hread hlast

/-- What describes no configuration is refused. -/
theorem exists_error_of_not_describes {text : String} {members : List (String × List Char)}
    (h : IsObject text members) (hnot : ∀ config, ¬ Describes members config) :
    ∃ fault, read text = .error fault := by
  cases hread : read text with
  | error fault => exact ⟨fault, rfl⟩
  | ok config => exact absurd ((read_eq_ok_iff h).1 hread) (hnot config)

theorem Given.length_le_one {default value : α} {values : List (List Char)}
    (h : Given IsText default values value) : values.length ≤ 1 := by
  cases h <;> simp

theorem Given.isText_of_mem {default value : α} {values : List (List Char)}
    (h : Given IsText default values value) {text : List Char} (htext : text ∈ values) :
    IsText text value := by
  cases h with
  | absent => cases htext
  | once h => exact List.mem_singleton.1 htext ▸ h

theorem Describes.length_le_one {members : List (String × List Char)} {config : Config}
    (h : Describes members config) (field : Field) :
    (valuesOf field.name members).length ≤ 1 := by
  cases field with
  | ignores => exact h.ignores.length_le_one
  | projectDepth => exact h.projectDepth.length_le_one
  | appDepth => exact h.appDepth.length_le_one
  | paths => exact h.paths.length_le_one

/-- A number with a sign, a fraction, an exponent or too great a value is no natural number. -/
theorem not_isNatural {text : List Char} {numeral : Numeral} (h : IsNumber text numeral)
    (hother : numeral.negative ∨ numeral.fraction.isSome ∨ numeral.exponent.isSome ∨
      wordBound ≤ digitsValue numeral.integer) (n : Nat) : ¬ IsNatural text n := by
  intro hn
  have hnatural := h.natural?_eq_some_iff.2 hn
  simp only [Numeral.natural?, Option.ite_none_right_eq_some, Bool.and_eq_true, Bool.not_eq_true',
    Option.isNone_iff_eq_none, decide_eq_true_eq] at hnatural
  obtain ⟨⟨⟨⟨hnegative, hfraction⟩, hexponent⟩, hlt⟩, -⟩ := hnatural
  rcases hother with h | h | h | h
  · simp [hnegative] at h
  · simp [hfraction] at h
  · simp [hexponent] at h
  · omega

/--
An object is read as the configuration that it describes, whatever the order of its members and
whatever other members it has. A field that comes twice is refused, and so is a depth with a sign, a
fraction or an exponent or beyond 64 bits.
-/
theorem read_as_described {text : String} {members : List (String × List Char)}
    (h : IsObject text members) :
    (∀ config, read text = .ok config ↔ Describes members config) ∧
      (∀ field : Field, 2 ≤ (valuesOf field.name members).length →
        ∃ fault, read text = .error fault) ∧
      ∀ name ∈ ["projectDepth", "appDepth"], ∀ value ∈ valuesOf name members, ∀ numeral,
        IsNumber value numeral →
        numeral.negative ∨ numeral.fraction.isSome ∨ numeral.exponent.isSome ∨
          wordBound ≤ digitsValue numeral.integer →
        ∃ fault, read text = .error fault := by
  refine ⟨fun config => read_eq_ok_iff h, fun field htwice => ?_, ?_⟩
  · refine exists_error_of_not_describes h fun config hdescribes => ?_
    have hone := hdescribes.length_le_one field
    omega
  · intro name hname value hvalue numeral hnumeral hother
    refine exists_error_of_not_describes h fun config hdescribes => ?_
    have hnot := not_isNatural hnumeral hother
    simp only [List.mem_cons, List.not_mem_nil, or_false] at hname
    rcases hname with rfl | rfl
    · exact hnot _ (hdescribes.projectDepth.isText_of_mem hvalue)
    · exact hnot _ (hdescribes.appDepth.isText_of_mem hvalue)

/-- A note that holds a field deeper inside, a field with an escaped name and the greatest depth. -/
def signalText : String :=
  "\x7b\"note\":[\x7b\"paths\":null\x7d],\"\\u0070aths\":[],\"appDepth\":18446744073709551615\x7d"

def signalMembers : List (String × List Char) :=
  [("note", "[\x7b\"paths\":null\x7d]".toList), ("paths", "[]".toList),
    ("appDepth", "18446744073709551615".toList)]

theorem isObject_signal : IsObject signalText signalMembers := by
  have hinner : IsBracketed (IsMemberOf Eq) '{' '}' [((quoted "paths").toList, "null".toList)]
      ("\x7b" ++ joinWith "," ["\"paths\":null"] ++ "\x7d").toList :=
    isBracketed_joinWith rfl rfl
      (.cons ⟨_, [], [], rfl, isSpaces_nil, isSpaces_nil, by decide +kernel⟩ .nil)
  have hobject : IsValue ("\x7b" ++ joinWith "," ["\"paths\":null"] ++ "\x7d").toList :=
    .object hinner (List.forall_mem_singleton.2 (isQuoted_quoted "paths").isString)
      (List.forall_mem_singleton.2 (.word (by decide)))
  have hnote : IsBracketed Eq '[' ']' ["\x7b\"paths\":null\x7d".toList]
      ("[" ++ joinWith "," ["\x7b\"paths\":null\x7d"] ++ "]").toList :=
    isBracketed_joinWith rfl rfl (.cons rfl .nil)
  have hvalue : IsValue "[\x7b\"paths\":null\x7d]".toList :=
    .array hnote (List.forall_mem_singleton.2 hobject)
  have hempty : IsBracketed Eq '[' ']' [] "[]".toList := .empty isSpaces_nil
  have hpaths : IsQuoted "\"\\u0070aths\"".toList "paths" :=
    ⟨"\\u0070aths".toList, .unit 0x70 :: "aths".toList.map .char, by decide +kernel,
      .unit rfl (.plain (by decide) (by decide) (by decide) (.plain (by decide) (by decide)
        (by decide) (.plain (by decide) (by decide) (by decide) (.plain (by decide) (by decide)
        (by decide) .nil)))), by decide +kernel⟩
  have htext : signalText = objectText [quoted "note" ++ ":" ++ "[\x7b\"paths\":null\x7d]",
      "\"\\u0070aths\"" ++ ":" ++ "[]", quoted "appDepth" ++ ":" ++ "18446744073709551615"] := by
    decide +kernel
  rw [htext]
  refine isObject_objectText ?_ (.cons (isMember_text (isQuoted_quoted "note"))
    (.cons (isMember_text hpaths) (.cons (isMember_text (isQuoted_quoted "appDepth")) .nil)))
  simp only [signalMembers, List.forall_mem_cons]
  exact ⟨hvalue, .array hempty (List.forall_mem_nil _),
    isValue_digits ⟨⟨by decide, by decide⟩, by decide⟩, List.forall_mem_nil _⟩

theorem read_as_described_signal :
    (IsObject signalText signalMembers ∧
      read signalText = .ok ⟨[], 3, 18446744073709551615, []⟩) ∧
    (∃ fault, read "\x7b\"paths\":[],\"paths\":[]\x7d" = .error fault) ∧
    ∃ fault, read "\x7b\"appDepth\":18446744073709551616\x7d" = .error fault := by
  have hempty : IsBracketed IsQuoted '[' ']' [] "[]".toList := .empty isSpaces_nil
  have hpaths : IsMember (quoted "paths" ++ ":" ++ "[]").toList ("paths", "[]".toList) :=
    isMember_text (isQuoted_quoted "paths")
  have hlist : IsValue "[]".toList := .array (.empty isSpaces_nil) (List.forall_mem_nil _)
  have hdigits : IsInteger "18446744073709551616".toList := ⟨⟨by decide, by decide⟩, by decide⟩
  have htwice : "\x7b\"paths\":[],\"paths\":[]\x7d" =
      objectText [quoted "paths" ++ ":" ++ "[]", quoted "paths" ++ ":" ++ "[]"] := by
    decide +kernel
  have hbeyond : "\x7b\"appDepth\":18446744073709551616\x7d" =
      objectText [quoted "appDepth" ++ ":" ++ "18446744073709551616"] := by
    decide +kernel
  refine ⟨⟨isObject_signal, ((read_as_described isObject_signal).1 _).2 ?_⟩, ?_, ?_⟩
  · exact ⟨.absent, .absent, .once ⟨by decide, by decide +kernel⟩, .once hempty⟩
  · rw [htwice]
    have hobject := isObject_objectText (List.forall_mem_cons.2 ⟨hlist,
      List.forall_mem_singleton.2 hlist⟩) (.cons hpaths (.cons hpaths .nil))
    exact (read_as_described hobject).2.1 .paths (by decide)
  · rw [hbeyond]
    have hobject : IsObject (objectText [quoted "appDepth" ++ ":" ++ "18446744073709551616"])
        [("appDepth", "18446744073709551616".toList)] :=
      isObject_objectText (List.forall_mem_singleton.2 (isValue_digits hdigits))
        (.cons (isMember_text (isQuoted_quoted "appDepth")) .nil)
    exact (read_as_described hobject).2.2 "appDepth" (by decide) _ (by decide) _
      (isNumber_of_isInteger hdigits) (.inr (.inr (.inr (by decide +kernel))))

end SiteSurvey.Config
