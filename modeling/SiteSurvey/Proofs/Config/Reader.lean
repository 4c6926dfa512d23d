import Mathlib.Tactic.MkIffOfInductiveProp
import SiteSurvey.Config.Reader
import SiteSurvey.Proofs.Json.Skip

/-!
# Reading configurations that are laid out

An array of strings is read as these strings however it is laid out (`reads_readStrings`), and no
other value is read as strings (`judges_readStrings`); numbers likewise (`judges_readNatural`). An
object is read member by member: where each value in turn is read into what the members before it
gave (`ReadsMembers`), the object is read as what the last of them gives (`read_of_isBracketed`).
-/

namespace SiteSurvey.Config

open Json

/-! ## Values -/

/-- The text of an array of strings. -/
def IsStrings (text : List Char) (items : List String) : Prop :=
  IsBracketed IsQuoted '[' ']' items text

/-- The decimal digits of a natural number of 64 bits. -/
def IsNatural (text : List Char) (n : Nat) : Prop :=
  n < wordBound ∧ text = Nat.toDigits 10 n

theorem reads_readString {text : List Char} {s : String} (h : IsQuoted text s) :
    Reads readString text s := by
  obtain ⟨body, rfl, hbody⟩ := h.string
  intro gap rest position hgap _
  rw [readString, List.cons_append, Cursor.skipSpace_append_cons hgap rfl]
  simp [hbody]

/-- A string before a comma leaves the strings behind it to be read. -/
theorem readItemsWith_more {item : String} {part gap gap' : List Char} (hitem : IsQuoted part item)
    (hgap : IsSpaces gap) (hgap' : IsSpaces gap') {c : Char} (hspace : Cursor.isSpace c = false)
    (hclose : c ≠ ']') (fuel : Nat) (body : List Char) (position : Position) :
    readItemsWith (fuel + 1) ⟨part ++ (gap ++ ',' :: (gap' ++ c :: body)), position⟩ =
      (readItemsWith fuel ⟨c :: body, position.pastAll (part ++ (gap ++ ',' :: gap'))⟩).map
        fun found => (item :: found.1, found.2) := by
  have hread := (reads_readString hitem).at_text
    (endsNumber_append_cons (c := ',') hgap (by decide) (gap' ++ c :: body)) position
  rw [readItemsWith, hread]
  simp [Cursor.skipSpace_append_cons (c := ',') hgap rfl, hclose,
    Cursor.skipSpace_append_cons hgap' hspace]

theorem readItemsWith_laid {items : List String} {text : List Char}
    (h : Laid IsQuoted ']' items text) {fuel : Nat} (hfuel : items.length ≤ fuel)
    (rest : List Char) (position : Position) :
    readItemsWith fuel ⟨text ++ rest, position⟩ = .ok (items, ⟨rest, position.pastAll text⟩) := by
  induction h generalizing fuel position with
  | @last item part gap hitem hgap =>
    obtain ⟨fuel, rfl⟩ := Nat.exists_eq_succ_of_ne_zero (Nat.ne_of_gt hfuel)
    have hread := (reads_readString hitem).at_text
      (endsNumber_append_cons (c := ']') hgap (by decide) rest) position
    rw [List.append_assoc, List.append_assoc, List.singleton_append, readItemsWith, hread]
    simp [Cursor.skipSpace_append_cons (c := ']') hgap rfl]
  | @more item items part gap gap' text hitem hgap hgap' htext ih =>
    obtain ⟨fuel, rfl⟩ := Nat.exists_eq_succ_of_ne_zero (Nat.ne_zero_of_lt hfuel)
    have hlater := ih (Nat.le_of_succ_le_succ hfuel)
    obtain ⟨body, rfl⟩ := htext.exists_cons fun _ _ h => h.isString.exists_cons
    simp only [List.append_assoc, List.cons_append] at hlater ⊢
    rw [readItemsWith_more hitem hgap hgap' rfl (by decide), hlater]
    simp [Except.map]

theorem reads_readStrings {items : List String} {text : List Char} (h : IsStrings text items) :
    Reads readStrings text items := by
  intro gap rest position hgap _
  cases h with
  | @empty inner hinner =>
    rw [List.cons_append, List.append_assoc, readStrings, Cursor.skipSpace_append_cons hgap rfl]
    simp [Cursor.skipSpace_append_cons (c := ']') hinner rfl]
  | @items _ inner text hinner htext =>
    have hitems := readItemsWith_laid htext (htext.length_le rest) rest
      (((position.pastAll gap).past '[').pastAll inner)
    obtain ⟨body, rfl⟩ := htext.exists_cons fun _ _ h => h.isString.exists_cons
    rw [List.cons_append, List.append_assoc, readStrings, Cursor.skipSpace_append_cons hgap rfl]
    rw [List.cons_append] at hitems ⊢
    simpa [Cursor.skipSpace_append_cons (c := '"') hinner rfl] using hitems

theorem reads_readNatural {n : Nat} {text : List Char} (h : IsNatural text n) :
    Reads readNatural text n := by
  obtain ⟨h, rfl⟩ := h
  intro gap rest position hgap hrest
  have hnatural := Cursor.natural?_toDigits h
  have hnumber := Cursor.number_toDigits h hrest (position.pastAll gap)
  obtain ⟨c, digits, hdigits⟩ :=
    List.exists_cons_of_ne_nil (Nat.toDigits_ne_nil (n := n) (b := 10))
  have hdigit : c.isDigit := isDigit_of_mem_toDigits (hdigits ▸ List.mem_cons_self)
  rw [hdigits, List.cons_append] at hnumber ⊢
  rw [hdigits] at hnatural
  rw [readNatural, Cursor.skipSpace_append_cons hgap (isSpace_of_isDigit hdigit)]
  simp [hdigit, hnumber, hnatural]

/-! ## Values of any kind -/

theorem judges_readString {text : List Char} (h : IsValue text) :
    Judges readString text (IsQuoted text) := by
  obtain ⟨c, body, rfl, hspace, -, hstring, -⟩ := h.start
  by_cases hquote : c = '"'
  · rcases (hstring hquote).isQuoted_or with ⟨s, hs⟩ | ⟨inner, htext, hfault⟩
    · exact .inl ⟨s, hs, reads_readString hs⟩
    · cases htext
      refine .inr fun gap rest position hgap _ => ?_
      rw [readString, List.cons_append, Cursor.skipSpace_append_cons hgap rfl]
      simpa using hfault rest _
  · refine .inr fun gap rest position hgap _ => ?_
    rw [readString, List.cons_append, Cursor.skipSpace_append_cons hgap hspace]
    exact ⟨_, if_neg (by simpa using hquote)⟩

/-- A refused item is as good as the end of the list. -/
theorem readItemsWith_of_refuses {part : List Char} (h : Refuses readString part)
    {rest : List Char} (hrest : EndsNumber rest) (fuel : Nat) (position : Position) :
    ∃ fault, readItemsWith fuel ⟨part ++ rest, position⟩ = .error fault := by
  cases fuel with
  | zero => exact ⟨_, rfl⟩
  | succ fuel =>
    obtain ⟨fault, hfault⟩ := h.at_text hrest position
    exact ⟨fault, by rw [readItemsWith, hfault]⟩

theorem readItemsWith_judged {parts : List (List Char)} {text : List Char}
    (h : Laid Eq ']' parts text) (hparts : ∀ part ∈ parts, IsValue part) :
    (∃ items, Laid IsQuoted ']' items text) ∨ ∀ fuel rest position, ∃ fault,
      readItemsWith fuel ⟨text ++ rest, position⟩ = .error fault := by
  induction h with
  | @last item part gap hitem hgap =>
    subst hitem
    rcases judges_readString (hparts part List.mem_cons_self) with ⟨s, hs, -⟩ | hrefuse
    · exact .inl ⟨[s], .last hs hgap⟩
    · refine .inr fun fuel rest position => ?_
      rw [List.append_assoc, List.append_assoc, List.singleton_append]
      exact readItemsWith_of_refuses hrefuse (endsNumber_append_cons hgap (by decide) rest) _ _
  | @more item parts part gap gap' text hitem hgap hgap' htext ih =>
    subst hitem
    have hlaterParts : ∀ part ∈ parts, IsValue part :=
      fun part h => hparts part (List.mem_cons_of_mem _ h)
    have hend (rest : List Char) : EndsNumber (gap ++ ',' :: (gap' ++ (text ++ rest))) :=
      endsNumber_append_cons hgap (by decide) _
    rcases judges_readString (hparts part List.mem_cons_self) with ⟨s, hs, -⟩ | hrefuse
    · rcases ih hlaterParts with ⟨items, hitems⟩ | hlater
      · exact .inl ⟨s :: items, .more hs hgap hgap' hitems⟩
      · refine .inr fun fuel rest position => ?_
        obtain ⟨c, body, rfl, hspace, hclose⟩ := htext.start_of_isValue hlaterParts
        simp only [List.append_assoc, List.cons_append] at hlater ⊢
        cases fuel with
        | zero => exact ⟨_, rfl⟩
        | succ fuel =>
          rw [readItemsWith_more hs hgap hgap' hspace hclose]
          obtain ⟨fault, hfault⟩ := hlater fuel rest
            (position.pastAll (part ++ (gap ++ ',' :: gap')))
          exact ⟨fault, by rw [hfault]; rfl⟩
    · refine .inr fun fuel rest position => ?_
      rw [List.append_assoc, List.append_assoc, List.cons_append, List.append_assoc]
      exact readItemsWith_of_refuses hrefuse (hend rest) _ _

theorem judges_readStrings {text : List Char} (h : IsValue text) :
    Judges readStrings text (IsStrings text) := by
  obtain ⟨c, body, rfl, hspace, -, -, -, harray⟩ := h.start
  by_cases hopen : c = '['
  · obtain ⟨parts, hparts, hvalues⟩ := harray hopen
    cases hparts with
    | empty hgap => exact .inl ⟨[], .empty hgap, reads_readStrings (.empty hgap)⟩
    | @items _ inner text hinner htext =>
      rcases readItemsWith_judged htext hvalues with ⟨items, hitems⟩ | hrefuse
      · exact .inl ⟨items, .items hinner hitems, reads_readStrings (.items hinner hitems)⟩
      · refine .inr fun gap rest position hgap _ => ?_
        obtain ⟨c, body, rfl, hspace, hclose⟩ := htext.start_of_isValue hvalues
        rw [List.cons_append, List.append_assoc, readStrings,
          Cursor.skipSpace_append_cons hgap rfl]
        simp only [List.cons_append] at hrefuse ⊢
        simpa [Cursor.skipSpace_append_cons hinner hspace, hclose] using hrefuse _ rest _
  · refine .inr fun gap rest position hgap _ => ?_
    rw [readStrings, List.cons_append, Cursor.skipSpace_append_cons hgap hspace]
    exact ⟨_, if_neg (by simpa using hopen)⟩

theorem judges_readNatural {text : List Char} (h : IsValue text) :
    Judges readNatural text (IsNatural text) := by
  obtain ⟨c, body, rfl, hspace, -, -, hnumber, -⟩ := h.start
  by_cases hc : c = '-' ∨ c.isDigit
  · obtain ⟨numeral, hnumeral⟩ := hnumber hc
    cases hnatural : numeral.natural? with
    | some n =>
      have hn : IsNatural (c :: body) n := hnumeral.natural?_eq_some_iff.1 hnatural
      exact .inl ⟨n, hn, reads_readNatural hn⟩
    | none =>
      refine .inr fun gap rest position hgap hrest => ?_
      have hread := Cursor.number_of_isNumber hnumeral hrest (position.pastAll gap)
      rw [List.cons_append] at hread
      rw [readNatural, List.cons_append, Cursor.skipSpace_append_cons hgap hspace]
      have hfirst : (some c).any (fun c => c == '-' || c.isDigit) = true := by simpa using hc
      simp only [List.head?_cons, hfirst, if_true, hread, hnatural, Option.isNone_none,
        Bool.true_and]
      by_cases hlarge : numeral.isTooLarge = true
      · exact ⟨_, by rw [if_pos hlarge]⟩
      · rw [if_neg hlarge]
        dsimp only
        rw [hnatural]
        dsimp only
        split_ifs <;> exact ⟨_, rfl⟩
  · refine .inr fun gap rest position hgap _ => ?_
    rw [readNatural, List.cons_append, Cursor.skipSpace_append_cons hgap hspace]
    exact ⟨_, if_neg (by simpa using hc)⟩

/-! ## Members -/

/-- What a draft becomes when a field is read from the text of its value. -/
@[mk_iff]
inductive Sets (draft : Draft) : Field → List Char → Draft → Prop where
  | ignores {items : List String} {text : List Char} (h : IsStrings text items) :
    Sets draft .ignores text { draft with ignores := some items }
  | projectDepth {n : Nat} {text : List Char} (h : IsNatural text n) :
    Sets draft .projectDepth text { draft with projectDepth := some n }
  | appDepth {n : Nat} {text : List Char} (h : IsNatural text n) :
    Sets draft .appDepth text { draft with appDepth := some n }
  | paths {items : List String} {text : List Char} (h : IsStrings text items) :
    Sets draft .paths text { draft with paths := some items }

theorem reads_readField {draft later : Draft} {field : Field} {text : List Char}
    (h : Sets draft field text later) : Reads (readField draft field) text later := by
  cases h with
  | ignores h => exact (reads_readStrings h).map fun v => { draft with ignores := some v }
  | projectDepth h => exact (reads_readNatural h).map fun v => { draft with projectDepth := some v }
  | appDepth h => exact (reads_readNatural h).map fun v => { draft with appDepth := some v }
  | paths h => exact (reads_readStrings h).map fun v => { draft with paths := some v }

theorem judges_readField (draft : Draft) (field : Field) {text : List Char} (h : IsValue text) :
    Judges (readField draft field) text (Sets draft field text) := by
  cases field with
  | ignores =>
    exact (judges_readStrings h).map (fun v => { draft with ignores := some v })
      fun _ => Sets.ignores
  | projectDepth =>
    exact (judges_readNatural h).map (fun v => { draft with projectDepth := some v })
      fun _ => Sets.projectDepth
  | appDepth =>
    exact (judges_readNatural h).map (fun v => { draft with appDepth := some v })
      fun _ => Sets.appDepth
  | paths =>
    exact (judges_readStrings h).map (fun v => { draft with paths := some v }) fun _ => Sets.paths

theorem reads_readMember {draft later : Draft} {key : String} {field : Field}
    (hkey : Field.ofName? key = some field) {text : List Char} (h : Sets draft field text later) :
    Reads (readMember draft key) text later := by
  intro gap rest position hgap hrest
  rw [readMember, hkey]
  exact reads_readField h gap rest position hgap hrest

/-- A value under another name is passed over, whatever it is. -/
theorem reads_readMember_unknown (draft : Draft) {key : String} (hkey : Field.ofName? key = none)
    {text : List Char} (h : IsValue text) : Reads (readMember draft key) text draft := by
  intro gap rest position hgap hrest
  rw [readMember, hkey]
  dsimp only
  rw [Cursor.skipValue_of_isValue h hgap hrest]
  rfl

/-- The values are read from their texts, each into what those before it gave. -/
inductive ReadsMembers : Draft → List (String × List Char) → Draft → Prop where
  | none {draft : Draft} : ReadsMembers draft [] draft
  | more {draft later last : Draft} {key : String} {value : List Char}
    {members : List (String × List Char)} (hnew : (Field.ofName? key).filter draft.has = none)
    (hvalue : Reads (readMember draft key) value later)
    (hmembers : ReadsMembers later members last) : ReadsMembers draft ((key, value) :: members) last

theorem ReadsMembers.field {draft later last : Draft} {key : String} {field : Field}
    {value : List Char} {members : List (String × List Char)}
    (hkey : Field.ofName? key = some field) (hvalue : Sets draft field value later)
    (hnew : draft.has field = false) (hmembers : ReadsMembers later members last) :
    ReadsMembers draft ((key, value) :: members) last :=
  .more (by simp [hkey, hnew]) (reads_readMember hkey hvalue) hmembers

theorem ReadsMembers.unknown {draft last : Draft} {key : String} {value : List Char}
    {members : List (String × List Char)} (hkey : Field.ofName? key = Option.none)
    (hvalue : IsValue value)
    (hmembers : ReadsMembers draft members last) :
    ReadsMembers draft ((key, value) :: members) last :=
  .more (by simp [hkey]) (reads_readMember_unknown draft hkey hvalue) hmembers

/-- A new member before a comma leaves the members behind it to be read. -/
theorem readMembersWith_more {draft later : Draft} {member : String × List Char}
    {part gap gap' : List Char} (h : IsMember part member)
    (hnew : (Field.ofName? member.1).filter draft.has = none)
    (hvalue : Reads (readMember draft member.1) member.2 later) (hgap : IsSpaces gap)
    (hgap' : IsSpaces gap') (fuel : Nat) (body : List Char) (position : Position) :
    readMembersWith (fuel + 1) draft ⟨part ++ (gap ++ ',' :: (gap' ++ '"' :: body)), position⟩ =
      readMembersWith fuel later
        ⟨'"' :: body, position.pastAll (part ++ (gap ++ ',' :: gap'))⟩ := by
  obtain ⟨key, behind, before, hquoted, hbehind, hbefore, rfl⟩ := h
  obtain ⟨inner, rfl, hkey⟩ := hquoted.string
  have hread := fun position => hvalue before (gap ++ ',' :: (gap' ++ '"' :: body)) position
    hbefore (endsNumber_append_cons hgap (by decide) _)
  simp [readMembersWith, hkey, hnew, Cursor.skipSpace_append_cons (c := ':') hbehind rfl, hread,
    Cursor.skipSpace_append_cons (c := ',') hgap rfl,
    Cursor.skipSpace_append_cons (c := '"') hgap' rfl]

theorem readMembersWith_laid {draft last : Draft} {members : List (String × List Char)}
    {text : List Char} (h : Laid IsMember '}' members text)
    (hmembers : ReadsMembers draft members last) {fuel : Nat} (hfuel : members.length ≤ fuel)
    (rest : List Char) (position : Position) :
    readMembersWith fuel draft ⟨text ++ rest, position⟩ =
      .ok (last, ⟨rest, position.pastAll text⟩) := by
  induction h generalizing draft fuel position with
  | @last member part gap hitem hgap =>
    obtain ⟨fuel, rfl⟩ := Nat.exists_eq_succ_of_ne_zero (Nat.ne_zero_of_lt hfuel)
    obtain ⟨key, behind, before, hquoted, hbehind, hbefore, rfl⟩ := hitem
    obtain ⟨body, rfl, hkey⟩ := hquoted.string
    cases hmembers with
    | more hnew hvalue hmembers =>
      cases hmembers
      have hread := fun position => hvalue before (gap ++ '}' :: rest) position hbefore
        (endsNumber_append_cons hgap (by decide) rest)
      simp [readMembersWith, hkey, hnew, Cursor.skipSpace_append_cons (c := ':') hbehind rfl, hread,
        Cursor.skipSpace_append_cons (c := '}') hgap rfl]
  | @more member members part gap gap' text hitem hgap hgap' htext ih =>
    obtain ⟨fuel, rfl⟩ := Nat.exists_eq_succ_of_ne_zero (Nat.ne_zero_of_lt hfuel)
    cases hmembers with
    | more hnew hvalue hmembers =>
      have hlater := ih hmembers (Nat.le_of_succ_le_succ hfuel)
      obtain ⟨body, rfl⟩ := htext.exists_cons fun _ _ h => h.exists_cons
      simp only [List.append_assoc, List.cons_append] at hlater ⊢
      rw [readMembersWith_more hitem hnew hvalue hgap hgap', hlater]
      simp

/-! ## Objects -/

theorem readObject_of_isBracketed {members : List (String × List Char)} {text : List Char}
    (h : IsBracketed IsMember '{' '}' members ('{' :: text)) {last : Draft}
    (hmembers : ReadsMembers {} members last) (rest : List Char) (position : Position) :
    readObject ⟨text ++ rest, position⟩ = .ok (last, ⟨rest, position.pastAll text⟩) := by
  cases h with
  | @empty gap hgap =>
    cases hmembers
    rw [List.append_assoc, List.singleton_append, readObject,
      Cursor.skipSpace_append_cons hgap rfl]
    simp
  | @items _ gap text hgap htext =>
    have hread :=
      readMembersWith_laid htext hmembers (htext.length_le rest) rest (position.pastAll gap)
    obtain ⟨body, rfl⟩ := htext.exists_cons fun _ _ h => h.exists_cons
    rw [List.append_assoc, readObject, List.cons_append, Cursor.skipSpace_append_cons hgap rfl]
    rw [List.cons_append] at hread
    simpa using hread

/-- An object alone in a text, but for white space, is read as what its members give. -/
theorem read_of_isBracketed {members : List (String × List Char)} {text : List Char}
    (h : IsBracketed IsMember '{' '}' members text) {last : Draft}
    (hmembers : ReadsMembers {} members last) {gap gap' : List Char} (hgap : IsSpaces gap)
    (hgap' : IsSpaces gap') : read (String.ofList (gap ++ (text ++ gap'))) = .ok last.config := by
  obtain ⟨text, rfl⟩ : ∃ body, text = '{' :: body := by cases h <;> exact ⟨_, rfl⟩
  have hobject := readObject_of_isBracketed h hmembers gap'
  have hstop : ∀ c ∈ [].head?, Cursor.isSpace c = false := nofun
  have hend := Cursor.skipSpace_append hgap' hstop
  rw [List.append_nil] at hend
  rw [read, readDraft, Cursor.ofText, String.toList_ofList, List.cons_append]
  simp [Cursor.skipSpace_append_cons (c := '{') hgap rfl, hobject, hend]

end SiteSurvey.Config
