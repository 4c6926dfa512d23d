import SiteSurvey.Json.Skip
import SiteSurvey.Proofs.Json.Layout
import SiteSurvey.Proofs.Json.Number

/-!
# Passing over any value

The text of a value is a word, a number, a string, or an array or object of such texts
(`IsValue`). Whatever value it is, and however deep values stand in it, a text is passed over as a
whole (`skipValue_of_isValue`). The first character of a text tells the kind of its value
(`IsValue.start`).
-/

namespace SiteSurvey.Json

/-! ## The grammar of values -/

def words : List (List Char) :=
  ["null".toList, "true".toList, "false".toList]

/-- The text of a value of any kind. -/
inductive IsValue : List Char → Prop where
  | word {text : List Char} (h : text ∈ words) : IsValue text
  | number {text : List Char} {numeral : Numeral} (h : IsNumber text numeral) : IsValue text
  | string {text : List Char} (h : IsString text) : IsValue text
  | array {items : List (List Char)} {text : List Char} (h : IsBracketed Eq '[' ']' items text)
    (hitems : ∀ item ∈ items, IsValue item) : IsValue text
  | object {members : List (List Char × List Char)} {text : List Char}
    (h : IsBracketed (IsMemberOf Eq) '{' '}' members text)
    (hkeys : ∀ member ∈ members, IsString member.1)
    (hvalues : ∀ member ∈ members, IsValue member.2) : IsValue text

theorem start_of_mem_words {text : List Char} (h : text ∈ words) :
    ∃ c body, text = c :: body ∧ (c = 'n' ∨ c = 't' ∨ c = 'f') := by
  simp only [words, List.mem_cons, List.not_mem_nil, or_false] at h
  rcases h with rfl | rfl | rfl
  exacts [⟨'n', _, rfl, .inl rfl⟩, ⟨'t', _, rfl, .inr (.inl rfl)⟩, ⟨'f', _, rfl, .inr (.inr rfl)⟩]

theorem IsNumber.start {text : List Char} {numeral : Numeral} (h : IsNumber text numeral) :
    ∃ c body, text = c :: body ∧ (c = '-' ∨ c.isDigit) := by
  obtain @⟨negative, integer, fraction, exponent, fractionText, exponentText, hinteger, -, -⟩ := h
  cases negative with
  | true => exact ⟨'-', _, rfl, .inl rfl⟩
  | false =>
    obtain ⟨c, others, rfl⟩ := List.exists_cons_of_ne_nil hinteger.isDigits.1
    exact ⟨c, _, rfl, .inr (hinteger.isDigits.2 c List.mem_cons_self)⟩

theorem ne_of_isNumberStart {c : Char} (h : c = '-' ∨ c.isDigit) :
    Cursor.isSpace c = false ∧ c ≠ ']' ∧ c ≠ '"' ∧ c ≠ '[' ∧ c ≠ '{' ∧ c ≠ 'n' ∧ c ≠ 't' ∧
      c ≠ 'f' := by
  rcases h with rfl | h
  · decide
  · refine ⟨isSpace_of_isDigit h, ?_, ?_, ?_, ?_, ?_, ?_, ?_⟩ <;> (rintro rfl; revert h; decide)

/-- The first character of a value's text tells its kind. -/
theorem IsValue.start {text : List Char} (h : IsValue text) :
    ∃ c body, text = c :: body ∧ Cursor.isSpace c = false ∧ c ≠ ']' ∧
      (c = '"' → IsString text) ∧
      (c = '-' ∨ c.isDigit → ∃ numeral, IsNumber text numeral) ∧
      (c = '[' → ∃ items, IsBracketed Eq '[' ']' items text ∧ ∀ item ∈ items, IsValue item) := by
  cases h with
  | word h =>
    obtain ⟨c, body, rfl, hc⟩ := start_of_mem_words h
    refine ⟨c, body, rfl, ?_⟩
    rcases hc with rfl | rfl | rfl <;>
      exact ⟨rfl, by decide, Not.elim (by decide), Not.elim (by decide), Not.elim (by decide)⟩
  | @number _ numeral h =>
    obtain ⟨c, body, rfl, hc⟩ := h.start
    obtain ⟨hspace, hclose, hquote, hopen, -⟩ := ne_of_isNumberStart hc
    exact ⟨c, body, rfl, hspace, hclose, Not.elim hquote, fun _ => ⟨numeral, h⟩, Not.elim hopen⟩
  | string h =>
    obtain ⟨body, rfl⟩ := h.exists_cons
    exact ⟨'"', body, rfl, rfl, by decide, fun _ => h, Not.elim (by decide), Not.elim (by decide)⟩
  | @array items _ h hitems =>
    obtain ⟨body, rfl⟩ := h.exists_cons
    exact ⟨'[', body, rfl, rfl, by decide, Not.elim (by decide), Not.elim (by decide),
      fun _ => ⟨items, h, hitems⟩⟩
  | object h =>
    obtain ⟨body, rfl⟩ := h.exists_cons
    exact ⟨'{', body, rfl, rfl, by decide, Not.elim (by decide), Not.elim (by decide),
      Not.elim (by decide)⟩

theorem Laid.start_of_isValue {items : List (List Char)} {text : List Char}
    (h : Laid Eq ']' items text) (hitems : ∀ item ∈ items, IsValue item) :
    ∃ c body, text = c :: body ∧ Cursor.isSpace c = false ∧ c ≠ ']' := by
  refine h.exists_start (P := fun c => Cursor.isSpace c = false ∧ c ≠ ']') ?_
  rintro _ hitem part rfl
  obtain ⟨c, body, rfl, hspace, hclose, -⟩ := (hitems part hitem).start
  exact ⟨c, body, rfl, hspace, hclose⟩

/-! ## Passing over -/

namespace Cursor

theorem skipWord_append (word rest : List Char) (position : Position) :
    skipWord ⟨word ++ rest, position⟩ word = .ok ⟨rest, position.pastAll word⟩ := by
  induction word generalizing position with
  | nil => rfl
  | cons c word ih => simpa [skipWord] using ih (position.past c)

/--
With fuel for its length, the text is passed over. Each array or object takes one unit and each of
its items another, and both have a character of their own.
-/
def IsSkipped (text : List Char) : Prop :=
  ∀ fuel gap rest position, 2 * text.length ≤ fuel → IsSpaces gap → EndsNumber rest →
    skipValueWith fuel ⟨gap ++ (text ++ rest), position⟩ =
      .ok ⟨rest, (position.pastAll gap).pastAll text⟩

theorem skipItemsWith_laid {items : List (List Char)} {text : List Char}
    (h : Laid Eq ']' items text) (hitems : ∀ item ∈ items, IsSkipped item) {fuel : Nat}
    (hfuel : 2 * text.length ≤ fuel) {gap : List Char} (hgap : IsSpaces gap) (rest : List Char)
    (position : Position) :
    skipItemsWith fuel ⟨gap ++ (text ++ rest), position⟩ =
      .ok ⟨rest, (position.pastAll gap).pastAll text⟩ := by
  induction h generalizing fuel gap position with
  | @last item part behind hitem hbehind =>
    subst hitem
    simp only [List.length_append, List.length_cons] at hfuel
    obtain ⟨fuel, rfl⟩ := Nat.exists_eq_succ_of_ne_zero (show fuel ≠ 0 by omega)
    have hskip := hitems part List.mem_cons_self fuel gap (behind ++ ']' :: rest) position
      (by omega) hgap (endsNumber_append_cons hbehind (by decide) rest)
    rw [List.append_assoc, List.append_assoc, List.singleton_append, skipItemsWith, hskip]
    simp [skipSpace_append_cons (c := ']') hbehind rfl]
  | @more item items part behind before text hitem hbehind hbefore htext ih =>
    subst hitem
    simp only [List.length_append, List.length_cons] at hfuel
    obtain ⟨fuel, rfl⟩ := Nat.exists_eq_succ_of_ne_zero (show fuel ≠ 0 by omega)
    have hskip := hitems part List.mem_cons_self fuel gap
      (behind ++ ',' :: (before ++ (text ++ rest))) position (by omega) hgap
      (endsNumber_append_cons hbehind (by decide) _)
    have hlater (position : Position) :
        skipItemsWith fuel ⟨before ++ (text ++ rest), position⟩ =
          .ok ⟨rest, (position.pastAll before).pastAll text⟩ :=
      ih (fun item h => hitems item (List.mem_cons_of_mem _ h)) (by omega) hbefore position
    rw [List.append_assoc, List.append_assoc, List.cons_append, List.append_assoc, skipItemsWith,
      hskip]
    simp [skipSpace_append_cons (c := ',') hbehind rfl, hlater]

theorem skipMembersWith_laid {members : List (List Char × List Char)} {text : List Char}
    (h : Laid (IsMemberOf Eq) '}' members text) (hkeys : ∀ member ∈ members, IsString member.1)
    (hvalues : ∀ member ∈ members, IsSkipped member.2) {fuel : Nat}
    (hfuel : 2 * text.length ≤ fuel) {gap : List Char} (hgap : IsSpaces gap) (rest : List Char)
    (position : Position) :
    skipMembersWith fuel ⟨gap ++ (text ++ rest), position⟩ =
      .ok ⟨rest, (position.pastAll gap).pastAll text⟩ := by
  induction h generalizing fuel gap position with
  | @last member part behind hmember hbehind =>
    obtain ⟨key, value⟩ := member
    obtain ⟨_, between, before, rfl, hbetween, hbefore, rfl⟩ := hmember
    obtain ⟨body, rfl, hkey⟩ := (hkeys _ List.mem_cons_self).skipString
    simp only [List.length_append, List.length_cons] at hfuel
    obtain ⟨fuel, rfl⟩ := Nat.exists_eq_succ_of_ne_zero (show fuel ≠ 0 by omega)
    have hskip := fun position => hvalues (_, value) List.mem_cons_self fuel before
      (behind ++ '}' :: rest) position (by simp only; omega) hbefore
      (endsNumber_append_cons hbehind (by decide) rest)
    simp only [List.append_assoc, List.cons_append, List.nil_append] at hskip ⊢
    rw [skipMembersWith, skipSpace_append_cons hgap rfl]
    simp [hkey, skipSpace_append_cons (c := ':') hbetween rfl, hskip,
      skipSpace_append_cons (c := '}') hbehind rfl]
  | @more member members part behind next text hmember hbehind hnext htext ih =>
    obtain ⟨key, value⟩ := member
    obtain ⟨_, between, before, rfl, hbetween, hbefore, rfl⟩ := hmember
    obtain ⟨body, rfl, hkey⟩ := (hkeys _ List.mem_cons_self).skipString
    simp only [List.length_append, List.length_cons] at hfuel
    obtain ⟨fuel, rfl⟩ := Nat.exists_eq_succ_of_ne_zero (show fuel ≠ 0 by omega)
    have hskip := fun position => hvalues (_, value) List.mem_cons_self fuel before
      (behind ++ ',' :: (next ++ (text ++ rest))) position (by simp only; omega) hbefore
      (endsNumber_append_cons hbehind (by decide) _)
    have hlater (position : Position) :
        skipMembersWith fuel ⟨next ++ (text ++ rest), position⟩ =
          .ok ⟨rest, (position.pastAll next).pastAll text⟩ :=
      ih (fun member h => hkeys member (List.mem_cons_of_mem _ h))
        (fun member h => hvalues member (List.mem_cons_of_mem _ h)) (by omega) hnext position
    simp only [List.append_assoc, List.cons_append] at hskip ⊢
    rw [skipMembersWith, skipSpace_append_cons hgap rfl]
    simp [hkey, skipSpace_append_cons (c := ':') hbetween rfl, hskip,
      skipSpace_append_cons (c := ',') hbehind rfl, hlater]

theorem exists_lessFuel {c : Char} {body : List Char} {fuel : Nat}
    (h : 2 * (c :: body).length ≤ fuel) : ∃ less, fuel = less + 1 :=
  Nat.exists_eq_succ_of_ne_zero (by rw [List.length_cons] at h; omega)

theorem isSkipped_word {text : List Char} (h : text ∈ words) : IsSkipped text := by
  intro fuel gap rest position hfuel hgap _
  obtain ⟨c, body, rfl, -⟩ := start_of_mem_words h
  obtain ⟨fuel, rfl⟩ := exists_lessFuel hfuel
  have hnull := skipWord_append "ull".toList rest ((position.pastAll gap).past 'n')
  have htrue := skipWord_append "rue".toList rest ((position.pastAll gap).past 't')
  have hfalse := skipWord_append "alse".toList rest ((position.pastAll gap).past 'f')
  simp only [words, List.mem_cons, List.not_mem_nil, or_false] at h
  rcases h with h | h | h <;> cases h <;>
    rw [List.cons_append, skipValueWith, skipSpace_append_cons hgap rfl]
  exacts [hnull, htrue, hfalse]

theorem isSkipped_number {text : List Char} {numeral : Numeral} (h : IsNumber text numeral) :
    IsSkipped text := by
  intro fuel gap rest position hfuel hgap hrest
  have hread := numeral_of_isNumber .invalidNumber h hrest (position.pastAll gap)
  obtain ⟨c, body, rfl, hc⟩ := h.start
  obtain ⟨fuel, rfl⟩ := exists_lessFuel hfuel
  obtain ⟨hspace, -, hquote, hlist, hobject, hnull, htrue, hfalse⟩ := ne_of_isNumberStart hc
  rw [List.cons_append] at hread ⊢
  rw [skipValueWith, skipSpace_append_cons hgap hspace]
  simp [hc, hread, Except.map]

theorem isSkipped_string {text : List Char} (h : IsString text) : IsSkipped text := by
  intro fuel gap rest position hfuel hgap _
  obtain ⟨body, rfl, hbody⟩ := h.skipString
  obtain ⟨fuel, rfl⟩ := exists_lessFuel hfuel
  rw [List.cons_append, skipValueWith, skipSpace_append_cons hgap rfl]
  exact hbody rest _

theorem isSkipped_array {items : List (List Char)} {text : List Char}
    (h : IsBracketed Eq '[' ']' items text) (hvalues : ∀ item ∈ items, IsValue item)
    (hitems : ∀ item ∈ items, IsSkipped item) : IsSkipped text := by
  intro fuel gap rest position hfuel hgap _
  cases h with
  | @empty inner hinner =>
    obtain ⟨fuel, rfl⟩ := exists_lessFuel hfuel
    rw [List.cons_append, List.append_assoc, skipValueWith, skipSpace_append_cons hgap rfl]
    simp [skipSpace_append_cons (c := ']') hinner rfl]
  | @items _ inner text hinner htext =>
    simp only [List.length_append, List.length_cons] at hfuel
    obtain ⟨fuel, rfl⟩ := Nat.exists_eq_succ_of_ne_zero (show fuel ≠ 0 by omega)
    have hread (position : Position) :
        skipItemsWith fuel ⟨[] ++ (text ++ rest), position⟩ =
          .ok ⟨rest, (position.pastAll []).pastAll text⟩ :=
      skipItemsWith_laid htext hitems (by omega) isSpaces_nil rest position
    obtain ⟨c, body, rfl, hspace, hclose⟩ := htext.start_of_isValue hvalues
    rw [List.cons_append, List.append_assoc, skipValueWith, skipSpace_append_cons hgap rfl]
    simp only [List.nil_append, List.cons_append, Position.pastAll_nil] at hread ⊢
    simp [skipSpace_append_cons hinner hspace, hclose, hread]

theorem isSkipped_object {members : List (List Char × List Char)} {text : List Char}
    (h : IsBracketed (IsMemberOf Eq) '{' '}' members text)
    (hkeys : ∀ member ∈ members, IsString member.1)
    (hvalues : ∀ member ∈ members, IsSkipped member.2) : IsSkipped text := by
  intro fuel gap rest position hfuel hgap _
  cases h with
  | @empty inner hinner =>
    obtain ⟨fuel, rfl⟩ := exists_lessFuel hfuel
    rw [List.cons_append, List.append_assoc, skipValueWith, skipSpace_append_cons hgap rfl]
    simp [skipSpace_append_cons (c := '}') hinner rfl]
  | @items _ inner text hinner htext =>
    simp only [List.length_append, List.length_cons] at hfuel
    obtain ⟨fuel, rfl⟩ := Nat.exists_eq_succ_of_ne_zero (show fuel ≠ 0 by omega)
    have hread (position : Position) :
        skipMembersWith fuel ⟨[] ++ (text ++ rest), position⟩ =
          .ok ⟨rest, (position.pastAll []).pastAll text⟩ :=
      skipMembersWith_laid htext hkeys hvalues (by omega) isSpaces_nil rest position
    obtain ⟨c, body, rfl, rfl⟩ := htext.exists_start (P := (· = '"'))
      fun member hmember part hpart =>
        let ⟨body, hbody⟩ := hpart.exists_cons fun key hkey => hkey ▸ hkeys member hmember
        ⟨'"', body, hbody, rfl⟩
    rw [List.cons_append, List.append_assoc, skipValueWith, skipSpace_append_cons hgap rfl]
    simp only [List.nil_append, List.cons_append, Position.pastAll_nil] at hread ⊢
    simp [skipSpace_append_cons (c := '"') hinner rfl, hread]

theorem isSkipped_of_isValue {text : List Char} (h : IsValue text) : IsSkipped text := by
  induction h with
  | word h => exact isSkipped_word h
  | number h => exact isSkipped_number h
  | string h => exact isSkipped_string h
  | array h hvalues ih => exact isSkipped_array h hvalues ih
  | object h hkeys _ ih => exact isSkipped_object h hkeys ih

/-- Any value is passed over as a whole. -/
theorem skipValue_of_isValue {text : List Char} (h : IsValue text) {gap rest : List Char}
    (hgap : IsSpaces gap) (hrest : EndsNumber rest) (position : Position) :
    skipValue ⟨gap ++ (text ++ rest), position⟩ =
      .ok ⟨rest, (position.pastAll gap).pastAll text⟩ := by
  refine isSkipped_of_isValue h _ gap rest position ?_ hgap hrest
  simp only [List.length_append]
  omega

end Cursor

end SiteSurvey.Json
