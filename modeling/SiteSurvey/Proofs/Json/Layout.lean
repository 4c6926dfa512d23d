import Mathlib.Data.List.Basic
import Mathlib.Data.List.Forall2
import SiteSurvey.Json.Value
import SiteSurvey.Proofs.Json.StringReader

/-!
# Texts between brackets

The text of an array or object has brackets around the texts of its items, a comma between any two
of them, and white space anywhere between those (`IsBracketed`). Both ways of writing a value lay
its items out like this (`isBracketed_joinWith`, `isBracketed_block`).
-/

namespace SiteSurvey.Json

variable {α : Type} {IsText : List Char → α → Prop} {opener closer : Char}

/-! ## Layouts -/

/-- The text of some items, from the first one on up to the bracket behind the last one. -/
inductive Laid (IsText : List Char → α → Prop) (closer : Char) : List α → List Char → Prop where
  | last {item : α} {part gap : List Char} (hitem : IsText part item) (hgap : IsSpaces gap) :
    Laid IsText closer [item] (part ++ (gap ++ [closer]))
  | more {item : α} {items : List α} {part gap gap' text : List Char} (hitem : IsText part item)
    (hgap : IsSpaces gap) (hgap' : IsSpaces gap') (htext : Laid IsText closer items text) :
    Laid IsText closer (item :: items) (part ++ (gap ++ ',' :: (gap' ++ text)))

/-- The text of an array or object with its brackets. -/
inductive IsBracketed (IsText : List Char → α → Prop) (opener closer : Char) :
    List α → List Char → Prop where
  | empty {gap : List Char} (hgap : IsSpaces gap) :
    IsBracketed IsText opener closer [] (opener :: (gap ++ [closer]))
  | items {items : List α} {gap text : List Char} (hgap : IsSpaces gap)
    (htext : Laid IsText closer items text) :
    IsBracketed IsText opener closer items (opener :: (gap ++ text))

/-- Each item takes a comma or a bracket, so a text is long enough for its items. -/
theorem Laid.length_le {items : List α} {text : List Char} (h : Laid IsText closer items text)
    (rest : List Char) : items.length ≤ (text ++ rest).length := by
  induction h with
  | last =>
    simp only [List.length_cons, List.length_append, List.length_nil]
    omega
  | more _ _ _ _ ih =>
    simp only [List.length_cons, List.length_append] at ih ⊢
    omega

theorem Laid.exists_start {items : List α} {text : List Char} (h : Laid IsText closer items text)
    {P : Char → Prop}
    (hstart : ∀ item ∈ items, ∀ part, IsText part item → ∃ c body, part = c :: body ∧ P c) :
    ∃ c body, text = c :: body ∧ P c := by
  cases h with
  | last hitem =>
    obtain ⟨c, body, rfl, hc⟩ := hstart _ List.mem_cons_self _ hitem
    exact ⟨c, _, rfl, hc⟩
  | more hitem =>
    obtain ⟨c, body, rfl, hc⟩ := hstart _ List.mem_cons_self _ hitem
    exact ⟨c, _, rfl, hc⟩

/-- The text begins as each of its items does. -/
theorem Laid.exists_cons {c : Char}
    (hstart : ∀ part item, IsText part item → ∃ body, part = c :: body) {items : List α}
    {text : List Char} (h : Laid IsText closer items text) : ∃ body, text = c :: body := by
  obtain ⟨_, body, htext, rfl⟩ := h.exists_start (P := (· = c)) fun item _ part hitem =>
    let ⟨body, hpart⟩ := hstart part item hitem
    ⟨c, body, hpart, rfl⟩
  exact ⟨body, htext⟩

theorem IsBracketed.exists_cons {items : List α} {text : List Char}
    (h : IsBracketed IsText opener closer items text) : ∃ body, text = opener :: body := by
  cases h <;> exact ⟨_, rfl⟩

/-- The text of a member: that of its key, a colon and the text of its value. -/
def IsMemberOf {κ : Type} (IsKey : List Char → κ → Prop) (text : List Char)
    (member : κ × List Char) : Prop :=
  ∃ key gap gap', IsKey key member.1 ∧ IsSpaces gap ∧ IsSpaces gap' ∧
    text = key ++ (gap ++ ':' :: (gap' ++ member.2))

/-- The text of a member whose key is a string in quotes. -/
def IsMember : List Char → String × List Char → Prop :=
  IsMemberOf IsQuoted

theorem IsMemberOf.exists_cons {κ : Type} {IsKey : List Char → κ → Prop} {text : List Char}
    {member : κ × List Char} (h : IsMemberOf IsKey text member)
    (hkey : ∀ key, IsKey key member.1 → IsString key) : ∃ body, text = '"' :: body := by
  obtain ⟨key, _, _, hisKey, -, -, rfl⟩ := h
  obtain ⟨body, rfl⟩ := (hkey key hisKey).exists_cons
  exact ⟨_, rfl⟩

theorem IsMember.exists_cons {text : List Char} {member : String × List Char}
    (h : IsMember text member) : ∃ body, text = '"' :: body :=
  IsMemberOf.exists_cons h fun _ hkey => hkey.isString

/-! ## Written values -/

theorem isSpaces_newline (level : Nat) : IsSpaces (Value.newline level).toList := by
  intro c hc
  rw [Value.newline, String.toList_ofList, List.mem_cons, List.mem_replicate] at hc
  rcases hc with rfl | ⟨-, rfl⟩ <;> rfl

theorem laid_joinWith {separator : String} {gap gap' : List Char}
    (hseparator : separator.toList = ',' :: gap') (hgap : IsSpaces gap) (hgap' : IsSpaces gap')
    {parts : List String} {items : List α} (hparts : parts ≠ [])
    (h : List.Forall₂ (fun part item => IsText part.toList item) parts items) :
    Laid IsText closer items ((joinWith separator parts).toList ++ (gap ++ [closer])) := by
  induction h with
  | nil => exact absurd rfl hparts
  | @cons part item parts items hitem h ih =>
    cases parts with
    | nil =>
      cases h
      exact .last hitem hgap
    | cons next parts =>
      have hlaid := Laid.more hitem isSpaces_nil hgap' (ih (List.cons_ne_nil _ _))
      simpa only [joinWith, String.toList_append, hseparator, List.append_assoc, List.cons_append,
        List.nil_append] using hlaid

theorem isBracketed_joinWith {left right : String} (hleft : left.toList = [opener])
    (hright : right.toList = [closer]) {parts : List String} {items : List α}
    (h : List.Forall₂ (fun part item => IsText part.toList item) parts items) :
    IsBracketed IsText opener closer items (left ++ joinWith "," parts ++ right).toList := by
  simp only [String.toList_append, hleft, hright, List.cons_append, List.nil_append]
  cases h with
  | nil => exact .empty isSpaces_nil
  | cons hitem h =>
    have hlaid : Laid IsText closer _ _ :=
      laid_joinWith (show ",".toList = [','] from rfl) isSpaces_nil isSpaces_nil
        (List.cons_ne_nil _ _) (.cons hitem h)
    have hbracketed : IsBracketed IsText opener closer _ (opener :: ([] ++ _)) :=
      .items isSpaces_nil hlaid
    exact hbracketed

theorem isBracketed_block (level : Nat) {left right : String} (hleft : left.toList = [opener])
    (hright : right.toList = [closer]) {parts : List String} {items : List α}
    (h : List.Forall₂ (fun part item => IsText part.toList item) parts items) :
    IsBracketed IsText opener closer items (Value.block level left right parts).toList := by
  cases h with
  | nil =>
    rw [Value.block, List.isEmpty_nil, if_pos rfl, String.toList_append, hleft, hright]
    exact .empty isSpaces_nil
  | cons hitem h =>
    have hseparator :
        ("," ++ Value.newline (level + 1)).toList = ',' :: (Value.newline (level + 1)).toList := by
      rw [String.toList_append]
      rfl
    have hlaid : Laid IsText closer _ _ :=
      laid_joinWith hseparator (isSpaces_newline level) (isSpaces_newline (level + 1))
        (List.cons_ne_nil _ _) (.cons hitem h)
    have hbracketed : IsBracketed IsText opener closer _ _ :=
      .items (isSpaces_newline (level + 1)) hlaid
    simpa only [Value.block, List.isEmpty_cons, Bool.false_eq_true, if_false, String.toList_append,
      hleft, hright, List.append_assoc, List.cons_append, List.nil_append] using hbracketed

end SiteSurvey.Json
