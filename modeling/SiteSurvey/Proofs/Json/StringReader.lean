import SiteSurvey.Json.StringReader
import SiteSurvey.Json.Value
import SiteSurvey.Proofs.Json.Cursor

/-!
# Reading written strings

The text of a string has letters between its quotes: plain characters, short escapes and escaped
code units (`IsLettered`). It is read as the characters that its letters spell, and refused where a
surrogate is not one of a pair (`stringFrom_lettered`). A text that is only passed over need not
spell anything (`skipStringFrom_lettered`). Any characters are spelled by their quoted text
(`isQuoted_quoted`).
-/

namespace SiteSurvey.Json

/-! ## The grammar of strings -/

/-- What stands at one place of a string: a character, or a code unit given by its digits. -/
inductive Letter where
  | char (c : Char)
  | unit (n : Nat)
  deriving DecidableEq, Repr

/-- The text has these letters, without its quotes. -/
inductive IsLettered : List Char → List Letter → Prop where
  | nil : IsLettered [] []
  | plain {c : Char} {body : List Char} {letters : List Letter} (hquote : c ≠ '"')
    (hslash : c ≠ '\\') (hcontrol : ¬ c.toNat < 0x20) (h : IsLettered body letters) :
    IsLettered (c :: body) (.char c :: letters)
  | short {e c : Char} {body : List Char} {letters : List Letter}
    (hescape : shortEscape? e = some c) (h : IsLettered body letters) :
    IsLettered ('\\' :: e :: body) (.char c :: letters)
  | unit {a b c d : Char} {n : Nat} {body : List Char} {letters : List Letter}
    (hunit : codeUnit? a b c d = some n) (h : IsLettered body letters) :
    IsLettered ('\\' :: 'u' :: a :: b :: c :: d :: body) (.unit n :: letters)

/-- The characters that letters spell where each surrogate is one of a pair, behind `high`. -/
def spelled? : (high : Option Nat) → List Letter → Option (List Char)
  | none, [] => some []
  | none, .char c :: letters => (spelled? none letters).map (c :: ·)
  | none, .unit n :: letters =>
    if isLowSurrogate n then none
    else if isHighSurrogate n then spelled? (some n) letters
    else (spelled? none letters).map (Char.ofNat n :: ·)
  | some high, .unit n :: letters =>
    if isLowSurrogate n then (spelled? none letters).map (surrogatePair high n :: ·) else none
  | some _, _ => none

/-- The text of a string, which need not spell anything. -/
def IsString (text : List Char) : Prop :=
  ∃ body letters, text = '"' :: (body ++ ['"']) ∧ IsLettered body letters

/-- The text is a string in quotes that spells `s`. -/
def IsQuoted (text : List Char) (s : String) : Prop :=
  ∃ body letters, text = '"' :: (body ++ ['"']) ∧ IsLettered body letters ∧
    spelled? none letters = some s.toList

theorem IsString.exists_cons {text : List Char} (h : IsString text) : ∃ body, text = '"' :: body :=
  let ⟨_, _, htext, _⟩ := h
  ⟨_, htext⟩

theorem IsQuoted.isString {text : List Char} {s : String} (h : IsQuoted text s) : IsString text :=
  let ⟨body, letters, htext, hbody, _⟩ := h
  ⟨body, letters, htext, hbody⟩

/-! ## Reading -/

section Steps

variable {c e : Char} (held : List Char) (position : Position) (rest : List Char)

theorem stringFrom_plain (hquote : c ≠ '"') (hslash : c ≠ '\\') (hcontrol : ¬ c.toNat < 0x20) :
    stringFrom none held position (c :: rest) =
      stringFrom none (c :: held) (position.past c) rest := by
  rw [stringFrom, if_neg hquote, if_neg hslash, if_neg hcontrol]

theorem stringFrom_short (h : shortEscape? e = some c) :
    stringFrom none held position ('\\' :: e :: rest) =
      stringFrom none (c :: held) ((position.past '\\').past e) rest := by
  unfold shortEscape? at h
  split at h <;> cases h <;> rfl

theorem stringFrom_some_short (high : Nat) (h : shortEscape? e = some c) :
    (stringFrom (some high) held position ('\\' :: e :: rest)).toOption = none := by
  unfold shortEscape? at h
  split at h <;> cases h <;> rfl

theorem skipStringFrom_short (h : shortEscape? e = some c) :
    skipStringFrom position ('\\' :: e :: rest) =
      skipStringFrom ((position.past '\\').past e) rest := by
  unfold shortEscape? at h
  split at h <;> cases h <;> rfl

end Steps

/-- A string is read as the characters that its letters spell, or else refused. -/
theorem stringFrom_lettered {body : List Char} {letters : List Letter} (h : IsLettered body letters)
    (high : Option Nat) (held : List Char) (position : Position) (rest : List Char) :
    (stringFrom high held position (body ++ '"' :: rest)).toOption =
      (spelled? high letters).map fun text =>
        (held.reverse ++ text, ⟨rest, position.pastAll (body ++ ['"'])⟩) := by
  -- Behind a high surrogate only the escape of a low one goes on; all else ends in a fault.
  induction h generalizing high held position with
  | nil => cases high <;> simp [stringFrom, spelled?, Except.toOption]
  | plain hquote hslash hcontrol h ih =>
    cases high with
    | none =>
      rw [List.cons_append, stringFrom_plain _ _ _ hquote hslash hcontrol, ih]
      simp [spelled?, Function.comp_def]
    | some high => simp [stringFrom, spelled?, Except.toOption, hslash]
  | short hescape h ih =>
    cases high with
    | none =>
      rw [List.cons_append, List.cons_append, stringFrom_short _ _ _ hescape, ih]
      simp [spelled?, Function.comp_def]
    | some high => exact stringFrom_some_short _ _ _ high hescape
  | @unit _ _ _ _ n _ _ hunit h ih =>
    simp only [List.cons_append]
    by_cases hlow : isLowSurrogate n
    · cases high with
      | none => simp [stringFrom, spelled?, Except.toOption, hunit, hlow]
      | some high => simp [stringFrom, spelled?, hunit, hlow, ih, Function.comp_def]
    · cases high with
      | none =>
        by_cases hhigh : isHighSurrogate n
        · simp [stringFrom, spelled?, hunit, hlow, hhigh, ih]
        · simp [stringFrom, spelled?, hunit, hlow, hhigh, ih, Function.comp_def]
      | some high => simp [stringFrom, spelled?, Except.toOption, hunit, hlow]

theorem skipStringFrom_lettered {body : List Char} {letters : List Letter}
    (h : IsLettered body letters) (position : Position) (rest : List Char) :
    skipStringFrom position (body ++ '"' :: rest) =
      .ok ⟨rest, position.pastAll (body ++ ['"'])⟩ := by
  induction h generalizing position with
  | nil => simp [skipStringFrom]
  | plain hquote hslash hcontrol h ih =>
    rw [List.cons_append, skipStringFrom, if_neg hquote, if_neg hslash, if_neg hcontrol, ih]
    rfl
  | short hescape h ih =>
    rw [List.cons_append, List.cons_append, skipStringFrom_short _ _ hescape, ih]
    rfl
  | unit hunit h ih => simp [skipStringFrom, hunit, ih]

theorem IsQuoted.string {text : List Char} {s : String} (h : IsQuoted text s) :
    ∃ body, text = '"' :: body ∧ ∀ rest position,
      Cursor.string ⟨body ++ rest, position⟩ = .ok (s, ⟨rest, position.pastAll body⟩) := by
  obtain ⟨body, letters, rfl, hbody, hspelled⟩ := h
  refine ⟨_, rfl, fun rest position => ?_⟩
  have hread := stringFrom_lettered hbody none [] position rest
  rw [hspelled, Option.map_some] at hread
  rw [List.append_assoc, List.singleton_append, Cursor.string, eq_ok_of_toOption hread]
  simp [Except.map]

theorem IsString.skipString {text : List Char} (h : IsString text) :
    ∃ body, text = '"' :: body ∧ ∀ rest position,
      Cursor.skipString ⟨body ++ rest, position⟩ = .ok ⟨rest, position.pastAll body⟩ := by
  obtain ⟨body, letters, rfl, hbody⟩ := h
  refine ⟨_, rfl, fun rest position => ?_⟩
  rw [List.append_assoc, List.singleton_append]
  exact skipStringFrom_lettered hbody position rest

/-- A string whose letters spell nothing is refused. -/
theorem IsString.isQuoted_or {text : List Char} (h : IsString text) :
    (∃ s, IsQuoted text s) ∨ ∃ body, text = '"' :: body ∧ ∀ rest position, ∃ fault,
      Cursor.string ⟨body ++ rest, position⟩ = .error fault := by
  obtain ⟨body, letters, rfl, hbody⟩ := h
  cases hspelled : spelled? none letters with
  | some s => exact .inl ⟨String.ofList s, body, letters, rfl, hbody, by rw [hspelled]; simp⟩
  | none =>
    refine .inr ⟨_, rfl, fun rest position => ?_⟩
    have hread := stringFrom_lettered hbody none [] position rest
    rw [hspelled, Option.map_none] at hread
    obtain ⟨fault, hfault⟩ := exists_error_of_toOption hread
    refine ⟨fault, ?_⟩
    rw [List.append_assoc, List.singleton_append, Cursor.string, hfault]
    rfl

/-! ## Quoting -/

theorem codeUnit?_hexDigit :
    ∀ n < 0x20, codeUnit? '0' '0' (hexDigit (n / 16)) (hexDigit (n % 16)) = some n := by
  decide

/-- A character is spelled as it is written, whether it is escaped or not. -/
theorem exists_letter (c : Char) : ∃ letter, ∀ body letters text, IsLettered body letters →
    spelled? none letters = some text →
      IsLettered (escape c ++ body) (letter :: letters) ∧
        spelled? none (letter :: letters) = some (c :: text) := by
  unfold escape
  split
  case h_8 hquote hslash _ _ _ _ _ =>
    by_cases hcontrol : c.toNat < 0x20
    · have hlow : isLowSurrogate c.toNat = false := by
        simp only [isLowSurrogate, Bool.and_eq_false_imp, decide_eq_true_eq]
        omega
      have hhigh : isHighSurrogate c.toNat = false := by
        simp only [isHighSurrogate, Bool.and_eq_false_imp, decide_eq_true_eq]
        omega
      rw [if_pos hcontrol]
      refine ⟨.unit c.toNat, fun body letters text h hspelled =>
        ⟨.unit (codeUnit?_hexDigit _ hcontrol) h, ?_⟩⟩
      simp [spelled?, hlow, hhigh, hspelled]
    · rw [if_neg hcontrol]
      exact ⟨.char c, fun body letters text h hspelled =>
        ⟨.plain hquote hslash hcontrol h, by simp [spelled?, hspelled]⟩⟩
  all_goals
    exact ⟨.char _, fun body letters text h hspelled =>
      ⟨.short rfl h, by simp [spelled?, hspelled]⟩⟩

theorem isQuoted_quoted (s : String) : IsQuoted (quoted s).toList s := by
  have hletters (text : List Char) : ∃ letters, IsLettered (text.flatMap escape) letters ∧
      spelled? none letters = some text := by
    induction text with
    | nil => exact ⟨[], .nil, rfl⟩
    | cons c text ih =>
      obtain ⟨letters, h, hspelled⟩ := ih
      obtain ⟨letter, hletter⟩ := exists_letter c
      exact ⟨letter :: letters, hletter _ _ _ h hspelled⟩
  obtain ⟨letters, h, hspelled⟩ := hletters s.toList
  exact ⟨_, letters, by simp [quoted], h, hspelled⟩

end SiteSurvey.Json
