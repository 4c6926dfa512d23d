import Mathlib.Data.List.Basic
import Mathlib.Data.List.Induction
import SiteSurvey.Json.Number
import SiteSurvey.Proofs.Json.Cursor

/-!
# Reading written numbers

A number in the grammar of JSON has a sign, digits that no needless zero leads, a fraction and an
exponent (`IsNumber`). It is read as it is written where no number goes on behind it
(`numeral_of_isNumber`), whatever its size. Of all numbers the decimal digits of one below the bound
of 64 bits are told as natural (`natural?_eq_some_iff`).
-/

namespace SiteSurvey.Json

/-! ## Decimal digits -/

theorem isDigit_of_mem_toDigits {n : Nat} {c : Char} (h : c ∈ Nat.toDigits 10 n) : c.isDigit :=
  Nat.isDigit_of_mem_toDigits (by decide) (by decide) h

theorem isSpace_of_isDigit {c : Char} (h : c.isDigit) : Cursor.isSpace c = false := by
  rw [Bool.eq_false_iff]
  intro hspace
  simp only [Cursor.isSpace, Bool.or_eq_true, beq_iff_eq] at hspace
  rcases hspace with ((rfl | rfl) | rfl) | rfl <;> exact absurd h (by decide)

theorem digitsValue_toDigits (n : Nat) : digitsValue (Nat.toDigits 10 n) = n := by
  have h := Nat.ofDigitChars_ten_toDigits (n := n)
  rw [Nat.ofDigitChars_eq_foldl] at h
  simpa only [digitsValue, Nat.mul_comm] using h

theorem digitChar_ne_zero : ∀ n < 10, n ≠ 0 → Nat.digitChar n ≠ '0' := by
  decide

/-- Only zero begins with a zero. -/
theorem head?_toDigits {n : Nat} (h : n ≠ 0) : (Nat.toDigits 10 n).head? ≠ some '0' := by
  induction n using Nat.strongRecOn with
  | ind n ih =>
    rw [Nat.toDigits_eq_if (by decide)]
    split
    · next hn => simpa using digitChar_ne_zero n hn h
    · next hn =>
      rw [List.head?_append_of_ne_nil _ Nat.toDigits_ne_nil]
      exact ih (n / 10) (by omega) (by omega)

theorem exists_digitChar {c : Char} (h : c.isDigit) :
    ∃ d < 10, c = Nat.digitChar d ∧ c.toNat - '0'.toNat = d := by
  obtain ⟨hlow, hhigh⟩ := Char.isDigit_iff_toNat.1 h
  have hzero : '0'.toNat = 48 := rfl
  have hnine : '9'.toNat = 57 := rfl
  have hlt : c.toNat - '0'.toNat < 10 := by omega
  refine ⟨c.toNat - '0'.toNat, hlt, Char.toNat_inj.1 ?_, rfl⟩
  rw [Nat.toNat_digitChar_of_lt_ten hlt]
  omega

/-! ## The grammar of numbers -/

def IsDigits (digits : List Char) : Prop :=
  digits ≠ [] ∧ ∀ c ∈ digits, c.isDigit

/-- Digits before a point: only zero itself begins with a zero. -/
structure IsInteger (digits : List Char) : Prop where
  isDigits : IsDigits digits
  eq_zero : digits.head? = some '0' → digits = ['0']

inductive IsFraction : Option (List Char) → List Char → Prop where
  | none : IsFraction none []
  | some {digits : List Char} (h : IsDigits digits) : IsFraction (some digits) ('.' :: digits)

/-- An exponent with its sign, where a plus sign may be left out. -/
inductive IsExponent : Option (Bool × List Char) → List Char → Prop where
  | none : IsExponent none []
  | plain {mark : Char} {digits : List Char} (hmark : mark = 'e' ∨ mark = 'E')
    (h : IsDigits digits) : IsExponent (some (false, digits)) (mark :: digits)
  | plus {mark : Char} {digits : List Char} (hmark : mark = 'e' ∨ mark = 'E')
    (h : IsDigits digits) : IsExponent (some (false, digits)) (mark :: '+' :: digits)
  | minus {mark : Char} {digits : List Char} (hmark : mark = 'e' ∨ mark = 'E')
    (h : IsDigits digits) : IsExponent (some (true, digits)) (mark :: '-' :: digits)

/-- The text writes the number in the grammar of JSON. -/
inductive IsNumber : List Char → Numeral → Prop where
  | mk {negative : Bool} {integer : List Char} {fraction : Option (List Char)}
    {exponent : Option (Bool × List Char)} {fractionText exponentText : List Char}
    (hinteger : IsInteger integer) (hfraction : IsFraction fraction fractionText)
    (hexponent : IsExponent exponent exponentText) :
    IsNumber ((if negative then ['-'] else []) ++ (integer ++ (fractionText ++ exponentText)))
      ⟨negative, integer, fraction, exponent⟩

theorem isInteger_toDigits (n : Nat) : IsInteger (Nat.toDigits 10 n) where
  isDigits := ⟨Nat.toDigits_ne_nil, fun _ => isDigit_of_mem_toDigits⟩
  eq_zero h := by
    obtain rfl | hn := Nat.eq_zero_or_pos n
    · rfl
    · exact absurd h (head?_toDigits (Nat.ne_of_gt hn))

theorem isNumber_of_isInteger {digits : List Char} (h : IsInteger digits) :
    IsNumber digits ⟨false, digits, none, none⟩ := by
  have hnumber := @IsNumber.mk false _ _ _ _ _ h .none .none
  simpa using hnumber

/-- Digits are those of their value. -/
theorem IsInteger.toDigits_digitsValue {digits : List Char} (h : IsInteger digits) :
    Nat.toDigits 10 (digitsValue digits) = digits := by
  -- The last digit is the remainder by ten, and the digits before it are those of the quotient.
  induction digits using List.reverseRecOn with
  | nil => exact absurd rfl h.isDigits.1
  | append_singleton digits c ih =>
    obtain ⟨d, hd, hc, hvalue⟩ := exists_digitChar (h.isDigits.2 c (by simp))
    have hstep : digitsValue (digits ++ [c]) = 10 * digitsValue digits + d := by
      rw [digitsValue, List.foldl_append, ← digitsValue, Nat.mul_comm]
      exact congrArg (_ + ·) hvalue
    by_cases hnil : digits = []
    · subst hnil
      rw [hstep, hc]
      simpa [digitsValue] using Nat.toDigits_of_lt_base hd
    · have hhead : digits.head? ≠ some '0' := by
        intro hzero
        have hall := h.eq_zero (by rw [List.head?_append_of_ne_nil _ hnil, hzero])
        have hlength := congrArg List.length hall
        have hpos := List.length_pos_iff.2 hnil
        rw [List.length_append, List.length_singleton, List.length_singleton] at hlength
        omega
      have hdigits := ih ⟨⟨hnil, fun c hc => h.isDigits.2 c (List.mem_append_left _ hc)⟩,
        fun hzero => absurd hzero hhead⟩
      have hpos : 0 < digitsValue digits := by
        refine Nat.pos_of_ne_zero fun hzero => hhead ?_
        rw [← hdigits, hzero]
        rfl
      rw [hstep, ← Nat.toDigits_append_toDigits (by decide) hpos hd, hdigits,
        Nat.toDigits_of_lt_base hd, hc]

theorem IsExponent.head? {exponent : Option (Bool × List Char)} {text : List Char}
    (h : IsExponent exponent text) {rest : List Char} (hrest : EndsNumber rest) :
    ∀ c ∈ (text ++ rest).head?, c.isDigit = false ∧ c ≠ '.' := by
  cases h with
  | none => exact fun c hc => ⟨(hrest c hc).1, (hrest c hc).2.1⟩
  | plain hmark | plus hmark | minus hmark =>
    intro c hc
    obtain rfl : _ = c := by simpa using hc
    rcases hmark with rfl | rfl <;> decide

theorem IsFraction.head? {fraction : Option (List Char)} {text : List Char}
    (h : IsFraction fraction text) {rest : List Char}
    (hrest : ∀ c ∈ rest.head?, c.isDigit = false) :
    ∀ c ∈ (text ++ rest).head?, c.isDigit = false := by
  cases h with
  | none => exact hrest
  | some =>
    intro c hc
    obtain rfl : '.' = c := by simpa using hc
    rfl

/-! ## Reading -/

namespace Cursor

theorem digits_append {digits rest : List Char} (h : ∀ c ∈ digits, c.isDigit)
    (hrest : ∀ c ∈ rest.head?, c.isDigit = false) (position : Position) :
    Cursor.digits ⟨digits ++ rest, position⟩ = (digits, ⟨rest, position.pastAll digits⟩) := by
  have htake : rest.takeWhile Char.isDigit = [] := by
    cases rest with
    | nil => rfl
    | cons c rest => exact List.takeWhile_cons_of_neg (by simp [hrest c rfl])
  have hdrop : rest.dropWhile Char.isDigit = rest := by
    cases rest with
    | nil => rfl
    | cons c rest => exact List.dropWhile_cons_of_neg (by simp [hrest c rfl])
  rw [Cursor.digits, List.takeWhile_append_of_pos h, htake, List.append_nil,
    List.dropWhile_append_of_pos h, hdrop]

variable (atEnd : Cause)

theorem integerPart_append {digits : List Char} (h : IsInteger digits) {rest : List Char}
    (hrest : ∀ c ∈ rest.head?, c.isDigit = false) (position : Position) :
    integerPart atEnd ⟨digits ++ rest, position⟩ =
      .ok (digits, ⟨rest, position.pastAll digits⟩) := by
  obtain ⟨c, others, rfl⟩ := List.exists_cons_of_ne_nil h.isDigits.1
  by_cases hzero : c = '0'
  · subst hzero
    obtain rfl : others = [] := by simpa using h.eq_zero rfl
    have hdigit : rest.head?.any Char.isDigit = false := by
      rw [Option.any_eq_false]
      exact fun c hc => by simp [hrest c hc]
    simp [integerPart, hdigit]
  · have hdigit : c.isDigit := h.isDigits.2 c List.mem_cons_self
    have hdigits := digits_append h.isDigits.2 hrest position
    rw [List.cons_append] at hdigits ⊢
    simp [integerPart, hzero, hdigit, hdigits]

theorem fractionPart_append {fraction : Option (List Char)} {text : List Char}
    (h : IsFraction fraction text) {rest : List Char}
    (hrest : ∀ c ∈ rest.head?, c.isDigit = false ∧ c ≠ '.') (position : Position) :
    fractionPart atEnd ⟨text ++ rest, position⟩ =
      .ok (fraction, ⟨rest, position.pastAll text⟩) := by
  cases h with
  | none =>
    have hpoint : rest.head? ≠ some '.' := fun e => (hrest '.' e).2 rfl
    rw [List.nil_append, fractionPart, if_neg (by simpa using hpoint)]
    rfl
  | @some digits h =>
    have hdigits := digits_append h.2 (fun c hc => (hrest c hc).1) (position.past '.')
    simp [fractionPart, hdigits, h.1]

theorem exponentPart_append {exponent : Option (Bool × List Char)} {text : List Char}
    (h : IsExponent exponent text) {rest : List Char} (hrest : EndsNumber rest)
    (position : Position) :
    exponentPart atEnd ⟨text ++ rest, position⟩ =
      .ok (exponent, ⟨rest, position.pastAll text⟩) := by
  have hend : ∀ c ∈ rest.head?, c.isDigit = false := fun c hc => (hrest c hc).1
  cases h with
  | none =>
    have hlower : rest.head? ≠ some 'e' := fun e => (hrest 'e' e).2.2.1 rfl
    have hupper : rest.head? ≠ some 'E' := fun e => (hrest 'E' e).2.2.2 rfl
    rw [List.nil_append, exponentPart, if_neg (by simp [hlower, hupper])]
    rfl
  | @plain mark digits hmark h =>
    have hdigits := digits_append h.2 hend (position.past mark)
    obtain ⟨c, others, rfl⟩ := List.exists_cons_of_ne_nil h.1
    have hc := h.2 c List.mem_cons_self
    have hminus : c ≠ '-' := by rintro rfl; exact absurd hc (by decide)
    have hplus : c ≠ '+' := by rintro rfl; exact absurd hc (by decide)
    rw [List.cons_append] at hdigits
    rcases hmark with rfl | rfl <;> simp [exponentPart, hminus, hplus, hdigits]
  | @plus mark digits hmark h =>
    have hdigits := digits_append h.2 hend ((position.past mark).past '+')
    rcases hmark with rfl | rfl <;> simp [exponentPart, hdigits, h.1]
  | @minus mark digits hmark h =>
    have hdigits := digits_append h.2 hend ((position.past mark).past '-')
    rcases hmark with rfl | rfl <;> simp [exponentPart, hdigits, h.1]

/-- A number is read as it is written. -/
theorem numeral_of_isNumber {text : List Char} {numeral : Numeral} (h : IsNumber text numeral)
    {rest : List Char} (hrest : EndsNumber rest) (position : Position) :
    Cursor.numeral atEnd ⟨text ++ rest, position⟩ =
      .ok (numeral, ⟨rest, position.pastAll text⟩) := by
  obtain @⟨negative, integer, fraction, exponent, fractionText, exponentText, hinteger, hfraction,
    hexponent⟩ := h
  have hexponentHead := hexponent.head? hrest
  have hfractionHead := hfraction.head? fun c hc => (hexponentHead c hc).1
  have hread := integerPart_append atEnd hinteger hfractionHead
  have hread' := fractionPart_append atEnd hfraction hexponentHead
  have hread'' := exponentPart_append atEnd hexponent hrest
  simp only [List.append_assoc]
  cases negative with
  | true =>
    simp [Cursor.numeral, hread, hread', hread'', Bind.bind, Except.bind, pure, Except.pure]
  | false =>
    have hplain : (integer ++ (fractionText ++ (exponentText ++ rest))).head? ≠ some '-' := by
      rw [List.head?_append_of_ne_nil _ hinteger.isDigits.1]
      exact fun e => absurd (hinteger.isDigits.2 '-' (List.mem_of_mem_head? e)) (by decide)
    have hsign : ((integer ++ (fractionText ++ (exponentText ++ rest))).head? == some '-') =
        false := by simpa using hplain
    simp only [Bool.false_eq_true, if_false, List.nil_append, Cursor.numeral, hsign, hread, hread',
      hread'', Bind.bind, Except.bind, pure, Except.pure, Position.pastAll_append]

end Cursor

/-! ## Natural numbers -/

/-- Only the decimal digits of a number below the bound are told as natural. -/
theorem IsNumber.natural?_eq_some_iff {text : List Char} {numeral : Numeral}
    (h : IsNumber text numeral) {n : Nat} :
    numeral.natural? = some n ↔ n < wordBound ∧ text = Nat.toDigits 10 n := by
  obtain @⟨negative, integer, fraction, exponent, fractionText, exponentText, hinteger, hfraction,
    hexponent⟩ := h
  constructor
  · intro hnatural
    simp only [Numeral.natural?, Option.ite_none_right_eq_some, Option.some.injEq,
      Bool.and_eq_true, Bool.not_eq_true', Option.isNone_iff_eq_none, decide_eq_true_eq] at hnatural
    obtain ⟨⟨⟨⟨rfl, rfl⟩, rfl⟩, hlt⟩, rfl⟩ := hnatural
    cases hfraction
    cases hexponent
    exact ⟨hlt, by simp [hinteger.toDigits_digitsValue]⟩
  · rintro ⟨hlt, htext⟩
    have hdigit : ∀ c ∈ (if negative then ['-'] else []) ++
        (integer ++ (fractionText ++ exponentText)), c.isDigit :=
      htext ▸ fun _ => isDigit_of_mem_toDigits
    -- A sign, a point and the mark of an exponent are no digits.
    obtain rfl : negative = false := by
      by_contra hnegative
      exact absurd (hdigit '-' (by simp [hnegative])) (by decide)
    have hpoint : fraction = none := by
      cases hfraction with
      | none => rfl
      | some => exact absurd (hdigit '.' (by simp)) (by decide)
    subst hpoint
    cases hfraction
    cases hexponent with
    | none =>
      obtain rfl : integer = Nat.toDigits 10 n := by simpa using htext
      simp [Numeral.natural?, digitsValue_toDigits, hlt]
    | plain hmark | plus hmark | minus hmark =>
      have hmarkDigit := hdigit _ (List.mem_append_right _ (List.mem_append_right _
        (List.mem_append_right _ List.mem_cons_self)))
      rcases hmark with rfl | rfl <;> exact absurd hmarkDigit (by decide)

namespace Cursor

theorem natural?_toDigits {n : Nat} (h : n < wordBound) :
    Numeral.natural? ⟨false, Nat.toDigits 10 n, none, none⟩ = some n :=
  (isNumber_of_isInteger (isInteger_toDigits n)).natural?_eq_some_iff.2 ⟨h, rfl⟩

/-- A number is read as it is written, if it is not out of the range of floating point. -/
theorem number_of_isNumber {text : List Char} {numeral : Numeral} (h : IsNumber text numeral)
    {rest : List Char} (hrest : EndsNumber rest) (position : Position) :
    number ⟨text ++ rest, position⟩ =
      if numeral.natural?.isNone && numeral.isTooLarge then
        .error ⟨.numberOutOfRange, position.pastAll text⟩
      else .ok (numeral, ⟨rest, position.pastAll text⟩) := by
  simp only [number, numeral_of_isNumber .endOfValue h hrest, Bind.bind, Except.bind, pure,
    Except.pure]
  split_ifs <;> rfl

theorem number_toDigits {n : Nat} (h : n < wordBound) {rest : List Char} (hrest : EndsNumber rest)
    (position : Position) :
    number ⟨Nat.toDigits 10 n ++ rest, position⟩ =
      .ok (⟨false, Nat.toDigits 10 n, none, none⟩,
        ⟨rest, position.pastAll (Nat.toDigits 10 n)⟩) := by
  rw [number_of_isNumber (isNumber_of_isInteger (isInteger_toDigits n)) hrest, natural?_toDigits h]
  rfl

end Cursor

end SiteSurvey.Json
