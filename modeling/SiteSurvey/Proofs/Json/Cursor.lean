import SiteSurvey.Json.Cursor

/-!
# Reading behind white space

A cursor that skips white space stands behind all of it (`skipSpace_append`). A reader reads a text
as a value if it does so behind any white space and before anything that does not go on with a
number (`Reads`), and refuses it if it does not read it there as any value (`Refuses`).
-/

namespace SiteSurvey.Json

/-! ## Results -/

theorem eq_ok_of_toOption {α : Type} {result : Except Fault α} {value : α}
    (h : result.toOption = some value) : result = .ok value := by
  cases result with
  | error => cases h
  | ok => exact congrArg _ (Option.some.inj h)

theorem exists_error_of_toOption {α : Type} {result : Except Fault α}
    (h : result.toOption = none) : ∃ fault, result = .error fault := by
  cases result with
  | error fault => exact ⟨fault, rfl⟩
  | ok => cases h

/-! ## Positions -/

namespace Position

@[simp]
theorem pastAll_nil (position : Position) : position.pastAll [] = position := rfl

@[simp]
theorem pastAll_cons (position : Position) (c : Char) (text : List Char) :
    position.pastAll (c :: text) = (position.past c).pastAll text := rfl

@[simp]
theorem pastAll_append (position : Position) (text rest : List Char) :
    position.pastAll (text ++ rest) = (position.pastAll text).pastAll rest := by
  induction text generalizing position with
  | nil => rfl
  | cons c text ih => exact ih (position.past c)

end Position

/-! ## White space -/

/-- The text is white space. -/
def IsSpaces (text : List Char) : Prop :=
  ∀ c ∈ text, Cursor.isSpace c

theorem isSpaces_nil : IsSpaces [] := List.forall_mem_nil _

theorem isSpaces_singleton {c : Char} (h : Cursor.isSpace c) : IsSpaces [c] := by
  simpa [IsSpaces] using h

namespace Cursor

@[simp]
theorem next_cons (c : Char) (rest : List Char) (position : Position) :
    next ⟨c :: rest, position⟩ = ⟨rest, position.past c⟩ := rfl

/-- Behind white space, before a text that does not begin with any. -/
theorem skipSpace_append {gap : List Char} (h : IsSpaces gap) {rest : List Char}
    (hrest : ∀ c ∈ rest.head?, isSpace c = false) (position : Position) :
    skipSpace ⟨gap ++ rest, position⟩ = ⟨rest, position.pastAll gap⟩ := by
  change skipSpaceFrom position (gap ++ rest) = _
  induction gap generalizing position with
  | nil =>
    cases rest with
    | nil => rfl
    | cons c rest =>
      rw [List.nil_append, skipSpaceFrom, if_neg (by simp [hrest c rfl])]
      rfl
  | cons c gap ih =>
    rw [List.cons_append, skipSpaceFrom, if_pos (h c List.mem_cons_self)]
    exact ih (fun d hd => h d (List.mem_cons_of_mem _ hd)) (position.past c)

theorem skipSpace_append_cons {gap : List Char} (h : IsSpaces gap) {c : Char}
    (hc : isSpace c = false) (rest : List Char) (position : Position) :
    skipSpace ⟨gap ++ c :: rest, position⟩ = ⟨c :: rest, position.pastAll gap⟩ :=
  skipSpace_append h (by simpa using hc) position

end Cursor

/-! ## Readers -/

/-- A number does not go on with the text. -/
def EndsNumber (rest : List Char) : Prop :=
  ∀ c ∈ rest.head?, c.isDigit = false ∧ c ≠ '.' ∧ c ≠ 'e' ∧ c ≠ 'E'

/-- The reader reads the text as the value, whatever white space stands before it. -/
def Reads {α : Type} (read : Cursor → Except Fault (α × Cursor)) (text : List Char) (value : α) :
    Prop :=
  ∀ gap rest position, IsSpaces gap → EndsNumber rest →
    read ⟨gap ++ (text ++ rest), position⟩ =
      .ok (value, ⟨rest, (position.pastAll gap).pastAll text⟩)

theorem Reads.map {α β : Type} {read : Cursor → Except Fault (α × Cursor)} {text : List Char}
    {value : α} (h : Reads read text value) (f : α → β) :
    Reads (fun cursor => (read cursor).map fun found => (f found.1, found.2)) text (f value) := by
  intro gap rest position hgap hrest
  dsimp only
  rw [h gap rest position hgap hrest]
  rfl

theorem Reads.at_text {α : Type} {read : Cursor → Except Fault (α × Cursor)} {text : List Char}
    {value : α} (h : Reads read text value) {rest : List Char} (hrest : EndsNumber rest)
    (position : Position) :
    read ⟨text ++ rest, position⟩ = .ok (value, ⟨rest, position.pastAll text⟩) :=
  h [] rest position isSpaces_nil hrest

/-- The reader refuses the text, whatever white space stands before it. -/
def Refuses {α : Type} (read : Cursor → Except Fault (α × Cursor)) (text : List Char) : Prop :=
  ∀ gap rest position, IsSpaces gap → EndsNumber rest →
    ∃ fault, read ⟨gap ++ (text ++ rest), position⟩ = .error fault

theorem Refuses.at_text {α : Type} {read : Cursor → Except Fault (α × Cursor)} {text : List Char}
    (h : Refuses read text) {rest : List Char} (hrest : EndsNumber rest) (position : Position) :
    ∃ fault, read ⟨text ++ rest, position⟩ = .error fault :=
  h [] rest position isSpaces_nil hrest

/-- The reader reads the text as a value that it may stand for, or else refuses it. -/
def Judges {α : Type} (read : Cursor → Except Fault (α × Cursor)) (text : List Char)
    (Means : α → Prop) : Prop :=
  (∃ value, Means value ∧ Reads read text value) ∨ Refuses read text

theorem Judges.map {α β : Type} {read : Cursor → Except Fault (α × Cursor)} {text : List Char}
    {Means : α → Prop} (h : Judges read text Means) {Means' : β → Prop} (f : α → β)
    (hmeans : ∀ value, Means value → Means' (f value)) :
    Judges (fun cursor => (read cursor).map fun found => (f found.1, found.2)) text Means' := by
  rcases h with ⟨value, hvalue, hread⟩ | hrefuse
  · exact .inl ⟨f value, hmeans value hvalue, hread.map f⟩
  · refine .inr fun gap rest position hgap hrest => ?_
    obtain ⟨fault, hfault⟩ := hrefuse gap rest position hgap hrest
    exact ⟨fault, congrArg (Except.map fun found => (f found.1, found.2)) hfault⟩

theorem endsNumber_append_cons {gap : List Char} (h : IsSpaces gap) {c : Char}
    (hc : c.isDigit = false ∧ c ≠ '.' ∧ c ≠ 'e' ∧ c ≠ 'E') (rest : List Char) :
    EndsNumber (gap ++ c :: rest) := by
  cases gap with
  | nil => simpa [EndsNumber] using hc
  | cons d gap =>
    have hd := h d List.mem_cons_self
    simp only [Cursor.isSpace, Bool.or_eq_true, beq_iff_eq] at hd
    intro e he
    obtain rfl : d = e := by simpa using he
    rcases hd with ((rfl | rfl) | rfl) | rfl <;> decide

end SiteSurvey.Json
