import SiteSurvey.Proofs.Admin.Registration
import SiteSurvey.Proofs.Text.Softened

/-!
# Registrations in a softened text

The registrations of a text stay the same when spaces stand for newlines in front of blank lines
(`registered_softened`): nothing is found at the beginning of a blank line, and inside the
parentheses of a registration a newline is as good as a space.
-/

namespace SiteSurvey.Admin

open Text

/-! ## Finds in a softened text -/

section Finds

variable {α β : Type} {find? : List Char → Option (α × Nat)} {value : α → β}

/-- Two finds of the same value that cover equally much. -/
def SameFind (value : α → β) (found found' : α × Nat) : Prop :=
  value found.1 = value found'.1 ∧ found.2 = found'.2

/-- Where nothing is found, a line that begins is passed over. -/
theorem findsFrom_zero_of_none {c : Char} {rest : List Char} (h : find? (c :: rest) = none)
    (start : Bool) : findsFrom find? 0 start (c :: rest) = findsFrom find? 0 (c == '\n') rest := by
  cases start with
  | false => rw [findsFrom]
  | true => rw [findsFrom, h]

/--
A reader that finds the same at the beginnings of both texts, and nothing in front of a blank line,
finds the same all along: a line that begins in the first text only is blank.
-/
theorem findsFrom_softened
    (hfind : ∀ {padded text soft}, Softened padded text soft →
      Option.Rel (SameFind value) (find? text) (find? soft))
    (hblank : ∀ {text}, BeginsBlank text → find? text = none)
    {padded : Bool} {text soft : List Char} (h : Softened padded text soft)
    (covered : Nat) {start start' : Bool}
    (hstart : start' = start ∨ start' = false ∧ find? text = none) :
    (findsFrom find? covered start text).map value =
      (findsFrom find? covered start' soft).map value := by
  induction h generalizing covered start start' with
  | nil => simp [findsFrom]
  | padding =>
    have hspace : find? [' '] = none := by
      have h := hfind .padding
      rw [hblank .nil] at h
      exact h.eq_none
    cases covered with
    | zero =>
      rw [findsFrom_zero_of_none hspace]
      simp [findsFrom]
    | succ covered => simp [findsFrom]
  | @keep padded text soft c h ih =>
    have hrest := ih 0 (Or.inl (Eq.refl (c == '\n')))
    have hhere := hfind (.keep c h)
    cases covered with
    | succ covered => exact ih covered (Or.inl rfl)
    | zero =>
      rcases hstart with rfl | ⟨rfl, hnone⟩
      · cases start' with
        | false => exact hrest
        | true =>
          cases htext : find? (c :: text) with
          | none =>
            rw [htext] at hhere
            rw [findsFrom_zero_of_none htext, findsFrom_zero_of_none hhere.eq_none, hrest]
          | some found =>
            rw [htext] at hhere
            obtain ⟨found', hsoft, hvalue, hlength⟩ := hhere.exists_of_some
            rw [findsFrom, findsFrom, htext, hsoft]
            dsimp only
            rw [List.map_cons, List.map_cons, hvalue, hlength, ih _ (Or.inl rfl)]
      · rw [findsFrom_zero_of_none hnone]
        exact hrest
  | @newline padded text soft hnext h ih =>
    have htext : find? ('\n' :: text) = none := hblank (.newline text)
    have hsoft : find? (' ' :: soft) = none := by
      have h := hfind (.newline hnext h)
      rw [htext] at h
      exact h.eq_none
    have hspace : (' ' == '\n') = false := by decide
    -- a blank line begins behind the newline, and none behind the space
    cases covered with
    | zero =>
      rw [findsFrom_zero_of_none htext, findsFrom_zero_of_none hsoft]
      exact ih 0 (Or.inr ⟨hspace, hblank hnext⟩)
    | succ covered => exact ih covered (Or.inr ⟨hspace, hblank hnext⟩)

end Finds

/-! ## Registrations in a softened text -/

section Registrations

variable {padded : Bool} {text soft : List Char}

theorem dropStart_softened (h : Softened padded text soft) {start : List Char}
    (hstart : ∀ c ∈ start, isBlank c = false) :
    Softened padded (dropStart start text) (dropStart start soft) := by
  have hafter := h.after? hstart
  unfold dropStart
  generalize after? start text = rest? at hafter ⊢
  generalize after? start soft = rest?' at hafter ⊢
  cases hafter with
  | some hrest => exact hrest
  | none => exact h

theorem afterCall?_softened (h : Softened padded text soft) (name : Word) :
    Option.Rel (Softened padded) (afterCall? name.chars text) (afterCall? name.chars soft) := by
  have hname : ∀ c ∈ name.chars, isBlank c = false :=
    fun c hc => isBlank_eq_false (name.isWord_chars c hc)
  have hsite : ∀ c ∈ ".site".toList, isBlank c = false := by decide
  have hregister : ∀ c ∈ ".register".toList, isBlank c = false := by decide
  have hopen : ∀ c ∈ ['('], isBlank c = false := by decide
  exact (h.after? hname).bind fun h =>
    (dropStart_softened (dropStart_softened h hsite) hregister).after? hopen

theorem beginsSiteArgument_eq (text : List Char) : beginsSiteArgument text =
    (((after? [','] text).bind fun rest => after? "site".toList (rest.dropWhile isBlank)).bind
      (fun rest => (rest.dropWhile isBlank).head?) == some '=') := by
  unfold beginsSiteArgument
  cases after? [','] text with
  | none => rfl
  | some rest =>
    dsimp only [Option.bind_some]
    cases after? "site".toList (rest.dropWhile isBlank) <;> rfl

theorem beginsSiteArgument_softened (h : Softened padded text soft) :
    beginsSiteArgument text = beginsSiteArgument soft := by
  have hcomma : ∀ c ∈ [','], isBlank c = false := by decide
  have hsite : ∀ c ∈ "site".toList, isBlank c = false := by decide
  have hafter := (h.after? hcomma).bind fun h => h.after?_dropWhile_isBlank (by decide) hsite
  rw [beginsSiteArgument_eq, beginsSiteArgument_eq,
    hafter.bind_eq fun h => h.head?_dropWhile_isBlank]

theorem beforeSiteArgument_isPrefix (text : List Char) : beforeSiteArgument text <+: text := by
  induction text with
  | nil => exact List.prefix_rfl
  | cons c text ih =>
    rw [beforeSiteArgument]
    split_ifs
    · exact List.nil_prefix
    · exact List.cons_prefix_cons.2 ⟨rfl, ih⟩

theorem exists_beforeSiteArgument_softened (h : Softened padded text soft) :
    ∃ padded, Softened padded (beforeSiteArgument text) (beforeSiteArgument soft) := by
  induction h with
  | nil => exact ⟨false, .nil⟩
  | padding => exact ⟨true, .padding⟩
  | keep c h ih =>
    rw [beforeSiteArgument, beforeSiteArgument, ← beginsSiteArgument_softened (.keep c h)]
    split_ifs
    · exact ⟨false, .nil⟩
    · obtain ⟨padded, ih⟩ := ih
      exact ⟨padded, .keep c ih⟩
  | newline hblank h ih =>
    rw [beforeSiteArgument, beforeSiteArgument,
      ← beginsSiteArgument_softened (.newline hblank h)]
    split_ifs
    · exact ⟨false, .nil⟩
    · obtain ⟨padded, ih⟩ := ih
      exact ⟨padded, .newline (hblank.of_prefix (beforeSiteArgument_isPrefix _)) ih⟩

theorem decorator?_of_isBlank_head (name : List Char)
    (h : ∀ c ∈ (text.dropWhile isIndent).head?, isBlank c = true) :
    decorator? name text = none := by
  unfold decorator?
  rw [after?_of_isBlank_head h (by decide)]
  rfl

theorem call?_of_isBlank_head (name : Word)
    (h : ∀ c ∈ (text.dropWhile isIndent).head?, isBlank c = true) :
    call? name.chars text = none := by
  obtain ⟨c, rest, hchars, hc⟩ := name.exists_chars_eq_cons
  unfold call? afterCall?
  rw [hchars, after?_of_isBlank_head h (isBlank_eq_false hc)]
  rfl

/-- The same models stand in a decorator; white space between them may differ. -/
theorem decorator?_softened (h : Softened padded text soft) (name : Word) :
    Option.Rel (SameFind words) (decorator? name.chars text) (decorator? name.chars soft) := by
  have hat : ∀ c ∈ ['@'], isBlank c = false := by decide
  have hlength := h.length_eq
  rcases h.dropWhile_isIndent with h | ⟨htext, hsoft⟩
  · unfold decorator?
    simp only [Option.bind_eq_bind]
    refine (h.after? hat).bind fun h => ?_
    refine (afterCall?_softened h name).bind fun {arguments arguments'} h => ?_
    -- the arguments end at the same parenthesis
    obtain ⟨_, htake⟩ := h.exists_takeWhile (· != ')') rfl
    obtain ⟨_, hbefore⟩ := exists_beforeSiteArgument_softened htake
    rcases h.dropWhile_of_drops (· != ')') rfl rfl with
      ⟨htext, hsoft⟩ | ⟨c, rest, rest', htext, hsoft, h⟩
    · rw [htext, hsoft]
      exact .none
    · have hrest := h.length_eq
      have hcovered : text.length - rest.length = soft.length - rest'.length := by omega
      rw [htext, hsoft]
      exact .some ⟨hbefore.words_eq, hcovered⟩
  · rw [decorator?_of_isBlank_head _ htext, decorator?_of_isBlank_head _ hsoft]
    exact .none

theorem call?_softened (h : Softened padded text soft) (name : Word) :
    call? name.chars text = call? name.chars soft := by
  have hlength := h.length_eq
  rcases h.dropWhile_isIndent with h | ⟨htext, hsoft⟩
  · unfold call?
    simp only [Option.bind_eq_bind]
    refine (afterCall?_softened h name).bind_eq fun {arguments arguments'} h => ?_
    rcases h.dropWhile_of_drops isBlank (by decide) (by decide) with
      ⟨htext, hsoft⟩ | ⟨c, rest, rest', htext, hsoft, h⟩
    · rw [htext, hsoft]
      rfl
    · have hkeep := Softened.keep c h
      have hrest := (hkeep.dropWhile_of_keeps isWord (by decide) (by decide)).length_eq
      have hcovered : text.length - ((c :: rest).dropWhile isWord).length =
          soft.length - ((c :: rest').dropWhile isWord).length := by omega
      rw [htext, hsoft, hkeep.takeWhile_isWord, hcovered]
  · rw [call?_of_isBlank_head _ htext, call?_of_isBlank_head _ hsoft]

/-- The same models are registered in a softened text. -/
theorem registered_softened (compiler : Compiler) (h : Softened padded text soft) (name : Word) :
    registered compiler name.chars text = registered compiler name.chars soft := by
  have hdecorators : (finds (decorator? name.chars) text).map words =
      (finds (decorator? name.chars) soft).map words :=
    findsFrom_softened (fun h => decorator?_softened h name)
      (fun h => decorator?_of_isBlank_head _ h.head?_dropWhile_isIndent) h 0 (Or.inl rfl)
  have hcalls : finds (call? name.chars) text = finds (call? name.chars) soft := by
    have hsame (found? : Option (List Char × Nat)) : Option.Rel (SameFind id) found? found? := by
      cases found? with
      | none => exact .none
      | some found => exact .some ⟨rfl, rfl⟩
    have hfinds : (finds (call? name.chars) text).map id = (finds (call? name.chars) soft).map id :=
      findsFrom_softened (fun h => call?_softened h name ▸ hsame _)
        (fun h => call?_of_isBlank_head name h.head?_dropWhile_isIndent) h 0 (Or.inl rfl)
    rwa [List.map_id, List.map_id] at hfinds
  unfold registered registeredUnder
  rw [interleave_eq_rounds, interleave_eq_rounds, hdecorators, hcalls]

end Registrations

end SiteSurvey.Admin
