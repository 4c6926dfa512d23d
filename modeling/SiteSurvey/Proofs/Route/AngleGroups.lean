import SiteSurvey.Proofs.Route.Argument
import SiteSurvey.Proofs.Source.Balance
import SiteSurvey.Route.Table

/-!
# Placeholders as angle groups

In a text whose angle brackets do not nest, whose `>` all have their `<`, and in which no pair of
them is empty, the placeholders are the groups of angle brackets. The arguments of a route may then
be read off the groups with their brackets or without them (`groups_eq_placeholders`).
-/

namespace SiteSurvey.Route

open Source

/-! ## Flat texts -/

/-- With `depth` angle brackets open before the text, none or one is open at each place of it. -/
def IsFlat (depth : Nat) (text : List Char) : Prop :=
  ∀ start, start <+: text →
    depth + start.count '<' = start.count '>' ∨ depth + start.count '<' = start.count '>' + 1

instance (depth : Nat) (text : List Char) : Decidable (IsFlat depth text) :=
  decidable_of_iff (∀ start ∈ text.inits,
      depth + start.count '<' = start.count '>' ∨ depth + start.count '<' = start.count '>' + 1)
    (by simp only [IsFlat, List.mem_inits])

namespace IsFlat

variable {depth depth' : Nat} {c : Char} {text start : List Char}

theorem depth_le (h : IsFlat depth text) : depth ≤ 1 := by
  have hdepth := h [] List.nil_prefix
  simp only [List.count_nil] at hdepth
  omega

theorem of_prefix (h : IsFlat depth text) (hs : start <+: text) : IsFlat depth start :=
  fun _ hother => h _ (hother.trans hs)

theorem of_cons (h : IsFlat depth (c :: text))
    (hd : depth' + [c].count '>' = depth + [c].count '<') : IsFlat depth' text := by
  intro start hs
  have hflat := h (c :: start) (List.cons_prefix_cons.2 ⟨rfl, hs⟩)
  rw [Bracket.count_cons _ c start, Bracket.count_cons _ c start] at hflat
  omega

end IsFlat

/-- A pair of angle brackets with nothing between them. -/
def emptyPair : List Char :=
  ['<', '>']

theorem not_infix_of_cons {c : Char} {text : List Char} (h : ¬ emptyPair <:+: c :: text) :
    ¬ emptyPair <:+: text :=
  fun hi => h (hi.trans (List.suffix_cons c text).isInfix)

/-! ## Two readings of one text -/

/-- Nothing is held outside of brackets, and between them no empty pair is about to be closed. -/
inductive Holds : (depth : Nat) → (held text : List Char) → Prop
  | outside (text : List Char) : Holds 0 [] text
  | opened {text : List Char} (h : text.head? ≠ some '>') : Holds 1 ['<'] text
  | named {held : List Char} (h : 1 < held.length) (text : List Char) : Holds 1 held text

/-- A character that is no bracket goes to the name, if a placeholder is open. -/
theorem Holds.pass {depth : Nat} {held : List Char} {c : Char} {text : List Char}
    (h : Holds depth held (c :: text)) :
    Holds depth (if depth = 0 then [] else c :: held) text := by
  cases h with
  | outside => exact .outside text
  | opened =>
    have hlength : 1 < [c, '<'].length := Nat.lt_add_one 1
    exact .named hlength text
  | named h =>
    have hlength : 1 < (c :: held).length := Nat.lt_succ_of_lt h
    exact .named hlength text

/-- What is held of a placeholder, if one is open. -/
def heldAt (depth : Nat) (held : List Char) : Option (List Char) :=
  if depth = 0 then none else some held

/-- The open placeholder is the open group, and both readings hold the same of it. -/
theorem groupsFrom_eq_placeholdersFrom {depth : Nat} {held text : List Char} (offset : Nat)
    (hflat : IsFlat depth text) (hnamed : ¬ emptyPair <:+: text) (hheld : Holds depth held text) :
    Bracket.angle.groupsFrom offset depth held text =
      .ok (placeholdersFrom (heldAt depth held) text) := by
  induction depth, text using Bracket.angle.depth_induction generalizing offset held with
  | nil depth =>
    rw [Bracket.groupsFrom, placeholdersFrom]
  | opener depth text ih =>
    -- at most one bracket is open, so none was before this one
    have hrest : IsFlat (depth + 1) text := hflat.of_cons rfl
    obtain rfl : depth = 0 := Nat.le_zero.1 (Nat.le_of_succ_le_succ hrest.depth_le)
    have hhead : text.head? ≠ some '>' := by
      intro hclose
      obtain ⟨rest, rfl⟩ := List.head?_eq_some_iff.1 hclose
      exact hnamed ⟨[], rest, rfl⟩
    cases hheld
    rw [Bracket.groupsFrom_opener]
    exact ih _ hrest (not_infix_of_cons hnamed) (.opened hhead)
  | unmatched text =>
    have hclose := hflat ['>'] ⟨text, rfl⟩
    simp at hclose
  | outermost text ih =>
    have hrest : IsFlat 0 text := hflat.of_cons rfl
    cases hheld with
    | opened h => exact absurd rfl h
    | named h =>
      have hlength : held.length ≠ 1 := Nat.ne_of_gt h
      have hclose : placeholdersFrom (some held) ('>' :: text) =
          ('>' :: held).reverse :: placeholdersFrom none text := by
        rw [placeholdersFrom, if_neg (by decide)]
        rw [if_pos rfl, if_neg hlength]
      rw [Bracket.groupsFrom_closer_one, ih _ hrest (not_infix_of_cons hnamed) (.outside text)]
      exact congrArg Except.ok hclose.symm
  | nested depth text ih => exact absurd hflat.depth_le (by omega)
  | other depth c text ho hc ih =>
    have ho' : c ≠ '<' := ho
    have hc' : c ≠ '>' := hc
    have hopener : '<' ∉ [c] := by simpa using ho'.symm
    have hcloser : '>' ∉ [c] := by simpa using hc'.symm
    have hrest : IsFlat depth text :=
      hflat.of_cons (by rw [List.count_cons_of_ne hc', List.count_cons_of_ne ho']; rfl)
    rw [Bracket.groupsFrom_other _ _ _ _ ho hc,
      ih _ hrest (not_infix_of_cons hnamed) hheld.pass]
    cases hheld with
    | outside => exact congrArg Except.ok (placeholders_append hopener text).symm
    | opened => exact congrArg Except.ok (placeholdersFrom_some_append hopener hcloser _ text).symm
    | named => exact congrArg Except.ok (placeholdersFrom_some_append hopener hcloser _ text).symm

/-- A placeholder that is never closed adds nothing. -/
theorem placeholdersFrom_append_unclosed {name : List Char} (hopen : '<' ∉ name)
    (hclose : '>' ∉ name) (held : Option (List Char)) (before : List Char) :
    placeholdersFrom held (before ++ '<' :: name) = placeholdersFrom held before := by
  induction before generalizing held with
  | nil =>
    have hopened : placeholdersFrom held ('<' :: name) = placeholdersFrom (some ['<']) name := by
      cases held <;> rfl
    have hname := placeholdersFrom_some_append hopen hclose ['<'] []
    rw [List.append_nil] at hname
    rw [List.nil_append, hopened, hname]
    cases held <;> rfl
  | cons c before ih =>
    cases held with
    | none => simp only [List.cons_append, placeholdersFrom, ih]
    | some token => simp only [List.cons_append, placeholdersFrom, ih]

/-! ## Arguments of groups -/

theorem Argument.bareToken_of_not_mem {name : List Char} (hopen : '<' ∉ name)
    (hclose : '>' ∉ name) : bareToken name = name := by
  have hstart : Text.dropStart ['<'] name = name := by
    cases name with
    | nil => rfl
    | cons c name =>
      rw [List.mem_cons, not_or] at hopen
      rw [Text.dropStart, Text.after?, if_neg hopen.1, Option.getD_none]
  have hend : name.getLast? ≠ some '>' := fun h => hclose (List.mem_of_mem_getLast? h)
  rw [bareToken, hstart, if_neg hend]

/-- The argument of a placeholder does not need the angle brackets around it. -/
theorem IsToken.ofToken_inside {token : List Char} (h : IsToken token) :
    Argument.ofToken (Bracket.inside token) = Argument.ofToken token := by
  obtain ⟨name, rfl, hopen, hclose⟩ := h
  have hinside : Bracket.inside ('<' :: (name ++ ['>'])) = name := by
    rw [Bracket.inside, List.tail_cons, List.dropLast_concat]
  rw [hinside, Argument.ofToken, Argument.ofToken, Argument.bareToken_token,
    Argument.bareToken_of_not_mem hopen hclose]

/-- In a flat text the placeholders are the groups of angle brackets. -/
theorem groups_of_isFlat {text : List Char} (hflat : IsFlat 0 text)
    (hnamed : ¬ emptyPair <:+: text) : Bracket.angle.groups text = .ok (placeholders text) :=
  groupsFrom_eq_placeholdersFrom 0 hflat hnamed (.outside text)

/--
If angle brackets are flat and no pair of them is empty, the placeholders of a text are its groups
of angle brackets, and a last `<` that is never closed is part of neither. The arguments of a route
are those of the groups, with or without the brackets.
-/
theorem groups_eq_placeholders (text : List Char) (hflat : IsFlat 0 text)
    (hnamed : ¬ emptyPair <:+: text) :
    Bracket.angle.groups text = .ok (placeholders text) ∧
      (∀ before name, text = before ++ '<' :: name → '<' ∉ name → '>' ∉ name →
        Bracket.angle.groups text = Bracket.angle.groups before ∧
          placeholders text = placeholders before) ∧
      ∃ contents, Bracket.angle.contents text = .ok contents ∧
        contents.map Argument.ofToken = (placeholders text).map Argument.ofToken ∧
        ∀ space route, ofTuple? space text = some route →
          route.args = contents.map Argument.ofToken := by
  have hgroups := groups_of_isFlat hflat hnamed
  have hargs : ((placeholders text).map Bracket.inside).map Argument.ofToken =
      (placeholders text).map Argument.ofToken := by
    rw [List.map_map]
    exact List.map_congr_left fun token htoken =>
      (isToken_of_mem_placeholders htoken).ofToken_inside
  refine ⟨hgroups, ?_, (placeholders text).map Bracket.inside, ?_, hargs, ?_⟩
  · rintro before name rfl hopen hclose
    have hbefore := List.prefix_append before ('<' :: name)
    have hsame : placeholders (before ++ '<' :: name) = placeholders before :=
      placeholdersFrom_append_unclosed hopen hclose none before
    have hgroups' : Bracket.angle.groups before = .ok (placeholders before) :=
      groups_of_isFlat (hflat.of_prefix hbefore) fun hi => hnamed (hi.trans hbefore.isInfix)
    exact ⟨by rw [hgroups, hgroups', hsame], hsame⟩
  · rw [Bracket.contents, hgroups]
    rfl
  · intro space route hroute
    obtain ⟨name, -, rfl⟩ := Option.map_eq_some_iff.1 hroute
    exact hargs.symm

/-- Letters of two bytes around the brackets, a placeholder twice, and one that is never closed. -/
theorem groups_eq_placeholders_album :
    let tuple := "('é/<int:pk>/<né>-<int:pk>/', name='album', <slug".toList
    IsFlat 0 tuple ∧ ¬ emptyPair <:+: tuple ∧
      Bracket.angle.groups tuple = .ok ["<int:pk>".toList, "<né>".toList, "<int:pk>".toList] ∧
      ofTuple? (.app "core") tuple = some ⟨"album", true,
        [⟨"pk", some .integer⟩, ⟨"né", none⟩, ⟨"pk", some .integer⟩], "core:album"⟩ ∧
      ["int:pk".toList, "né".toList, "int:pk".toList].map Argument.ofToken =
        [⟨"pk", some .integer⟩, ⟨"né", none⟩, ⟨"pk", some .integer⟩] := by
  intro tuple
  have hflat : IsFlat 0 tuple := by decide +kernel
  have hnamed : ¬ emptyPair <:+: tuple := by decide +kernel
  have htokens : placeholders tuple =
      ["<int:pk>".toList, "<né>".toList, "<int:pk>".toList] := by decide +kernel
  have hcontents : Bracket.angle.contents tuple =
      .ok ["int:pk".toList, "né".toList, "int:pk".toList] := by decide +kernel
  have hroute : ofTuple? (.app "core") tuple = some ⟨"album", true,
      [⟨"pk", some .integer⟩, ⟨"né", none⟩, ⟨"pk", some .integer⟩], "core:album"⟩ := by
    decide +kernel
  obtain ⟨hgroups, -, contents, hok, -, hargs⟩ := groups_eq_placeholders tuple hflat hnamed
  obtain rfl := Except.ok.inj (hcontents.symm.trans hok)
  exact ⟨hflat, hnamed, by rw [hgroups, htokens], hroute, (hargs _ _ hroute).symm⟩

end SiteSurvey.Route
