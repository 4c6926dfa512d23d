import Mathlib.Data.List.Forall2
import SiteSurvey.Proofs.Route.Brackets
import SiteSurvey.Proofs.Source.Composition

/-!
# The tuples of a text

The tuples of a text are the round groups of its square groups, in order. The first unmatched `]`
leaves a text without any, and so does the first unmatched `)` of the first list that has one
(`tuplesOf_eq_ok_iff`, `tuplesOf_eq_error_iff`). Cutting texts one after another gives what cutting
them in one go gives, as long as no group stays open between them (`cutting_composes`).
-/

namespace SiteSurvey.Route

open Source

/-! ## Tuples and faults -/

/-- The tuples are the round groups of the square groups of the text, in order. -/
def HasTuples (text : List Char) (tuples : List (List Char)) : Prop :=
  ∃ lists found, Bracket.square.SlicesInto text lists ∧
    List.Forall₂ Bracket.round.SlicesInto lists found ∧ tuples = found.flatten

/-- The bracket that leaves a text without tuples. -/
inductive HasFault (text : List Char) : Unmatched → Prop
  /-- The first unmatched `]` of the text. -/
  | square {fault : Unmatched} (h : Bracket.square.IsFirstUnmatched text fault) :
    HasFault text fault
  /-- The first unmatched `)` of the first list that has one, counted from the `[` of that list. -/
  | round {sound later : List (List Char)} {list : List Char} {fault : Unmatched}
    (hlists : Bracket.square.SlicesInto text (sound ++ list :: later))
    (hsound : ∀ other ∈ sound, ¬ Bracket.round.HasUnmatched other)
    (h : Bracket.round.IsFirstUnmatched list fault) : HasFault text fault

namespace File

/-! ## One list after another -/

theorem tuplesOfLists_cons_ok_iff (list : List Char) (lists tuples : List (List Char)) :
    tuplesOfLists (list :: lists) = .ok tuples ↔
      ∃ groups rest, Bracket.round.groups list = .ok groups ∧ tuplesOfLists lists = .ok rest ∧
        tuples = groups ++ rest := by
  rw [tuplesOfLists]
  rcases Bracket.round.groups list with fault | groups
  · simp
  · rcases tuplesOfLists lists with fault | rest
    · simp [Except.map]
    · simp [Except.map, eq_comm]

theorem tuplesOfLists_cons_error_iff (list : List Char) (lists : List (List Char))
    (fault : Unmatched) :
    tuplesOfLists (list :: lists) = .error fault ↔
      Bracket.round.groups list = .error fault ∨
        (∃ groups, Bracket.round.groups list = .ok groups) ∧
          tuplesOfLists lists = .error fault := by
  rw [tuplesOfLists]
  rcases Bracket.round.groups list with fault | groups
  · simp
  · rcases tuplesOfLists lists with fault | rest <;> simp [Except.map]

theorem tuplesOfLists_append {lists tuples : List (List Char)}
    (h : tuplesOfLists lists = .ok tuples) (later : List (List Char)) :
    tuplesOfLists (lists ++ later) = (tuplesOfLists later).map (tuples ++ ·) := by
  induction lists generalizing tuples with
  | nil =>
    cases h
    rw [List.nil_append]
    cases tuplesOfLists later <;> rfl
  | cons list lists ih =>
    obtain ⟨groups, rest, hgroups, hrest, rfl⟩ := (tuplesOfLists_cons_ok_iff ..).1 h
    rw [List.cons_append, tuplesOfLists, hgroups]
    dsimp only
    rw [ih hrest]
    cases tuplesOfLists later with
    | error fault => rfl
    | ok more => simp [Except.map]

theorem tuplesOfLists_eq_ok_iff (lists tuples : List (List Char)) :
    tuplesOfLists lists = .ok tuples ↔
      ∃ found, List.Forall₂ Bracket.round.SlicesInto lists found ∧ tuples = found.flatten := by
  induction lists generalizing tuples with
  | nil =>
    rw [tuplesOfLists, Except.ok.injEq]
    constructor
    · rintro rfl
      exact ⟨[], List.Forall₂.nil, rfl⟩
    · rintro ⟨found, ⟨⟩, rfl⟩
      rfl
  | cons list lists ih =>
    rw [tuplesOfLists_cons_ok_iff]
    constructor
    · rintro ⟨groups, rest, hgroups, hrest, rfl⟩
      obtain ⟨found, hfound, rfl⟩ := (ih rest).1 hrest
      rw [Bracket.groups_eq_ok_iff] at hgroups
      exact ⟨groups :: found, List.Forall₂.cons hgroups hfound, rfl⟩
    · rintro ⟨_, hlists, rfl⟩
      cases hlists with
      | cons hgroups hrest =>
        rw [← Bracket.groups_eq_ok_iff] at hgroups
        exact ⟨_, _, hgroups, (ih _).2 ⟨_, hrest, rfl⟩, rfl⟩

theorem tuplesOfLists_eq_error_iff (lists : List (List Char)) (fault : Unmatched) :
    tuplesOfLists lists = .error fault ↔
      ∃ sound list later, lists = sound ++ list :: later ∧
        (∀ other ∈ sound, ¬ Bracket.round.HasUnmatched other) ∧
        Bracket.round.IsFirstUnmatched list fault := by
  constructor
  · intro h
    induction lists with
    | nil => cases h
    | cons list lists ih =>
      rcases (tuplesOfLists_cons_error_iff list lists fault).1 h with hlist | ⟨hlist, hrest⟩
      · exact ⟨[], list, lists, rfl, List.forall_mem_nil _,
          (Bracket.groups_eq_error_iff list fault).1 hlist⟩
      · obtain ⟨sound, unsound, later, rfl, hsound, hfault⟩ := ih hrest
        rw [Bracket.groups_isOk_iff] at hlist
        exact ⟨list :: sound, unsound, later, rfl, List.forall_mem_cons.2 ⟨hlist, hsound⟩, hfault⟩
  · rintro ⟨sound, list, later, rfl, hsound, hfault⟩
    obtain ⟨tuples, htuples⟩ := (tuplesOfLists_isOk_iff sound).2 hsound
    rw [← Bracket.groups_eq_error_iff] at hfault
    rw [tuplesOfLists_append htuples,
      (tuplesOfLists_cons_error_iff list later fault).2 (Or.inl hfault)]
    rfl

/-! ## All lists of a text -/

theorem tuplesOf_ok_iff (text : List Char) (tuples : List (List Char)) :
    tuplesOf text = .ok tuples ↔
      ∃ lists, Bracket.square.groups text = .ok lists ∧ tuplesOfLists lists = .ok tuples := by
  rw [tuplesOf]
  rcases Bracket.square.groups text with fault | lists <;> simp

theorem tuplesOf_eq_ok_iff (text : List Char) (tuples : List (List Char)) :
    tuplesOf text = .ok tuples ↔ HasTuples text tuples := by
  simp only [tuplesOf_ok_iff, tuplesOfLists_eq_ok_iff, Bracket.groups_eq_ok_iff, HasTuples,
    exists_and_left]

theorem tuplesOf_eq_error_iff (text : List Char) (fault : Unmatched) :
    tuplesOf text = .error fault ↔ HasFault text fault := by
  rw [tuplesOf]
  constructor
  · intro h
    rcases hlists : Bracket.square.groups text with fault' | lists
    · rw [hlists] at h
      cases h
      exact HasFault.square ((Bracket.groups_eq_error_iff text fault).1 hlists)
    · rw [hlists] at h
      obtain ⟨sound, list, later, rfl, hsound, hfault⟩ :=
        (tuplesOfLists_eq_error_iff lists fault).1 h
      exact HasFault.round ((Bracket.groups_eq_ok_iff text _).1 hlists) hsound hfault
  · intro h
    cases h with
    | square h => rw [(Bracket.groups_eq_error_iff text fault).2 h]
    | round hlists hsound h =>
      rw [(Bracket.groups_eq_ok_iff text _).2 hlists]
      exact (tuplesOfLists_eq_error_iff _ fault).2 ⟨_, _, _, rfl, hsound, h⟩

/-! ## One text after another -/

theorem tuplesOf_append {text rest : List Char} {tuples later : List (List Char)}
    (h : tuplesOf text = .ok tuples) (hrest : tuplesOf rest = .ok later)
    (hs : text.count '[' = text.count ']') : tuplesOf (text ++ rest) = .ok (tuples ++ later) := by
  obtain ⟨lists, hlists, htuples⟩ := (tuplesOf_ok_iff text tuples).1 h
  obtain ⟨more, hmore, hlater⟩ := (tuplesOf_ok_iff rest later).1 hrest
  refine (tuplesOf_ok_iff _ _).2 ⟨lists ++ more, ?_, ?_⟩
  · rw [Bracket.groups_append hlists hs, hmore]
    rfl
  · rw [tuplesOfLists_append htuples, hlater]
    rfl

/-- The tuples of texts that leave no list open are found in all of them, in order. -/
theorem tuplesOf_flatMap_append {parts : List (List Char × List (List Char))}
    (h : ∀ part ∈ parts, tuplesOf part.1 = .ok part.2 ∧ part.1.count '[' = part.1.count ']')
    {rest : List Char} {later : List (List Char)} (hrest : tuplesOf rest = .ok later) :
    tuplesOf (parts.flatMap Prod.fst ++ rest) = .ok (parts.flatMap Prod.snd ++ later) := by
  induction parts with
  | nil => exact hrest
  | cons part parts ih =>
    obtain ⟨⟨hpart, hs⟩, hparts⟩ := List.forall_mem_cons.1 h
    rw [List.flatMap_cons, List.flatMap_cons, List.append_assoc, List.append_assoc]
    exact tuplesOf_append hpart (ih hparts) hs

/--
Behind a text that closes all its groups, another text is cut as it is by itself, its fault farther
on by the bytes before it. Each group is cut to itself, and so are all groups joined. The tuples of
several texts in a row are those of each, in order, if none but the last leaves a list open.
-/
theorem cutting_composes (bracket : Bracket) :
    (∀ bare text found, bracket.cut bare text = .ok found →
      text.count bracket.opener = text.count bracket.closer → ∀ rest,
        (∀ later, bracket.cut bare rest = .ok later →
          bracket.cut bare (text ++ rest) = .ok (found ++ later)) ∧
        ∀ fault, bracket.cut bare rest = .error fault →
          bracket.cut bare (text ++ rest) =
            .error ⟨fault.glyph, (String.ofList text).utf8ByteSize + fault.offset⟩) ∧
    (∀ text groups, bracket.groups text = .ok groups →
      (∀ group ∈ groups, bracket.groups group = .ok [group]) ∧
      bracket.groups groups.flatten = .ok groups) ∧
    (∀ text tuples rest later, tuplesOf text = .ok tuples → tuplesOf rest = .ok later →
      text.count '[' = text.count ']' → tuplesOf (text ++ rest) = .ok (tuples ++ later)) ∧
    ∀ parts : List (List Char × List (List Char)),
      (∀ part ∈ parts, tuplesOf part.1 = .ok part.2 ∧ part.1.count '[' = part.1.count ']') →
      ∀ rest later, tuplesOf rest = .ok later →
        tuplesOf (parts.flatMap Prod.fst ++ rest) = .ok (parts.flatMap Prod.snd ++ later) := by
  refine ⟨fun bare text found h hs rest => ?_, fun text groups h => ⟨?_, ?_⟩, ?_, ?_⟩
  · rw [Bracket.cut_append h hs]
    refine ⟨fun later hlater => ?_, fun fault hfault => ?_⟩
    · rw [hlater]
      rfl
    · rw [hfault]
      rfl
  · exact fun group hgroup => (Bracket.encloses_of_mem_groups h group hgroup).groups_eq
  · exact Bracket.groups_flatten (Bracket.encloses_of_mem_groups h)
  · exact fun text tuples rest later h hrest hs => tuplesOf_append h hrest hs
  · exact fun parts h rest later hrest => tuplesOf_flatMap_append h hrest

/-- Lists with a letter of two bytes before them, a `]` too many, and tuples in two lists. -/
theorem cutting_composes_cafe :
    Bracket.square.cut true "é[a[b]]".toList = .ok ["a[b]".toList] ∧
      Bracket.square.cut true "é[a[b]][c]".toList = .ok ["a[b]".toList, "c".toList] ∧
      Bracket.square.cut true "é[a[b]]]".toList = .error ⟨']', 8⟩ ∧
      Bracket.square.groups "[a[b]]".toList = .ok ["[a[b]]".toList] ∧
      Bracket.square.groups "[a[b]][c]".toList = .ok ["[a[b]]".toList, "[c]".toList] ∧
      tuplesOf "x = [p('a')] y = [q(b)]".toList = .ok ["('a')".toList, "(b)".toList] ∧
      tuplesOf "x = [p('a')] y = [q(b)] [(".toList = .ok ["('a')".toList, "(b)".toList] := by
  have hone : Bracket.square.cut true "é[a[b]]".toList = .ok ["a[b]".toList] := by
    decide +kernel
  have hgroups : Bracket.square.groups "é[a[b]]·[c]".toList =
      .ok ["[a[b]]".toList, "[c]".toList] := by decide +kernel
  have hfirst : tuplesOf "x = [p('a')]".toList = .ok ["('a')".toList] := by decide +kernel
  have hsecond : tuplesOf " y = [q(b)]".toList = .ok ["(b)".toList] := by decide +kernel
  obtain ⟨hcut, hself, happend, hparts⟩ := cutting_composes .square
  obtain ⟨heach, hall⟩ := hself _ _ hgroups
  refine ⟨hone, ?_, ?_, heach _ (by decide), hall, ?_, ?_⟩
  · exact (hcut true _ _ hone (by decide) "[c]".toList).1 ["c".toList] (by decide +kernel)
  · exact (hcut true _ _ hone (by decide) "]".toList).2 ⟨']', 0⟩ (by decide +kernel)
  · exact happend _ _ _ _ hfirst hsecond (by decide)
  · refine hparts
      [("x = [p('a')]".toList, ["('a')".toList]), (" y = [q(b)]".toList, ["(b)".toList])] ?_
      " [(".toList [] (by decide +kernel)
    exact List.forall_mem_cons.2
      ⟨⟨hfirst, by decide⟩, List.forall_mem_singleton.2 ⟨hsecond, by decide⟩⟩

end File

end SiteSurvey.Route
