import Mathlib.Data.List.Infix
import Mathlib.Data.String.Basic
import SiteSurvey.Proofs.Source.Balance

/-!
# The first unmatched closer

A text cannot be cut into groups exactly if some beginning of it has more closers than openers. The
fault then names the closer that ends the shortest such beginning, by the number of bytes before it
(`groups_unmatched`). What comes after that closer plays no part, and openers never do harm.
-/

namespace SiteSurvey.Source.Bracket

variable {bracket : Bracket}

/-! ## Beginnings with too many closers -/

/-- The shortest beginning of the text that has more closers than openers. -/
structure IsFirstExcess (bracket : Bracket) (text start : List Char) : Prop where
  stands : start <+: text
  excess : start.count bracket.opener < start.count bracket.closer
  least : ∀ other, other <+: text → other.count bracket.opener < other.count bracket.closer →
    start.length ≤ other.length

theorem IsBalanced.isFirstExcess {before : List Char} (h : bracket.IsBalanced before)
    (after : List Char) :
    bracket.IsFirstExcess (before ++ bracket.closer :: after) (before ++ [bracket.closer]) := by
  have hne := opener_ne_closer bracket
  have hstands : before ++ [bracket.closer] <+: before ++ bracket.closer :: after :=
    ⟨after, by rw [List.append_assoc, List.singleton_append]⟩
  refine ⟨hstands, ?_, fun other hother hexcess => ?_⟩
  · rw [List.count_append, List.count_append, List.count_cons_of_ne hne.symm, List.count_cons_self,
      h.settled]
    simp
  · by_contra hshort
    rw [List.length_append, List.length_singleton, not_le] at hshort
    have hbefore : other <+: before :=
      List.prefix_of_prefix_length_le hother (List.prefix_append ..) (Nat.lt_succ_iff.1 hshort)
    have hmatched := h.matched other hbefore
    omega

/-- A text with a closer too many has a first one. -/
theorem exists_first_unmatched {depth : Nat} {text : List Char}
    (h : ¬ bracket.ClosersMatched depth text) :
    ∃ before after, text = before ++ bracket.closer :: after ∧
      bracket.ClosersMatched depth before ∧
      before.count bracket.closer = depth + before.count bracket.opener := by
  induction text using List.reverseRecOn with
  | nil => exact absurd (closersMatched_nil depth) h
  | append_singleton init c ih =>
    by_cases hinit : bracket.ClosersMatched depth init
    · -- only the whole text has a closer too many, so its last character is that closer
      have hwhole : depth + (init ++ [c]).count bracket.opener <
          (init ++ [c]).count bracket.closer := by
        by_contra hwhole
        refine h fun start hs => ?_
        rcases List.prefix_concat_iff.1 hs with rfl | hs
        · exact not_lt.1 hwhole
        · exact hinit start hs
      have hle := hinit init List.prefix_rfl
      rw [List.count_append, List.count_append] at hwhole
      have hc : c = bracket.closer := by
        by_contra hc
        rw [List.count_cons_of_ne hc, List.count_nil] at hwhole
        omega
      subst hc
      rw [List.count_cons_self, List.count_nil] at hwhole
      exact ⟨init, [], rfl, hinit, by omega⟩
    · obtain ⟨before, after, rfl, hbefore⟩ := ih hinit
      exact ⟨before, after ++ [c], by simp, hbefore⟩

/-! ## Faults -/

/-- A text behind `offset` bytes ends where its rest behind its first character does. -/
theorem add_utf8Len_cons (offset : Nat) (c : Char) (text : List Char) :
    offset + String.utf8Len (c :: text) = offset + c.utf8Size + String.utf8Len text := by
  rw [String.utf8Len_cons, Nat.add_comm (String.utf8Len text), Nat.add_assoc]

/-- A closer behind a balanced beginning ends the cutting, whatever comes after it. -/
theorem groupsFrom_unmatched {depth : Nat} {before : List Char}
    (hmatched : bracket.ClosersMatched depth before)
    (hsettled : before.count bracket.closer = depth + before.count bracket.opener)
    (offset : Nat) (held after : List Char) :
    bracket.groupsFrom offset depth held (before ++ bracket.closer :: after) =
      .error ⟨bracket.closer, offset + String.utf8Len before⟩ := by
  have hne := opener_ne_closer bracket
  induction depth, before using bracket.depth_induction generalizing offset held with
  | nil depth =>
    obtain rfl : depth = 0 := by simpa using hsettled.symm
    exact groupsFrom_closer_zero ..
  | opener depth before ih =>
    rw [List.count_cons_of_ne hne, List.count_cons_self] at hsettled
    rw [List.cons_append, groupsFrom_opener, add_utf8Len_cons]
    exact ih ((closersMatched_opener ..).1 hmatched) (by omega) _ _
  | unmatched before => exact absurd hmatched (not_closersMatched_closer before)
  | outermost before ih =>
    rw [List.count_cons_of_ne hne.symm, List.count_cons_self] at hsettled
    rw [List.cons_append, groupsFrom_closer_one, add_utf8Len_cons,
      ih ((closersMatched_closer ..).1 hmatched) (by omega)]
    rfl
  | nested depth before ih =>
    rw [List.count_cons_of_ne hne.symm, List.count_cons_self] at hsettled
    rw [List.cons_append, groupsFrom_closer_succ, add_utf8Len_cons]
    exact ih ((closersMatched_closer ..).1 hmatched) (by omega) _ _
  | other depth c before ho hc ih =>
    rw [List.count_cons_of_ne ho, List.count_cons_of_ne hc] at hsettled
    rw [List.cons_append, groupsFrom_other _ _ _ _ ho hc, add_utf8Len_cons]
    exact ih ((closersMatched_other ho hc ..).1 hmatched) hsettled _ _

theorem groups_of_isBalanced {before : List Char} (h : bracket.IsBalanced before)
    (after : List Char) :
    bracket.groups (before ++ bracket.closer :: after) =
      .error ⟨bracket.closer, (String.ofList before).utf8ByteSize⟩ := by
  rw [groups, groupsFrom_unmatched h.matched (by rw [h.settled, Nat.zero_add]), Nat.zero_add,
    String.utf8ByteSize_ofList]

theorem groups_isError_iff (text : List Char) :
    (∃ fault, bracket.groups text = .error fault) ↔ bracket.HasUnmatched text := by
  rw [← not_iff_not, ← groups_isOk_iff]
  rcases bracket.groups text with fault | groups <;> simp

theorem contents_eq_error_iff (text : List Char) (fault : Unmatched) :
    bracket.contents text = .error fault ↔ bracket.groups text = .error fault := by
  rw [contents]
  rcases bracket.groups text with fault | groups <;> simp [Except.map]

theorem IsFirstExcess.unique {text start other : List Char} (h : bracket.IsFirstExcess text start)
    (h' : bracket.IsFirstExcess text other) : start = other := by
  have hle := h.least other h'.stands h'.excess
  have hge := h'.least start h.stands h.excess
  exact (List.prefix_of_prefix_length_le h.stands h'.stands hle).eq_of_length_le hge

/-- The fault is the closer that ends the shortest beginning with more closers than openers. -/
def IsFirstUnmatched (bracket : Bracket) (text : List Char) (fault : Unmatched) : Prop :=
  ∃ before after, text = before ++ bracket.closer :: after ∧
    bracket.IsFirstExcess text (before ++ [bracket.closer]) ∧
    fault = ⟨bracket.closer, (String.ofList before).utf8ByteSize⟩

theorem isFirstUnmatched_of_groups {text : List Char} {fault : Unmatched}
    (h : bracket.groups text = .error fault) : bracket.IsFirstUnmatched text fault := by
  have hunmatched : ¬ bracket.ClosersMatched 0 text := by
    rw [← groupsFrom_isOk_iff 0 0 []]
    rintro ⟨groups, hgroups⟩
    cases h.symm.trans hgroups
  obtain ⟨before, after, rfl, hmatched, hsettled⟩ := exists_first_unmatched hunmatched
  have hbefore : bracket.IsBalanced before := ⟨hmatched, by rw [hsettled, Nat.zero_add]⟩
  refine ⟨before, after, rfl, hbefore.isFirstExcess after, ?_⟩
  exact Except.error.inj (h.symm.trans (groups_of_isBalanced hbefore after))

theorem groups_eq_error_iff (text : List Char) (fault : Unmatched) :
    bracket.groups text = .error fault ↔ bracket.IsFirstUnmatched text fault := by
  refine ⟨isFirstUnmatched_of_groups, ?_⟩
  rintro ⟨before, after, rfl, hfirst, rfl⟩
  obtain ⟨fault, hfault⟩ := (groups_isError_iff _).2 ⟨_, hfirst.stands, hfirst.excess⟩
  obtain ⟨before', after', -, hfirst', rfl⟩ := isFirstUnmatched_of_groups hfault
  obtain rfl := List.append_cancel_right (hfirst.unique hfirst')
  exact hfault

/-! ## Openers -/

theorem ClosersMatched.mono {depth depth' : Nat} {text : List Char}
    (h : bracket.ClosersMatched depth text) (hdepth : depth ≤ depth') :
    bracket.ClosersMatched depth' text :=
  fun start hs => (h start hs).trans (Nat.add_le_add_right hdepth _)

theorem closersMatched_append_iff (depth : Nat) (text rest : List Char) :
    bracket.ClosersMatched depth (text ++ rest) ↔
      bracket.ClosersMatched depth text ∧
        bracket.ClosersMatched (depth + text.count bracket.opener - text.count bracket.closer)
          rest := by
  constructor
  · intro h
    refine ⟨fun start hs => h start (hs.trans (List.prefix_append ..)), fun start hs => ?_⟩
    have hstart := h (text ++ start) ((List.prefix_append_right_inj text).2 hs)
    rw [List.count_append, List.count_append] at hstart
    omega
  · rintro ⟨htext, hrest⟩ start hs
    rcases List.prefix_or_prefix_of_prefix hs (List.prefix_append text rest) with
      hshort | ⟨start, rfl⟩
    · exact htext start hshort
    · have hstart := hrest start ((List.prefix_append_right_inj text).1 hs)
      have hle := htext text List.prefix_rfl
      rw [List.count_append, List.count_append]
      omega

theorem closersMatched_replicate_opener (depth n : Nat) :
    bracket.ClosersMatched depth (List.replicate n bracket.opener) := by
  intro start hs
  have hcloser : bracket.closer ∉ start := fun hm =>
    opener_ne_closer bracket (List.eq_of_mem_replicate (hs.subset hm)).symm
  rw [List.count_eq_zero_of_not_mem hcloser]
  exact Nat.zero_le _

/-- Openers put into a text leave its closers matched. -/
theorem ClosersMatched.insert_openers {depth : Nat} {before after : List Char}
    (h : bracket.ClosersMatched depth (before ++ after)) (n : Nat) :
    bracket.ClosersMatched depth (before ++ (List.replicate n bracket.opener ++ after)) := by
  rw [closersMatched_append_iff] at h
  rw [closersMatched_append_iff, closersMatched_append_iff]
  refine ⟨h.1, closersMatched_replicate_opener _ n, h.2.mono ?_⟩
  rw [List.count_eq_zero_of_not_mem fun hm =>
    opener_ne_closer bracket (List.eq_of_mem_replicate hm).symm]
  omega

theorem groups_insert_openers {before after : List Char}
    (h : ∃ groups, bracket.groups (before ++ after) = .ok groups) (n : Nat) :
    ∃ groups, bracket.groups (before ++ (List.replicate n bracket.opener ++ after)) =
      .ok groups :=
  (groupsFrom_isOk_iff 0 0 [] _).2 (((groupsFrom_isOk_iff 0 0 [] _).1 h).insert_openers n)

/-! ## When and where cutting fails -/

/--
A text cannot be cut, with or without the brackets of its groups, exactly if some beginning of it
has more closers than openers. The fault then is the closer that ends the shortest such beginning,
at the number of bytes before it, whatever follows. A text that can be cut still can with more
openers anywhere in it.
-/
theorem groups_unmatched (bracket : Bracket) (text : List Char) :
    ((∃ fault, bracket.groups text = .error fault) ↔ bracket.HasUnmatched text) ∧
    (∀ fault, bracket.contents text = .error fault ↔ bracket.groups text = .error fault) ∧
    (∀ fault, bracket.groups text = .error fault →
      ∃ before after, text = before ++ bracket.closer :: after ∧ bracket.IsBalanced before ∧
        bracket.IsFirstExcess text (before ++ [bracket.closer]) ∧
        fault = ⟨bracket.closer, (String.ofList before).utf8ByteSize⟩ ∧
        ∀ other, bracket.groups (before ++ bracket.closer :: other) = .error fault) ∧
    (∀ before after, text = before ++ after → (∃ groups, bracket.groups text = .ok groups) →
      ∀ n, ∃ groups,
        bracket.groups (before ++ (List.replicate n bracket.opener ++ after)) = .ok groups) := by
  refine ⟨groups_isError_iff text, contents_eq_error_iff text, fun fault hfault => ?_, ?_⟩
  · have hunmatched : ¬ bracket.ClosersMatched 0 text := by
      rw [← groupsFrom_isOk_iff 0 0 []]
      rintro ⟨groups, hgroups⟩
      exact absurd (hfault.symm.trans hgroups) (by simp)
    obtain ⟨before, after, rfl, hmatched, hsettled⟩ := exists_first_unmatched hunmatched
    have hbefore : bracket.IsBalanced before := ⟨hmatched, by rw [hsettled, Nat.zero_add]⟩
    have heq : fault = ⟨bracket.closer, (String.ofList before).utf8ByteSize⟩ :=
      Except.error.inj (hfault.symm.trans (groups_of_isBalanced hbefore after))
    exact ⟨before, after, rfl, hbefore, hbefore.isFirstExcess after, heq,
      heq ▸ groups_of_isBalanced hbefore⟩
  · rintro before after rfl h n
    exact groups_insert_openers h n

/-- A closer behind a group and a letter of two bytes; before the group openers do no harm. -/
theorem groups_unmatched_cafe :
    Bracket.round.groups "é(ok)) x)".toList = .error ⟨')', 6⟩ ∧
      (∃ before after, "é(ok)) x)".toList = before ++ ')' :: after ∧
        Bracket.round.IsBalanced before ∧
        Bracket.round.IsFirstExcess "é(ok)) x)".toList (before ++ [')']) ∧
        (⟨')', 6⟩ : Unmatched) = ⟨')', (String.ofList before).utf8ByteSize⟩ ∧
        ∀ other, Bracket.round.groups (before ++ ')' :: other) = .error ⟨')', 6⟩) ∧
      Bracket.round.groups "é(ok)".toList = .ok ["(ok)".toList] ∧
      ∃ groups, Bracket.round.groups
        ("é".toList ++ (List.replicate 5 '(' ++ "(ok)".toList)) = .ok groups := by
  have hfault : Bracket.round.groups "é(ok)) x)".toList = .error ⟨')', 6⟩ := by decide +kernel
  have hgroups : Bracket.round.groups "é(ok)".toList = .ok ["(ok)".toList] := by decide +kernel
  obtain ⟨-, -, hplace, -⟩ := groups_unmatched .round "é(ok)) x)".toList
  obtain ⟨-, -, -, hopeners⟩ := groups_unmatched .round "é(ok)".toList
  exact ⟨hfault, hplace _ hfault, hgroups,
    hopeners "é".toList "(ok)".toList (by decide) ⟨_, hgroups⟩ 5⟩

end SiteSurvey.Source.Bracket
