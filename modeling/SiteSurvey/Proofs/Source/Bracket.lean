import Mathlib.Data.List.Basic
import SiteSurvey.Source.Bracket

/-!
# Groups of a text in pieces

Text without brackets of a kind adds no groups of that kind, and a bracketed text adds itself
(`HasGroups.append_free`, `HasGroups.append_group`).
-/

namespace SiteSurvey.Source.Bracket

variable {bracket : Bracket}

theorem opener_ne_closer (bracket : Bracket) : bracket.opener ≠ bracket.closer := by
  cases bracket <;> decide

/-- The text holds no bracket of the kind. -/
structure Free (bracket : Bracket) (text : List Char) : Prop where
  opener : bracket.opener ∉ text
  closer : bracket.closer ∉ text

theorem Free.tail {c : Char} {text : List Char} (h : bracket.Free (c :: text)) :
    bracket.Free text :=
  ⟨fun hm => h.1 (List.mem_cons_of_mem _ hm), fun hm => h.2 (List.mem_cons_of_mem _ hm)⟩

theorem Free.append {first rest : List Char} (h : bracket.Free first) (h' : bracket.Free rest) :
    bracket.Free (first ++ rest) :=
  ⟨fun hm => (List.mem_append.1 hm).elim h.1 h'.1, fun hm => (List.mem_append.1 hm).elim h.2 h'.2⟩

/-! ## One character -/

section Steps

variable (offset depth : Nat) (held rest : List Char)

theorem groupsFrom_opener :
    bracket.groupsFrom offset depth held (bracket.opener :: rest) =
      bracket.groupsFrom (offset + bracket.opener.utf8Size) (depth + 1) (bracket.opener :: held)
        rest := by
  rw [groupsFrom.eq_def]
  exact if_pos rfl

theorem groupsFrom_closer_zero :
    bracket.groupsFrom offset 0 held (bracket.closer :: rest) =
      .error ⟨bracket.closer, offset⟩ := by
  rw [groupsFrom.eq_def]
  exact (if_neg (opener_ne_closer bracket).symm).trans (if_pos rfl)

/-- The closer of an outermost group. -/
theorem groupsFrom_closer_one :
    bracket.groupsFrom offset 1 held (bracket.closer :: rest) =
      (bracket.groupsFrom (offset + bracket.closer.utf8Size) 0 [] rest).map
        ((bracket.closer :: held).reverse :: ·) := by
  rw [groupsFrom.eq_def]
  exact (if_neg (opener_ne_closer bracket).symm).trans (if_pos rfl)

theorem groupsFrom_closer_one_eq_ok_iff (groups : List (List Char)) :
    bracket.groupsFrom offset 1 held (bracket.closer :: rest) = .ok groups ↔
      ∃ later, bracket.groupsFrom (offset + bracket.closer.utf8Size) 0 [] rest = .ok later ∧
        groups = (bracket.closer :: held).reverse :: later := by
  rw [groupsFrom_closer_one]
  rcases bracket.groupsFrom (offset + bracket.closer.utf8Size) 0 [] rest with fault | later
  · simp [Except.map]
  · simp [Except.map, eq_comm]

theorem groupsFrom_closer_succ :
    bracket.groupsFrom offset (depth + 2) held (bracket.closer :: rest) =
      bracket.groupsFrom (offset + bracket.closer.utf8Size) (depth + 1) (bracket.closer :: held)
        rest := by
  rw [groupsFrom.eq_def]
  exact (if_neg (opener_ne_closer bracket).symm).trans (if_pos rfl)

/-- One character that is no bracket of the kind. -/
theorem groupsFrom_other {c : Char} (ho : c ≠ bracket.opener) (hc : c ≠ bracket.closer) :
    bracket.groupsFrom offset depth held (c :: rest) =
      bracket.groupsFrom (offset + c.utf8Size) depth (if depth = 0 then [] else c :: held)
        rest := by
  rw [groupsFrom.eq_def]
  exact (if_neg ho).trans (if_neg hc)

end Steps

/-- Induction along a text together with the depth that each character leads to. -/
@[elab_as_elim]
theorem depth_induction (bracket : Bracket) {motive : Nat → List Char → Prop}
    (nil : ∀ depth, motive depth [])
    (opener : ∀ depth text, motive (depth + 1) text → motive depth (bracket.opener :: text))
    (unmatched : ∀ text, motive 0 (bracket.closer :: text))
    (outermost : ∀ text, motive 0 text → motive 1 (bracket.closer :: text))
    (nested : ∀ depth text, motive (depth + 1) text →
      motive (depth + 2) (bracket.closer :: text))
    (other : ∀ depth c text, c ≠ bracket.opener → c ≠ bracket.closer → motive depth text →
      motive depth (c :: text)) :
    ∀ depth text, motive depth text := by
  intro depth text
  induction text generalizing depth with
  | nil => exact nil depth
  | cons c text ih =>
    by_cases ho : c = bracket.opener
    · subst ho
      exact opener depth text (ih (depth + 1))
    · by_cases hc : c = bracket.closer
      · subst hc
        rcases depth with _ | _ | depth
        · exact unmatched text
        · exact outermost text (ih 0)
        · exact nested depth text (ih (depth + 1))
      · exact other depth c text ho hc (ih depth)

/-! ## Pieces -/

theorem groupsFrom_cons_of_free {c : Char} {text : List Char} (h : bracket.Free (c :: text))
    (offset depth : Nat) (held rest : List Char) :
    bracket.groupsFrom offset depth held (c :: rest) =
      bracket.groupsFrom (offset + c.utf8Size) depth
        (if depth = 0 then [] else c :: held) rest :=
  groupsFrom_other offset depth held rest (fun e => h.1 (e ▸ List.mem_cons_self))
    fun e => h.2 (e ▸ List.mem_cons_self)

/-- The groups of a text, wherever it begins. -/
def HasGroups (bracket : Bracket) (text : List Char) (groups : List (List Char)) : Prop :=
  ∀ offset, bracket.groupsFrom offset 0 [] text = .ok groups

theorem HasGroups.nil : bracket.HasGroups [] [] := fun _ => rfl

theorem HasGroups.groups_eq {text : List Char} {groups : List (List Char)}
    (h : bracket.HasGroups text groups) : bracket.groups text = .ok groups :=
  h 0

theorem HasGroups.append_free {text rest : List Char} {groups : List (List Char)}
    (h : bracket.Free text) (hrest : bracket.HasGroups rest groups) :
    bracket.HasGroups (text ++ rest) groups := by
  intro offset
  induction text generalizing offset with
  | nil => exact hrest offset
  | cons c text ih =>
    rw [List.cons_append, groupsFrom_cons_of_free h, if_pos rfl]
    exact ih h.tail _

/-- Inside a group, text without brackets is held. -/
theorem groupsFrom_inside {text : List Char} (h : bracket.Free text) (offset depth : Nat)
    (held rest : List Char) :
    ∃ offset', bracket.groupsFrom offset (depth + 1) held (text ++ rest) =
      bracket.groupsFrom offset' (depth + 1) (text.reverse ++ held) rest := by
  induction text generalizing offset held with
  | nil => exact ⟨offset, rfl⟩
  | cons c text ih =>
    obtain ⟨offset', h'⟩ := ih h.tail (offset + c.utf8Size) (c :: held)
    refine ⟨offset', ?_⟩
    rw [List.cons_append, groupsFrom_cons_of_free h, if_neg (Nat.succ_ne_zero _), h',
      List.reverse_cons, List.append_assoc, List.singleton_append]

theorem HasGroups.append_group {inner rest : List Char} {groups : List (List Char)}
    (h : bracket.Free inner) (hrest : bracket.HasGroups rest groups) :
    bracket.HasGroups (bracket.opener :: (inner ++ bracket.closer :: rest))
      ((bracket.opener :: (inner ++ [bracket.closer])) :: groups) := by
  intro offset
  obtain ⟨offset', h'⟩ := groupsFrom_inside h (offset + bracket.opener.utf8Size) 0
    [bracket.opener] (bracket.closer :: rest)
  rw [groupsFrom_opener, h', groupsFrom_closer_one, hrest, List.reverse_cons, List.reverse_append,
    List.reverse_reverse]
  rfl

end SiteSurvey.Source.Bracket
