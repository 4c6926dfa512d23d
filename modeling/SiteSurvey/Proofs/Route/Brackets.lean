import SiteSurvey.Proofs.Source.Balance
import SiteSurvey.Route.File

/-!
# Route files with unsound brackets

Comments aside, a route file is at fault exactly if one of its `]` is unmatched or, in one of its
top-level lists, one of the `)` is (`read_fault_eq_none_iff`).
-/

namespace SiteSurvey.Route

open Source

/-- A `]` of the text is unmatched, or a `)` in one of its top-level lists. -/
def IsUnsound (text : List Char) : Prop :=
  Bracket.square.HasUnmatched text ∨
    ∃ list, Bracket.square.IsTopGroup text list ∧ Bracket.round.HasUnmatched list

namespace File

theorem tuplesOfLists_isOk_iff (lists : List (List Char)) :
    (∃ tuples, tuplesOfLists lists = .ok tuples) ↔
      ∀ list ∈ lists, ¬ Bracket.round.HasUnmatched list := by
  induction lists with
  | nil => simp [tuplesOfLists]
  | cons list lists ih =>
    rw [List.forall_mem_cons, ← ih, ← Bracket.groups_isOk_iff, tuplesOfLists]
    rcases Bracket.round.groups list with fault | groups
    · simp
    · rcases tuplesOfLists lists with fault | tuples <;> simp [Except.map]

theorem tuplesOf_isOk_iff (text : List Char) :
    (∃ tuples, tuplesOf text = .ok tuples) ↔ ¬ IsUnsound text := by
  rw [IsUnsound, not_or, ← Bracket.groups_isOk_iff, tuplesOf]
  rcases hlists : Bracket.square.groups text with fault | lists
  · simp
  · simp [tuplesOfLists_isOk_iff, Bracket.mem_groups_iff hlists]

theorem read_fault_eq_none_iff (text source : String) :
    (read text source).fault = none ↔ ¬ IsUnsound (uncommentedJoined text.toList) := by
  rw [← tuplesOf_isOk_iff, read]
  rcases tuplesOf (uncommentedJoined text.toList) with fault | tuples <;> simp

end File

end SiteSurvey.Route
