import SiteSurvey.Proofs.Walk.Footprint

/-!
# Walks that always descend

A walk that always descends meets the directories of its descent one after another (`walkAll_eq`).
The descent of a narrower walk, which goes less deep or ignores more, is what is left of the wider
one without the names that are too many or ignored (`descent_eq_filter`).
-/

namespace SiteSurvey

/-- A directory comes before the directories inside it. -/
theorem Precedes.append_cons (view : FileView) (root : Path) (names : List String) (name : String)
    (more : List String) : Precedes view root names (names ++ name :: more) := by
  induction names generalizing root with
  | nil => exact .above
  | cons first names ih => exact .inside (ih (root.join first))

section Descent

variable (view : FileView) (ignored : String → Bool)

/-- The names that lead to the directories that a walk comes to if it always descends, in order. -/
def descent (depth : Nat) (root : Path) : List (List String) :=
  addresses view ignored (fun _ _ => .descend) depth root

theorem walkAll_eq (depth : Nat) (root : Path) :
    walkAll view ignored depth root =
      (descent view ignored depth root).map fun names => eventAt view (root.place names) :=
  walk_unstopped_events view ignored (fun _ _ => .descend) depth root

theorem mem_descent_iff (depth : Nat) (root : Path) (names : List String) :
    names ∈ descent view ignored depth root ↔
      Reaches view ignored (fun _ _ => .descend) depth root names :=
  mem_addresses_iff ..

theorem pairwise_descent (depth : Nat) (root : Path) :
    (descent view ignored depth root).Pairwise (Precedes view root) :=
  pairwise_addresses ..

variable {view ignored}

theorem nodup_descent (hview : view.HasPlainListings) (depth : Nat) (root : Path) :
    (descent view ignored depth root).Nodup :=
  (pairwise_descent view ignored depth root).imp fun h => h.ne hview

theorem descent_succ (depth : Nat) (root : Path) :
    descent view ignored (depth + 1) root =
      [] :: (entered view ignored (fun _ _ => .descend) (depth + 1) root).flatMap fun name =>
        (descent view ignored depth (root.join name)).map (name :: ·) := rfl

end Descent

/-! ## Narrower walks -/

/-- A directory that a walk of some depth may come to past what it ignores. -/
def IsKept (ignored : String → Bool) (depth : Nat) (names : List String) : Prop :=
  names.length ≤ depth ∧ ∀ name ∈ names, ignored name = false

instance (ignored : String → Bool) (depth : Nat) (names : List String) :
    Decidable (IsKept ignored depth names) :=
  inferInstanceAs (Decidable (_ ∧ _))

section Narrower

variable {view : FileView} {ignored wider : String → Bool}

theorem isKept_nil (depth : Nat) : IsKept ignored depth [] :=
  ⟨Nat.zero_le _, fun _ h => absurd h List.not_mem_nil⟩

theorem isKept_cons_iff (depth : Nat) (name : String) (names : List String) :
    IsKept ignored (depth + 1) (name :: names) ↔
      ignored name = false ∧ IsKept ignored depth names := by
  unfold IsKept
  rw [List.length_cons, List.forall_mem_cons, Nat.add_le_add_iff_right, and_left_comm]

theorem filter_isKept_map_cons (depth : Nat) (name : String) (addresses : List (List String)) :
    (addresses.map (name :: ·)).filter (IsKept ignored (depth + 1) ·) =
      if ignored name then [] else (addresses.filter (IsKept ignored depth ·)).map (name :: ·) := by
  rw [List.filter_map]
  split_ifs with h
  · rw [List.map_eq_nil_iff, List.filter_eq_nil_iff]
    intro names _
    simp [isKept_cons_iff, h]
  · congr 1
    refine List.filter_congr fun names _ => ?_
    simp [isKept_cons_iff, h]

/-- Members that give nothing may be left out first. -/
theorem flatMap_filter_eq {α β : Type} {keep : α → Bool} {f g : α → List β}
    (hkeep : ∀ x, keep x = true → f x = g x) (hdrop : ∀ x, keep x = false → g x = [])
    (xs : List α) : (xs.filter keep).flatMap f = xs.flatMap g := by
  induction xs with
  | nil => rfl
  | cons x xs ih =>
    cases h : keep x with
    | true => rw [List.filter_cons_of_pos h, List.flatMap_cons, List.flatMap_cons, hkeep x h, ih]
    | false =>
      rw [List.filter_cons_of_neg (by simp [h]), List.flatMap_cons, hdrop x h, ih, List.nil_append]

theorem entered_eq_filter (h : ∀ name, wider name = true → ignored name = true)
    (depth depth' : Nat) (root : Path) :
    entered view ignored (fun _ _ => .descend) (depth + 1) root =
      (entered view wider (fun _ _ => .descend) (depth' + 1) root).filter (!ignored ·) := by
  unfold entered
  rcases view.list root with error | listing
  · rfl
  · dsimp only
    rw [if_pos rfl, if_pos rfl, List.filter_filter]
    refine List.filter_congr fun name _ => ?_
    cases hwider : wider name with
    | false => simp
    | true => simp [h name hwider]

/-- A walk that goes less deep and ignores more comes to the directories that are kept, in order. -/
theorem descent_eq_filter (h : ∀ name, wider name = true → ignored name = true)
    {depth depth' : Nat} (hdepth : depth ≤ depth') (root : Path) :
    descent view ignored depth root =
      (descent view wider depth' root).filter (IsKept ignored depth ·) := by
  induction depth generalizing depth' root with
  | zero =>
    cases depth' with
    | zero => rfl
    | succ depth' =>
      have hdeep : (((entered view wider (fun _ _ => .descend) (depth' + 1) root).flatMap
          fun name => (descent view wider depth' (root.join name)).map (name :: ·)).filter
            (IsKept ignored 0 ·)) = [] := by
        rw [List.filter_eq_nil_iff]
        intro names hnames hkept
        obtain ⟨name, -, hmem⟩ := List.mem_flatMap.1 hnames
        obtain ⟨names, -, rfl⟩ := List.mem_map.1 hmem
        exact absurd (of_decide_eq_true hkept).1 (Nat.not_succ_le_zero _)
      rw [descent_succ, List.filter_cons_of_pos (by simp [isKept_nil]), hdeep]
      rfl
  | succ depth ih =>
    obtain ⟨depth', rfl⟩ := Nat.exists_eq_succ_of_ne_zero (Nat.ne_zero_of_lt hdepth)
    rw [descent_succ, descent_succ, List.filter_cons_of_pos (by simp [isKept_nil]),
      entered_eq_filter h depth depth', List.filter_flatMap]
    congr 1
    refine flatMap_filter_eq (fun name hname => ?_) (fun name hname => ?_) _
    · rw [filter_isKept_map_cons, if_neg (by simpa using hname),
        ih (Nat.le_of_succ_le_succ hdepth)]
    · rw [filter_isKept_map_cons, if_pos (by simpa using hname)]

end Narrower

end SiteSurvey
