import SiteSurvey.Proofs.Walk.Order

/-!
# What a walk looks at

A walk lists the directories that it may come to and no others: views that list these alike give one
walk (`walk_congr`), and each event tells what is found at one of them
(`exists_reaches_of_mem_events`).
-/

namespace SiteSurvey

theorem Path.place_append (root : Path) (names more : List String) :
    root.place (names ++ more) = (root.place names).place more :=
  List.foldl_append

theorem Trace.chain_congr {α : Type} {walk walk' : α → Trace} {xs : List α}
    (h : ∀ x ∈ xs, walk x = walk' x) : chain walk xs = chain walk' xs := by
  induction xs with
  | nil => rfl
  | cons x xs ih =>
    rw [List.forall_mem_cons] at h
    rw [chain, chain, h.1, ih h.2]

section Alike

variable {first second : FileView}

theorem eventAt_congr {path : Path} (h : first.list path = second.list path) :
    eventAt first path = eventAt second path := by
  rw [eventAt, eventAt, h]

theorem entered_congr {path : Path} (h : first.list path = second.list path)
    (ignored : String → Bool) (choose : Path → List String → Choice) (depth : Nat) :
    entered first ignored choose depth path = entered second ignored choose depth path := by
  rw [entered.eq_def, entered.eq_def, h]

/-- A walk depends on the listings of the directories that it may come to. -/
theorem walk_congr {ignored : String → Bool} {choose : Path → List String → Choice} {depth : Nat}
    {root : Path}
    (h : ∀ names, Reaches first ignored choose depth root names →
      first.list (root.place names) = second.list (root.place names)) :
    walk first ignored choose depth root = walk second ignored choose depth root := by
  induction depth generalizing root with
  | zero =>
    have hroot : first.list root = second.list root := h [] (reaches_nil ..)
    rw [walk_eq, walk_eq, eventAt_congr hroot]
    rfl
  | succ depth ih =>
    have hroot : first.list root = second.list root := h [] (reaches_nil ..)
    have hchain : Trace.chain (fun name => walk first ignored choose depth (root.join name))
        (entered first ignored choose (depth + 1) root) =
        Trace.chain (fun name => walk second ignored choose depth (root.join name))
          (entered first ignored choose (depth + 1) root) := by
      refine Trace.chain_congr fun name hname => ih fun names hnames => ?_
      have henters := (mem_entered_iff first ignored choose depth root name).1 hname
      exact h (name :: names) ((reaches_cons_iff ..).2 ⟨henters, hnames⟩)
    rw [walk_eq, walk_eq, eventAt_congr hroot, Nat.add_sub_cancel, hchain,
      entered_congr hroot]

end Alike

theorem exists_reaches_of_mem_events {view : FileView} {ignored : String → Bool}
    {choose : Path → List String → Choice} {depth : Nat} {root : Path} {event : Event}
    (h : event ∈ (walk view ignored choose depth root).events) :
    ∃ names, Reaches view ignored choose depth root names ∧
      event = eventAt view (root.place names) := by
  rw [walk_eq_visits] at h
  obtain ⟨names, hnames, rfl⟩ := List.mem_map.1 h
  exact ⟨names, .of_mem_visits hnames, rfl⟩

/-- A level is met with the files of its listing. -/
theorem exists_listing_of_mem_events {view : FileView} {ignored : String → Bool}
    {choose : Path → List String → Choice} {depth : Nat} {root level : Path} {files : List String}
    (h : .level level files ∈ (walk view ignored choose depth root).events) :
    ∃ names listing, Reaches view ignored choose depth root names ∧ level = root.place names ∧
      view.list level = .ok listing ∧ listing.files = files := by
  obtain ⟨names, hnames, he⟩ := exists_reaches_of_mem_events h
  unfold eventAt at he
  rcases hl : view.list (root.place names) with error | listing
  · rw [hl] at he
    cases he
  · rw [hl] at he
    cases he
    exact ⟨names, listing, hnames, rfl, hl, rfl⟩

end SiteSurvey
