import Mathlib.Data.List.TakeWhile
import SiteSurvey.Walk

/-!
# Stopped walks

One walk step is an event and then the walks from the directories that are entered (`walk_eq`).
A walk that a choice stops meets what the same walk meets unstopped, up to the first level at which
the choice stops (`walk_eq_cut`): stopping cuts the trace and changes nothing before the cut.
-/

namespace SiteSurvey

/-! ## Beginnings of lists -/

section UpToFirst

variable {α β : Type} (p : α → Bool)

/-- The list up to its first member that passes a test, that member included. -/
def upToFirst (xs : List α) : List α :=
  xs.takeWhile (!p ·) ++ (xs.find? p).toList

theorem upToFirst_cons (x : α) (xs : List α) :
    upToFirst p (x :: xs) = if p x then [x] else x :: upToFirst p xs := by
  unfold upToFirst
  by_cases h : p x
  · simp [h]
  · simp [h]

theorem upToFirst_append (xs ys : List α) :
    upToFirst p (xs ++ ys) =
      if xs.any p then upToFirst p xs else xs ++ upToFirst p ys := by
  induction xs with
  | nil => rfl
  | cons x xs ih =>
    rw [List.cons_append, upToFirst_cons, upToFirst_cons, ih, List.any_cons]
    by_cases h : p x
    · simp [h]
    · by_cases h' : xs.any p
      · simp [h, h']
      · simp [h, h']

theorem upToFirst_isPrefix (xs : List α) : upToFirst p xs <+: xs := by
  induction xs with
  | nil => exact List.prefix_refl _
  | cons x xs ih =>
    rw [upToFirst_cons]
    split_ifs
    · exact ⟨xs, rfl⟩
    · exact List.cons_prefix_cons.2 ⟨rfl, ih⟩

theorem upToFirst_map (f : β → α) (xs : List β) :
    upToFirst p (xs.map f) = (upToFirst (fun x => p (f x)) xs).map f := by
  induction xs with
  | nil => rfl
  | cons x xs ih =>
    rw [List.map_cons, upToFirst_cons, upToFirst_cons, ih]
    split_ifs <;> rfl

theorem upToFirst_eq_self {xs : List α} (h : xs.any p = false) : upToFirst p xs = xs := by
  have h' := upToFirst_append p xs []
  rw [List.append_nil, h, if_neg (by decide)] at h'
  rw [h', upToFirst, List.takeWhile_nil, List.find?_nil]
  simp

/-- A member is cut off only behind a member that passes the test. -/
theorem mem_upToFirst_or {xs : List α} {x : α} (hx : x ∈ xs) :
    x ∈ upToFirst p xs ∨ ∃ y ∈ upToFirst p xs, p y ∧ [y, x].Sublist xs := by
  induction xs with
  | nil => exact absurd hx List.not_mem_nil
  | cons y xs ih =>
    rw [upToFirst_cons]
    rcases List.mem_cons.1 hx with rfl | hx
    · left
      split_ifs <;> simp
    · split_ifs with hy
      · exact Or.inr ⟨y, by simp, hy, (List.singleton_sublist.2 hx).cons_cons y⟩
      · rcases ih hx with h | ⟨z, hz, hpz, hzx⟩
        · exact Or.inl (List.mem_cons_of_mem _ h)
        · exact Or.inr ⟨z, List.mem_cons_of_mem _ hz, hpz, hzx.cons y⟩

/-- Only the last member of the beginning passes the test. -/
theorem eq_append_of_mem_upToFirst {xs : List α} {x : α} (hx : x ∈ upToFirst p xs) (hp : p x) :
    ∃ before, upToFirst p xs = before ++ [x] ∧ ∀ y ∈ before, p y = false := by
  have hmem : x ∉ xs.takeWhile (!p ·) := fun h => by
    have := List.mem_takeWhile_imp h
    rw [hp] at this
    exact absurd this (by decide)
  have hlast : xs.find? p = some x := by
    unfold upToFirst at hx
    rcases List.mem_append.1 hx with h | h
    · exact absurd h hmem
    · exact Option.mem_toList.1 h
  refine ⟨xs.takeWhile (!p ·), by unfold upToFirst; rw [hlast]; rfl, fun y hy => ?_⟩
  simpa using List.mem_takeWhile_imp hy

end UpToFirst

/-! ## One step of a walk -/

/-- What a walk meets first at a path. -/
def eventAt (view : FileView) (path : Path) : Event :=
  match view.list path with
  | .error error => .failure path error
  | .ok listing => .level path listing.files

/-- Whether an event is a level at which a choice stops. -/
def Event.stops (choose : Path → List String → Choice) : Event → Bool
  | .level path files => choose path files == .stop
  | .failure _ _ => false

/-- The names of the directories that a walk enters from a path with a depth left. -/
def entered (view : FileView) (ignored : String → Bool) (choose : Path → List String → Choice)
    (depth : Nat) (path : Path) : List String :=
  match depth, view.list path with
  | _ + 1, .ok listing =>
    if choose path listing.files = .descend then listing.dirs.filter (!ignored ·) else []
  | _, _ => []

section Step

variable (view : FileView) (ignored : String → Bool) (choose : Path → List String → Choice)

theorem walk_eq (depth : Nat) (path : Path) :
    walk view ignored choose depth path =
      if (eventAt view path).stops choose then ⟨[eventAt view path], true⟩
      else (Trace.chain (fun name => walk view ignored choose (depth - 1) (path.join name))
        (entered view ignored choose depth path)).after (eventAt view path) := by
  rw [walk]
  rcases hl : view.list path with error | listing
  · cases depth <;> simp [eventAt, hl, Event.stops, entered, Trace.chain, Trace.after]
  · cases hc : choose path listing.files with
    | stop => simp [eventAt, hl, Event.stops, hc]
    | prune =>
      cases depth <;> simp [eventAt, hl, Event.stops, hc, entered, Trace.chain, Trace.after]
    | descend =>
      cases depth <;> simp [eventAt, hl, Event.stops, hc, entered, Trace.chain, Trace.after]

theorem mem_entered_iff (depth : Nat) (path : Path) (name : String) :
    name ∈ entered view ignored choose (depth + 1) path ↔
      ∃ listing, view.list path = .ok listing ∧ name ∈ listing.dirs ∧ ignored name = false ∧
        choose path listing.files = .descend := by
  unfold entered
  rcases hl : view.list path with error | listing
  · simp
  · by_cases hc : choose path listing.files = .descend
    · simp [hc]
    · simp [hc]

/-- Directories are entered in the order of their listing. -/
theorem entered_sublist {depth : Nat} {path : Path} {listing : Listing}
    (hl : view.list path = .ok listing) :
    (entered view ignored choose depth path).Sublist listing.dirs := by
  unfold entered
  rw [hl]
  cases depth with
  | zero => exact List.nil_sublist _
  | succ depth =>
    dsimp only
    split_ifs
    · exact List.filter_sublist
    · exact List.nil_sublist _

end Step

/-! ## Cutting a trace -/

namespace Trace

/-- The trace up to the first event that passes a test, stopped there. -/
def cut (stops : Event → Bool) (trace : Trace) : Trace :=
  ⟨upToFirst stops trace.events, trace.events.any stops⟩

theorem chain_eq_flatMap {α : Type} {walk : α → Trace} {xs : List α}
    (h : ∀ x ∈ xs, (walk x).stopped = false) :
    chain walk xs = ⟨xs.flatMap fun x => (walk x).events, false⟩ := by
  induction xs with
  | nil => rfl
  | cons x xs ih =>
    have hx := h x (by simp)
    have hxs := ih fun y hy => h y (List.mem_cons_of_mem _ hy)
    simp [chain, hx, hxs]

theorem chain_cut {α : Type} {stops : Event → Bool} {walk free : α → Trace} {xs : List α}
    (hfree : ∀ x ∈ xs, (free x).stopped = false) (h : ∀ x ∈ xs, walk x = (free x).cut stops) :
    chain walk xs = (chain free xs).cut stops := by
  induction xs with
  | nil => rfl
  | cons x xs ih =>
    have hx := h x (by simp)
    have hxs := ih (fun y hy => hfree y (List.mem_cons_of_mem _ hy))
      (fun y hy => h y (List.mem_cons_of_mem _ hy))
    have hx' := hfree x (by simp)
    simp only [chain, hx, hx', hxs]
    by_cases hs : (free x).events.any stops
    · simp [cut, hs, upToFirst_append]
    · simp only [Bool.not_eq_true] at hs
      simp [cut, hs, upToFirst_append, upToFirst_eq_self _ hs]

theorem cut_after (stops : Event → Bool) (event : Event) (trace : Trace) :
    (trace.after event).cut stops =
      if stops event then ⟨[event], true⟩ else (trace.cut stops).after event := by
  by_cases h : stops event
  · simp [cut, after, upToFirst_cons, h]
  · simp [cut, after, upToFirst_cons, h]

end Trace

/-! ## Choices that never stop -/

section Free

variable {view : FileView} {ignored : String → Bool} {choose free : Path → List String → Choice}

theorem Event.not_stops (hfree : ∀ path files, free path files ≠ .stop) (event : Event) :
    event.stops free = false := by
  cases event with
  | level path files => simpa [Event.stops] using hfree path files
  | failure path error => rfl

theorem walk_stopped_eq_false (hfree : ∀ path files, free path files ≠ .stop) (depth : Nat)
    (path : Path) : (walk view ignored free depth path).stopped = false := by
  induction depth generalizing path with
  | zero =>
    rw [walk_eq, Event.not_stops hfree]
    rfl
  | succ depth ih =>
    rw [walk_eq, Event.not_stops hfree, Nat.add_sub_cancel,
      Trace.chain_eq_flatMap fun name _ => ih (path.join name)]
    rfl

theorem walk_events_eq (hfree : ∀ path files, free path files ≠ .stop) (depth : Nat)
    (path : Path) :
    (walk view ignored free depth path).events =
      eventAt view path :: (entered view ignored free depth path).flatMap fun name =>
        (walk view ignored free (depth - 1) (path.join name)).events := by
  rw [walk_eq, Event.not_stops hfree,
    Trace.chain_eq_flatMap fun name _ => walk_stopped_eq_false hfree _ _]
  rfl

/-- A choice that never stops, and otherwise agrees with `choose`, enters the same directories. -/
theorem entered_eq_of_agree
    (hagree : ∀ path files, choose path files ≠ .stop → free path files = choose path files)
    {path : Path} (h : (eventAt view path).stops choose = false) (depth : Nat) :
    entered view ignored choose depth path = entered view ignored free depth path := by
  unfold entered
  rcases hl : view.list path with error | listing
  · cases depth <;> rfl
  · have hc : choose path listing.files ≠ .stop := by
      simpa [eventAt, hl, Event.stops] using h
    cases depth with
    | zero => rfl
    | succ depth =>
      dsimp only
      rw [hagree path listing.files hc]

/-- Stopping cuts the trace of the unstopped walk at the first level where the choice stops. -/
theorem walk_eq_cut (hfree : ∀ path files, free path files ≠ .stop)
    (hagree : ∀ path files, choose path files ≠ .stop → free path files = choose path files)
    (depth : Nat) (path : Path) :
    walk view ignored choose depth path =
      (walk view ignored free depth path).cut (Event.stops choose) := by
  induction depth generalizing path with
  | zero =>
    rw [walk_eq, walk_eq view ignored free, Event.not_stops hfree, if_neg Bool.false_ne_true,
      Trace.cut_after]
    rfl
  | succ depth ih =>
    rw [walk_eq, walk_eq view ignored free, Event.not_stops hfree, if_neg Bool.false_ne_true,
      Trace.cut_after]
    split_ifs with h
    · rfl
    · rw [entered_eq_of_agree hagree (by simpa using h), Nat.add_sub_cancel,
        Trace.chain_cut (fun name _ => walk_stopped_eq_false hfree _ _) fun name _ =>
          ih (path.join name)]

end Free

end SiteSurvey
