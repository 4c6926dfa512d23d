import SiteSurvey.Proofs.Route.Tuples
import SiteSurvey.Proofs.Source.Assigned
import SiteSurvey.Survey.Project

/-!
# What a route file yields

A route file belongs to the app that its first app name declares, or else to itself, whether its
brackets are sound or not. It yields all its tuples, or none and a report of the bracket at fault
(`findRoutes_all_or_nothing`).
-/

namespace SiteSurvey

open Source Text

namespace Route

/-- The text that is searched for routes: without comments, its first two lines joined. -/
def plainText (text : String) : List Char :=
  uncommentedJoined text.toList

/-- The namespace of a route file with a text and a path. -/
inductive NamesSpace (text : List Char) (source : String) : Namespace → Prop
  /-- The first app name of the text is not empty. -/
  | app {before value : List Char}
    (h : IsLeftmost (IsAssigned "app_name".toList false text) before value) (hne : value ≠ []) :
    NamesSpace text source (.app (String.ofList value))
  /-- The text has no app name, or the first is empty. -/
  | file (h : ∀ before value,
      IsLeftmost (IsAssigned "app_name".toList false text) before value → value = []) :
    NamesSpace text source (.file source)

namespace File

theorem appName?_eq_some_iff (text value : List Char) :
    appName? text = some value ↔
      (∃ before, IsLeftmost (IsAssigned "app_name".toList false text) before value) ∧
        value ≠ [] := by
  rw [appName?, Option.filter_eq_some_iff, head?_assignedValues_eq_some_iff]
  simp

theorem namesSpace_spaceOf (text : List Char) (source : String) :
    NamesSpace text source (spaceOf text source) := by
  rw [spaceOf]
  rcases hname : appName? text with _ | value
  · refine NamesSpace.file fun before value hleftmost => ?_
    by_contra hne
    cases hname.symm.trans ((appName?_eq_some_iff text value).2 ⟨⟨before, hleftmost⟩, hne⟩)
  · obtain ⟨⟨before, hleftmost⟩, hne⟩ := (appName?_eq_some_iff text value).1 hname
    exact NamesSpace.app hleftmost hne

theorem spaceOf_eq_iff (text : List Char) (source : String) (space : Namespace) :
    spaceOf text source = space ↔ NamesSpace text source space := by
  constructor
  · rintro rfl
    exact namesSpace_spaceOf text source
  · intro h
    cases h with
    | app hleftmost hne =>
      rw [spaceOf, (appName?_eq_some_iff text _).2 ⟨⟨_, hleftmost⟩, hne⟩]
    | file h =>
      have hnone : appName? text = none := by
        rw [Option.eq_none_iff_forall_ne_some]
        intro value hvalue
        obtain ⟨⟨before, hleftmost⟩, hne⟩ := (appName?_eq_some_iff text value).1 hvalue
        exact hne (h before value hleftmost)
      rw [spaceOf, hnone]

theorem read_of_tuples {text : String} {tuples : List (List Char)}
    (h : tuplesOf (plainText text) = .ok tuples) (source : String) :
    read text source =
      ⟨spaceOf (plainText text) source, tuples.map String.ofList, none⟩ := by
  rw [plainText] at h
  rw [read, h]
  rfl

theorem read_of_fault {text : String} {fault : Unmatched}
    (h : tuplesOf (plainText text) = .error fault) (source : String) :
    read text source = ⟨spaceOf (plainText text) source, [], some fault⟩ := by
  rw [plainText] at h
  rw [read, h]
  rfl

/-- Another path makes no difference but where the path is the namespace. -/
theorem read_other (text source other : String) :
    (read text other).tuples = (read text source).tuples ∧
      (read text other).fault = (read text source).fault ∧
      ((read text other).space = (read text source).space ∨
        (read text source).space = .file source ∧ (read text other).space = .file other) := by
  have hspace : spaceOf (plainText text) other = spaceOf (plainText text) source ∨
      spaceOf (plainText text) source = .file source ∧
        spaceOf (plainText text) other = .file other := by
    unfold spaceOf
    cases appName? (plainText text) with
    | none => exact Or.inr ⟨rfl, rfl⟩
    | some name => exact Or.inl rfl
  rcases htuples : tuplesOf (plainText text) with fault | tuples
  · rw [read_of_fault htuples, read_of_fault htuples]
    exact ⟨rfl, rfl, hspace⟩
  · rw [read_of_tuples htuples, read_of_tuples htuples]
    exact ⟨rfl, rfl, hspace⟩

end File

theorem isUnsound_of_fault {text : List Char} {fault : Unmatched}
    (h : File.tuplesOf text = .error fault) : IsUnsound text := by
  by_contra hsound
  obtain ⟨tuples, htuples⟩ := (File.tuplesOf_isOk_iff text).2 hsound
  cases h.symm.trans htuples

end Route

namespace Survey

/--
A route file yields one entry, under the app that it names or else under its own path. If its
brackets are unsound the entry is empty and the first bracket at fault is reported, once; otherwise
the entry holds the round groups of all lists and nothing is reported. Read under another path, the
file yields the same but for that path.
-/
theorem findRoutes_all_or_nothing (path : Path) (text : String) :
    ∃ file, (findRoutes path text).routeFiles = [file] ∧
      file.raw.entries = [(file.space, file.tuples)] ∧
      (∀ space, file.space = space ↔
        Route.NamesSpace (Route.plainText text) path.text space) ∧
      (Route.IsUnsound (Route.plainText text) →
        ∃ fault, (∀ other, Route.HasFault (Route.plainText text) other ↔ other = fault) ∧
          file.tuples = [] ∧ file.fault = some fault ∧
          (findRoutes path text).diagnostics = [.malformedRoutes <|
            s!"Malformed route file {path.text}: " ++
              s!"unmatched '{fault.glyph}' at byte offset {fault.offset}"]) ∧
      (¬ Route.IsUnsound (Route.plainText text) →
        ∃ tuples, (∀ other, Route.HasTuples (Route.plainText text) other ↔ other = tuples) ∧
          file.tuples = tuples.map String.ofList ∧ file.fault = none ∧
          (findRoutes path text).diagnostics = []) ∧
      ∀ other : Path, ∃ file', (findRoutes other text).routeFiles = [file'] ∧
        file'.tuples = file.tuples ∧ file'.fault = file.fault ∧
        (file'.space = file.space ∨
          file.space = .file path.text ∧ file'.space = .file other.text) := by
  refine ⟨Route.File.read text path.text, rfl, rfl, ?_⟩
  have hspace := Route.File.spaceOf_eq_iff (Route.plainText text) path.text
  have hother (other : Path) := Route.File.read_other text path.text other.text
  rcases htuples : Route.File.tuplesOf (Route.plainText text) with fault | tuples
  · have hunsound := Route.isUnsound_of_fault htuples
    rw [Route.File.read_of_fault htuples] at hother
    rw [findRoutes, Route.File.read_of_fault htuples]
    refine ⟨hspace, fun _ => ⟨fault, fun other => ?_, rfl, rfl, rfl⟩,
      fun hsound => absurd hunsound hsound, fun other => ⟨_, rfl, hother other⟩⟩
    rw [← Route.File.tuplesOf_eq_error_iff, htuples, Except.error.injEq, eq_comm]
  · have hsound := (Route.File.tuplesOf_isOk_iff _).1 ⟨tuples, htuples⟩
    rw [Route.File.read_of_tuples htuples] at hother
    rw [findRoutes, Route.File.read_of_tuples htuples]
    refine ⟨hspace, fun hunsound => absurd hunsound hsound,
      fun _ => ⟨tuples, fun other => ?_, rfl, rfl, rfl⟩, fun other => ⟨_, rfl, hother other⟩⟩
    rw [← Route.File.tuplesOf_eq_ok_iff, htuples, Except.ok.injEq, eq_comm]

/-- A `)` too many in the second of two lists, and the same lists without it and without an app. -/
theorem findRoutes_all_or_nothing_shop :
    let path : Path := ⟨"shop/urls.py"⟩
    let unsound := "app_name = 'shop'\nx = [p('a')]\ny = [q(b))]"
    let sound := "x = [p('a')]\ny = [q(b)]"
    Route.IsUnsound (Route.plainText unsound) ∧
      (∃ file, (findRoutes path unsound).routeFiles = [file] ∧
        file.raw.entries = [(.app "shop", [])] ∧
        (findRoutes path unsound).diagnostics = [.malformedRoutes
          "Malformed route file shop/urls.py: unmatched ')' at byte offset 5"]) ∧
      ¬ Route.IsUnsound (Route.plainText sound) ∧
      ∃ file, (findRoutes path sound).routeFiles = [file] ∧
        file.raw.entries = [(.file "shop/urls.py", ["('a')", "(b)"])] ∧
        (findRoutes path sound).diagnostics = [] := by
  intro path unsound sound
  have hfault : Route.File.tuplesOf (Route.plainText unsound) = .error ⟨')', 5⟩ := by
    decide +kernel
  have htuples : Route.File.tuplesOf (Route.plainText sound) =
      .ok ["('a')".toList, "(b)".toList] := by decide +kernel
  have hshop : Route.File.spaceOf (Route.plainText unsound) path.text = .app "shop" := by
    decide +kernel
  have hown : Route.File.spaceOf (Route.plainText sound) path.text = .file path.text := by
    decide +kernel
  have hunsound := Route.isUnsound_of_fault hfault
  have hsound := (Route.File.tuplesOf_isOk_iff _).1 ⟨_, htuples⟩
  rw [Route.File.spaceOf_eq_iff] at hshop hown
  rw [Route.File.tuplesOf_eq_error_iff] at hfault
  rw [Route.File.tuplesOf_eq_ok_iff] at htuples
  refine ⟨hunsound, ?_, hsound, ?_⟩
  · obtain ⟨file, hfile, hraw, hspace, hnothing, -⟩ := findRoutes_all_or_nothing path unsound
    obtain ⟨fault, honly, hempty, -, hreport⟩ := hnothing hunsound
    obtain rfl := (honly _).1 hfault
    refine ⟨file, hfile, ?_, hreport.trans (by decide +kernel)⟩
    rw [hraw, (hspace _).2 hshop, hempty]
  · obtain ⟨file, hfile, hraw, hspace, -, hall, -⟩ := findRoutes_all_or_nothing path sound
    obtain ⟨tuples, honly, heq, -, hreport⟩ := hall hsound
    obtain rfl := (honly _).1 htuples
    refine ⟨file, hfile, ?_, hreport⟩
    rw [hraw, (hspace _).2 hown, heq]
    decide +kernel

end Survey

end SiteSurvey
