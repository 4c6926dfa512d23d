import SiteSurvey.CommandLine.OnDisk
import SiteSurvey.Disk.Answer
import SiteSurvey.Inquiry.Command

/-!
# Inquiries answered by a disk

An inquiry `Finds` a value on a disk if it comes to this value and leaves the disk as it is when the
disk answers its questions. Walks, surveys and the search for a configuration find what the view of
the disk holds, so a command that asks step by step comes to what it makes of the whole disk
(`performOn_run`).
-/

namespace SiteSurvey.Inquiry

open CommandLine Survey

variable {α β : Type}

/-! ## Answered inquiries -/

theorem performOn_bind (disk : Disk) (directory : Place) (inquiry : Inquiry α)
    (next : α → Inquiry β) :
    performOn disk directory (inquiry >>= next) =
      performOn (performOn disk directory inquiry).2 directory
        (next (performOn disk directory inquiry).1) := by
  change performOn disk directory (inquiry.bind next) = _
  induction inquiry generalizing disk with
  | done value => rfl
  | ask question later ih =>
    exact ih (Disk.answer directory question disk).1 (Disk.answer directory question disk).2

variable {disk : Disk} {directory : Place}

/-- The inquiry comes to a value and leaves the disk as it is. -/
def Finds (disk : Disk) (directory : Place) (inquiry : Inquiry α) (value : α) : Prop :=
  performOn disk directory inquiry = (value, disk)

namespace Finds

theorem pure (value : α) : Finds disk directory (Pure.pure value) value :=
  rfl

theorem bind {inquiry : Inquiry α} {value : α} {next : α → Inquiry β} {value' : β}
    (h : Finds disk directory inquiry value) (hnext : Finds disk directory (next value) value') :
    Finds disk directory (inquiry >>= next) value' := by
  rw [Finds, performOn_bind, h]
  exact hnext

/-- A value made from what an inquiry finds. -/
theorem map {inquiry : Inquiry α} {value : α} (h : Finds disk directory inquiry value)
    (f : α → β) : Finds disk directory (do return f (← inquiry)) (f value) :=
  h.bind (.pure _)

end Finds

theorem finds_workingDirectory :
    Finds disk directory workingDirectory (disk.workingPath directory) :=
  rfl

theorem finds_list (path : Path) :
    Finds disk directory (list path) ((disk.view directory).list path) :=
  rfl

theorem finds_read (path : Path) :
    Finds disk directory (read path) ((disk.view directory).read path) :=
  rfl

theorem finds_isFile (path : Path) :
    Finds disk directory (isFile path) ((disk.view directory).isFile path) :=
  rfl

theorem finds_isPresent (path : Path) :
    Finds disk directory (isPresent path) ((disk.view directory).isPresent path) :=
  rfl

theorem performOn_write (disk : Disk) (directory : Place) (path : Path) (text : String) :
    performOn disk directory (write path text) =
      disk.changed (disk.write directory path (some text)) :=
  rfl

/-! ## Walks -/

/-- A walk whose visits yield what a function of their events says. -/
def Journey.ofTrace (yield : Event → α) (trace : Trace) : Journey α :=
  ⟨trace, trace.events.map yield⟩

theorem finds_chain {walk : String → Inquiry (Journey α)} {trace : String → Trace}
    {yield : Event → α}
    (h : ∀ name, Finds disk directory (walk name) (.ofTrace yield (trace name))) :
    (names : List String) →
      Finds disk directory (chain walk names) (.ofTrace yield (Trace.chain trace names))
  | [] => .pure _
  | first :: rest => by
    refine (h first).bind ?_
    rw [Trace.chain]
    by_cases hstopped : (trace first).stopped
    · simpa only [Journey.ofTrace, hstopped, if_true] using Finds.pure _
    · have hlater := (finds_chain h rest).map (Journey.append (.ofTrace yield (trace first)))
      simpa only [Journey.ofTrace, Journey.append, hstopped, Bool.false_eq_true, if_false,
        List.map_append] using hlater

/-- A walk meets what the walk over the view of the disk meets. -/
theorem finds_walk (ignored : String → Bool) (choose : Path → List String → Choice)
    {visit : Event → Inquiry α} {yield : Event → α}
    (hvisit : ∀ event, Finds disk directory (visit event) (yield event)) :
    (depth : Nat) → (path : Path) →
      Finds disk directory (walk ignored choose visit depth path)
        (.ofTrace yield
          (SiteSurvey.walk (disk.view directory).toFileView ignored choose depth path))
  | depth, path => by
    rw [walk, SiteSurvey.walk]
    refine (finds_list path).bind ?_
    cases (disk.view directory).list path with
    | error error => exact (hvisit _).map _
    | ok listing =>
      refine (hvisit _).bind ?_
      dsimp only
      cases choose path listing.files with
      | stop => exact .pure _
      | prune => exact .pure _
      | descend =>
        cases depth with
        | zero => exact .pure _
        | succ depth =>
          have hinner (name : String) := finds_walk ignored choose hvisit depth (path.join name)
          exact (finds_chain hinner _).map _

/-! ## Surveys -/

theorem finds_findInFile (path : Path) (find : String → Findings) :
    Finds disk directory (findInFile path find)
      (Survey.findInFile (disk.view directory).toFileView path find) := by
  refine (finds_read path).bind ?_
  rw [Survey.findInFile]
  cases (disk.view directory).read path <;> exact .pure _

theorem finds_findLevelRoutes (level : Path) (files : List String) :
    Finds disk directory (findLevelRoutes level files)
      (Survey.findLevelRoutes (disk.view directory).toFileView level files) := by
  rw [findLevelRoutes, Survey.findLevelRoutes]
  split
  · exact finds_findInFile _ _
  · exact .pure _

theorem finds_findInModules (level : Path) (app : String) :
    (names : List String) →
      Finds disk directory (findInModules level app names)
        (names.foldr (fun name later =>
          Survey.findInFile (disk.view directory).toFileView (level.join name) (findModels app) ++
            later) {})
  | [] => .pure _
  | _ :: names =>
    (finds_findInFile _ _).bind ((finds_findInModules level app names).map _)

theorem finds_findAt : (event : Event) →
    Finds disk directory (findAt event) (Survey.findAt (disk.view directory).toFileView event)
  | .failure _ _ => .pure _
  | .level path files =>
    (finds_findLevelRoutes path files).bind ((finds_findInModules path _ _).map _)

theorem finds_rootTrace (options : Options) (path : Path) :
    Finds disk directory (rootTrace options path)
      (Survey.rootTrace (disk.view directory).toFileView options path) :=
  (finds_walk _ _ (fun _ => .pure ()) _ path).map _

theorem findAll_eq_foldr (view : FileView) (events : List Event) :
    findAll view events = (events.map (Survey.findAt view)).foldr (· ++ ·) {} :=
  List.foldr_map.symm

theorem finds_ofRoot (options : Options) (root : Path) :
    Finds disk directory (ofRoot options root)
      (Survey.ofRoot (disk.view directory).toFileView options root) := by
  have hwalk : Finds disk directory
      (walk options.ignored.ignores (fun _ _ => .descend) findAt options.appDepth root)
      (.ofTrace (Survey.findAt (disk.view directory).toFileView) _) :=
    finds_walk _ _ finds_findAt _ root
  refine hwalk.bind ?_
  rw [Survey.ofRoot, findAll_eq_foldr]
  exact .pure _

theorem finds_ofPath (options : Options) (path : Path) :
    Finds disk directory (ofPath options path)
      (Survey.ofPath (disk.view directory).toFileView options path) := by
  refine (finds_rootTrace options path).bind ?_
  rw [Survey.ofPath, root?]
  cases stopLevel? (Survey.rootTrace (disk.view directory).toFileView options path) with
  | none => exact .pure _
  | some root => exact (finds_ofRoot options root).map _

theorem finds_ofPaths (options : Options) : (paths : List Path) →
    Finds disk directory (ofPaths options paths)
      (Survey.ofPaths (disk.view directory).toFileView options paths)
  | [] => .pure _
  | path :: paths => (finds_ofPath options path).bind ((finds_ofPaths options paths).map _)

/-! ## Configurations -/

theorem finds_findAmong? : (paths : List Path) →
    Finds disk directory (findAmong? paths) (Config.findAmong? (disk.view directory) paths)
  | [] => .pure _
  | path :: above => by
    refine (finds_isFile _).bind ?_
    rw [Config.findAmong?]
    split
    · exact .pure _
    · refine (finds_isPresent _).bind ?_
      split
      · exact .pure _
      · exact finds_findAmong? above

theorem finds_ofFile (path : Path) :
    Finds disk directory (ofFile path) (Config.ofFile (disk.view directory) path) := by
  refine (finds_read path).bind ?_
  rw [Config.ofFile]
  cases (disk.view directory).read path <;> exact .pure _

theorem finds_load (start : Path) :
    Finds disk directory (load start) (Config.load (disk.view directory) start) := by
  refine (finds_findAmong? start.ancestors).bind ?_
  rw [Config.load, Config.find?]
  cases Config.findAmong? (disk.view directory) start.ancestors with
  | none => exact .pure _
  | some path => exact (finds_ofFile path).map _

/-! ## Commands -/

theorem finds_scan (request : ScanRequest) :
    Finds disk directory (scan request) (scanOn disk directory request) := by
  refine finds_workingDirectory.bind ?_
  rw [scanOn]
  cases disk.workingPath directory with
  | error fault => exact .pure _
  | ok path =>
    refine (finds_load path).bind ?_
    dsimp only
    rw [CommandLine.scan, plan]
    cases planOf (Config.load (disk.view directory) path) request with
    | error outcome => exact .pure _
    | ok plan => exact (finds_ofPaths _ _).map _

/-- The disk is changed by a new configuration alone. -/
theorem performOn_init (disk : Disk) (directory : Place) :
    performOn disk directory init = initOn disk directory := by
  rw [init, performOn_bind, finds_isPresent, initOn]
  dsimp only
  split
  · rfl
  · rw [performOn_bind, performOn_write]
    cases disk.write directory ⟨Config.fileName⟩ (some Config.defaultText) <;> rfl

/-- A command that asks a disk comes to what it makes of the disk, and leaves the same disk. -/
theorem performOn_run (disk : Disk) (directory : Place) : (command : Option Command) →
    performOn disk directory (run command) = runOn disk directory command
  | none => rfl
  | some (.scan request) => finds_scan request
  | some .init => performOn_init disk directory

end SiteSurvey.Inquiry
