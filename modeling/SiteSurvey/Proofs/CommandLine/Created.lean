import Mathlib.Data.List.Nodup
import SiteSurvey.CommandLine.OnDisk
import SiteSurvey.Proofs.Config.RoundTrip
import SiteSurvey.Proofs.Config.Search

/-!
# New configurations

A configuration with only defaults is written where the working directory has none
(`initOn_of_absent`). It is the one that every path to this directory finds, whatever lies above
(`load_withDefaults`), unless the path is so long that its file cannot be looked up.
-/

namespace SiteSurvey

/-! ## Finding a configuration -/

namespace Config

theorem isEntryName_fileName : Disk.IsEntryName fileName := by decide

theorem isEntryName_repositoryMarker : Disk.IsEntryName repositoryMarker := by decide

theorem ofText_defaultText (path : Path) : ofText path defaultText = .ok {} := by
  have hread : read defaultText = .ok {} := read_pretty (by decide) (by decide)
  rw [ofText, hread]
  rfl

/-- The file of a directory decides, whatever lies above. -/
theorem load_of_lookup {disk : Disk} {directory place : Place} {path : Path} {text : String}
    (h : disk.lookup directory (path.join fileName) = .ok (place, .file (some text))) :
    load (disk.view directory) path =
      (ofText (path.join fileName) text).map fun config => ⟨config, true⟩ := by
  obtain ⟨above, habove⟩ := path.exists_ancestors
  have hfile : (disk.view directory).isFile (path.join fileName) := by
    simp [Disk.view, h, Except.toOption, Disk.isFileEntry]
  have hread : (disk.view directory).read (path.join fileName) = .ok text := by
    simp [Disk.view, Disk.read, h]
  rw [load, find?, habove, findAmong?_of_hasFile hfile]
  dsimp only
  rw [ofFile, hread]

/-- The search ends at a repository whose configuration cannot be looked up. -/
theorem load_of_hidden {disk : Disk} {directory : Place} {path : Path}
    (hfile : ∃ fault, disk.lookup directory (path.join fileName) = .error fault)
    {found : Place × Entry}
    (hmarker : disk.lookup directory (path.join repositoryMarker) = .ok found) :
    load (disk.view directory) path = .ok {} := by
  obtain ⟨fault, hfile⟩ := hfile
  obtain ⟨above, habove⟩ := path.exists_ancestors
  have hisFile : ¬ (disk.view directory).isFile (path.join fileName) := by
    simp [Disk.view, hfile, Except.toOption, Disk.isFileEntry]
  have hisPresent : (disk.view directory).isPresent (path.join repositoryMarker) := by
    simp [Disk.view, hmarker, Except.toOption]
  rw [load, find?, habove, findAmong?_of_hasMarker hisFile hisPresent]

end Config

namespace CommandLine

open Config (fileName)

/-! ## Writing a configuration -/

/-- A disk with a configuration of only defaults in a directory. -/
def withDefaults (disk : Disk) (directory : Place) : Disk :=
  disk.set (directory ++ [fileName]) (.file (some Config.defaultText))

variable {disk : Disk} {directory : Place}

theorem entry?_withDefaults (disk : Disk) (directory : Place) :
    Disk.entry? (withDefaults disk directory) (directory ++ [fileName]) =
      some (.file (some Config.defaultText)) := by
  rw [withDefaults, Disk.entry?_set disk (List.concat_ne_nil _ _), if_pos rfl]

theorem isDir_withDefaults {place : Place} (h : disk.entry? place = some .dir)
    (habsent : disk.entry? (directory ++ [fileName]) = none) :
    Disk.entry? (withDefaults disk directory) place = some .dir := by
  rw [withDefaults, Disk.entry?_set disk (List.concat_ne_nil _ _), if_neg, h]
  rintro rfl
  rw [habsent] at h
  cases h

theorem initOn_of_absent (hdir : disk.entry? directory = some .dir)
    (habsent : disk.entry? (directory ++ [fileName]) = none) :
    initOn disk directory = (configCreated, withDefaults disk directory) := by
  have hlookup := Disk.lookup_name Config.isEntryName_fileName hdir (by simp [habsent])
  have hresolve := Disk.resolve_name Config.isEntryName_fileName hdir (by simp [habsent])
  rw [habsent] at hlookup
  have hwrite : disk.write directory ⟨fileName⟩ (some Config.defaultText) =
      .ok (withDefaults disk directory) := by
    rw [Disk.write, hresolve]
    dsimp only
    rw [if_neg (by simp [habsent]), withDefaults]
  rw [initOn, if_neg (by simp [Disk.view, hlookup, Except.toOption]), hwrite]

theorem initOn_of_present (hdir : disk.entry? directory = some .dir) {text : Option String}
    (hfile : disk.entry? (directory ++ [fileName]) = some (.file text)) :
    initOn disk directory = (configPresent, disk) := by
  have hlookup := Disk.lookup_name Config.isEntryName_fileName hdir (by simp [hfile])
  rw [hfile] at hlookup
  rw [initOn, if_pos]
  simp [Disk.view, hlookup, Except.toOption]

/-- A configuration is written only into a directory. -/
theorem isDir_of_initOn {outcome : Outcome} {disk' : Disk}
    (hinit : initOn disk directory = (outcome, disk')) (hsuccess : outcome.status = .success) :
    disk.entry? directory = some .dir := by
  rw [initOn] at hinit
  split at hinit
  · cases hinit
    cases hsuccess
  split at hinit
  · cases hinit
    cases hsuccess
  next written hwrite =>
  rw [Disk.write] at hwrite
  split at hwrite
  · cases hwrite
  next found hfound => exact Disk.isDir_of_resolve_name Config.isEntryName_fileName hfound

/-! ## Reading it again -/

theorem load_withDefaults {working : Place} {path : Path}
    (hpath : (withDefaults disk directory).lookup working path = .ok (directory, .dir))
    (hshort : (path.join fileName).text.utf8ByteSize < Disk.pathBound) :
    Config.load ((withDefaults disk directory).view working) path = .ok ⟨{}, true⟩ := by
  have hentry := entry?_withDefaults disk directory
  have hlookup := Disk.lookup_join Config.isEntryName_fileName hpath (by simp [hentry]) hshort
  rw [hentry] at hlookup
  rw [Config.load_of_lookup hlookup, Config.ofText_defaultText]
  rfl

/-- The empty path stands for the working directory. -/
theorem load_empty_withDefaults (hdir : disk.entry? directory = some .dir)
    (habsent : disk.entry? (directory ++ [fileName]) = none) :
    Config.load ((withDefaults disk directory).view directory) ⟨""⟩ = .ok ⟨{}, true⟩ := by
  have hentry := entry?_withDefaults disk directory
  have hjoin : Path.join ⟨""⟩ fileName = ⟨fileName⟩ := rfl
  have hlookup := Disk.lookup_name Config.isEntryName_fileName (isDir_withDefaults hdir habsent)
    (by simp [hentry])
  rw [hentry, ← hjoin] at hlookup
  rw [Config.load_of_lookup hlookup, Config.ofText_defaultText]
  rfl

/--
A configuration is read back from both of its texts. So a new one is the configuration of its
directory, by every path that leads there and is not too long for the file to be looked up, whatever
lies above; and it is not written again.
-/
theorem written_configs_read_back :
    (∀ config : Config, config.projectDepth < Json.wordBound → config.appDepth < Json.wordBound →
      Config.read config.value.compact = .ok config ∧
        Config.read config.value.pretty = .ok config) ∧
    ∀ (disk : Disk) (directory : Place), disk.entry? (directory ++ [fileName]) = none →
      ∀ outcome disk', initOn disk directory = (outcome, disk') → outcome.status = .success →
        (∀ working path, disk'.lookup working path = .ok (directory, .dir) →
          (path.join fileName).text.utf8ByteSize < Disk.pathBound →
          Config.load (disk'.view working) path = .ok ⟨{}, true⟩) ∧
        Config.load (disk'.view directory) ⟨""⟩ = .ok ⟨{}, true⟩ ∧
        initOn disk' directory = (configPresent, disk') := by
  refine ⟨fun config hproject happ =>
    ⟨Config.read_compact hproject happ, Config.read_pretty hproject happ⟩, ?_⟩
  intro disk directory habsent outcome disk' hinit hsuccess
  have hdir := isDir_of_initOn hinit hsuccess
  rw [initOn_of_absent hdir habsent] at hinit
  cases hinit
  exact ⟨fun _ _ => load_withDefaults, load_empty_withDefaults hdir habsent,
    initOn_of_present (isDir_withDefaults hdir habsent) (entry?_withDefaults disk directory)⟩

/-- A configuration with characters that must be escaped and the largest depth, and a directory
below a faulty configuration. -/
theorem written_configs_read_back_srv :
    let config : Config := ⟨["\"\\\n\x01é*"], 0, 18446744073709551615, ["a/b", ""]⟩
    let disk : Disk := ⟨⟨[(["srv"], .dir), ([fileName], .file (some "\x7b"))], by decide⟩⟩
    let disk' := withDefaults disk ["srv"]
    (Config.read config.value.compact = .ok config ∧
      Config.read config.value.pretty = .ok config) ∧
    initOn disk ["srv"] = (configCreated, disk') ∧
    Config.load (disk'.view []) ⟨"srv"⟩ = .ok ⟨{}, true⟩ ∧
    initOn disk' ["srv"] = (configPresent, disk') := by
  intro config disk disk'
  have hinit : initOn disk ["srv"] = (configCreated, disk') := initOn_of_absent rfl rfl
  obtain ⟨hload, -, hagain⟩ := written_configs_read_back.2 disk ["srv"] rfl _ _ hinit rfl
  exact ⟨written_configs_read_back.1 config (by decide) (by decide), hinit,
    hload [] ⟨"srv"⟩ rfl (by decide), hagain⟩

/-! ## Paths that are too long -/

/-- A directory 40 levels deep, whose path has 4080 bytes. -/
def burrow : Place :=
  List.replicate 40 (String.ofList (List.replicate 101 'a'))

/-- The directories down to the burrow and a repository in it. -/
def burrowEntries : List (Place × Entry) :=
  ((List.range 40).map fun n => (burrow.take (n + 1), .dir)) ++
    [(burrow ++ [Config.repositoryMarker], .dir)]

def burrowDisk : Disk :=
  ⟨⟨burrowEntries, List.Nodup.of_map List.length (by decide)⟩⟩

theorem entry?_burrowDisk {place : Place} (h : place <+: burrow) :
    burrowDisk.entry? place = some .dir := by
  rcases place with - | ⟨name, names⟩
  · rfl
  have htake := List.prefix_iff_eq_take.1 h
  have hlength : names.length + 1 ≤ 40 := h.length_le
  rw [Disk.entry?_of_ne_nil _ (List.cons_ne_nil _ _)]
  refine OrderedMap.get?_of_mem (List.mem_append_left _ ?_)
  exact List.mem_map.2 ⟨names.length, List.mem_range.2 hlength, by rw [htake]; rfl⟩

theorem marker_burrowDisk :
    burrowDisk.entry? (burrow ++ [Config.repositoryMarker]) = some .dir := by
  rw [Disk.entry?_of_ne_nil _ (List.concat_ne_nil _ _)]
  exact OrderedMap.get?_of_mem (List.mem_append_right _ List.mem_cons_self)

theorem isEntryName_of_mem_burrow {name : String} (h : name ∈ burrow) : Disk.IsEntryName name := by
  rw [List.eq_of_mem_replicate h]
  decide

theorem absent_burrowDisk : burrowDisk.entry? (burrow ++ [fileName]) = none := by
  rw [Disk.entry?_of_ne_nil _ (List.concat_ne_nil _ _), OrderedMap.get?, Option.map_eq_none_iff,
    List.find?_eq_none]
  intro entry hentry
  rcases List.mem_append.1 hentry with hentry | hentry
  · obtain ⟨n, -, rfl⟩ := List.mem_map.1 hentry
    intro e
    have hlength := congrArg List.length (of_decide_eq_true e)
    rw [List.length_take, List.length_append] at hlength
    simp at hlength
    omega
  · obtain rfl := List.mem_singleton.1 hentry
    intro e
    have hname := List.append_cancel_left (of_decide_eq_true e)
    exact absurd hname (by decide)

theorem size_pathOf_burrow : (Disk.pathOf burrow).text.utf8ByteSize = 4080 := by
  have hname : (String.ofList (List.replicate 101 'a')).utf8ByteSize + 1 = 102 := by decide
  rw [Disk.size_pathOf (by simp [burrow]), burrow, List.map_replicate, hname]
  decide

theorem size_join_burrow {name : String} (h : Path.IsPlain name) :
    ((Disk.pathOf burrow).join name).text.utf8ByteSize = 4081 + name.utf8ByteSize := by
  have hplain : ∀ other ∈ burrow, Path.IsPlain other := fun other hother =>
    (isEntryName_of_mem_burrow hother).toIsPlain
  rw [← Disk.pathOf_concat hplain h, Disk.size_pathOf_concat (by simp [burrow]), size_pathOf_burrow]
  omega

/-- The path of the burrow leads there, but does not find the configuration that was written. -/
theorem load_pathOf_burrow :
    burrowDisk.entry? (burrow ++ [fileName]) = none ∧
    initOn burrowDisk burrow = (configCreated, withDefaults burrowDisk burrow) ∧
    (withDefaults burrowDisk burrow).lookup burrow (Disk.pathOf burrow) = .ok (burrow, .dir) ∧
    Config.load ((withDefaults burrowDisk burrow).view burrow) (Disk.pathOf burrow) =
      .ok ⟨{}, false⟩ := by
  have hdir {place : Place} (h : place <+: burrow) :=
    isDir_withDefaults (entry?_burrowDisk h) absent_burrowDisk
  have hlookup : (withDefaults burrowDisk burrow).lookup burrow (Disk.pathOf burrow) =
      .ok (burrow, .dir) :=
    Disk.lookup_pathOf burrow (fun _ => isEntryName_of_mem_burrow) (fun _ h => hdir h)
      (by rw [size_pathOf_burrow]; decide)
  have hmarker := isDir_withDefaults marker_burrowDisk absent_burrowDisk
  have hfound := Disk.lookup_join Config.isEntryName_repositoryMarker hlookup (by simp [hmarker])
    (by rw [size_join_burrow Config.isEntryName_repositoryMarker.toIsPlain]; decide)
  rw [hmarker] at hfound
  refine ⟨absent_burrowDisk, initOn_of_absent (entry?_burrowDisk List.prefix_rfl) absent_burrowDisk,
    hlookup, Config.load_of_hidden (Disk.exists_lookup_of_long _ _ ?_) hfound⟩
  rw [size_join_burrow Config.isEntryName_fileName.toIsPlain]
  decide

end CommandLine

end SiteSurvey
