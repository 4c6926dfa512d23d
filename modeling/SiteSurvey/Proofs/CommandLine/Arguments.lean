import Mathlib.Data.List.TakeWhile
import SiteSurvey.CommandLine.Reader
import SiteSurvey.Proofs.Json.Number

/-!
# Written requests

A request for a survey is written as a list of arguments: its paths in order, and its options
before, between and behind them, each in one of its spellings (`Argument.words`). However the
arguments are mixed, their words are read back as the request (`ofWords_written`): what is pending
between two words is settled as the state that the arguments so far make (`addWords_words`).
-/

namespace SiteSurvey.CommandLine

/-! ## Arguments -/

inductive Argument where
  | path (text : String)
  /-- An option with the text of its value, in one word or in two. -/
  | valued (option : ValueOption) (text : String) (joined : Bool)
  /-- The verbose option, by its name or by its letter. -/
  | verbose (long : Bool)

namespace Argument

def words : Argument → List String
  | .path text => [text]
  | valued option text true => ["--" ++ option.name ++ "=" ++ text]
  | valued option text false => ["--" ++ option.name, text]
  | verbose true => ["--verbose"]
  | verbose false => ["-v"]

def path? : Argument → Option String
  | .path text => some text
  | _ => none

/-- The text that the argument gives an option as its value. -/
def textOf? (option : ValueOption) : Argument → Option String
  | valued other text _ => if other = option then some text else none
  | _ => none

def isVerbose : Argument → Bool
  | verbose _ => true
  | _ => false

end Argument

/-- The arguments list the paths of the request in order and give each of its options once, where
the format of a text report may be left out. -/
structure ScanRequest.IsWritten (request : ScanRequest) (arguments : List Argument) : Prop where
  paths : (arguments.filterMap Argument.path?).map Path.ofText = request.paths
  format : arguments.filterMap (Argument.textOf? .format) = [request.format.name] ∨
    request.format = .text ∧ arguments.filterMap (Argument.textOf? .format) = []
  projectDepth : arguments.filterMap (Argument.textOf? .projectDepth) =
    (request.projectDepth.map Nat.repr).toList
  appDepth : arguments.filterMap (Argument.textOf? .appDepth) =
    (request.appDepth.map Nat.repr).toList
  verbose : arguments.countP Argument.isVerbose = request.verbose.toNat

/-- A path that is told from an option. -/
def IsPlainPath (path : String) : Prop :=
  path ≠ "" ∧ path.toList.head? ≠ some '-'

/-! ## Words -/

theorem ofText_plain {text : String} (h : text.toList.head? ≠ some '-') :
    Word.ofText text = .plain text := by
  unfold Word.ofText
  split <;> simp_all

theorem ofText_long {option : List Char} (h : option ≠ []) {text : String}
    (htext : text.toList = '-' :: '-' :: option) :
    Word.ofText text = .long (splitValue option).1 (splitValue option).2 := by
  obtain ⟨c, option, rfl⟩ := List.exists_cons_of_ne_nil h
  rw [Word.ofText, htext]
  rfl

theorem splitValue_name {name : List Char} (h : '=' ∉ name) :
    splitValue name = (String.ofList name, none) := by
  have hname : ∀ c ∈ name, (c != '=') = true := fun c hc =>
    bne_iff_ne.2 fun e => h (e ▸ hc)
  rw [splitValue, List.takeWhile_eq_self_iff.2 hname, List.dropWhile_eq_nil_iff.2 hname]

theorem splitValue_equals {name : List Char} (h : '=' ∉ name) (value : List Char) :
    splitValue (name ++ '=' :: value) = (String.ofList name, some (String.ofList value)) := by
  have hname : ∀ c ∈ name, (c != '=') = true := fun c hc =>
    bne_iff_ne.2 fun e => h (e ▸ hc)
  rw [splitValue, List.takeWhile_append_of_pos hname, List.dropWhile_append_of_pos hname]
  simp

namespace ValueOption

theorem name_ne_nil (option : ValueOption) : option.name.toList ≠ [] := by
  cases option <;> decide

theorem not_mem_name (option : ValueOption) : '=' ∉ option.name.toList := by
  cases option <;> decide

theorem ofName?_name (option : ValueOption) : ofName? option.name = some option := by
  cases option <;> decide

theorem ofText_name (option : ValueOption) :
    Word.ofText ("--" ++ option.name) = .long option.name none := by
  rw [ofText_long option.name_ne_nil (by simp), splitValue_name option.not_mem_name,
    String.ofList_toList]

theorem ofText_joined (option : ValueOption) (text : String) :
    Word.ofText ("--" ++ option.name ++ "=" ++ text) = .long option.name (some text) := by
  have htext : ("--" ++ option.name ++ "=" ++ text).toList =
      '-' :: '-' :: (option.name.toList ++ '=' :: text.toList) := by simp
  rw [ofText_long (by simp) htext, splitValue_equals option.not_mem_name, String.ofList_toList,
    String.ofList_toList]

end ValueOption

/-! ## Numbers -/

theorem head?_repr_ne {c : Char} (h : c.isDigit = false) (n : Nat) :
    n.repr.toList.head? ≠ some c := by
  intro e
  rw [Nat.toList_repr] at e
  rw [Json.isDigit_of_mem_toDigits (List.mem_of_mem_head? e)] at h
  cases h

theorem repr_injective : Function.Injective Nat.repr := by
  intro m n e
  have hdigits := congrArg String.toList e
  rw [Nat.toList_repr, Nat.toList_repr] at hdigits
  rw [← Json.digitsValue_toDigits m, hdigits, Json.digitsValue_toDigits]

theorem readNatural?_repr {n : Nat} (h : n < Nat.pow 2 64) : readNatural? n.repr = some n := by
  have hvalue := Json.digitsValue_toDigits n
  rw [Json.digitsValue] at hvalue
  have hdigits : (Nat.toDigits 10 n).all Char.isDigit :=
    List.all_eq_true.2 fun _ => Json.isDigit_of_mem_toDigits
  have hne : (Nat.toDigits 10 n).isEmpty = false :=
    List.isEmpty_eq_false_iff.2 Nat.toDigits_ne_nil
  have hplus := head?_repr_ne (c := '+') rfl n
  unfold readNatural?
  rw [Nat.toList_repr] at hplus ⊢
  split
  · next digits htext => exact absurd (by rw [htext]; rfl) hplus
  · simp only [hvalue, hne, hdigits, h, decide_true, Bool.not_false, Bool.and_true, if_true]

namespace Format

theorem ofName?_name (format : Format) : ofName? format.name = some format := by
  cases format <;> decide

end Format

/-! ## Drafts -/

namespace Draft

/-- What the draft holds for an option, as it is written. -/
def written? (draft : Draft) : ValueOption → Option String
  | .format => draft.format.map Format.name
  | .projectDepth => draft.projectDepth.map Nat.repr
  | .appDepth => draft.appDepth.map Nat.repr

/-- The depths of the draft are numbers of 64 bits. -/
structure IsBounded (draft : Draft) : Prop where
  projectDepth : ∀ depth ∈ draft.projectDepth, depth < Nat.pow 2 64
  appDepth : ∀ depth ∈ draft.appDepth, depth < Nat.pow 2 64

theorem ext_written {draft other : Draft} (hpaths : draft.paths = other.paths)
    (hwritten : ∀ option, draft.written? option = other.written? option)
    (hverbose : draft.verbose = other.verbose) (hpending : draft.pending = other.pending) :
    draft = other := by
  have hname : Function.Injective Format.name := by
    intro format format' e
    have := congrArg Format.ofName? e
    rwa [Format.ofName?_name, Format.ofName?_name, Option.some.injEq] at this
  obtain ⟨paths, format, projectDepth, appDepth, verbose, pending⟩ := draft
  obtain ⟨paths', format', projectDepth', appDepth', verbose', pending'⟩ := other
  obtain rfl : paths = paths' := hpaths
  obtain rfl : verbose = verbose' := hverbose
  obtain rfl : pending = pending' := hpending
  obtain rfl : format = format' := Option.map_injective hname (hwritten .format)
  obtain rfl : projectDepth = projectDepth' :=
    Option.map_injective repr_injective (hwritten .projectDepth)
  obtain rfl : appDepth = appDepth' := Option.map_injective repr_injective (hwritten .appDepth)
  rfl

/-- Two drafts are alike but for what they hold for an option. -/
structure AlikeBut (option : ValueOption) (draft other : Draft) : Prop where
  paths : other.paths = draft.paths
  written : ∀ option', option' ≠ option → other.written? option' = draft.written? option'
  verbose : other.verbose = draft.verbose
  pending : other.pending = draft.pending

/-- An option that has no value yet takes one that some draft holds. -/
theorem exists_assign {draft target : Draft} {option : ValueOption} {text : String}
    (hfree : draft.written? option = none) (hbounded : target.IsBounded)
    (htext : target.written? option = some text) :
    ∃ other, draft.assign option text = .ok other ∧ other.written? option = some text ∧
      AlikeBut option draft other := by
  cases option with
  | format =>
    obtain ⟨format, -, rfl⟩ := Option.map_eq_some_iff.1 htext
    have hnone : draft.format = none := Option.map_eq_none_iff.1 hfree
    refine ⟨{ draft with format := some format }, ?_, rfl, rfl, ?_, rfl, rfl⟩
    · simp [assign, hnone, Format.ofName?_name]
    · rintro (_ | _ | _) h <;> first | rfl | exact absurd rfl h
  | projectDepth =>
    obtain ⟨depth, hdepth, rfl⟩ := Option.map_eq_some_iff.1 htext
    have hnone : draft.projectDepth = none := Option.map_eq_none_iff.1 hfree
    refine ⟨{ draft with projectDepth := some depth }, ?_, rfl, rfl, ?_, rfl, rfl⟩
    · simp [assign, hnone, readNatural?_repr (hbounded.projectDepth depth hdepth)]
    · rintro (_ | _ | _) h <;> first | rfl | exact absurd rfl h
  | appDepth =>
    obtain ⟨depth, hdepth, rfl⟩ := Option.map_eq_some_iff.1 htext
    have hnone : draft.appDepth = none := Option.map_eq_none_iff.1 hfree
    refine ⟨{ draft with appDepth := some depth }, ?_, rfl, rfl, ?_, rfl, rfl⟩
    · simp [assign, hnone, readNatural?_repr (hbounded.appDepth depth hdepth)]
    · rintro (_ | _ | _) h <;> first | rfl | exact absurd rfl h

theorem head?_written_ne {draft : Draft} {option : ValueOption} {text : String}
    (h : draft.written? option = some text) : text.toList.head? ≠ some '-' := by
  cases option with
  | format =>
    obtain ⟨format, -, rfl⟩ := Option.map_eq_some_iff.1 h
    cases format <;> decide
  | projectDepth | appDepth =>
    obtain ⟨depth, -, rfl⟩ := Option.map_eq_some_iff.1 h
    exact head?_repr_ne rfl depth

/-! ## One argument -/

section Step

variable {draft settled : Draft}

theorem settle_of_nothing (h : draft.pending = .nothing) : draft.settle = .ok draft := by
  rw [settle, h]

theorem pending_of_assign {option : ValueOption} {text : String}
    (h : draft.assign option text = .ok settled) : settled.pending = draft.pending := by
  cases option <;> simp only [assign] at h <;> split at h <;> try cases h
  all_goals
    split at h <;> cases h
    rfl

theorem pending_of_settle (h : draft.settle = .ok settled) : settled.pending = .nothing := by
  unfold settle at h
  split at h
  · next hpending =>
    cases h
    exact hpending
  · split at h <;> cases h
    rfl
  · cases h
  · exact pending_of_assign h

theorem addWords_cons {text : String} {next : Draft} (hword : Word.ofText text ≠ .separator)
    (h : draft.addWord (Word.ofText text) = .ok next) (texts : List String) :
    draft.addWords (text :: texts) = next.addWords texts := by
  rw [addWords]
  split
  · next hseparator => exact absurd hseparator hword
  · rw [h]

theorem addPlain_eq_addPath (h : draft.settle = .ok settled) (text : String) :
    draft.addPlain text = draft.addPath text := by
  unfold addPlain
  split
  · next hpending =>
    simp only [settle, hpending] at h
    cases h
  · rfl

/-- A path is added to those that are pending, or begins to be pending itself. -/
theorem exists_addPath (h : draft.settle = .ok settled) {path : String} (hpath : path ≠ "") :
    ∃ next : Draft, draft.addPath path = .ok next ∧
      next.settle = .ok { settled with paths := settled.paths ++ [path] } := by
  have hpending := pending_of_settle h
  unfold addPath
  split
  · next paths hpaths =>
    simp only [settle, hpaths] at h
    refine ⟨_, rfl, ?_⟩
    split at h
    · cases h
    · next hsound =>
      cases h
      have hsound' : (paths ++ [path]).contains "" = false := by
        simpa [eq_comm, hpath] using hsound
      simp only [settle, hsound', Bool.false_eq_true, if_false, List.append_assoc]
  · refine ⟨{ settled with pending := .paths [path] }, by rw [h]; rfl, ?_⟩
    have hsound : [path].contains "" = false := by simpa [eq_comm] using hpath
    simp only [settle, hsound, Bool.false_eq_true, if_false, hpending]

theorem exists_addWords_path (h : draft.settle = .ok settled) {path : String}
    (hpath : IsPlainPath path) :
    ∃ next : Draft, (∀ texts, draft.addWords (path :: texts) = next.addWords texts) ∧
      next.settle = .ok { settled with paths := settled.paths ++ [path] } := by
  obtain ⟨next, hnext, hsettle⟩ := exists_addPath h hpath.1
  have hword := ofText_plain hpath.2
  refine ⟨next, addWords_cons (by simp [hword]) ?_, hsettle⟩
  rw [hword, addWord, addPlain_eq_addPath h, hnext]

/-- An option with its value is assigned at once, or when the word behind it is settled. -/
theorem exists_addWords_valued (h : draft.settle = .ok settled) {option : ValueOption}
    {text : String} {assigned : Draft} (hassign : settled.assign option text = .ok assigned)
    (htext : text.toList.head? ≠ some '-') (joined : Bool) :
    ∃ next : Draft, (∀ texts, draft.addWords ((Argument.valued option text joined).words ++ texts) =
        next.addWords texts) ∧ next.settle = .ok assigned := by
  have hpending := pending_of_settle h
  cases joined with
  | true =>
    have hword := option.ofText_joined text
    refine ⟨assigned, addWords_cons (by simp [hword]) ?_, settle_of_nothing ?_⟩
    · simp [hword, addWord, addLong, ValueOption.ofName?_name, addOption, h, hassign]
    · rw [pending_of_assign hassign, hpending]
  | false =>
    have hname := option.ofText_name
    have hvalue := ofText_plain htext
    refine ⟨{ settled with pending := .value option (some text) }, fun texts => ?_, ?_⟩
    · have hfirst : draft.addWord (Word.ofText ("--" ++ option.name)) =
          .ok { settled with pending := .value option none } := by
        simp [hname, addWord, addLong, ValueOption.ofName?_name, addOption, h]
      rw [Argument.words, List.cons_append, List.singleton_append,
        addWords_cons (by simp [hname]) hfirst]
      refine addWords_cons (by simp [hvalue]) ?_ texts
      rw [hvalue]
      rfl
    · rw [settle, ← hassign, ← hpending]

theorem exists_addWords_verbose (h : draft.settle = .ok settled)
    (hverbose : settled.verbose = false) (long : Bool) :
    ∃ next : Draft, (∀ texts, draft.addWords ((Argument.verbose long).words ++ texts) =
        next.addWords texts) ∧ next.settle = .ok { settled with verbose := true } := by
  have hset : draft.setVerbose = .ok { settled with verbose := true } := by
    simp [setVerbose, h, hverbose]
  have hpending := pending_of_settle h
  refine ⟨{ settled with verbose := true }, ?_, settle_of_nothing hpending⟩
  cases long with
  | true =>
    have hword : Word.ofText "--verbose" = .long "verbose" none := by decide
    have hname : ValueOption.ofName? "verbose" = none := by decide
    refine addWords_cons (by simp [hword]) ?_
    simp [hword, addWord, addLong, hname, hset]
  | false =>
    have hword : Word.ofText "-v" = .short ['v'] := by decide
    refine addWords_cons (by simp [hword]) ?_
    simp [hword, addWord, addShort, hset]

end Step

/-! ## All arguments -/

/-- The arguments make the target of a draft: they add its further paths, and each option gets its
value from the draft or from one of them, not from two. -/
structure Extends (draft : Draft) (arguments : List Argument) (target : Draft) : Prop where
  paths : target.paths = draft.paths ++ arguments.filterMap Argument.path?
  written : ∀ option, (target.written? option).toList =
    (draft.written? option).toList ++ arguments.filterMap (Argument.textOf? option)
  verbose : target.verbose.toNat = draft.verbose.toNat + arguments.countP Argument.isVerbose

section Extends

variable {draft target : Draft} {arguments : List Argument}

theorem Extends.eq_of_nil (h : Extends draft [] target)
    (hpending : draft.pending = target.pending) : draft = target := by
  refine ext_written ?_ (fun option => ?_) ?_ hpending
  · simpa using h.paths.symm
  · have hwritten := h.written option
    rw [List.filterMap_nil, List.append_nil] at hwritten
    cases hd : draft.written? option <;> cases ht : target.written? option <;> simp_all
  · have hverbose := h.verbose
    rw [List.countP_nil, Nat.add_zero] at hverbose
    cases hd : draft.verbose <;> cases ht : target.verbose <;> simp_all

/-- There is no place for an item behind one that is there already. -/
theorem eq_of_toList_eq {α : Type} {whole front : Option α} {x : α} {rest : List α}
    (h : whole.toList = front.toList ++ x :: rest) : front = none ∧ whole = some x ∧ rest = [] := by
  cases whole <;> cases front <;> simp_all

/-- The first argument is read, and the others make the target of what it gives. -/
theorem exists_step {settled : Draft} {argument : Argument} (hdraft : draft.settle = .ok settled)
    (h : Extends settled (argument :: arguments) target) (hbounded : target.IsBounded)
    (hpaths : ∀ path ∈ target.paths, IsPlainPath path) :
    ∃ next other : Draft, (∀ texts, draft.addWords (argument.words ++ texts) =
        next.addWords texts) ∧ next.settle = .ok other ∧ Extends other arguments target := by
  cases argument with
  | path path =>
    have hpath : IsPlainPath path := hpaths path (by rw [h.paths]; simp [Argument.path?])
    obtain ⟨next, hnext, hsettle⟩ := exists_addWords_path hdraft hpath
    refine ⟨next, _, hnext, hsettle, ?_, ?_, ?_⟩
    · rw [h.paths]
      simp [Argument.path?]
    · exact h.written
    · exact h.verbose
  | valued option text joined =>
    have hwritten := h.written option
    rw [List.filterMap_cons_some (b := text) (by simp [Argument.textOf?])] at hwritten
    obtain ⟨hfree, htext, hnone⟩ := eq_of_toList_eq hwritten
    obtain ⟨assigned, hassign, hheld, halike⟩ := exists_assign hfree hbounded htext
    obtain ⟨next, hnext, hsettle⟩ :=
      exists_addWords_valued hdraft hassign (head?_written_ne htext) joined
    refine ⟨next, assigned, hnext, hsettle, ?_, fun other => ?_, ?_⟩
    · rw [halike.paths]
      exact h.paths
    · by_cases hother : other = option
      · rw [hother, htext, hheld, hnone, List.append_nil]
      · have hrest := h.written other
        rwa [List.filterMap_cons_none (by simp [Argument.textOf?, Ne.symm hother]),
          ← halike.written other hother] at hrest
    · rw [halike.verbose]
      exact h.verbose
  | verbose long =>
    have hverbose := h.verbose
    rw [List.countP_cons_of_pos rfl] at hverbose
    -- The target counts one verbose argument at most, and this is it.
    have hbound := target.verbose.toNat_le
    have hfree : settled.verbose = false := by
      rw [← Bool.toNat_eq_zero]
      omega
    obtain ⟨next, hnext, hsettle⟩ := exists_addWords_verbose hdraft hfree long
    refine ⟨next, _, hnext, hsettle, h.paths, h.written, ?_⟩
    rw [hfree] at hverbose
    rw [hverbose]
    exact (Nat.zero_add _).trans (Nat.add_comm _ _)

/-- The arguments are read one after another, and nothing that is pending is lost. -/
theorem addWords_words (hpending : target.pending = .nothing) (hbounded : target.IsBounded)
    (hpaths : ∀ path ∈ target.paths, IsPlainPath path) {settled : Draft}
    (hdraft : draft.settle = .ok settled) (h : Extends settled arguments target) :
    ∃ last : Draft, draft.addWords (arguments.flatMap Argument.words) = .ok last ∧
      last.settle = .ok target := by
  -- A word may stay pending between two arguments, so the invariant is about the settled draft.
  induction arguments generalizing draft settled with
  | nil =>
    have hsettled := h.eq_of_nil ((pending_of_settle hdraft).trans hpending.symm)
    exact ⟨draft, rfl, hsettled ▸ hdraft⟩
  | cons argument arguments ih =>
    obtain ⟨next, other, hnext, hsettle, hother⟩ := exists_step hdraft h hbounded hpaths
    obtain ⟨last, hlast, htarget⟩ := ih hsettle hother
    exact ⟨last, by rw [List.flatMap_cons, hnext, hlast], htarget⟩

end Extends

end Draft

/-! ## Whole requests -/

/-- The draft that the arguments of a request make. -/
def ScanRequest.draft (request : ScanRequest) (arguments : List Argument) : Draft where
  paths := arguments.filterMap Argument.path?
  format :=
    if arguments.filterMap (Argument.textOf? .format) = [] then none else some request.format
  projectDepth := request.projectDepth
  appDepth := request.appDepth
  verbose := request.verbose

theorem ScanRequest.IsWritten.extends {request : ScanRequest} {arguments : List Argument}
    (h : request.IsWritten arguments) : Draft.Extends {} arguments (request.draft arguments) where
  paths := rfl
  written
    | .format => by
      rcases h.format with hformat | ⟨-, hformat⟩ <;>
        simp [draft, Draft.written?, hformat]
    | .projectDepth => h.projectDepth.symm
    | .appDepth => h.appDepth.symm
  verbose := by simp [draft, h.verbose]

/-- The draft of a request that is written is the request. -/
theorem ScanRequest.IsWritten.request_draft {request : ScanRequest} {arguments : List Argument}
    (h : request.IsWritten arguments) : (request.draft arguments).request = request := by
  rcases h.format with hformat | ⟨htext, hformat⟩
  · simp [draft, Draft.request, hformat, h.paths]
  · simp [draft, Draft.request, hformat, ← htext, h.paths]

/--
The words of arguments that write a request are read as this request, with its paths in order and
its depths exact. So neither the places of the options nor their spellings matter.
-/
theorem ofWords_written {request : ScanRequest} {arguments : List Argument}
    (h : request.IsWritten arguments) (hpaths : ∀ path ∈ request.paths, IsPlainPath path.text)
    (hproject : ∀ depth ∈ request.projectDepth, depth < Nat.pow 2 64)
    (happ : ∀ depth ∈ request.appDepth, depth < Nat.pow 2 64) :
    Command.ofWords ("scan" :: arguments.flatMap Argument.words) = .ok (some (.scan request)) := by
  have hstart : ({} : Draft).settle = .ok {} := rfl
  have hplain : ∀ path ∈ (request.draft arguments).paths, IsPlainPath path := fun path hpath =>
    hpaths (.ofText path) (h.paths ▸ List.mem_map_of_mem hpath)
  obtain ⟨last, hlast, hsettle⟩ :=
    Draft.addWords_words rfl ⟨hproject, happ⟩ hplain hstart h.extends
  have hscan : ScanRequest.ofWords (arguments.flatMap Argument.words) = .ok request := by
    rw [ScanRequest.ofWords, hlast]
    simp only [hsettle, Except.map, h.request_draft]
  have hword : Word.ofText "scan" = .plain "scan" := by decide
  rw [Command.ofWords, hword]
  simp [Command.ofName, hscan, Except.map]

/-- The greatest depth behind its option, between two paths, with an option on either side. -/
theorem ofWords_written_backend :
    let request : ScanRequest :=
      { paths := [⟨"backend"⟩, ⟨"legacy"⟩], format := .json, projectDepth := some (Nat.pow 2 64 - 1)
        verbose := true }
    let arguments : List Argument :=
      [.verbose false, .path "backend", .valued .projectDepth "18446744073709551615" false,
        .path "legacy", .valued .format "json" true]
    request.IsWritten arguments ∧ (∀ path ∈ request.paths, IsPlainPath path.text) ∧
    (∀ depth ∈ request.projectDepth, depth < Nat.pow 2 64) ∧
    (∀ depth ∈ request.appDepth, depth < Nat.pow 2 64) ∧
    Command.ofWords ["scan", "-v", "backend", "--project-depth", "18446744073709551615", "legacy",
      "--format=json"] = .ok (some (.scan request)) := by
  intro request arguments
  have hwritten : request.IsWritten arguments :=
    ⟨rfl, Or.inl rfl, by decide +kernel, by decide, rfl⟩
  have hpaths : ∀ path ∈ request.paths, IsPlainPath path.text := by
    unfold IsPlainPath
    decide
  have hproject : ∀ depth ∈ request.projectDepth, depth < Nat.pow 2 64 := by
    rintro depth ⟨⟩
    decide
  have happ : ∀ depth ∈ request.appDepth, depth < Nat.pow 2 64 := nofun
  exact ⟨hwritten, hpaths, hproject, happ, ofWords_written hwritten hpaths hproject happ⟩

end SiteSurvey.CommandLine
