import Mathlib.Data.List.Basic
import Mathlib.Data.List.Range
import Mathlib.Data.List.TakeWhile
import SiteSurvey.Admin.Registration
import SiteSurvey.Proofs.Text.Word

/-!
# Finding registrations line by line

A find that lies in one line, whatever follows the line, is what that line adds to the finds of a
text (`finds_joinLines`). A decorator's models are the words in front of its closing parenthesis and
of the keyword argument `site` (`finds_decorator`), a call's model is its first word
(`finds_call`). Decorators and calls are taken in rounds (`interleave_eq_rounds`). All registered
models are words, whatever the text (`isWord_of_mem_registered`).
-/

namespace SiteSurvey.Admin

open Text

/-! ## Finds in one line -/

section Finds

variable {α : Type} {find? : List Char → Option (α × Nat)}

/-- What may follow a line in a text. -/
def FollowsLine (rest : List Char) : Prop :=
  ∀ c ∈ rest.head?, c = '\n'

/-- What is found at the beginning of a line, if anything is, and within the line. -/
def FindsInLine (find? : List Char → Option (α × Nat)) (line : List Char) : Option α → Prop
  | none => ∀ rest, FollowsLine rest → find? (line ++ rest) = none
  | some value => ∀ rest, FollowsLine rest →
    ∃ length, 0 < length ∧ length ≤ line.length ∧ find? (line ++ rest) = some (value, length)

theorem FollowsLine.eq_nil_or {rest : List Char} (h : FollowsLine rest) :
    rest = [] ∨ ∃ later, rest = '\n' :: later := by
  cases rest with
  | nil => exact Or.inl rfl
  | cons c later => exact Or.inr ⟨later, by rw [h c rfl]⟩

/-- Nothing is found in the rest of a line. -/
theorem findsFrom_rest {line rest : List Char} (h : '\n' ∉ line) (hrest : FollowsLine rest)
    {covered : Nat} (hcovered : covered ≤ line.length) :
    findsFrom find? covered false (line ++ rest) = finds find? rest.tail := by
  induction line generalizing covered with
  | nil =>
    have hzero : covered = 0 := by simpa using hcovered
    subst hzero
    rcases hrest.eq_nil_or with rfl | ⟨later, rfl⟩ <;> rfl
  | cons c line ih =>
    rw [List.mem_cons, not_or] at h
    have hc : (c == '\n') = false := by simpa using fun e : c = '\n' => h.1 e.symm
    rw [List.length_cons] at hcovered
    cases covered with
    | zero => rw [List.cons_append, findsFrom, hc, ih h.2 (Nat.zero_le _)]
    | succ covered => rw [List.cons_append, findsFrom, hc, ih h.2 (by omega)]

theorem finds_line {line rest : List Char} (h : '\n' ∉ line) (hrest : FollowsLine rest)
    {value? : Option α} (hfinds : FindsInLine find? line value?) :
    finds find? (line ++ rest) = value?.toList ++ finds find? rest.tail := by
  unfold finds
  cases line with
  | nil =>
    cases value? with
    | none =>
      have hfind := hfinds rest hrest
      rcases hrest.eq_nil_or with rfl | ⟨later, rfl⟩
      · rfl
      · rw [List.nil_append] at hfind ⊢
        rw [findsFrom, hfind]
        rfl
    | some value =>
      obtain ⟨length, hpos, hle, -⟩ := hfinds rest hrest
      rw [List.length_nil] at hle
      omega
  | cons c line =>
    rw [List.mem_cons, not_or] at h
    have hc : (c == '\n') = false := by simpa using fun e : c = '\n' => h.1 e.symm
    cases value? with
    | none =>
      have hfind := hfinds rest hrest
      rw [List.cons_append] at hfind ⊢
      rw [findsFrom, hfind]
      dsimp only
      rw [hc, findsFrom_rest h.2 hrest (Nat.zero_le _)]
      rfl
    | some value =>
      obtain ⟨length, hpos, hle, hfind⟩ := hfinds rest hrest
      rw [List.length_cons] at hle
      rw [List.cons_append] at hfind ⊢
      rw [findsFrom, hfind]
      dsimp only
      rw [hc, findsFrom_rest h.2 hrest (by omega)]
      rfl

/-- The finds of a text are those of its lines, if each lies within its line. -/
theorem finds_joinLines {ι : Type} {text : ι → List Char} {value? : ι → Option α} (ended : Bool)
    {all : List ι} (hline : ∀ line ∈ all, '\n' ∉ text line)
    (h : ∀ line ∈ all, FindsInLine find? (text line) (value? line)) :
    finds find? (joinLines ended (all.map text)) = all.filterMap value? := by
  induction all with
  | nil => rfl
  | cons line all ih =>
    rw [List.forall_mem_cons] at hline h
    have hall : (line :: all).filterMap value? = (value? line).toList ++ all.filterMap value? := by
      rw [List.filterMap_cons]
      cases value? line <;> rfl
    rw [List.map_cons, hall]
    by_cases hlast : all = []
    · subst hlast
      cases ended with
      | true => exact finds_line hline.1 (by simp [FollowsLine]) h.1
      | false => exact finds_line hline.1 (by simp [FollowsLine]) h.1
    · have hrest : FollowsLine ('\n' :: joinLines ended (all.map text)) := by simp [FollowsLine]
      rw [joinLines_cons ended _ (by simpa using hlast), finds_line hline.1 hrest h.1,
        List.tail_cons, ih hline.2 h.2]

end Finds

/-! ## The opening of a registration -/

/-- The ways from a name to the function that registers models. -/
def accesses : List (List Char) :=
  [[], ".site".toList, ".register".toList, ".site.register".toList]

/-- A call by one of these ways. -/
def callText (name access arguments : List Char) : List Char :=
  name ++ (access ++ '(' :: (arguments ++ [')']))

theorem afterCall?_access (name : List Char) {access : List Char} (h : access ∈ accesses)
    (rest : List Char) : afterCall? name (name ++ (access ++ '(' :: rest)) = some rest := by
  unfold afterCall?
  rw [after?_append]
  simp only [accesses, List.mem_cons, List.not_mem_nil, or_false] at h
  rcases h with rfl | rfl | rfl | rfl <;> simp [dropStart, after?]

/-- Nothing is called where neither a dot nor a parenthesis stands. -/
theorem not_called {c : Char} (hdot : c ≠ '.') (hopen : c ≠ '(') (rest : List Char) :
    after? ['('] (dropStart ".register".toList (dropStart ".site".toList (c :: rest))) = none := by
  have hdot' : '.' ≠ c := fun e => hdot e.symm
  have hopen' : '(' ≠ c := fun e => hopen e.symm
  simp [dropStart, after?, hdot', hopen']

theorem afterCall?_word {name word : List Char} (hname : ∀ c ∈ name, isWord c = true)
    (hword : ∀ c ∈ word, isWord c = true) {c : Char} (hc : isWord c = false) (hdot : c ≠ '.')
    (hopen : c ≠ '(') (rest : List Char) : afterCall? name (word ++ c :: rest) = none := by
  unfold afterCall?
  rw [after?_append_of_endsWord hname (endsWord_cons hc rest)]
  cases hafter : after? name word with
  | none => rfl
  | some left =>
    -- what is left of the word is no call either
    have htext : word = name ++ left := after?_eq_some_iff.1 hafter
    rw [Option.map_some, Option.bind_eq_bind, Option.bind_some]
    cases left with
    | nil => exact not_called hdot hopen rest
    | cons d left =>
      have hd : isWord d = true := hword d (by simp [htext])
      have hdot' : d ≠ '.' := ne_of_isWord hd (by decide)
      have hopen' : d ≠ '(' := ne_of_isWord hd (by decide)
      exact not_called hdot' hopen' _

theorem dropWhile_isIndent_append {indent : List Char} (hindent : ∀ c ∈ indent, isIndent c = true)
    {c : Char} (hc : isIndent c = false) (rest : List Char) :
    (indent ++ c :: rest).dropWhile isIndent = c :: rest := by
  rw [List.dropWhile_append_of_pos hindent, List.dropWhile_cons_of_neg (by simp [hc])]

/-! ## Registrations in a line -/

section Lines

variable {indent : List Char} (hindent : ∀ c ∈ indent, isIndent c = true)

include hindent

theorem finds_decorator (name : List Char) {access arguments : List Char}
    (haccess : access ∈ accesses) (harguments : ')' ∉ arguments) :
    FindsInLine (decorator? name) (indent ++ '@' :: callText name access arguments)
      (some (beforeSiteArgument arguments)) := by
  intro rest _
  have hall : ∀ c ∈ arguments, (c != ')') = true := by
    intro c hc
    simpa using fun e : c = ')' => harguments (e ▸ hc)
  have hstart : (indent ++ '@' :: callText name access arguments ++ rest).dropWhile isIndent =
      ['@'] ++ (name ++ (access ++ '(' :: (arguments ++ ')' :: rest))) := by
    rw [List.append_assoc, List.cons_append, dropWhile_isIndent_append hindent (by decide)]
    simp [callText]
  have hdrop : (arguments ++ ')' :: rest).dropWhile (· != ')') = ')' :: rest := by
    rw [List.dropWhile_append_of_pos hall, List.dropWhile_cons_of_neg (by decide)]
  have htake : (arguments ++ ')' :: rest).takeWhile (· != ')') = arguments := by
    rw [List.takeWhile_append_of_pos hall, List.takeWhile_cons_of_neg (by decide), List.append_nil]
  have hlength : (indent ++ '@' :: callText name access arguments ++ rest).length - rest.length =
      (indent ++ '@' :: callText name access arguments).length := by
    rw [List.length_append, Nat.add_sub_cancel]
  refine ⟨(indent ++ '@' :: callText name access arguments).length, ?_, le_rfl, ?_⟩
  · rw [List.length_append, List.length_cons]
    omega
  · unfold decorator?
    rw [hstart, after?_append]
    simp only [Option.bind_eq_bind, Option.bind_some, afterCall?_access name haccess, hdrop, htake,
      hlength]

theorem finds_call {name model : List Char} (hname : ∀ c ∈ name, isWord c = true)
    (hnonempty : name ≠ []) (hmodel : ∀ c ∈ model, isWord c = true) (hmodel' : model ≠ [])
    {access : List Char} (haccess : access ∈ accesses) {more : List Char} (hmore : EndsWord more) :
    FindsInLine (call? name) (indent ++ callText name access (model ++ more)) (some model) := by
  intro rest _
  obtain ⟨n, names, rfl⟩ := List.exists_cons_of_ne_nil hnonempty
  obtain ⟨m, models, rfl⟩ := List.exists_cons_of_ne_nil hmodel'
  have hn : isIndent n = false := isIndent_eq_false (hname n List.mem_cons_self)
  have hm : isBlank m = false := isBlank_eq_false (hmodel m List.mem_cons_self)
  have hends : EndsWord (more ++ ')' :: rest) := hmore.append (endsWord_cons (by decide) rest)
  have hstart : (indent ++ callText (n :: names) access (m :: models ++ more) ++ rest).dropWhile
      isIndent = n :: names ++ (access ++ '(' :: (m :: models ++ (more ++ ')' :: rest))) := by
    rw [callText, List.append_assoc, List.cons_append, List.cons_append,
      dropWhile_isIndent_append hindent hn]
    simp
  have hblank : (m :: models ++ (more ++ ')' :: rest)).dropWhile isBlank =
      m :: models ++ (more ++ ')' :: rest) :=
    List.dropWhile_cons_of_neg (by simp [hm])
  refine ⟨indent.length + names.length + access.length + models.length + 3, by omega, ?_, ?_⟩
  · simp only [callText, List.length_append, List.length_cons]
    omega
  · have hlength : (indent ++ callText (n :: names) access (m :: models ++ more) ++ rest).length -
        (more ++ ')' :: rest).length =
        indent.length + names.length + access.length + models.length + 3 := by
      simp only [callText, List.length_append, List.length_cons, List.length_nil]
      omega
    unfold call?
    rw [hstart]
    simp only [Option.bind_eq_bind, Option.bind_some, afterCall?_access (n :: names) haccess,
      hblank, takeWhile_isWord_append hmodel hends, dropWhile_isWord_append hmodel hends, hlength]
    rfl

/-- Only an at sign begins a decorator. -/
theorem finds_no_decorator (name : List Char) {c : Char} (hc : isIndent c = false) (hat : c ≠ '@')
    (more : List Char) : FindsInLine (decorator? name) (indent ++ c :: more) none := by
  intro rest _
  have hat' : '@' ≠ c := fun e => hat e.symm
  unfold decorator?
  rw [List.append_assoc, List.cons_append, dropWhile_isIndent_append hindent hc]
  simp [after?, hat']

/-- A line that begins otherwise than the name calls nothing. -/
theorem finds_no_call_of_ne {name : List Char} {n c : Char} (hname : name.head? = some n)
    (hc : isIndent c = false) (hne : n ≠ c) (more : List Char) :
    FindsInLine (call? name) (indent ++ c :: more) none := by
  intro rest _
  obtain ⟨names, rfl⟩ := List.head?_eq_some_iff.1 hname
  unfold call? afterCall?
  rw [List.append_assoc, List.cons_append, dropWhile_isIndent_append hindent hc]
  simp [after?, hne]

/-- A line whose first word is not called calls nothing. -/
theorem finds_no_call_of_word {name word : List Char} (hname : ∀ c ∈ name, isWord c = true)
    (hword : ∀ c ∈ word, isWord c = true) (hnonempty : word ≠ []) {c : Char}
    (hc : isWord c = false) (hdot : c ≠ '.') (hopen : c ≠ '(') (more : List Char) :
    FindsInLine (call? name) (indent ++ (word ++ c :: more)) none := by
  intro rest _
  obtain ⟨w, words, rfl⟩ := List.exists_cons_of_ne_nil hnonempty
  have hw : isIndent w = false := isIndent_eq_false (hword w List.mem_cons_self)
  have hcall := afterCall?_word hname hword hc hdot hopen (more ++ rest)
  have htext : indent ++ (w :: words ++ c :: more) ++ rest =
      indent ++ w :: (words ++ c :: (more ++ rest)) := by simp
  rw [List.cons_append] at hcall
  unfold call?
  rw [htext, dropWhile_isIndent_append hindent hw, hcall]
  rfl

end Lines

/-! ## Taking turns -/

/--
Two lists in rounds: in each round all members of the next group and then the next single member, as
long as either is left.
-/
def rounds {α : Type} (groups : List (List α)) (singles : List α) : List α :=
  (List.range (max groups.length singles.length)).flatMap fun i =>
    groups[i]?.getD [] ++ singles[i]?.toList

section Rounds

variable {α β : Type}

theorem rounds_nil_left (singles : List α) : rounds [] singles = singles := by
  unfold rounds
  induction singles with
  | nil => rfl
  | cons single singles ih =>
    simp only [List.length_nil, List.length_cons, Nat.zero_max, List.range_succ_eq_map,
      List.flatMap_cons, List.flatMap_map, List.getElem?_nil, List.getElem?_cons_succ,
      List.getElem?_cons_zero, Option.getD_none, Option.toList_some, List.nil_append,
      List.singleton_append] at ih ⊢
    rw [ih]

theorem rounds_nil_right (group : List α) (groups : List (List α)) :
    rounds (group :: groups) [] = group ++ rounds groups [] := by
  unfold rounds
  simp only [List.length_nil, List.length_cons, Nat.max_zero, List.range_succ_eq_map,
    List.flatMap_cons, List.flatMap_map, List.getElem?_nil, List.getElem?_cons_succ,
    List.getElem?_cons_zero, Option.getD_some, Option.toList_none, List.append_nil]

theorem rounds_cons (group : List α) (groups : List (List α)) (single : α) (singles : List α) :
    rounds (group :: groups) (single :: singles) = group ++ single :: rounds groups singles := by
  unfold rounds
  simp only [List.length_cons, Nat.add_max_add_right, List.range_succ_eq_map,
    List.flatMap_cons, List.flatMap_map, List.getElem?_cons_succ, List.getElem?_cons_zero,
    Option.getD_some, Option.toList_some, List.append_assoc, List.singleton_append]

theorem rounds_map (f : α → β) (groups : List (List α)) (singles : List α) :
    (rounds groups singles).map f = rounds (groups.map (List.map f)) (singles.map f) := by
  unfold rounds
  rw [List.map_flatMap, List.length_map, List.length_map]
  refine List.flatMap_congr fun i _ => ?_
  rw [List.map_append, List.getElem?_map, List.getElem?_map]
  cases groups[i]? <;> cases singles[i]? <;> rfl

end Rounds

theorem interleave_eq_rounds (decorators calls : List (List Char)) :
    interleave decorators calls = rounds (decorators.map words) calls := by
  induction decorators generalizing calls with
  | nil => rw [interleave, List.map_nil, rounds_nil_left]
  | cons decorator decorators ih =>
    cases calls with
    | nil => rw [interleave, List.map_cons, rounds_nil_right, ih]
    | cons call calls => rw [interleave, List.map_cons, rounds_cons, ih]

/-! ## Registered models are words -/

theorem exists_find_of_mem_findsFrom {α : Type} {find? : List Char → Option (α × Nat)}
    {covered : Nat} {lineStart : Bool} {text : List Char} {value : α}
    (h : value ∈ findsFrom find? covered lineStart text) :
    ∃ rest length, find? rest = some (value, length) := by
  induction text generalizing covered lineStart with
  | nil => cases covered <;> cases lineStart <;> exact absurd h List.not_mem_nil
  | cons c text ih =>
    cases covered with
    | succ covered => exact ih h
    | zero =>
      cases lineStart with
      | false => exact ih h
      | true =>
        rw [findsFrom] at h
        split at h
        · next found length hfind =>
          rcases List.mem_cons.1 h with rfl | h
          · exact ⟨_, _, hfind⟩
          · exact ih h
        · exact ih h

theorem isWord_of_call? {name text model : List Char} {length : Nat}
    (h : call? name text = some (model, length)) :
    model ≠ [] ∧ ∀ c ∈ model, isWord c = true := by
  unfold call? at h
  obtain ⟨arguments, -, h⟩ := Option.bind_eq_some_iff.1 h
  dsimp only at h
  split_ifs at h with hempty
  cases h
  exact ⟨by simpa using hempty, fun c hc => List.mem_takeWhile_imp hc⟩

theorem mem_interleave {decorators calls : List (List Char)} {model : List Char}
    (h : model ∈ interleave decorators calls) :
    (∃ decorator ∈ decorators, model ∈ words decorator) ∨ model ∈ calls := by
  induction decorators generalizing calls with
  | nil =>
    rw [interleave] at h
    exact Or.inr h
  | cons decorator decorators ih =>
    cases calls with
    | nil =>
      rw [interleave] at h
      rcases List.mem_append.1 h with h | h
      · exact Or.inl ⟨decorator, List.mem_cons_self, h⟩
      · obtain ⟨later, hlater, hmodel⟩ := (ih h).resolve_right List.not_mem_nil
        exact Or.inl ⟨later, List.mem_cons_of_mem _ hlater, hmodel⟩
    | cons call calls =>
      rw [interleave] at h
      rcases List.mem_append.1 h with h | h
      · exact Or.inl ⟨decorator, List.mem_cons_self, h⟩
      · rcases List.mem_cons.1 h with rfl | h
        · exact Or.inr List.mem_cons_self
        · rcases ih h with ⟨later, hlater, hmodel⟩ | hcall
          · exact Or.inl ⟨later, List.mem_cons_of_mem _ hlater, hmodel⟩
          · exact Or.inr (List.mem_cons_of_mem _ hcall)

theorem isWord_of_mem_registered {compiler : Compiler} {name text model : List Char}
    (h : model ∈ registered compiler name text) : model ≠ [] ∧ ∀ c ∈ model, isWord c = true := by
  unfold registered at h
  split_ifs at h
  · rcases mem_interleave h with ⟨decorator, -, hmodel⟩ | hcall
    · exact isWord_of_mem_words hmodel
    · obtain ⟨rest, length, hfind⟩ := exists_find_of_mem_findsFrom hcall
      exact isWord_of_call? hfind
  · cases h

end SiteSurvey.Admin
