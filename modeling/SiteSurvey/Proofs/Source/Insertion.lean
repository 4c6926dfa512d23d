import SiteSurvey.Admin.Module
import SiteSurvey.Proofs.Source.Comment
import SiteSurvey.Route.File

/-!
# Inserted comments

A comment that takes a whole line, and a block where none is open, can be put into a text or taken
out of it unseen: what comment removal makes of the text stays the same, and with it the routes and
models that are read (`readAlike_insert`). A line comment may even stand inside a block.
-/

namespace SiteSurvey.Source

/-! ## Open blocks -/

/-- The beginning and the end of a block. -/
def triple : List Char :=
  ['"', '"', '"']

/-- Whether a block is open at the end of a text: each three quotes open a block or close it. -/
def blockOpenFrom : (inside : Bool) → List Char → Bool
  | inside, '"' :: '"' :: '"' :: rest => blockOpenFrom (!inside) rest
  | inside, _ :: rest => blockOpenFrom inside rest
  | inside, [] => inside

def LeavesBlockOpen (text : List Char) : Prop :=
  blockOpenFrom false text = true

instance (text : List Char) : Decidable (LeavesBlockOpen text) :=
  inferInstanceAs (Decidable (_ = _))

/-- Three quotes do not begin in a text that ends in another character unless all stand in it. -/
theorem not_prefix_append {first : List Char} (hne : first ≠ [])
    (hend : first.getLast? ≠ some '"') (h : ¬ triple <+: first) (rest : List Char) :
    ¬ triple <+: first ++ rest := by
  intro hp
  rcases first with _ | ⟨c, _ | ⟨d, _ | ⟨e, first⟩⟩⟩
  · exact hne rfl
  all_goals simp only [triple, List.cons_append, List.nil_append, List.cons_prefix_cons] at hp
  · exact hend (by simp [← hp.1])
  · exact hend (by simp [← hp.2.1])
  · obtain ⟨rfl, rfl, rfl, -⟩ := hp
    exact h ⟨first, rfl⟩

theorem getLast?_cons_ne {c : Char} {rest : List Char} (h : rest ≠ []) :
    (c :: rest).getLast? = rest.getLast? := by
  rw [List.getLast?_cons]
  cases hl : rest.getLast? with
  | none => exact absurd (List.getLast?_eq_none_iff.1 hl) h
  | some last => rfl

/-! ## Reading a beginning -/

/--
What is kept of a beginning of a text, whatever follows it. A state is the part of the open block
read so far, if one is open.
-/
def Keeps (first : List Char) (before : Option (List Char)) (kept : List Char)
    (after : Option (List Char)) : Prop :=
  ∀ rest, withoutBlocksFrom (before.map (· ++ (first ++ rest))) (first ++ rest) =
    kept ++ withoutBlocksFrom (after.map (· ++ rest)) rest

theorem withoutBlocksFrom_some_cons {c : Char} {rest : List Char} (h : ¬ triple <+: c :: rest)
    (opened : List Char) :
    withoutBlocksFrom (some opened) (c :: rest) = withoutBlocksFrom (some opened) rest := by
  rw [withoutBlocksFrom]
  rintro later rfl rfl
  exact h ⟨later, rfl⟩

namespace Keeps

theorem nil (state : Option (List Char)) : Keeps [] state [] state :=
  fun _ => rfl

theorem open_block {first kept : List Char} {after : Option (List Char)}
    (h : Keeps first (some []) kept after) : Keeps (triple ++ first) none kept after :=
  fun rest => h rest

theorem close_block {first kept : List Char} {after : Option (List Char)}
    (h : Keeps first none kept after) (opened : List Char) :
    Keeps (triple ++ first) (some opened) kept after :=
  fun rest => h rest

theorem cons_outside {c : Char} {first kept : List Char} {after : Option (List Char)}
    (hquotes : ∀ rest, ¬ triple <+: c :: (first ++ rest)) (h : Keeps first none kept after) :
    Keeps (c :: first) none (c :: kept) after := by
  intro rest
  rw [Option.map_none, List.cons_append, withoutBlocksFrom_cons (hquotes rest), List.cons_append]
  exact congrArg (c :: ·) (h rest)

theorem cons_inside {c : Char} {first opened kept : List Char} {after : Option (List Char)}
    (hquotes : ∀ rest, ¬ triple <+: c :: (first ++ rest))
    (h : Keeps first (some (opened ++ [c])) kept after) :
    Keeps (c :: first) (some opened) kept after := by
  intro rest
  have hrest := h rest
  rw [Option.map_some, List.append_assoc, List.singleton_append] at hrest
  rw [Option.map_some, List.cons_append, withoutBlocksFrom_some_cons (hquotes rest)]
  exact hrest

end Keeps

/-- A beginning that does not end in a quote is read alike whatever follows it. -/
theorem exists_keeps {first : List Char} (hend : first.getLast? ≠ some '"')
    (before : Option (List Char)) {inside : Bool} (hbefore : before.isSome = inside) :
    ∃ kept after, Keeps first before kept after ∧ after.isSome = blockOpenFrom inside first ∧
      (first ≠ [] → (after.getD kept).getLast? = first.getLast?) := by
  fun_induction blockOpenFrom inside first generalizing before with
  | case1 inside rest ih =>
    -- three quotes change the state, and something stands behind them
    have hne : rest ≠ [] := by
      rintro rfl
      exact hend rfl
    have hlast : ('"' :: '"' :: '"' :: rest).getLast? = rest.getLast? := by
      simp only [getLast?_cons_ne hne, getLast?_cons_ne (List.cons_ne_nil _ _)]
    subst hbefore
    rw [hlast] at hend ⊢
    cases before with
    | none =>
      obtain ⟨kept, after, hkeeps, hopen, hkept⟩ := ih hend (some []) rfl
      exact ⟨kept, after, hkeeps.open_block, hopen, fun _ => hkept hne⟩
    | some opened =>
      obtain ⟨kept, after, hkeeps, hopen, hkept⟩ := ih hend none rfl
      exact ⟨kept, after, hkeeps.close_block opened, hopen, fun _ => hkept hne⟩
  | case2 inside c rest hnot ih =>
    have hquotes : ¬ triple <+: c :: rest := by
      rintro ⟨later, h⟩
      obtain ⟨rfl, rfl⟩ := List.cons.inj h
      exact hnot later rfl rfl
    have hquotes' (more : List Char) : ¬ triple <+: c :: (rest ++ more) :=
      not_prefix_append (List.cons_ne_nil c rest) hend hquotes more
    subst hbefore
    by_cases hne : rest = []
    · subst hne
      cases before with
      | none => exact ⟨[c], none, (Keeps.nil none).cons_outside hquotes', rfl, by simp⟩
      | some opened =>
        exact ⟨[], some (opened ++ [c]), (Keeps.nil _).cons_inside hquotes', rfl, by simp⟩
    · rw [getLast?_cons_ne hne] at hend ⊢
      cases before with
      | none =>
        obtain ⟨kept, after, hkeeps, hopen, hkept⟩ := ih hend none rfl
        refine ⟨c :: kept, after, hkeeps.cons_outside hquotes', hopen, fun _ => ?_⟩
        cases after with
        | some opened => exact hkept hne
        | none =>
          have hlast : kept.getLast? = rest.getLast? := hkept hne
          have hkept' : kept ≠ [] := by
            rintro rfl
            exact hne (List.getLast?_eq_none_iff.1 hlast.symm)
          exact (getLast?_cons_ne hkept').trans hlast
      | some opened =>
        obtain ⟨kept, after, hkeeps, hopen, hkept⟩ := ih hend (some (opened ++ [c])) rfl
        exact ⟨kept, after, hkeeps.cons_inside hquotes', hopen, fun _ => hkept hne⟩
  | case3 inside =>
    exact ⟨[], before, Keeps.nil before, hbefore, fun h => absurd rfl h⟩

/-- Within a block, text without three quotes is passed over. -/
theorem withoutBlocksFrom_some_append {text : List Char} (h : NoTriple text)
    (hend : text.getLast? ≠ some '"') (opened rest : List Char) :
    withoutBlocksFrom (some opened) (text ++ rest) = withoutBlocksFrom (some opened) rest := by
  induction text with
  | nil => rfl
  | cons c text ih =>
    have hquotes := not_prefix_append (List.cons_ne_nil c text) hend (fun hp => h hp.isInfix) rest
    rw [List.cons_append] at hquotes ⊢
    rw [withoutBlocksFrom_some_cons hquotes]
    by_cases hne : text = []
    · rw [hne, List.nil_append]
    · rw [getLast?_cons_ne hne] at hend
      exact ih h.tail hend

/-- Outside of a block, text without three quotes is kept. -/
theorem withoutBlocksFrom_none_append {text : List Char} (h : NoTriple text)
    (hend : text.getLast? ≠ some '"') (rest : List Char) :
    withoutBlocksFrom none (text ++ rest) = text ++ withoutBlocksFrom none rest := by
  induction text with
  | nil => rfl
  | cons c text ih =>
    have hquotes := not_prefix_append (List.cons_ne_nil c text) hend (fun hp => h hp.isInfix) rest
    rw [List.cons_append] at hquotes ⊢
    rw [withoutBlocksFrom_cons hquotes]
    by_cases hne : text = []
    · rw [hne, List.nil_append, List.singleton_append]
    · rw [getLast?_cons_ne hne] at hend
      rw [ih h.tail hend, List.cons_append]

/-- An open block is closed, whatever it holds so far, or it is never closed and stays. -/
theorem withoutBlocksFrom_some_cases (rest : List Char) :
    (∃ text, ∀ opened, withoutBlocksFrom (some opened) rest = text) ∨
      ∀ opened, withoutBlocksFrom (some opened) rest = triple ++ opened := by
  induction rest with
  | nil => exact Or.inr fun opened => rfl
  | cons c rest ih =>
    by_cases h : triple <+: c :: rest
    · obtain ⟨later, h⟩ := h
      rw [← h]
      exact Or.inl ⟨withoutBlocksFrom none later, fun opened => rfl⟩
    · simp only [withoutBlocksFrom_some_cons h]
      exact ih

/-! ## A comment on a line of its own -/

/-- The text is empty or ends in a newline. -/
def Ended (text : List Char) : Prop :=
  text = [] ∨ text.getLast? = some '\n'

instance (text : List Char) : Decidable (Ended text) :=
  inferInstanceAs (Decidable (_ ∨ _))

/-- The line of a comment, its newline included. -/
def commentLine (comment : List Char) : List Char :=
  '#' :: (comment ++ ['\n'])

theorem getLast?_commentLine (comment : List Char) :
    (commentLine comment).getLast? ≠ some '"' := by
  rw [commentLine, ← List.cons_append, List.getLast?_concat]
  decide

theorem noTriple_commentLine {comment : List Char} (h : NoTriple comment) :
    NoTriple (commentLine comment) := by
  have hline : NoTriple (comment ++ '\n' :: []) :=
    noTriple_append_cons (by decide) h noTriple_nil
  have hhash : NoTriple ([] ++ '#' :: (comment ++ ['\n'])) :=
    noTriple_append_cons (by decide) noTriple_nil hline
  exact hhash

theorem withoutLineComments_commentLine {comment : List Char} (h : '\n' ∉ comment)
    (rest : List Char) :
    withoutLineComments (commentLine comment ++ rest) = withoutLineComments rest := by
  unfold withoutLineComments commentLine
  rw [List.cons_append, List.append_assoc, List.singleton_append, withoutLineCommentsFrom,
    if_pos rfl, withoutLineCommentsFrom_comment h]

/-- A comment at the beginning of a line goes with its line. -/
theorem withoutLineComments_insert {first comment : List Char} (hfirst : first.getLast? = some '\n')
    (h : '\n' ∉ comment) (rest : List Char) :
    withoutLineComments (first ++ (commentLine comment ++ rest)) =
      withoutLineComments (first ++ rest) := by
  obtain ⟨front, rfl⟩ := List.getLast?_eq_some_iff.1 hfirst
  have hline := withoutLineComments_commentLine h rest
  unfold withoutLineComments at hline ⊢
  rw [List.append_assoc, List.append_assoc, List.singleton_append, List.singleton_append,
    withoutLineCommentsFrom_newline, hline, ← withoutLineCommentsFrom_newline]

theorem uncommented_insert_comment {first comment : List Char} (hfirst : Ended first)
    (hline : '\n' ∉ comment) (htriple : NoTriple comment) (rest : List Char) :
    uncommented (first ++ (commentLine comment ++ rest)) = uncommented (first ++ rest) := by
  have hnext := noTriple_commentLine htriple
  have hlast := getLast?_commentLine comment
  unfold uncommented withoutBlocks
  rcases hfirst with rfl | hfirst
  · rw [List.nil_append, List.nil_append, withoutBlocksFrom_none_append hnext hlast,
      withoutLineComments_commentLine hline]
  · have hne : first ≠ [] := by
      rintro rfl
      cases hfirst
    have hend : first.getLast? ≠ some '"' := by
      rw [hfirst]
      decide
    obtain ⟨kept, after, hkeeps, -, hkept⟩ := exists_keeps hend none rfl
    have hwith := hkeeps (commentLine comment ++ rest)
    have hwithout := hkeeps rest
    rw [Option.map_none] at hwith hwithout
    rw [hwith, hwithout]
    have hended : (after.getD kept).getLast? = some '\n' := (hkept hne).trans hfirst
    cases after with
    | none =>
      rw [Option.map_none, Option.map_none, withoutBlocksFrom_none_append hnext hlast]
      exact withoutLineComments_insert hended hline _
    | some opened =>
      rw [Option.map_some, Option.map_some, withoutBlocksFrom_some_append hnext hlast]
      rcases withoutBlocksFrom_some_cases rest with ⟨text, hclosed⟩ | hopen
      · rw [hclosed, hclosed]
      · -- the block is never closed: its text stays, and the comment in it is one of a line
        have hopened : opened.getLast? = some '\n' := hended
        have hended' : (kept ++ triple ++ opened).getLast? = some '\n' := by
          rw [List.getLast?_append, hopened, Option.some_or]
        have h := withoutLineComments_insert hended' hline rest
        rw [hopen, hopen]
        simpa only [List.append_assoc] using h

/-! ## A block -/

theorem withoutBlocks_insert_block {first body : List Char} (hend : first.getLast? ≠ some '"')
    (hclosed : ¬ LeavesBlockOpen first) (htriple : NoTriple body)
    (hbody : body.getLast? ≠ some '"') (rest : List Char) :
    withoutBlocks (first ++ (triple ++ (body ++ (triple ++ rest)))) =
      withoutBlocks (first ++ rest) := by
  obtain ⟨kept, after, hkeeps, hopen, -⟩ := exists_keeps hend none rfl
  have hafter : after = none := by
    have h : after.isSome ≠ true := by
      rw [hopen]
      exact hclosed
    simpa using h
  subst hafter
  have hblock (opened : List Char) : withoutBlocksFrom (some opened) (body ++ (triple ++ rest)) =
      withoutBlocksFrom none rest :=
    withoutBlocksFrom_some_append htriple hbody opened _
  have hwith := hkeeps (triple ++ (body ++ (triple ++ rest)))
  have hwithout := hkeeps rest
  rw [Option.map_none, Option.map_none] at hwith hwithout
  unfold withoutBlocks
  rw [hwith, hwithout]
  exact congrArg (kept ++ ·) (hblock _)

/-! ## What is read -/

/-- Two texts that are the same to every reader of source text, with and without line ends kept. -/
structure ReadAlike (text text' : String) : Prop where
  uncommented : uncommented text.toList = uncommented text'.toList
  uncommentedJoined : uncommentedJoined text.toList = uncommentedJoined text'.toList
  models : Admin.models text = Admin.models text'
  routes : ∀ source, Route.File.read text source = Route.File.read text' source

theorem readAlike_of_uncommented {text text' : String}
    (h : uncommented text.toList = uncommented text'.toList) : ReadAlike text text' := by
  have hjoined : uncommentedJoined text.toList = uncommentedJoined text'.toList := by
    unfold uncommentedJoined
    rw [h]
  refine ⟨h, hjoined, ?_, fun source => ?_⟩
  · unfold Admin.models Admin.modelsWith
    rw [h]
  · unfold Route.File.read
    rw [hjoined]

/--
A comment that takes a whole line is never seen, in a block or not, and neither is a block that
stands where none is open.
-/
theorem readAlike_insert (first rest : String) :
    (∀ comment : String, Ended first.toList → '\n' ∉ comment.toList → NoTriple comment.toList →
      ReadAlike (first ++ "#" ++ comment ++ "\n" ++ rest) (first ++ rest)) ∧
    ∀ body : String, first.toList.getLast? ≠ some '"' → ¬ LeavesBlockOpen first.toList →
      NoTriple body.toList → body.toList.getLast? ≠ some '"' →
      ReadAlike (first ++ "\"\"\"" ++ body ++ "\"\"\"" ++ rest) (first ++ rest) := by
  constructor
  · intro comment hfirst hline htriple
    refine readAlike_of_uncommented ?_
    have h := uncommented_insert_comment hfirst hline htriple rest.toList
    simpa [commentLine] using h
  · intro body hend hclosed htriple hbody
    refine readAlike_of_uncommented ?_
    have h := withoutBlocks_insert_block hend hclosed htriple hbody rest.toList
    unfold uncommented
    simpa [triple] using congrArg withoutLineComments h

/-- A comment put into a block that the text leaves open, and a block that begins with a quote. -/
theorem readAlike_insert_open_block :
    (LeavesBlockOpen "a = 1\n\"\"\"\n".toList ∧
      ReadAlike ("a = 1\n\"\"\"\n" ++ "#" ++ " it's [" ++ "\n" ++ "b\"\"\"\nc")
        ("a = 1\n\"\"\"\n" ++ "b\"\"\"\nc")) ∧
      ¬ LeavesBlockOpen "x = \"\"\"y\"\"\"\n".toList ∧
      ReadAlike ("x = \"\"\"y\"\"\"\n" ++ "\"\"\"" ++ "\"quoted\" # text" ++ "\"\"\"" ++ "z")
        ("x = \"\"\"y\"\"\"\n" ++ "z") := by
  have hquoted : NoTriple "\"quoted\" # text".toList := by
    unfold NoTriple
    decide
  refine ⟨⟨by decide, (readAlike_insert _ _).1 _ (by decide) (by decide) ?_⟩, by decide,
    (readAlike_insert _ _).2 _ (by decide) (by decide) hquoted (by decide)⟩
  exact noTriple_of_not_mem (by decide)

end SiteSurvey.Source
