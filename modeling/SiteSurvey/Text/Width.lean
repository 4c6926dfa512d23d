import SiteSurvey.Text.DisplayClass

/-!
# Display width

The number of terminal columns that a text takes. A character's share depends on what follows it: an
emoji sequence takes two columns in all, and some scripts write several letters as one. A text is
therefore measured from its end, with a context that says what stands to the right.
-/

namespace SiteSurvey.Text

/-! ## Contexts -/

/-- How many letters of a flag a joiner joins to what follows. -/
inductive FlagLetters where
  | one
  | even
  | odd
  deriving DecidableEq, Repr

/-- What stands to the right of a character. -/
inductive Context where
  /-- Nothing that bears on the character. -/
  | plain
  | lineFeed
  | emoji
  /-- A skin tone. -/
  | modifier
  /-- Letters of a flag. -/
  | flag (several : Bool)
  /-- A joiner before an emoji. -/
  | joiner
  | joinedKeycap
  | joinedFlag (letters : FlagLetters)
  /-- Tag letters and then tag digits before the end of a joined tag sequence. -/
  | joinedTags (letters digits : Nat)
  | alef
  | lamed
  /-- A letter that a Khmer coeng makes a subscript. -/
  | khmerLetter
  | bugineseYa
  | bugineseIYa
  | tifinagh
  /-- A Tifinagh consonant after a consonant joiner. -/
  | tifinaghJoined
  | lisuTone
  | orkhonI
  | kiratAa
  | kiratE
  deriving DecidableEq, Repr

/-- Whether the context is a part of a ligature of letters. -/
def Context.isLigature : Context → Bool
  | alef | lamed | khmerLetter | bugineseYa | bugineseIYa | tifinagh | tifinaghJoined | lisuTone
  | orkhonI | kiratAa | kiratE => true
  | _ => false

inductive Selector where
  | emoji
  | text
  deriving DecidableEq, Repr

/-- A context with the joiner and the selector that stand before it. -/
structure Following where
  context : Context := .plain
  /-- Whether a joiner stands before a part of a ligature. -/
  joined : Bool := false
  selector : Option Selector := none
  deriving DecidableEq, Repr

/-! ## Classes -/

def isFlagLetter (c : Char) : Bool :=
  0x1F1E6 ≤ c.toNat && c.toNat ≤ 0x1F1FF

def isSkinTone (c : Char) : Bool :=
  0x1F3FB ≤ c.toNat && c.toNat ≤ 0x1F3FF

def isTagLetter (c : Char) : Bool :=
  0xE0061 ≤ c.toNat && c.toNat ≤ 0xE007A

def isTagDigit (c : Char) : Bool :=
  0xE0030 ≤ c.toNat && c.toNat ≤ 0xE0039

/-- Whether Arabic letters join across the character, which has no width. -/
def isArabicTransparent (c : Char) : Bool :=
  zeroWidthRanges.has c && !opaqueZeroWidthRanges.has c

/-! ## One character -/

/-- The columns of a character that stands alone. -/
def ownWidth (c : Char) : Nat :=
  if c.toNat = 0x17D8 then 3
  else if c.toNat = 0x115F then 2
  else if zeroWidthRanges.has c then 0
  else if wideRanges.has c || emojiRanges.has c then 2
  else 1

/-- The context that a character makes by itself for what stands to its left. -/
def ownContext (c : Char) : Following :=
  if c.toNat = 0xFE0F then { selector := some .emoji }
  else if c.toNat = 0xFE0E then { selector := some .text }
  else if c = '\n' then { context := .lineFeed }
  else if isFlagLetter c then { context := .flag false }
  else if isSkinTone c then { context := .modifier }
  else if emojiRanges.has c then { context := .emoji }
  else if alefRanges.has c then { context := .alef }
  else if c.toNat = 0x05DC then { context := .lamed }
  else if 0x1780 ≤ c.toNat && c.toNat ≤ 0x17AF then { context := .khmerLetter }
  else if c.toNat = 0x1A10 then { context := .bugineseYa }
  else if tifinaghRanges.has c then { context := .tifinagh }
  else if c.toNat = 0xA4FC || c.toNat = 0xA4FD then { context := .lisuTone }
  else if c.toNat = 0x10C03 then { context := .orkhonI }
  else if c.toNat = 0x16D63 then { context := .kiratAa }
  else if c.toNat = 0x16D67 then { context := .kiratE }
  else {}

/-- The context after a selector before it. -/
def Following.select (following : Following) (selector : Selector) : Following :=
  let kept :=
    following.context.isLigature ||
      (selector == .emoji && (following.context == .joiner || following.context == .joinedKeycap))
  if kept then { following with selector := some selector } else { selector := some selector }

/-- The columns that a character adds in an emoji sequence, with the context that it makes. -/
def sequenceStep? (c : Char) : Context → Option (Int × Context)
  | .modifier =>
    if modifierBaseRanges.has c then some (0, .emoji)
    else if c.toNat = 0x200D then some (0, .joiner)
    else none
  | .flag several =>
    if isFlagLetter c then some (1, .flag true)
    else if several && c.toNat = 0x200D then some (0, .joiner)
    else none
  | .emoji => if c.toNat = 0x200D then some (0, .joiner) else none
  | .joiner =>
    if c.toNat = 0x20E3 then some (0, .joinedKeycap)
    else if isFlagLetter c then some (1, .joinedFlag .one)
    else if isSkinTone c then some (0, .modifier)
    else if c.toNat = 0xE007F then some (0, .joinedTags 0 0)
    else if emojiRanges.has c then some (0, .emoji)
    else none
  | .joinedFlag letters =>
    if isFlagLetter c then
      match letters with
      | .even => some (3, .joinedFlag .odd)
      | _ => some (-1, .joinedFlag .even)
    else if letters ≠ .one && c.toNat = 0x200D then some (0, .joiner)
    else none
  | .joinedTags letters digits =>
    if isTagLetter c && digits = 0 && letters < 6 then some (0, .joinedTags (letters + 1) 0)
    else if isTagDigit c && letters ≤ 4 && digits < 3 then
      some (0, .joinedTags letters (digits + 1))
    else if c.toNat = 0x1F3F4 && (letters ≥ 3 || digits = 3) then some (0, .emoji)
    else none
  | _ => none

/-- The columns that a character adds in a ligature of letters, with the context that it makes. -/
def ligatureStep? (c : Char) (joined : Bool) : Context → Option (Int × Context)
  | .alef =>
    if lamRanges.has c then some (0, .plain)
    else if isArabicTransparent c then some (0, .alef)
    else none
  | .lamed => if joined && c.toNat = 0x05D0 then some (0, .plain) else none
  | .khmerLetter => if c.toNat = 0x17D2 then some (-1, .plain) else none
  | .bugineseYa => if joined && c.toNat = 0x1A17 then some (0, .bugineseIYa) else none
  | .bugineseIYa => if c.toNat = 0x1A15 then some (0, .plain) else none
  | .tifinagh =>
    if c.toNat = 0x2D7F then some (1, .tifinaghJoined)
    else if joined && tifinaghRanges.has c then some (0, .plain)
    else none
  | .tifinaghJoined => if tifinaghRanges.has c then some (-1, .plain) else none
  | .lisuTone => if 0xA4F8 ≤ c.toNat && c.toNat ≤ 0xA4FB then some (0, .plain) else none
  | .orkhonI => if joined && c.toNat = 0x10C32 then some (0, .plain) else none
  | .kiratAa =>
    if c.toNat = 0x16D67 then some (0, .kiratE)
    else if c.toNat = 0x16D68 then some (0, .plain)
    else none
  | .kiratE => if c.toNat = 0x16D67 then some (0, .plain) else none
  | _ => none

/-- The columns that a character adds before what follows without a selector. -/
def unselectedStep (c : Char) (following : Following) : Int × Following :=
  if c.toNat ≤ 0xA0 then
    if c = '\r' && following.context == .lineFeed then (0, {}) else (1, ownContext c)
  else if following.context.isLigature && c.toNat = 0x200D && following.context ≠ .alef then
    (0, { following with joined := true })
  else if c.toNat = 0xFE0F then (0, following.select .emoji)
  else if c.toNat = 0xFE0E then (0, following.select .text)
  else if following.context.isLigature && ligatureTransparentRanges.has c && c.toNat ≠ 0x200D then
    (0, following)
  else
    match ligatureStep? c following.joined following.context with
    | some (columns, context) => (columns, { context := context })
    | none =>
      match sequenceStep? c following.context with
      | some (columns, context) => (columns, { context := context })
      | none => (ownWidth c, ownContext c)

/-- The columns that a character adds before what follows, with the context that it makes. -/
def widthStep (c : Char) (following : Following) : Int × Following :=
  match following.selector with
  | some .emoji =>
    if emojiSelectableRanges.has c then
      (if following.context == .joiner || following.context == .joinedKeycap then 0 else 2,
        { context := .emoji })
    else unselectedStep c { following with selector := none }
  | some .text =>
    if c.toNat > 0xA0 && textSelectableRanges.has c then (1, {})
    else unselectedStep c { following with selector := none }
  | none => unselectedStep c following

/-! ## Texts -/

/-- The columns of a text, with the context that it makes for what stands to its left. -/
def measure : List Char → Int × Following
  | [] => (0, {})
  | c :: rest =>
    let (columns, following) := measure rest
    let (own, context) := widthStep c following
    (columns + own, context)

/-- The number of columns that a text takes. -/
def displayWidth (text : String) : Nat :=
  (measure text.toList).1.toNat

end SiteSurvey.Text
