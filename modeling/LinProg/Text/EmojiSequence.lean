import LinProg.Text.CodePoint
import LinProg.Text.Pictograph

namespace LinProg.Text

/-- The beginning of an emoji sequence that has been read from its end. An emoji that a zero width
joiner ties to one before it has its two columns counted already. -/
inductive EmojiSequence where
  /-- An emoji. -/
  | emoji
  /-- A skin tone, which colors the emoji before it. -/
  | modifier
  /-- The second half of a flag. -/
  | regional
  /-- Two regional indicators or more. -/
  | regionals
  /-- A joiner and an emoji after it. -/
  | joined
  /-- A combining keycap before `joined`. -/
  | joinedKeycap
  /-- One regional indicator before `joined`. -/
  | joinedHalf
  /-- Whole flags before `joined`. -/
  | joinedFlag
  /-- Whole flags before `joined`, and one regional indicator before them. -/
  | joinedFlagHalf
  /-- The last letters of the name of a region, and their closing tag before `joined`. -/
  | joinedLetters (count : Nat)
  /-- Digits of the name of a region, and what is after them. -/
  | joinedDigits (count : Nat)
  deriving DecidableEq, Repr

def isRegional (n : Nat) : Bool := covers [(0x1F1E6, 0x1F1FF)] n

def isSkinTone (n : Nat) : Bool := covers [(0x1F3FB, 0x1F3FF)] n

def isTagLetter (n : Nat) : Bool := covers [(0xE0061, 0xE007A)] n

def isTagDigit (n : Nat) : Bool := covers [(0xE0030, 0xE0039)] n

def cancelTag : Nat := 0xE007F

def combiningKeycap : Nat := 0x20E3

def blackFlag : Nat := 0x1F3F4

def isNarrowAsText (n : Nat) : Bool :=
  covers styled n && covers pictographs n && !covers [(0x1F200, 0x1F2FF)] n

namespace EmojiSequence

def ofCodePoint? (n : Nat) : Option EmojiSequence :=
  if isRegional n then some regional
  else if isSkinTone n then some modifier
  else if covers pictographs n then some emoji
  else none

def isJoinable : EmojiSequence → Bool
  | emoji | modifier | regionals | joinedFlag | joinedFlagHalf => true
  | _ => false

def isSelectable : EmojiSequence → Bool
  | joined | joinedKeycap => true
  | _ => false

/-- Whether the tags read so far name a region, so that a black flag may stand before them. -/
def isRegionName : EmojiSequence → Bool
  | joinedLetters count => decide (3 ≤ count)
  | joinedDigits count => decide (count = 3)
  | _ => false

def beforeJoiner? (n : Nat) : Option (Int × EmojiSequence) :=
  if n = combiningKeycap then some (0, joinedKeycap)
  else if n = cancelTag then some (0, joinedLetters 0)
  else match ofCodePoint? n with
    | some regional => some (1, joinedHalf)
    | some s => some (0, s)
    | none => none

def beforeTags? (n : Nat) : EmojiSequence → Option (Int × EmojiSequence)
  | joinedLetters count =>
    if isTagLetter n ∧ count < 6 then some (0, joinedLetters (count + 1))
    else if isTagDigit n ∧ count < 5 then some (0, joinedDigits 1)
    else none
  | joinedDigits count =>
    if isTagDigit n ∧ count < 3 then some (0, joinedDigits (count + 1)) else none
  | _ => none

def before? (s : EmojiSequence) (n : Nat) : Option (Int × EmojiSequence) :=
  if n = zeroWidthJoiner ∧ s.isJoinable then some (0, joined)
  else if n = blackFlag ∧ s.isRegionName then some (0, emoji)
  else match s with
    | modifier => if covers toned n then some (0, emoji) else none
    | regional | regionals => if isRegional n then some (1, regionals) else none
    | joined => beforeJoiner? n
    | joinedHalf | joinedFlagHalf => if isRegional n then some (-1, joinedFlag) else none
    | joinedFlag => if isRegional n then some (3, joinedFlagHalf) else none
    | s => s.beforeTags? n

end EmojiSequence

end LinProg.Text
