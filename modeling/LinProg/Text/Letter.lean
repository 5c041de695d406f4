import LinProg.Text.CodePoint
import LinProg.Text.Interrupting

namespace LinProg.Text

/-- Letters that the letter before them may merge with, in the columns of one. `joined` tells
whether a zero width joiner stands before the letter. -/
inductive Letter where
  /-- The Arabic alef, which ends a lam. -/
  | alef
  /-- The Hebrew lamed, which ends a joined alef. -/
  | lamed (joined : Bool)
  /-- A Khmer letter, which a coeng puts below the letter before. -/
  | subscript
  /-- The Buginese ya, which ends a joined vowel sign i. -/
  | ya (joined : Bool)
  /-- The Buginese vowel sign i and a joined ya, which end a letter a. -/
  | vowelYa
  /-- A Tifinagh consonant, which ends another one. -/
  | consonant (joined : Bool)
  /-- A Tifinagh consonant and the consonant joiner before it. -/
  | bound
  /-- The second of two Lisu tone letters. -/
  | tone
  /-- The Old Turkic i, which ends a joined ec. -/
  | orkhonI (joined : Bool)
  deriving DecidableEq, Repr

def isAlef (n : Nat) : Bool :=
  covers [(0x622, 0x623), (0x625, 0x625), (0x627, 0x627), (0x671, 0x673), (0x675, 0x675),
    (0x773, 0x774), (0x870, 0x882)] n

def isLam (n : Nat) : Bool :=
  covers [(0x644, 0x644), (0x6B5, 0x6B8), (0x76A, 0x76A), (0x8A6, 0x8A6), (0x8C7, 0x8C7)] n

def isSubscript (n : Nat) : Bool :=
  covers [(0x1780, 0x1782), (0x1784, 0x1787), (0x1789, 0x178C), (0x178E, 0x1793), (0x1795, 0x1798),
    (0x179B, 0x179D), (0x17A0, 0x17A0), (0x17A2, 0x17A2), (0x17A7, 0x17A7), (0x17AB, 0x17AC),
    (0x17AF, 0x17AF)] n

def isTifinagh (n : Nat) : Bool :=
  covers [(0x2D31, 0x2D65), (0x2D6F, 0x2D6F)] n

def isUndrawn (n : Nat) : Bool :=
  covers [(0x34F, 0x34F), (0x17B4, 0x17B5), (0x180B, 0x180D), (0x180F, 0x180F), (0xFE00, 0xFE0F),
    (0xE0100, 0xE01EF)] n

def isTransparent (n : Nat) : Bool :=
  columns n == 0 && !covers interrupting n

def Letter.ofCodePoint? (n : Nat) : Option Letter :=
  if isAlef n then some .alef
  else if n = 0x5DC then some (.lamed false)
  else if isSubscript n then some .subscript
  else if n = 0x1A10 then some (.ya false)
  else if isTifinagh n then some (.consonant false)
  else if n = 0xA4FC ∨ n = 0xA4FD then some .tone
  else if n = 0x10C03 then some (.orkhonI false)
  else none

def Letter.join : Letter → Letter
  | lamed _ => lamed true
  | ya _ => ya true
  | consonant _ => consonant true
  | orkhonI _ => orkhonI true
  | l => l

/-- The columns that the code point `n` adds before a letter it merges with, and the letter that the
two then are to what stands before them. -/
def Letter.fuse? (l : Letter) (n : Nat) : Option (Int × Option Letter) :=
  match l with
  | alef => if isLam n then some (0, none) else none
  | lamed joined => if joined ∧ n = 0x5D0 then some (0, none) else none
  | subscript => if n = 0x17D2 then some (-1, none) else none
  | ya joined => if joined ∧ n = 0x1A17 then some (0, some vowelYa) else none
  | vowelYa => if n = 0x1A15 then some (0, none) else none
  | consonant joined =>
    if n = 0x2D7F then some (1, some bound)
    else if joined ∧ isTifinagh n then some (0, none)
    else none
  | bound => if isTifinagh n then some (-1, none) else none
  | tone => if 0xA4F8 ≤ n ∧ n ≤ 0xA4FB then some (0, none) else none
  | orkhonI joined => if joined ∧ n = 0x10C32 then some (0, none) else none

def Letter.before? (l : Letter) (n : Nat) : Option (Int × Option Letter) :=
  match l with
  | alef => if isTransparent n then some (0, some alef) else alef.fuse? n
  | l =>
    if n = zeroWidthJoiner then some (0, some l.join)
    else if isUndrawn n then some (0, some l)
    else l.fuse? n

end LinProg.Text
