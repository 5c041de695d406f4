import LinProg.Text.EmojiSequence
import LinProg.Text.Letter

namespace LinProg.Text

inductive Item where
  | plain
  | lineFeed
  | letter (l : Letter)
  | emoji (s : EmojiSequence)
  deriving DecidableEq, Repr

def Item.ofCodePoint (n : Nat) : Item :=
  match Letter.ofCodePoint? n with
  | some l => .letter l
  | none => (EmojiSequence.ofCodePoint? n).elim plain emoji

def Item.before? (n : Nat) : Item → Option (Int × Item)
  | plain | lineFeed => none
  | letter l => (l.before? n).map fun (w, l) => (w, l.elim plain letter)
  | emoji s => (s.before? n).map fun (w, s) => (w, emoji s)

/-- What a character has after it: an item, and the variation selectors before that item. -/
structure Rest where
  item : Item
  asText : Bool
  asEmoji : Bool

namespace Rest

def ofItem (i : Item) : Rest := ⟨i, false, false⟩

def selectEmoji (r : Rest) : Rest :=
  match r.item with
  | .letter _ => { r with asEmoji := true }
  | .emoji s => if s.isSelectable then { r with asEmoji := true } else ⟨.plain, false, true⟩
  | _ => ⟨.plain, false, true⟩

def selectText (r : Rest) : Rest :=
  match r.item with
  | .letter _ => { r with asText := true }
  | _ => ⟨.plain, true, false⟩

def dropEmoji (r : Rest) : Rest :=
  match r.asEmoji, r.item with
  | true, .letter _ => { r with asEmoji := false }
  | true, _ => ofItem .plain
  | false, _ => r

/-- The columns of the emoji that a selector asks for: none if it is counted with the one it is
joined to. -/
def emojiColumns (r : Rest) : Int :=
  match r.item with
  | .emoji _ => 0
  | _ => 2

end Rest

/-- A line feed takes no column, and neither does a carriage return before it. All other characters
up to the no-break space take one. -/
def basic (n : Nat) (r : Rest) : Int × Rest :=
  if n = 0x0A then (0, Rest.ofItem .lineFeed)
  else if n = 0x0D ∧ r.item = .lineFeed then (0, Rest.ofItem .plain)
  else (1, Rest.ofItem .plain)

def extended (n : Nat) (r : Rest) : Int × Rest :=
  if n = emojiSelector then (0, r.selectEmoji)
  else if n = textSelector then (0, r.selectText)
  else if r.asText ∧ isNarrowAsText n then (1, Rest.ofItem .plain)
  else
    let (w, i) := (r.item.before? n).getD (columns n, Item.ofCodePoint n)
    (w, Rest.ofItem i)

def prepend (n : Nat) (r : Rest) : Int × Rest :=
  if r.asEmoji ∧ covers styled n then (r.emojiColumns, Rest.ofItem (.emoji .emoji))
  else if n ≤ 0xA0 then basic n r.dropEmoji
  else extended n r.dropEmoji

def measure (cs : List Char) : Int × Rest :=
  cs.foldr (fun c (w, r) => let (w', r') := prepend c.toNat r; (w + w', r'))
    (0, Rest.ofItem .plain)

def width (s : String) : Nat := (measure s.toList).1.toNat

end LinProg.Text
