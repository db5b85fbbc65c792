import PeerSearch.Text.EmojiTable
import PeerSearch.Text.WidthTable

/-!
# PeerSearch.Text.Advance -- how far a character moves the cursor

Most characters take the columns that the tables say. Some are drawn together with what stands to
their right: a line end of two characters, letters that melt into a ligature, and emoji sequences.
A text is therefore measured from its right end: `advance` tells the columns that a character adds
in front of a `Follower`, and what it is to the character on its left.
-/

namespace PeerSearch.Text

/-! ## Single characters -/

/-- A control character: nothing is drawn for it. -/
def isControl (c : Char) : Bool :=
  c.toNat < 0x20 || (0x7F ≤ c.toNat && c.toNat < 0xA0)

/-- The Khmer sign that is spelt with three letters. -/
def threeColumns : Char := '\u17D8'

/-- Columns that a character takes on its own; control characters have no width. -/
def charWidth? (c : Char) : Option Nat :=
  if isControl c then none
  else if c.toNat < 0x7F then some 1
  else if zeroWidth.holds c then some 0
  else if wideCharacters.holds c then some 2
  else if c == threeColumns then some 3
  else some 1

/-! ## What stands to the right -/

/-- A letter that melts into one with the letter on its left. Some do so only when a joiner stands
between the two; `joined` tells that it does. -/
inductive Ligature where
  | lamed (joined : Bool)
  | buginese (joined : Bool)
  | bugineseVowel
  | tifinagh (joined : Bool)
  | tifinaghJoiner
  | lisuTone
  | orkhon (joined : Bool)
  | khmer
  | kiratE
  | kiratAI
  deriving DecidableEq, Repr

/-- The end of an emoji tag sequence: its last character, and the digits or letters in front. -/
inductive TagTail where
  | closed
  | digits (count : Nat)
  | letters (count : Nat)
  deriving DecidableEq, Repr

/-- What a piece of text is to the character on its left. -/
inductive Follower where
  | other
  | lineFeed
  | alef
  | ligature (l : Ligature)
  | emoji
  | modifier
  | indicator
  /-- Two or more regional indicators. -/
  | indicators
  /-- A joiner in front of an emoji. -/
  | joined
  /-- A keycap with such a joiner behind it. -/
  | joinedKeycap
  /-- A regional indicator with such a joiner behind it. -/
  | joinedIndicator
  | joinedEven
  | joinedOdd
  | tag (t : TagTail)
  deriving DecidableEq, Repr

/-- What stands to the right of a character, with the selectors in front of it. -/
structure Following where
  next : Follower := .other
  /-- Whether a selector asks for a picture. -/
  asPicture : Bool := false
  /-- Whether a selector asks for the text form. -/
  asText : Bool := false
  deriving DecidableEq, Repr

namespace Ligature

/-- The letter with a joiner in front. -/
def join : Ligature → Ligature
  | lamed _ => lamed true
  | buginese _ => buginese true
  | tifinagh _ => tifinagh true
  | orkhon _ => orkhon true
  | l => l

/-- Khmer letters that have a form below the line. -/
def khmerLetters : Ranges :=
  [(0x1780, 0x1782), (0x1784, 0x1787), (0x1789, 0x178C), (0x178E, 0x1793), (0x1795, 0x1798),
   (0x179B, 0x179D), (0x17A0, 0x17A0), (0x17A2, 0x17A2), (0x17A7, 0x17A7), (0x17AB, 0x17AC),
   (0x17AF, 0x17AF)]

/-- Tifinagh letters that melt into one across a joiner. -/
def tifinaghLetters : Ranges :=
  [(0x2D31, 0x2D65), (0x2D6F, 0x2D6F)]

/-- Lisu tone marks that share a column with a second one. -/
def lisuTones : Ranges :=
  [(0xA4F8, 0xA4FB)]

/-- The letter that a character is to the one on its left. -/
def ofChar? (c : Char) : Option Ligature :=
  if c == '\u05DC' then some (lamed false)
  else if c == '\u1A10' then some (buginese false)
  else if c == '\uA4FC' || c == '\uA4FD' then some lisuTone
  else if c.toNat == 0x10C03 then some (orkhon false)
  else if c.toNat == 0x16D67 then some kiratE
  else if c.toNat == 0x16D68 then some kiratAI
  else if khmerLetters.holds c then some khmer
  else if tifinaghLetters.holds c then some (tifinagh false)
  else none

/-- Columns that a character adds in front of a letter with which it melts into one. -/
def meet? (l : Ligature) (c : Char) : Option (Int × Follower) :=
  match l with
  | lamed true => if c == '\u05D0' then some (0, .other) else none
  | khmer => if c == '\u17D2' then some (-1, .other) else none
  | buginese true => if c == '\u1A17' then some (0, .ligature bugineseVowel) else none
  | bugineseVowel => if c == '\u1A15' then some (0, .other) else none
  | tifinagh joined =>
    if c == '\u2D7F' then some (1, .ligature tifinaghJoiner)
    else if joined && tifinaghLetters.holds c then some (0, .other)
    else none
  | tifinaghJoiner => if tifinaghLetters.holds c then some (-1, .other) else none
  | lisuTone => if lisuTones.holds c then some (0, .other) else none
  | orkhon true => if c.toNat == 0x10C32 then some (0, .other) else none
  | kiratE =>
    if c.toNat == 0x16D63 then some (0, .other)
    else if c.toNat == 0x16D67 then some (0, .ligature kiratAI)
    else if c.toNat == 0x16D68 then some (1, .ligature kiratE)
    else if c.toNat == 0x16D69 then some (0, .other)
    else none
  | kiratAI => if c.toNat == 0x16D63 then some (0, .other) else none
  | _ => none

end Ligature

/-! ## Classes of characters -/

def zeroWidthJoiner : Char := '\u200D'

/-- The selector that asks for the text form of the character in front. -/
def textSelector : Char := '\uFE0E'

/-- The selector that asks for the picture of the character in front. -/
def pictureSelector : Char := '\uFE0F'

/-- Characters that a ligature is formed across. -/
def ligatureTransparent : Ranges :=
  [(0x34F, 0x34F), (0x17B4, 0x17B5), (0x180B, 0x180D), (0x180F, 0x180F), (0x200D, 0x200D),
   (0xFE00, 0xFE0F), (0xE0100, 0xE01EF)]

/-- Arabic letters of the shape of an alef. -/
def alefLetters : Ranges :=
  [(0x622, 0x623), (0x625, 0x625), (0x627, 0x627), (0x671, 0x673), (0x675, 0x675),
   (0x773, 0x774), (0x870, 0x882)]

/-- Arabic letters of the shape of a lam. -/
def lamLetters : Ranges :=
  [(0x644, 0x644), (0x6B5, 0x6B8), (0x76A, 0x76A), (0x8A6, 0x8A6), (0x8C7, 0x8C7)]

/-- Whether Arabic letters join across a character. -/
def isJoiningTransparent (c : Char) : Bool :=
  zeroWidth.holds c && !joiningBarriers.holds c

def isRegionalIndicator (c : Char) : Bool :=
  0x1F1E6 ≤ c.toNat && c.toNat ≤ 0x1F1FF

def isModifier (c : Char) : Bool :=
  0x1F3FB ≤ c.toNat && c.toNat ≤ 0x1F3FF

def isTagLetter (c : Char) : Bool :=
  0xE0061 ≤ c.toNat && c.toNat ≤ 0xE007A

def isTagDigit (c : Char) : Bool :=
  0xE0030 ≤ c.toNat && c.toNat ≤ 0xE0039

/-! ## Emoji -/

/-- An emoji tag sequence with one more character in front; the black flag completes it. -/
def TagTail.extend? (t : TagTail) (c : Char) : Option Follower :=
  let isFlag := c.toNat == 0x1F3F4
  match t with
  | closed =>
    if isTagLetter c then some (.tag (letters 1))
    else if isTagDigit c then some (.tag (digits 1))
    else none
  | letters n =>
    if isTagLetter c && n < 6 then some (.tag (letters (n + 1)))
    else if isTagDigit c && n < 5 then some (.tag (digits 1))
    else if isFlag && 3 ≤ n then some .emoji
    else none
  | digits n =>
    if isTagDigit c && n < 3 then some (.tag (digits (n + 1)))
    else if isFlag && n == 3 then some .emoji
    else none

/-- Columns that a character adds in front of a follower with which it is drawn together. -/
def Follower.meet? (f : Follower) (c : Char) : Option (Int × Follower) :=
  match f with
  | alef =>
    if lamLetters.holds c then some (0, other)
    else if isJoiningTransparent c then some (0, alef)
    else none
  | ligature l => l.meet? c
  | modifier =>
    if modifierBase.holds c then some (0, emoji)
    else if c == zeroWidthJoiner then some (0, joined)
    else none
  | emoji => if c == zeroWidthJoiner then some (0, joined) else none
  | indicator => if isRegionalIndicator c then some (1, indicators) else none
  | indicators =>
    if isRegionalIndicator c then some (1, indicators)
    else if c == zeroWidthJoiner then some (0, joined)
    else none
  | joined =>
    if c == '\u20E3' then some (0, joinedKeycap)
    else if isRegionalIndicator c then some (1, joinedIndicator)
    else if isModifier c then some (0, modifier)
    else if c.toNat == 0xE007F then some (0, .tag .closed)
    else if emojiPresentation.holds c then some (0, emoji)
    else none
  | joinedIndicator => if isRegionalIndicator c then some (-1, joinedEven) else none
  | joinedEven =>
    if isRegionalIndicator c then some (3, joinedOdd)
    else if c == zeroWidthJoiner then some (0, joined)
    else none
  | joinedOdd =>
    if isRegionalIndicator c then some (-1, joinedEven)
    else if c == zeroWidthJoiner then some (0, joined)
    else none
  | tag t => (t.extend? c).map (0, ·)
  | _ => none

/-- What a character on its own is to the one on its left. -/
def Follower.ofChar (c : Char) : Follower :=
  if isRegionalIndicator c then indicator
  else if isModifier c then modifier
  else if emojiPresentation.holds c then emoji
  else if alefLetters.holds c then alef
  else match Ligature.ofChar? c with
    | some l => ligature l
    | none => other

/-! ## Advancing -/

namespace Following

/-- A character that is drawn by itself, and what it is to the one on its left. -/
def alone (c : Char) : Int × Following :=
  (((charWidth? c).getD 1 : Nat), { next := .ofChar c })

/-- What follows without the wish for a picture. -/
def dropPicture (f : Following) : Following :=
  match f.next with
  | .ligature _ => { f with asPicture := false }
  | _ => if f.asPicture then {} else f

/-- What follows without the wish for the text form. -/
def dropText (f : Following) : Following :=
  match f.next with
  | .ligature _ => { f with asText := false }
  | _ => if f.asText then {} else f

/-- What follows with the selector for a picture in front. -/
def selectPicture (f : Following) : Following :=
  match f.next with
  | .ligature _ | .joined | .joinedKeycap => { f with asPicture := true }
  | _ => { asPicture := true }

/-- What follows with the selector for the text form in front. -/
def selectText (f : Following) : Following :=
  match f.next with
  | .ligature _ => { f with asText := true }
  | _ => { asText := true }

/-- Columns that a character adds in front of a follower that it may be drawn together with. -/
def meet (f : Following) (c : Char) : Int × Following :=
  match f.next with
  | .ligature l =>
    if c == zeroWidthJoiner then (0, { f with next := .ligature l.join })
    else if ligatureTransparent.holds c then (0, f)
    else
      match l.meet? c with
      | some (n, next) => (n, { next })
      | none => alone c
  | next =>
    match next.meet? c with
    | some (n, next) => (n, { next })
    | none => alone c

/-- Columns that a character adds in front of what follows, without a wish for a picture. -/
def advanceText (f : Following) (c : Char) : Int × Following :=
  if c.toNat ≤ 0xA0 then
    if c == '\n' then (1, { next := .lineFeed })
    else if c == '\r' && f.next = .lineFeed then (0, {})
    else (1, {})
  else if c == pictureSelector then (0, f.selectPicture)
  else if c == textSelector then (0, f.selectText)
  else if f.asText then
    if textBase.holds c then (1, {}) else f.dropText.meet c
  else f.meet c

end Following

/-- Columns that a character adds in front of what follows, and what both are to the character on
their left. -/
def advance (c : Char) (f : Following) : Int × Following :=
  if f.asPicture then
    if emojiBase.holds c then
      let columns : Int := match f.next with
        | .joined | .joinedKeycap => 0
        | _ => 2
      (columns, { next := .emoji })
    else f.dropPicture.advanceText c
  else f.advanceText c

end PeerSearch.Text
