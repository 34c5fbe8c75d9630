import RelationalAlgebra.Text.CharSet.Combining
import RelationalAlgebra.Text.CharSet.Hangul
import RelationalAlgebra.Text.CharSet.Joining
import RelationalAlgebra.Text.CharSet.Pictograph
import RelationalAlgebra.Text.CharSet.Wide

/-!
# The display width of text

The width of a text is the number of terminal columns it takes. Most characters take one column,
East Asian ones and pictographs two, combining marks none. Some sequences of characters are drawn as
one sign and take less or more than their characters do: pictographs with a selector, a skin tone or
further pictographs behind joiners, and the ligatures of several scripts.

The width is computed from the end of the text. What a character adds depends on the sequence that
the characters behind it have begun (`Width.Context`); `Width.step` takes one character to the text.
-/
namespace RelationalAlgebra.Width

open Text (CharSet)

/-! ## Single characters -/

/-- Signs around or over the numbers behind them, which take a column unlike other prepended
characters. -/
def numberSigns : CharSet :=
  ⟨[(0x600, 0x604), (0x6dd, 0x6dd), (0x110bd, 0x110bd), (0x110cd, 0x110cd)]⟩

/-- Extending and ignorable characters that take room all the same: the filler of a leading
consonant, the joiner of Tifinagh consonants and the halfwidth voicing marks. -/
def spacingExtenders : CharSet := ⟨[(0x115f, 0x115f), (0x2d7f, 0x2d7f), (0xff9e, 0xff9f)]⟩

/-- Characters that take no column of their own. The caret of Devanagari stands over its
neighbour. -/
def isZero (c : Char) : Bool :=
  !spacingExtenders.contains c &&
    (CharSet.graphemeExtend.contains c || CharSet.defaultIgnorable.contains c ||
      CharSet.hangulVowel.contains c || CharSet.hangulTrail.contains c ||
      (CharSet.prepend.contains c && !numberSigns.contains c) || c = '\ua8fa')

/-- The columns of a character on its own. Control characters take one. Two Khmer characters are
drawn like several letters. -/
def ofChar (c : Char) : Nat :=
  if c.toNat ≤ 0xa0 then 1
  else if c = '\u17d8' then 3
  else if c = '\u17a4' then 2
  else if isZero c then 0
  else if CharSet.wide.contains c then 2
  else 1

/-- The character that joins its neighbours into one sign. -/
def joiner : Char := '\u200d'

/-- The flag that tags can turn into the flag of a region. -/
def tagFlag : Char := Char.ofNat 0x1f3f4

/-- The end of the tags of a flag. -/
def tagEnd : Char := Char.ofNat 0xe007f

def isTagLetter (c : Char) : Bool := 0xe0061 ≤ c.toNat && c.toNat ≤ 0xe007a

def isTagDigit (c : Char) : Bool := 0xe0030 ≤ c.toNat && c.toNat ≤ 0xe0039

/-- Pictographs that a selector turns into signs of one column. Those of the ideographic supplement
stay wide. -/
def isNarrowedByText (c : Char) : Bool :=
  CharSet.selectable.contains c && CharSet.pictograph.contains c &&
    !(0x1f200 ≤ c.toNat && c.toNat ≤ 0x1f2ff)

def isQuote (c : Char) : Bool := c = '\u2018' || c = '\u2019' || c = '\u201c' || c = '\u201d'

/-- Khmer letters that can be written below another one. -/
def subjoinedLetters : CharSet := ⟨[
  (0x1780, 0x1782), (0x1784, 0x1787), (0x1789, 0x178c), (0x178e, 0x1793), (0x1795, 0x1798),
  (0x179b, 0x179d), (0x17a0, 0x17a0), (0x17a2, 0x17a2), (0x17a7, 0x17a7), (0x17ab, 0x17ac),
  (0x17af, 0x17af)]⟩

def tifinaghConsonants : CharSet := ⟨[(0x2d31, 0x2d65), (0x2d6f, 0x2d6f)]⟩

/-- Marks that are not displayed and do not keep the parts of a ligature apart. -/
def ligatureMarks : CharSet := ⟨[
  (0x34f, 0x34f), (0x17b4, 0x17b5), (0x180b, 0x180d), (0x180f, 0x180f), (0xfe00, 0xfe0f),
  (0xe0100, 0xe01ef)]⟩

/-- Marks that do not keep a lam and an alef apart. -/
def isTransparent (c : Char) : Bool := ofChar c = 0 && !CharSet.nonTransparent.contains c

/-! ## Sequences -/

/-- Characters that choose a form for the character before them. -/
inductive Selector where
  | wideQuote
  | text
  | pictograph
  deriving DecidableEq, Repr

def Selector.ofChar? (c : Char) : Option Selector :=
  if c = '\ufe01' then some wideQuote
  else if c = '\ufe0e' then some text
  else if c = '\ufe0f' then some pictograph
  else none

/-- Ligatures that have begun with their last part: Hebrew alef and lamed, a Khmer letter below
another, Buginese iya with its letter and with its vowel sign, Tifinagh consonants without and with
their joiner, the tone letters of Lisu, and the Old Turkic pair that ends in an i. -/
inductive Ligature where
  | lamed
  | subjoined
  | ya
  | yaWithSign
  | tifinagh
  | tifinaghJoined
  | tone
  | orkhonI
  deriving DecidableEq, Repr

/-- How many regional indicators stand before a joiner. -/
inductive IndicatorCount where
  | one
  | even
  | odd
  deriving DecidableEq, Repr

/-- What the characters behind the current one have begun. -/
inductive Sequence where
  | nothing
  /-- A regional indicator without a partner. -/
  | indicator
  | indicators
  /-- A pictograph, to which others can be joined. -/
  | pictograph
  | skinTone
  /-- A joiner and a pictograph. -/
  | joined
  /-- An enclosing keycap that is joined to a pictograph. -/
  | keycap
  | joinedIndicators (count : IndicatorCount)
  /-- The end of the tags of a joined flag, and this many letters before it. -/
  | tagLetters (count : Nat)
  /-- The same with digits before the letters. -/
  | tagDigits (count : Nat)
  /-- The Kirat Rai vowel sign e. -/
  | vowelE
  /-- The Kirat Rai vowel sign ai. -/
  | vowelAI
  | alef
  /-- The last part of a ligature, perhaps with a joiner before it. -/
  | ligature (l : Ligature) (joined : Bool)
  deriving DecidableEq, Repr

/-- The part of a ligature in front of its last parts, with what it adds to their width. -/
def Ligature.before? (l : Ligature) (joined : Bool) (c : Char) : Option (Int × Sequence) :=
  match l with
  | lamed => if joined && c = '\u05d0' then some (0, .nothing) else none
  | subjoined => if c = '\u17d2' then some (-1, .nothing) else none
  | ya => if joined && c = '\u1a17' then some (0, .ligature yaWithSign true) else none
  | yaWithSign => if c = '\u1a15' then some (0, .nothing) else none
  | tifinagh =>
    if c = '\u2d7f' then some (1, .ligature tifinaghJoined true)
    else if joined && tifinaghConsonants.contains c then some (0, .nothing)
    else none
  | tifinaghJoined => if tifinaghConsonants.contains c then some (-1, .nothing) else none
  | tone => if '\ua4f8' ≤ c && c ≤ '\ua4fb' then some (0, .nothing) else none
  | orkhonI => if joined && c = Char.ofNat 0x10c32 then some (0, .nothing) else none

namespace Sequence

def ofChar (c : Char) : Sequence :=
  if c = '\u05dc' then ligature .lamed false
  else if CharSet.alef.contains c then alef
  else if subjoinedLetters.contains c then ligature .subjoined false
  else if c = '\u1a10' then ligature .ya false
  else if tifinaghConsonants.contains c then ligature .tifinagh false
  else if c = '\ua4fc' || c = '\ua4fd' then ligature .tone false
  else if c = Char.ofNat 0x10c03 then ligature .orkhonI false
  else if c = Char.ofNat 0x16d67 then vowelE
  else if c = Char.ofNat 0x16d68 then vowelAI
  else if CharSet.regionalIndicator.contains c then indicator
  else if CharSet.skinTone.contains c then skinTone
  else if CharSet.pictograph.contains c then pictograph
  else nothing

/-- Whether marks and selectors leave a sequence as it is. -/
def isLigature : Sequence → Bool
  | alef | ligature _ _ => true
  | _ => false

/-- Whether a sequence waits for another pictograph. -/
def isJoined : Sequence → Bool
  | joined | keycap => true
  | _ => false

def select (s : Sequence) (selector : Selector) : Sequence :=
  if s.isLigature || (selector = .pictograph && s.isJoined) then s else nothing

/-- What a joined sequence becomes with the character before its joiner. -/
def beforeJoiner? (c : Char) : Option (Int × Sequence) :=
  if c = '\u20e3' then some (0, keycap)
  else if CharSet.regionalIndicator.contains c then some (1, joinedIndicators .one)
  else if CharSet.skinTone.contains c then some (0, skinTone)
  else if c = tagEnd then some (0, tagLetters 0)
  else if CharSet.pictograph.contains c then some (0, pictograph)
  else none

/-- How a character continues a sequence: what it adds to the width, and the sequence it makes. -/
def before? (s : Sequence) (c : Char) : Option (Int × Sequence) :=
  match s with
  | nothing | keycap => none
  | indicator => if CharSet.regionalIndicator.contains c then some (1, indicators) else none
  | indicators =>
    if CharSet.regionalIndicator.contains c then some (1, indicators)
    else if c = joiner then some (0, joined)
    else none
  | pictograph => if c = joiner then some (0, joined) else none
  | skinTone =>
    if CharSet.skinnable.contains c then some (0, pictograph)
    else if c = joiner then some (0, joined)
    else none
  | joined => beforeJoiner? c
  | joinedIndicators count =>
    if CharSet.regionalIndicator.contains c then
      some (if count = .even then (3, joinedIndicators .odd) else (-1, joinedIndicators .even))
    else if c = joiner && count ≠ .one then some (0, joined)
    else none
  | tagLetters n =>
    if isTagLetter c && n < 6 then some (0, tagLetters (n + 1))
    else if isTagDigit c && n ≤ 4 then some (0, tagDigits 1)
    else if c = tagFlag && 3 ≤ n then some (0, pictograph)
    else none
  | tagDigits n =>
    if isTagDigit c && n < 3 then some (0, tagDigits (n + 1))
    else if c = tagFlag && n = 3 then some (0, pictograph)
    else none
  | vowelE =>
    if c = Char.ofNat 0x16d63 || c = Char.ofNat 0x16d69 then some (0, nothing)
    else if c = Char.ofNat 0x16d67 then some (0, vowelAI)
    else if c = Char.ofNat 0x16d68 then some (1, vowelE)
    else none
  | vowelAI => if c = Char.ofNat 0x16d63 then some (0, nothing) else none
  | alef =>
    if CharSet.lam.contains c then some (0, nothing)
    else if isTransparent c then some (0, alef)
    else none
  | ligature l isJoined =>
    if c = joiner then some (0, ligature l true)
    else if ligatureMarks.contains c then some (0, s)
    else l.before? isJoined c

end Sequence

/-! ## Texts -/

/-- What stands behind a character: a sequence, and perhaps a selector in front of it. -/
structure Context where
  selector : Option Selector
  sequence : Sequence
  deriving DecidableEq, Repr

namespace Context

def plain : Context := ⟨none, .nothing⟩

def ofSequence (s : Sequence) : Context := ⟨none, s⟩

/-- The width and the context of a character that the selector applies to. -/
def select? (after : Context) (c : Char) : Option (Int × Context) :=
  match after.selector with
  | none => none
  | some .wideQuote => if isQuote c then some (2, plain) else none
  | some .text => if isNarrowedByText c then some (1, plain) else none
  | some .pictograph =>
    if CharSet.selectable.contains c then
      some (if after.sequence.isJoined then 0 else 2, ofSequence .pictograph)
    else none

/-- The sequence for a character that the selector does not apply to. -/
def unselected (after : Context) : Sequence :=
  if after.selector.isNone || after.sequence.isLigature then after.sequence else .nothing

end Context

/-- What a character adds to the width of the text behind it, and the context it makes. -/
def step (c : Char) (after : Context) : Int × Context :=
  match after.select? c with
  | some result => result
  | none =>
    if c.toNat ≤ 0xa0 then (1, .plain)
    else match Selector.ofChar? c with
      | some selector => (0, ⟨some selector, after.unselected.select selector⟩)
      | none => match after.unselected.before? c with
        | some (columns, s) => (columns, .ofSequence s)
        | none => (ofChar c, .ofSequence (.ofChar c))

def ofChars (cs : List Char) : Int × Context :=
  cs.foldr (fun c (columns, after) =>
    let (more, before) := step c after
    (columns + more, before)) (0, .plain)

def ofText (s : String) : Nat := (ofChars s.toList).1.toNat

end RelationalAlgebra.Width
