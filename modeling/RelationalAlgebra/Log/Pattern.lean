/-!
# Patterns for the values of fields

A log filter may ask for the value of a field. What it asks for is a truth value, a number or a
regular expression, and a text that is none of them makes the filter unreadable. This module says
which texts are readable. They are read from left to right; `Pattern.Place` is what the reader knows
at a character.

Classes of letters and digits by name, borders of words, repetition counts and letters in either
case are not part of the language.
-/
namespace RelationalAlgebra.Pattern

/-- The options of a group, and the dash that turns them off. -/
def isGroupFlag (c : Char) : Bool := "msUuRx-".contains c

/-- Where in a class of characters the reader is. -/
inductive InClass where
  /-- Behind the bracket, where the class may be negated. -/
  | opened
  /-- Where a closing bracket is a member. -/
  | negated
  /-- Behind dashes at the start. -/
  | dashes
  /-- Where a range can not go on. -/
  | anywhere
  /-- Behind a dash that is a member or half an operator. -/
  | dash
  /-- Behind a member, where a range can begin. -/
  | member (c : Char)
  /-- Behind a member and a dash. -/
  | range (c : Char)
  deriving DecidableEq, Repr

/-- Where in a pattern the reader is. Classes are nested; the number is that of classes around the
innermost. -/
inductive Place where
  | outside (repeatable : Bool)
  | groupStart
  | groupOption
  | groupNameMark
  | groupName (started : Bool)
  | groupFlags
  | escape
  | hex (digits value : Nat)
  | inClass (outer : Nat) (place : InClass)
  | classEscape (outer : Nat) (first : Option Char)
  | classHex (outer : Nat) (first : Option Char) (digits value : Nat)
  deriving DecidableEq, Repr

/-- The character that an escaped letter stands for. -/
def controlLetter? (c : Char) : Option Char :=
  match c with
  | 'a' => some '\x07'
  | 'f' => some '\x0c'
  | 't' => some '\t'
  | 'n' => some '\n'
  | 'r' => some '\r'
  | 'v' => some '\x0b'
  | _ => none

/-- The character that an escaped character stands for. -/
def escaped? (c : Char) : Option Char :=
  if c.toNat < 0x80 && !c.isAlphanum && c ≠ '<' && c ≠ '>' then some c else controlLetter? c

/-- The number of digits of a character code behind a letter. -/
def hexDigits? (c : Char) : Option Nat :=
  match c with
  | 'x' => some 2
  | 'u' => some 4
  | 'U' => some 8
  | _ => none

def hexValue? (c : Char) : Option Nat :=
  if c.isDigit then some (c.toNat - '0'.toNat)
  else if 'a' ≤ c && c ≤ 'f' then some (c.toNat - 'a'.toNat + 10)
  else if 'A' ≤ c && c ≤ 'F' then some (c.toNat - 'A'.toNat + 10)
  else none

def charOf? (n : Nat) : Option Char := if n.isValidChar then some (Char.ofNat n) else none

/-- The place behind a member of a class, which may be the end of a range. -/
def behindMember (outer : Nat) (first : Option Char) (c : Char) : Option Place :=
  match first with
  | none => some (.inClass outer (.member c))
  | some a => if a ≤ c then some (.inClass outer .anywhere) else none

def behindClass : Nat → Place
  | 0 => .outside true
  | outer + 1 => .inClass outer .anywhere

/-- The place behind a character where a member is expected. -/
def stepMember (outer : Nat) (c : Char) : Place :=
  if c = ']' then behindClass outer
  else if c = '[' then .inClass (outer + 1) .opened
  else if c = '\\' then .classEscape outer none
  else if c = '-' then .inClass outer .dash
  else .inClass outer (.member c)

def stepClass (outer : Nat) (place : InClass) (c : Char) : Option Place :=
  match place with
  | .opened | .negated =>
    if c = '^' && place = .opened then some (.inClass outer .negated)
    else if c = '-' then some (.inClass outer .dashes)
    else if c = ']' then some (.inClass outer .anywhere)
    else some (stepMember outer c)
  | .dashes => if c = '-' then some (.inClass outer .dashes) else some (stepMember outer c)
  | .anywhere => some (stepMember outer c)
  | .dash => if c = '-' then some (.inClass outer .anywhere) else some (stepMember outer c)
  | .member a => if c = '-' then some (.inClass outer (.range a)) else some (stepMember outer c)
  | .range a =>
    if c = ']' then some (behindClass outer)
    else if c = '-' then some (.inClass outer .anywhere)
    else if c = '\\' then some (.classEscape outer (some a))
    else behindMember outer (some a) c

/-- The place behind a character outside of classes, and the number of open groups. -/
def stepOutside (groups : Nat) (repeatable : Bool) (c : Char) : Option (Nat × Place) :=
  if c = '*' || c = '+' || c = '?' then if repeatable then some (groups, .outside true) else none
  else if c = '\x7b' then none
  else if c = '|' then some (groups, .outside false)
  else if c = '(' then some (groups + 1, .groupStart)
  else if c = ')' then if groups = 0 then none else some (groups - 1, .outside true)
  else if c = '[' then some (groups, .inClass 0 .opened)
  else if c = '\\' then some (groups, .escape)
  else some (groups, .outside true)

/-- The place behind a character, and the number of open groups. -/
def step (groups : Nat) (place : Place) (c : Char) : Option (Nat × Place) :=
  match place with
  | .outside repeatable => stepOutside groups repeatable c
  | .groupStart => if c = '?' then some (groups, .groupOption) else stepOutside groups false c
  | .groupOption =>
    if c = 'P' then some (groups, .groupNameMark)
    else if c = '<' then some (groups, .groupName false)
    else if c = ':' then some (groups, .outside false)
    else if isGroupFlag c then some (groups, .groupFlags)
    else none
  | .groupNameMark => if c = '<' then some (groups, .groupName false) else none
  | .groupName started =>
    if c = '>' then if started then some (groups, .outside false) else none
    else if c = '_' || c.isAlpha then some (groups, .groupName true)
    else if started && (c.isDigit || c = '.' || c = '[' || c = ']') then some (groups, place)
    else none
  | .groupFlags =>
    if c = ':' then some (groups, .outside false)
    else if c = ')' then some (groups - 1, .outside false)
    else if isGroupFlag c then some (groups, place)
    else none
  | .escape =>
    match hexDigits? c with
    | some n => some (groups, .hex n 0)
    | none =>
      if c = 'A' || c = 'z' || (escaped? c).isSome then some (groups, .outside true) else none
  | .hex digits value => do
    let value := 16 * value + (← hexValue? c)
    if digits ≤ 1 then (charOf? value).map fun _ => (groups, .outside true)
    else some (groups, .hex (digits - 1) value)
  | .inClass outer place => (stepClass outer place c).map (groups, ·)
  | .classEscape outer first =>
    match hexDigits? c with
    | some n => some (groups, .classHex outer first n 0)
    | none => do return (groups, ← behindMember outer first (← escaped? c))
  | .classHex outer first digits value => do
    let value := 16 * value + (← hexValue? c)
    if digits ≤ 1 then do return (groups, ← behindMember outer first (← charOf? value))
    else some (groups, .classHex outer first (digits - 1) value)

/-- Whether a pattern can be read to its end from a place. -/
def isReadableFrom (groups : Nat) (place : Place) : List Char → Bool
  | [] => groups = 0 && (place = .outside true || place = .outside false)
  | c :: cs =>
    match step groups place c with
    | some (groups, place) => isReadableFrom groups place cs
    | none => false

/-- Digits, perhaps with an exponent behind them. -/
def isMantissa (cs : List Char) : Bool :=
  match cs.dropWhile Char.isDigit with
  | [] => cs ≠ []
  | c :: rest =>
    let exponent (rest : List Char) : Bool :=
      let digits := match rest with
        | '+' :: digits | '-' :: digits => digits
        | digits => digits
      digits ≠ [] && digits.all Char.isDigit
    if c = 'e' then cs.head? ≠ some 'e' && exponent rest
    else if c = '.' then
      let tail := rest.dropWhile Char.isDigit
      (cs.head? ≠ some '.' || rest.head?.any Char.isDigit) &&
        match tail with
        | [] => true
        | 'e' :: rest => exponent rest
        | _ => false
    else false

/-- Numbers with a plus sign, which are no regular expressions. -/
def isSignedNumber (s : String) : Bool :=
  match s.toLower.toList with
  | '+' :: cs =>
    isMantissa cs || cs = "inf".toList || cs = "infinity".toList || cs = "nan".toList
  | _ => false

/-- Whether a text can be read as a value or as a pattern for values. -/
def isReadable (s : String) : Bool :=
  isSignedNumber s || isReadableFrom 0 (.outside false) s.toList

end RelationalAlgebra.Pattern
