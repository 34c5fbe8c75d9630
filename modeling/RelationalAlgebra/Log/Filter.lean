import RelationalAlgebra.Log
import RelationalAlgebra.Log.Pattern
import RelationalAlgebra.Text.Blank
import RelationalAlgebra.Text.CharSet.Alphanumeric

/-!
# Log filters

A filter is a list of directives separated by commas. A directive names a level, or a source, or
more: `source[span{field=value}]=level`. It lets the events up to its level pass. A source stands
for every source that starts with it, a field for the events that have it, and a missing level lets
everything pass. Of the directives that apply to an event the most specific one decides, and of
equal ones the last.

Spans and the values of fields can be named, but they are properties of sections of work, of which
the program has none; directives that name them apply to no event.
-/
namespace RelationalAlgebra

/-- A field that a directive asks for, perhaps with a value. -/
structure FieldCondition where
  name : String
  value : Option String
  deriving DecidableEq, Repr

/-- How much a directive lets pass, and of which events: those up to a severity, or none. -/
structure Directive where
  source : Option String
  span : Option String
  field : Option FieldCondition
  level : Option Severity
  deriving DecidableEq, Repr

/-- The directives of a filter, in the order in which they were written. -/
abbrev LogFilter := List Directive

namespace FieldCondition

/-- Reads a condition. What stands behind a second equals sign does not matter. -/
def ofChars? (cs : List Char) : Option FieldCondition :=
  match cs.splitOnP (· = '=') with
  | [] => none
  | [name] => if name = [] then none else some ⟨String.ofList name, none⟩
  | name :: value :: _ =>
    let value := String.ofList value
    if Pattern.isReadable value then some ⟨String.ofList name, some value⟩ else none

end FieldCondition

namespace Directive

def everything : Directive := ⟨none, none, none, some .trace⟩

/-- A number in decimal digits, perhaps with a plus sign. -/
def number? (cs : List Char) : Option Nat :=
  let digits := match cs with
    | '+' :: digits => digits
    | digits => digits
  if digits ≠ [] ∧ digits.all Char.isDigit then
    some (digits.foldl (fun n c => 10 * n + (c.toNat - '0'.toNat)) 0)
  else none

/-- A level by its name in either case or by its number; `off` and `0` let nothing pass. -/
def level? (cs : List Char) : Option (Option Severity) :=
  match number? cs with
  | some 0 => some none
  | some 1 => some (some .error)
  | some 2 => some (some .warn)
  | some 3 => some (some .info)
  | some 4 => some (some .debug)
  | some 5 => some (some .trace)
  | some _ => none
  | none =>
    match (String.ofList cs).toLower with
    | "off" => some none
    | "error" => some (some .error)
    | "warn" => some (some .warn)
    | "info" => some (some .info)
    | "debug" => some (some .debug)
    | "trace" => some (some .trace)
    | _ => none

/-- Whether a directive can start with a character, other than with a bracket. -/
def isNameStart (c : Char) : Bool :=
  c = '-' || c = ':' || c = '_' || c.isAlphanum || Text.CharSet.alphanumeric.contains c

/-- What is left of a text behind some bytes, unless they end within a character. -/
def behind? (n : Nat) : List Char → Option (List Char)
  | [] => if n = 0 then some [] else none
  | c :: cs =>
    if n = 0 then some (c :: cs)
    else if c.utf8Size ≤ n then behind? (n - c.utf8Size) cs
    else none

/-- The first bytes of a text, unless they end within a character. -/
def firstBytes? (n : Nat) : List Char → Option (List Char)
  | [] => if n = 0 then some [] else none
  | c :: cs =>
    if n = 0 then some []
    else if c.utf8Size ≤ n then (firstBytes? (n - c.utf8Size) cs).map (c :: ·)
    else none

def part? (text : List Char) (start stop : Nat) : Option (List Char) :=
  behind? start text >>= firstBytes? (stop - start)

/-- Which part of a directive is being read, and where it starts. -/
inductive Reading where
  | start
  /-- A source or a level. -/
  | name (start : Nat)
  | span (start : Nat)
  | field (start : Nat)
  /-- Behind a field, where the bracket has to close. -/
  | closing
  /-- Behind the bracket. -/
  | closed
  | level (start : Nat)
  deriving DecidableEq, Repr

/-- Reads the character at a position of a directive. Parts are cut out of `text`. -/
def read (text : List Char) (position : Nat) (c : Char) (d : Directive) :
    Reading → Option (Directive × Reading)
  | .start =>
    if c = '[' then some (d, .span (position + 1))
    else if isNameStart c then some (d, .name position)
    else none
  | .name start =>
    if c = '=' || c = '[' then do
      let source := String.ofList (← part? text start position)
      return ({ d with source },
        if c = '=' then .level (position + 1) else .span (position + 1))
    else some (d, .name start)
  | .span start =>
    if c = ']' then do
      return ({ d with span := String.ofList (← part? text start position) }, .closed)
    else if c = '\x7b' then do
      let name ← part? text start position
      return ({ d with span := if name = [] then none else some (String.ofList name) },
        .field (position + 1))
    else some (d, .span start)
  | .field start =>
    if c = '\x7d' then do
      return ({ d with field := ← FieldCondition.ofChars? (← part? text start position) }, .closing)
    else some (d, .field start)
  | .closing => if c = ']' then some (d, .closed) else none
  | .closed => if c = '=' then some (d, .level (position + 1)) else none
  | .level start => some (d, .level start)

def readFrom (text : List Char) (position : Nat) (d : Directive) (r : Reading) :
    List Char → Option (Directive × Reading)
  | [] => some (d, r)
  | c :: cs => do
    let (d, r) ← read text position c d r
    readFrom text (position + c.utf8Size) d r cs

def finish (text : List Char) (d : Directive) : Reading → Option Directive
  | .name start => do
    let name ← behind? start text
    match level? name with
    | some level => return { d with source := none, level }
    | none => return { d with source := String.ofList name }
  | .level start => do
    let level ← behind? start text
    return { d with level := ← if level = [] then some d.level else level? level }
  | .closed => some d
  | .start | .span _ | .field _ | .closing => none

/-- Reads a directive. Blanks around it are skipped, but positions are counted from the first
character that is read while the parts are cut out of the whole text. So blanks in front shift all
parts, and blanks at the end belong to the last one. -/
def ofString? (s : String) : Option Directive := do
  let text := s.toList
  let (d, r) ← readFrom text 0 everything .start (Text.trim s).toList
  finish text d r

/-- Whether a directive can apply to events at all. -/
def isStatic (d : Directive) : Bool :=
  d.span.isNone && d.field.all fun f => f.value.isNone

def appliesTo (d : Directive) (e : Event) : Bool :=
  d.isStatic && d.source.all (·.isPrefixOf e.source) &&
    d.field.all fun f => f.name ∈ e.fieldNames

/-- Whether a directive is at least as specific as another: by the length of its source, then by
whether it names a field, and by the field's name. -/
def isAsSpecificAs (d other : Directive) : Bool :=
  let length (d : Directive) : Nat := (d.source.map String.utf8ByteSize).getD 0
  let field (d : Directive) : List String := (d.field.map FieldCondition.name).toList
  length other < length d || (length other = length d && !(field d < field other))

end Directive

namespace LogFilter

/-- Reads a filter, every directive of which has to be readable. -/
def ofString? (s : String) : Option LogFilter :=
  let parts := (s.toList.splitOnP (· = ',')).filter (· ≠ [])
  parts.mapM fun part => Directive.ofString? (String.ofList part)

/-- What is logged when no filter is given. -/
def standard (verbose : Bool) : LogFilter :=
  [⟨some "relalg", none, none, some (if verbose then .debug else .warn)⟩]

/-- The filter of the environment if it is readable, and the standard one otherwise. -/
def ofEnvironment (setting : Option String) (verbose : Bool) : LogFilter :=
  (setting >>= ofString?).getD (standard verbose)

/-- The directive that decides about an event. -/
def deciding? (f : LogFilter) (e : Event) : Option Directive :=
  f.foldl (fun best d =>
    if d.appliesTo e && best.all d.isAsSpecificAs then some d else best) none

def passes (f : LogFilter) (e : Event) : Bool :=
  match (f.deciding? e).bind Directive.level with
  | some level => e.severity.rank ≤ level.rank
  | none => false

/-- The events that pass, one line each. -/
def write (f : LogFilter) (events : List Event) : String :=
  String.join ((events.filter f.passes).map fun e => e.line ++ "\n")

end LogFilter

end RelationalAlgebra
