/-!
# Options

The arguments of a call are options. An option of one letter follows a dash, and several of them may
share one; a named option follows two. The value of an option is attached to it, perhaps behind
equals signs, or it is the next argument. An option can be used once. Asking for help or for the
version stops the reading at once.
-/
namespace RelationalAlgebra

inductive Flag where
  | database
  | command
  | history
  | plan
  | verbose
  | help
  | version
  deriving DecidableEq, Repr

/-- One use of an option, with the value that came with it. -/
structure FlagUse where
  flag : Flag
  value : Option String
  deriving DecidableEq, Repr

/-- Why arguments give no options to run with. -/
inductive Refusal where
  | help
  | version
  | misuse
  deriving DecidableEq, Repr

namespace Flag

def ofLetter? : Char → Option Flag
  | 'd' => some database
  | 'c' => some command
  | 't' => some plan
  | 'v' => some verbose
  | 'h' => some help
  | 'V' => some version
  | _ => none

def ofName? : String → Option Flag
  | "database" => some database
  | "command" => some command
  | "history" => some history
  | "tree" => some plan
  | "verbose" => some verbose
  | "help" => some help
  | "version" => some version
  | _ => none

def takesValue : Flag → Bool
  | database | command | history => true
  | plan | verbose | help | version => false

/-- An option that may be used, as a reading that goes on. -/
def allow : Option Flag → Except Refusal Flag
  | some help => .error .help
  | some version => .error .version
  | some flag => .ok flag
  | none => .error .misuse

end Flag

namespace FlagUse

/-- A use with an attached value, without the equals signs in front of it. -/
def attached (flag : Flag) (text : List Char) : FlagUse :=
  ⟨flag, some (String.ofList (text.dropWhile (· = '=')))⟩

/-- Reads the options of one letter behind a dash. The first that takes a value takes all that
follows, and if nothing follows it waits for the next argument. -/
def ofLetters : List Char → Except Refusal (List FlagUse × Option Flag)
  | [] => .ok ([], none)
  | letter :: rest => do
    let flag ← Flag.allow (Flag.ofLetter? letter)
    if flag.takesValue then
      return if rest.isEmpty then ([], some flag) else ([attached flag rest], none)
    else
      let (uses, waiting) ← ofLetters rest
      return (⟨flag, none⟩ :: uses, waiting)

/-- Reads the named option behind two dashes. -/
def ofName (text : List Char) : Except Refusal (List FlagUse × Option Flag) := do
  let text := text.dropWhile (· = '-')
  let flag ← Flag.allow (Flag.ofName? (String.ofList (text.takeWhile (· ≠ '='))))
  if flag.takesValue then
    if '=' ∈ text then return ([attached flag (text.dropWhile (· ≠ '='))], none)
    else return ([], some flag)
  else return ([⟨flag, none⟩], none)

/-- Reads arguments, of which the first is the value that an option waits for. If another option
comes instead, the one that waits goes without a value; it must not wait in vain. -/
def ofArgs (waiting : Option Flag) : List String → Except Refusal (List FlagUse)
  | [] => if waiting.isNone then .ok [] else .error .misuse
  | arg :: args =>
    let unserved := waiting.toList.map (FlagUse.mk · none)
    match arg.toList with
    | ['-', '-'] => if waiting.isNone && args.isEmpty then .ok [] else .error .misuse
    | '-' :: '-' :: name => do
      let (uses, waiting) ← ofName name
      return unserved ++ uses ++ (← ofArgs waiting args)
    | '-' :: letter :: letters => do
      let (uses, waiting) ← ofLetters (letter :: letters)
      return unserved ++ uses ++ (← ofArgs waiting args)
    | _ =>
      match waiting with
      | some flag => do return ⟨flag, some arg⟩ :: (← ofArgs none args)
      | none => .error .misuse

end FlagUse

/-- What a call asks for. -/
structure Options where
  database : Option String
  command : Option String
  history : Option String
  showPlan : Bool
  verbose : Bool
  deriving DecidableEq, Repr

namespace Options

/-- The options of uses no two of which are of one option. -/
def ofUses (uses : List FlagUse) : Options :=
  let value (flag : Flag) : Option String := uses.findSome? fun u =>
    if u.flag = flag then u.value else none
  let used (flag : Flag) : Bool := uses.any (·.flag = flag)
  ⟨value .database, value .command, value .history, used .plan, used .verbose⟩

/-- Reads the arguments of a call. -/
def ofArgs (args : List String) : Except Refusal Options := do
  let uses ← FlagUse.ofArgs none args
  if (uses.map FlagUse.flag).Nodup then return ofUses uses else throw .misuse

end Options

end RelationalAlgebra
