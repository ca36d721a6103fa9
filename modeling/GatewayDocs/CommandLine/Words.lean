import GatewayDocs.Text.Digit
import GatewayDocs.Value.Basic

/-! # Words of a command line

A command has options: a flag, an option with a value, or the request for help.  The words
that follow it are told apart before any of them is used (`Word.read`): the name of an option
may be shortened as long as one option remains, and its value may follow in the same word
after an equals sign; there two dashes are no value.  A negative number and a word with a space
are never names of options.

`readOptions` reads the options of a command that takes nothing else. -/

namespace GatewayDocs.CommandLine

/-- What an option takes. -/
inductive OptionKind where
  | help
  | flag
  | value (choices : List String)
deriving DecidableEq

/-- An option of a command, by its long name. -/
structure OptionSpec where
  name : String
  kind : OptionKind
deriving DecidableEq

/-- Why a command line is not carried out. -/
inductive Refusal where
  /-- Help was asked for. -/
  | help
  /-- The words are not what the command takes. -/
  | usage
deriving DecidableEq

/-- What a word is. -/
inductive Word where
  | plain (text : String)
  | separator
  | option (spec : OptionSpec) (value : Option String)
  | refused
  | unknown (text : String)

/-- The request for help, which every command takes. -/
def helpOption : OptionSpec := ⟨"--help", .help⟩

namespace Word

/-- The end of a word, before which there may be a newline. -/
def isEnd (cs : List Char) : Bool := cs.isEmpty || cs = ['\n']

/-- Whether these are digits, at least one, up to the end. -/
def isDigits (cs : List Char) : Bool :=
  cs.head?.any Text.isDecimal && isEnd (cs.dropWhile Text.isDecimal)

/-- A negative number: a minus sign and digits, before which there may be a point and digits
before that. -/
def isNegativeNumber : List Char → Bool
  | '-' :: rest =>
    isDigits rest ||
      match rest.dropWhile Text.isDecimal with
      | '.' :: fraction => isDigits fraction
      | _ => false
  | _ => false

/-- The name in a word, and the value after an equals sign. -/
def splitValue (cs : List Char) : List Char × Option (List Char) :=
  match cs.span (· ≠ '=') with
  | (name, _ :: value) => (name, some value)
  | (name, []) => (name, none)

/-- A word that starts with the short request for help; the request may be repeated, but nothing
else may follow. -/
def shortHelp (more : List Char) : Word :=
  let repeated : Option (List Char) :=
    match more with
    | ['='] => none
    | '=' :: rest => some rest
    | rest => some rest
  if repeated.any fun cs => cs.all (· = 'h') then .option helpOption none else .refused

/-- A word that is no option of a command. -/
def other (s : String) : Word :=
  if isNegativeNumber s.toList || s.toList.contains ' ' then .plain s else .unknown s

/-- The options whose names start with some characters. -/
def candidates (specs : List OptionSpec) (name : List Char) : List OptionSpec :=
  specs.filter fun o => name.isPrefixOf o.name.toList

/-- A word that starts with two dashes. -/
def long (specs : List OptionSpec) (s : String) : Except Refusal Word :=
  let (name, value) := splitValue s.toList
  let text := value.map String.ofList
  match specs.find? fun o => o.name.toList = name with
  | some o => .ok (.option o text)
  | none =>
    match candidates specs name with
    | [] => .ok (other s)
    | [o] => .ok (.option o text)
    | _ => .error .usage

/-- What a word is for a command with some options. -/
def read (specs : List OptionSpec) (s : String) : Except Refusal Word :=
  match s.toList with
  | '-' :: '-' :: _ => long specs s
  | '-' :: 'h' :: more => .ok (shortHelp more)
  | '-' :: _ :: _ => .ok (other s)
  | _ => .ok (.plain s)

/-- What the words of a command line are; after the separator all are plain. -/
def readAll (specs : List OptionSpec) : List String → Except Refusal (List Word)
  | [] => .ok []
  | "--" :: rest => .ok (.separator :: rest.map .plain)
  | s :: rest => do
    let w ← read specs s
    return w :: (← readAll specs rest)

end Word

/-- The options that were given, with their values, in order. -/
abbrev Given := List (String × Value)

/-- The value that was given last to an option. -/
def Given.get? (given : Given) (name : String) : Option Value :=
  (given.reverse.find? fun nv => nv.1 = name).map (·.2)

/-- Whether an option was given. -/
def Given.has (given : Given) (name : String) : Bool := (given.get? name).isSome

/-- The two dashes that end the options. -/
def separatorText : String := "--"

/-- The value of an option that is in the same word; two dashes are no value, and what is left
is an empty list. -/
def joinedValue (s : String) : Value := if s = separatorText then .list [] else .str s

/-- Checks that a value is one of the choices, if there are any. -/
def checkChoice (choices : List String) : Value → Except Refusal Unit
  | .str s => if choices.isEmpty || choices.contains s then .ok () else .error .usage
  | _ => .ok ()

/-- Takes an option and its value; the words that are left come with the two. -/
def takeOption (o : OptionSpec) (value : Option String) (rest : List Word) :
    Except Refusal ((String × Value) × List Word) :=
  match o.kind, value, rest with
  | .help, none, _ => .error .help
  | .flag, none, _ => .ok ((o.name, .bool true), rest)
  | .value choices, some v, _ => do
    checkChoice choices (joinedValue v)
    return ((o.name, joinedValue v), rest)
  | .value choices, none, .plain v :: rest => do
    checkChoice choices (.str v)
    return ((o.name, .str v), rest)
  | _, _, _ => .error .usage

/-- Two options of which only one may be given. -/
abbrev Exclusive := Option (String × String)

/-- Checks that the other one of two exclusive options was not given. -/
def checkExclusive (exclusive : Exclusive) (given : Given) (name : String) :
    Except Refusal Unit :=
  match exclusive with
  | none => .ok ()
  | some (a, b) =>
    if (name = a && given.has b) || (name = b && given.has a) then .error .usage else .ok ()

/-- Reads options from words; says whether all words were options. -/
def takeOptions (exclusive : Exclusive) (given : Given) :
    Nat → List Word → Except Refusal (Given × Bool)
  | 0, _ => .error .usage
  | _ + 1, [] => .ok (given, true)
  | n + 1, .option o value :: rest => do
    let (taken, rest) ← takeOption o value rest
    checkExclusive exclusive given taken.1
    takeOptions exclusive (given ++ [taken]) n rest
  | _ + 1, .refused :: _ => .error .usage
  | n + 1, _ :: rest => do
    let (given, _) ← takeOptions exclusive given n rest
    return (given, false)

/-- Reads the options of a command that takes nothing else. -/
def readOptions (specs : List OptionSpec) (exclusive : Exclusive) (words : List String) :
    Except Refusal Given := do
  let words ← Word.readAll specs words
  let (given, complete) ← takeOptions exclusive [] (words.length + 1) words
  if complete then return given else throw .usage

end GatewayDocs.CommandLine
