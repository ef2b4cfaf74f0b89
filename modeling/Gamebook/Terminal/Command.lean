import Gamebook.Terminal.Folder
import Gamebook.Text.Blank

/-!
# The command line

* `Command`             : what the program can be asked to do.
* `Option`s             : written `--name value`, `--name=value` or by a letter, `-n value`, `-nvalue`.
* `Arguments.read?`     : the words of a command line told apart; `none` for a misuse.
* `Invocation.ofWords`  : what a command line asks for.

Models the options of the commands `play`, `linearize`, `validate`, `new` and `init-db`.
-/

set_option autoImplicit false

namespace Gamebook.Terminal

/-- What the program can be asked to do. -/
inductive Command where
  | initDatabase
  | play (file : String) (save : Bool)
  | linearize (file start finish : String) (through : List String) (output : Option String)
  | validate (file response sectionId : String) (output : Option String)
  | new (output : String)
  deriving DecidableEq, Repr

/-- What a command line asks for. -/
inductive Invocation where
  | command (c : Command)
  | help
  | misuse
  deriving DecidableEq, Repr

/-- An option of a command: its name, its letter, and whether it takes a value. -/
structure Switch where
  name : String
  letter : Option Char
  takesValue : Bool
  deriving DecidableEq, Repr

/-- The words of a command line behind the command: the options given, with the last value of each,
and the other words. -/
structure Arguments where
  options : Table String
  words : List String
  deriving DecidableEq, Repr

namespace Arguments

def byName? (switches : List Switch) (name : String) : Option Switch :=
  switches.find? fun s => s.name == name

def byLetter? (switches : List Switch) (letter : Char) : Option Switch :=
  switches.find? fun s => s.letter == some letter

/-- A name, and the value attached to it behind the first equals sign. -/
def splitValue (word : String) : String × Option String :=
  let cs := word.toList
  match cs.dropWhile (· != '=') with
  | [] => (word, none)
  | _ :: value => (String.ofList (cs.takeWhile (· != '=')), some (String.ofList value))

/-- The option that a word names, with the value attached to it; `none` for an unknown option. -/
def option? (switches : List Switch) (word : String) : Option (Switch × Option String) :=
  let (name, value) := splitValue word
  match byName? switches name with
  | some s => some (s, value)
  | none =>
    match word.toList with
    | '-' :: '-' :: _ => none
    | _ :: letter :: attached =>
      (byLetter? switches letter).map fun s =>
        (s, if attached.isEmpty then none else some (String.ofList attached))
    | _ => none

def isOption (word : String) : Bool :=
  match word.toList with
  | '-' :: _ :: _ => true
  | _ => false

/-- With one more option; of two values the later one stands. -/
def withOption (name value : String) (a : Arguments) : Arguments :=
  if a.options.has name then a else { a with options := (name, value) :: a.options }

def withWord (word : String) (a : Arguments) : Arguments := { a with words := word :: a.words }

/-- Tells the words of a command line apart. -/
def read? (switches : List Switch) : List String → Option Arguments
  | [] => some ⟨[], []⟩
  | word :: rest =>
    if word = "--" then some ⟨[], rest⟩
    else if isOption word then
      match option? switches word with
      | none => none
      | some (s, attached) =>
        match s.takesValue, attached, rest with
        | false, none, rest => (read? switches rest).map (withOption s.name "")
        | false, some _, _ => none
        | true, some value, rest => (read? switches rest).map (withOption s.name value)
        | true, none, value :: rest => (read? switches rest).map (withOption s.name value)
        | true, none, [] => none
    else (read? switches rest).map (withWord word)

end Arguments

/-- The option that every command has. -/
def helpSwitch : Switch := ⟨"--help", none, false⟩

/-- The option that names a file to write. -/
def outputSwitch : Switch := ⟨"--output", some 'o', true⟩

/-- The options of a command, and the command itself out of its arguments. -/
structure Grammar where
  switches : List Switch
  build : Arguments → Option Command

/-- The sections named in a list with commas. -/
def splitList (s : String) : List String :=
  ((s.splitOn ",").map Text.trim).filter fun part => !part.isEmpty

/-- A word that is a path, in its normal form; no path holds the character zero. -/
def path? (word : String) : Option String :=
  if word.toList.contains '\x00' then none else some (normalPath word)

/-- The value of an option that is a path, if the option is given; `none` when it is no path. -/
def pathOption? (a : Arguments) (name : String) : Option (Option String) :=
  match a.options.get? name with
  | none => some none
  | some word => (path? word).map some

def grammar? : String → Option Grammar
  | "init-db" => some ⟨[], fun a => if a.words.isEmpty then some .initDatabase else none⟩
  | "play" => some
    { switches := [⟨"--save", none, false⟩]
      build := fun a =>
        match a.words with
        | [file] => do return .play (← path? file) (a.options.has "--save")
        | _ => none }
  | "linearize" => some
    { switches := [⟨"--start", none, true⟩, ⟨"--end", none, true⟩, ⟨"--through", none, true⟩,
        outputSwitch]
      build := fun a =>
        match a.words, a.options.get? "--start", a.options.get? "--end" with
        | [file], some start, some finish => do
          return .linearize (← path? file) start finish
            (splitList ((a.options.get? "--through").getD "")) (← pathOption? a "--output")
        | _, _, _ => none }
  | "validate" => some
    { switches := [⟨"--section", none, true⟩, outputSwitch]
      build := fun a =>
        match a.words, a.options.get? "--section" with
        | [file, response], some id => do
          return .validate (← path? file) (← path? response) id (← pathOption? a "--output")
        | _, _ => none }
  | "new" => some
    { switches := [outputSwitch]
      build := fun a =>
        if a.words.isEmpty then do return .new ((← pathOption? a "--output").getD "story.json")
        else none }
  | _ => none

/-- What a command line with a command asks for. -/
def Invocation.ofCommand (name : String) (words : List String) : Invocation :=
  match grammar? name with
  | none => .misuse
  | some g =>
    match Arguments.read? (helpSwitch :: g.switches) words with
    | none => .misuse
    | some a =>
      if a.options.has "--help" then .help
      else
        match g.build a with
        | some c => .command c
        | none => .misuse

/-- What a command line asks for. -/
def Invocation.ofWords : List String → Invocation
  | "--" :: name :: words => .ofCommand name words
  | "--help" :: _ => .help
  | name :: words => .ofCommand name words
  | [] => .misuse

end Gamebook.Terminal
