import Gamebook.Extension.Extend
import Gamebook.Player.View
import Gamebook.Route.Markdown
import Gamebook.Story.Load
import Gamebook.Terminal.Command
import Gamebook.Text.Lowercase
import Gamebook.Text.Digit

/-!
# Sessions at the terminal

A session runs one command against a folder and the lines typed so far.

* `Shown`        : what appears at the terminal, piece by piece.
* `Crash`        : an error that the program does not report itself.
* `Ending`, `Session` : how a command ended, and what it left behind.
* `Play.turns`   : the turns of play.
* `Command.run`  : a command.

Models `play`, `linearize`, `validate`, `new` and `init_db_command`, with `_read_story`, `_ask` and
`_render_media`.
-/

set_option autoImplicit false

namespace Gamebook.Terminal

/-- A piece of what appears at the terminal. -/
inductive Shown where
  | out (s : String)
  | err (s : String)
  /-- A line that the player typed. -/
  | typed (line : String)
  deriving DecidableEq, Repr

namespace Shown

def line (s : String) : Shown := .out (Text.plain s ++ "\n")

/-- A line that reports an error. -/
def error (s : String) : Shown := .err (Text.plain s ++ "\n")

/-- A report of issues with a document; it is the last thing said. -/
def report (s : String) : Shown := .err (Text.plain s)

def question (message : String) : Shown := .out (Text.plain (message ++ ":") ++ " ")

/-- The piece as it stands in the output. -/
def outText : Shown → String
  | .out s => s
  | .typed line => line ++ "\n"
  | .err _ => ""

/-- The piece as it stands among the errors. -/
def errText : Shown → String
  | .err s => s
  | _ => ""

end Shown

/-- Why the database cannot be made. -/
inductive DatabaseFault where
  | notDatabase
  | cannotOpen
  deriving DecidableEq, Repr

def DatabaseFault.message : DatabaseFault → String
  | .notDatabase => "file is not a database"
  | .cannotOpen => "unable to open database file"

/-- An error that the program does not report itself. -/
inductive Crash where
  | story (error : StoryError)
  | script (cause : Interruption)
  | number (fault : NumberFault)
  | file (fault : FileFault)
  | write (fault : WriteFault)
  | database (fault : DatabaseFault)
  /-- A text of digits that is no number. -/
  | notNumber (digits : String)
  | digitLimit (digits : Nat)
  deriving DecidableEq, Repr

/-- The most characters that are shown of a text of digits, its quotes included. -/
def shownDigits : Nat := 200

def Crash.message : Crash → String
  | .story e => e.message
  | .script cause => cause.message
  | .number fault => fault.message
  | .file fault => fault.message
  | .write fault => fault.message
  | .database fault => fault.message
  | .notNumber digits =>
    "invalid literal for int() with base 10: " ++
      String.ofList ((Text.quoted digits).toList.take shownDigits)
  | .digitLimit digits => (JsonError.digitLimit digits).message

inductive Ending where
  | done
  /-- The program reported an error. -/
  | failed
  /-- A question was left without an answer. -/
  | aborted
  | misused
  | crashed (c : Crash)
  deriving DecidableEq, Repr

def Ending.code : Ending → Nat
  | .done => 0
  | .misused => 2
  | _ => 1

/-- What a command left behind. -/
structure Session where
  folder : Folder
  shown : List Shown
  ending : Ending

namespace Session

/-- The output, its line ends as line feeds. -/
def output (s : Session) : String := Text.joinedReturns (String.join (s.shown.map Shown.outText))

/-- The reported errors, their line ends as line feeds. -/
def errors (s : Session) : String := Text.joinedReturns (String.join (s.shown.map Shown.errText))

/-- A command that reports an error. -/
def reject (folder : Folder) (message : String) : Session := ⟨folder, [.error message], .failed⟩

/-- A command that reports the issues with a document. -/
def rejectReport (folder : Folder) (message : String) : Session :=
  ⟨folder, [.report message], .failed⟩

/-- A command that crashes behind some output. -/
def crash (folder : Folder) (shown : List Shown) (c : Crash) : Session :=
  ⟨folder, shown, .crashed c⟩

/-- A file written and announced, behind some output. -/
def written (folder : Folder) (shown : List Shown) (path text verb : String) : Session :=
  match folder.write path text with
  | .ok after => ⟨after, shown ++ [.line (verb ++ path)], .done⟩
  | .error fault => crash folder shown (.file fault)

/-- A story written to a file and announced, behind some output. -/
def writtenStory (folder : Folder) (shown : List Shown) (path : String) (s : Story)
    (verb : String) : Session :=
  match s.writePretty with
  | .ok text => written folder shown path text verb
  | .error fault => crash folder shown (.write fault)

end Session

/-- A story out of a file, or the session that ends for want of it. -/
def readStory (folder : Folder) (file : String) : Except Session Story :=
  let cause := "Could not read " ++ file ++ ": "
  match folder.read file with
  | .error fault =>
    .error (if fault.trouble.isContent then .crash folder [] (.file fault)
      else .reject folder (cause ++ fault.message))
  | .ok text =>
    match Story.ofText text with
    | .ok s => .ok s
    | .error (.mismatch issues) =>
      .error (.rejectReport folder (cause ++ (StoryError.mismatch issues).message))
    | .error e =>
      .error (if e.isLimit then .crash folder [] (.story e) else .reject folder (cause ++ e.message))

/-! ## Play -/

/-- The terminal during play: the lines not yet read, and what was shown. -/
structure Desk where
  lines : List String
  shown : List Shown

namespace Desk

def show_ (d : Desk) (pieces : List Shown) : Desk := { d with shown := d.shown ++ pieces }

/-- Asks a question; there is no answer when no line is left. -/
def ask (d : Desk) (message : String) : Option String × Desk :=
  let d := d.show_ [.question message]
  match d.lines with
  | [] => (none, d)
  | line :: rest => (some line, { d.show_ [.typed line] with lines := rest })

/-- Asking for the scripts of a story. -/
def prompter : Prompter Desk where
  ask message d :=
    match d.ask message with
    | (some line, d) => (.answer line, d)
    | (none, d) => (.ended, d)

end Desk

/-- A picture or film in words. -/
def mediaText (m : Media) : String :=
  let source := if Extension.isEmbedded m.source then "embedded" else m.source
  "[" ++ m.kind.word ++ ": " ++ source ++ "]"

/-- The choices, numbered from one. -/
def choiceLines (number : Nat) : List Choice → List Shown
  | [] => []
  | c :: rest =>
    let label := if c.label.isEmpty then "(continue)" else c.label
    .line ("  " ++ Nat.repr number ++ ". " ++ label) :: choiceLines (number + 1) rest

def viewLines (v : View) : List Shown :=
  [.line ("\n--- " ++ v.sectionId.getD "None" ++ " ---")] ++
    (v.media.toList.map fun m => .line (mediaText m)) ++ [.line v.text] ++ choiceLines 1 v.choices

/-- What the player wants in a turn. -/
inductive Wish where
  | quit
  | move (m : Move)
  | crash (c : Crash)
  | unknown (command : String)
  deriving DecidableEq, Repr

/-- The number that a text of digits denotes, less one, as a choice.  Decimal digits at the front are
counted before the others are looked at. -/
def choiceWish (command : String) : Wish :=
  let cs := command.toList
  let leading := (cs.takeWhile Text.isDecimalDigit).length
  if digitLimit < leading then .crash (.digitLimit leading)
  else
    match Text.decimalValue? cs with
    | none => .crash (.notNumber command)
    | some n => .move (.choose (n - 1))

/-- What a typed line wants; an empty line goes forward. -/
def Wish.ofLine (line : String) : Wish :=
  let command := Text.lower (Text.trim (if line.isEmpty then "f" else line))
  if command = "q" then .quit
  else if command = "b" then .move .back
  else if command = "f" then .move .forward
  else if !command.isEmpty && command.toList.all Text.isDigitForm then choiceWish command
  else .unknown command

inductive PlayEnding where
  | quit
  | aborted
  | crashed (c : Crash)
  deriving DecidableEq, Repr

namespace Play

/-- What is said of a move that led nowhere. -/
def nowhere : Move → String
  | .back => "Already at the beginning."
  | _ => "No way forward from here."

def say (p : Player Desk) (pieces : List Shown) : Player Desk := { p with desk := p.desk.show_ pieces }

/-- Takes a move; tells whether it led anywhere. -/
def step (p : Player Desk) : Move → Player.Step Desk Bool
  | .forward => p.forward (some Desk.prompter)
  | .back => p.back (some Desk.prompter)
  | m =>
    let (p, result) := p.move (some Desk.prompter) m
    (p, result.map fun _ => true)

/-- The player after a wish, and how play ended if it did. -/
def grant (p : Player Desk) : Wish → Player Desk × Option PlayEnding
  | .quit => (p, some .quit)
  | .crash c => (p, some (.crashed c))
  | .unknown command => (say p [.line ("Unknown command: " ++ command)], none)
  | .move m =>
    match step p m with
    | (p, .ok true) => (p, none)
    | (p, .ok false) => (say p [.line (nowhere m)], none)
    | (p, .error (.interrupted .promptEnded)) => (p, some .aborted)
    | (p, .error (.interrupted cause)) => (p, some (.crashed (.script cause)))
    | (p, .error e) => (say p [.error e.message], none)

/-- One turn after another.  Every turn reads a line, so that there are no more turns than lines,
save the last one, which finds none. -/
def turns : Nat → Player Desk → Player Desk × PlayEnding
  | fuel, p =>
    let p := say p (p.story.elim [] fun s => viewLines s.view)
    let (line?, desk) := p.desk.ask ">"
    let p := { p with desk := desk }
    match line?, fuel with
    | some line, fuel + 1 =>
      match grant p (Wish.ofLine line) with
      | (p, some ending) => (p, ending)
      | (p, none) => turns fuel p
    | _, _ => (p, .aborted)

end Play

/-! ## Commands -/

def runPlay (folder : Folder) (lines : List String) (file : String) (save : Bool) : Session :=
  match readStory folder file with
  | .error session => session
  | .ok s =>
    match (Player.idle (⟨lines, []⟩ : Desk)).load (some s) with
    | (_, .error e) => .reject folder e.message
    | (p, .ok ()) =>
      match Play.turns lines.length p with
      | (p, .aborted) => ⟨folder, p.desk.shown ++ [.err "Aborted.\n"], .aborted⟩
      | (p, .crashed c) => .crash folder p.desk.shown c
      | (p, .quit) =>
        match p.story, save with
        | some s, true => .writtenStory folder p.desk.shown file s "Saved story to "
        | _, _ => ⟨folder, p.desk.shown, .done⟩

/-- Writes a read-through. -/
def runLinearize (folder : Folder) (file start finish : String) (through : List String)
    (output : Option String) : Session :=
  match readStory folder file with
  | .error session => session
  | .ok s =>
    match s.linearize (some start) (some finish) (through.map some) none with
    | .error (.number fault) => .crash folder [] (.number fault)
    | .error e => .reject folder e.message
    | .ok markdown =>
      let path := output.getD (normalPath (Story.fileTitle (some s) ++ ".md"))
      .written folder [] path markdown "Wrote "

/-- Reviews a writer's answer. -/
def runValidate (folder : Folder) (file response sectionId : String) (output : Option String) :
    Session :=
  match readStory folder file with
  | .error session => session
  | .ok s =>
    match folder.read response with
    | .error fault => .crash folder [] (.file fault)
    | .ok text =>
      match Extension.review s text sectionId with
      | .error fault => .crash folder [] (.write fault)
      | .ok (.error (.mismatch issues)) =>
        .rejectReport folder ("Rejected: " ++ (Extension.Rejection.mismatch issues).message)
      | .ok (.error reason) => .reject folder ("Rejected: " ++ reason.message)
      | .ok (.ok extended) =>
        let new := Extension.newSections s extended
        let shown := [Shown.line ("Accepted: " ++ Nat.repr new.length ++ " new sections (" ++
          ", ".intercalate new ++ ")")]
        match output with
        | none => ⟨folder, shown, .done⟩
        | some path => .writtenStory folder shown path extended "Wrote "

/-- Writes a fresh story. -/
def runNew (folder : Folder) (output : String) : Session :=
  match folder.has output with
  | .error fault => .crash folder [] (.file fault)
  | .ok true => .reject folder (output ++ " already exists")
  | .ok false => .writtenStory folder [] output .fresh "Wrote "

def databaseFile : String := "stories.db"

/-- What the file of the database holds: its header ends in an octet that starts no character. -/
def databaseContent : Content := .binary 0xf8 102

/-- The database can be made in place of an entry: of nothing, of an empty file or of a database. -/
def databaseFault? : Option Entry → Option DatabaseFault
  | none => none
  | some (.file content) =>
    if content = .text "" ∨ content = databaseContent then none else some .notDatabase
  | some _ => some .cannotOpen

def runInitDatabase (folder : Folder) : Session :=
  let announced := [Shown.line "Initializing the database..."]
  match databaseFault? (folder.entry? (Place.here.step databaseFile)) with
  | some fault => .crash folder announced (.database fault)
  | none =>
    ⟨folder.withFile databaseFile databaseContent,
      announced ++ [.line "Database initialized."], .done⟩

/-- Runs a command on a folder, with the lines typed so far. -/
def Command.run (folder : Folder) (lines : List String) : Command → Session
  | .initDatabase => runInitDatabase folder
  | .play file save => runPlay folder lines file save
  | .linearize file start finish through output =>
    runLinearize folder file start finish through output
  | .validate file response sectionId output => runValidate folder file response sectionId output
  | .new output => runNew folder output

/-- Runs what a command line asks for. -/
def Invocation.run (folder : Folder) (lines : List String) : Invocation → Session
  | .command c => c.run folder lines
  | .help => ⟨folder, [], .done⟩
  | .misuse => ⟨folder, [], .misused⟩

/-- The paths that a command reads or writes. -/
def Command.paths : Command → List String
  | .initDatabase => [databaseFile]
  | .play file _ => [file]
  | .linearize file _ _ _ output => file :: output.toList
  | .validate file response _ output => file :: response :: output.toList
  | .new output => [output]

end Gamebook.Terminal
