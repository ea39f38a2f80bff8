import Chip8.Machine
import Chip8.Text

/-!
The command line. Words are first told apart: a marker of two dashes makes all later words
arguments, a word that starts with a dash is an option if the table says so, and a long option may
be cut short as long as one option only continues it. Then the words are read from the left: the
first free argument is the program's path, an option that sets a number takes the next argument or
the value behind its equals sign, and what nobody takes is reported at the end. Behind one dash
stand letters of switches only.

Releases of the option parser disagree in three places. Here the first releases of 3.11 are
followed, where later ones such as 3.11.10 differ. Two dashes behind an equals sign give an option
no number. An equals sign behind the letter of a switch is dropped if more follows. And the letters
of a word are looked at up to the first that is no switch, which refuses the line, before any of
their switches is turned on.
-/

namespace Chip8

/-- What the command line settles. A number that was taken away is none. -/
structure Settings where
  program : String
  scale : Option Int := some 15
  clock : Option Int := some 600
  mode : Mode := {}
  tone : Option Int := some 440
  headless : Bool := false
  steps : Option Int := some 6000
  verbose : Bool := false
  deriving DecidableEq, Repr

namespace CommandLine

/-- Options that stand alone. -/
inductive Switch where
  | help
  | legacyStore
  | strict
  | headless
  | verbose
  deriving DecidableEq, Repr

/-- Options that set a number. -/
inductive Dial where
  | scale
  | clock
  | tone
  | steps
  deriving DecidableEq, Repr

inductive Choice where
  | switch (s : Switch)
  | dial (d : Dial)
  deriving DecidableEq, Repr

def spellings : List (String × Choice) :=
  [("-h", .switch .help), ("--help", .switch .help), ("--scale", .dial .scale),
    ("--clock", .dial .clock), ("--legacy-store", .switch .legacyStore),
    ("--strict", .switch .strict), ("--tone", .dial .tone), ("--headless", .switch .headless),
    ("--steps", .dial .steps), ("-v", .switch .verbose), ("--verbose", .switch .verbose)]

def spelled? (word : String) : Option Choice :=
  spellings.lookup word

/-- The switch with a letter. -/
def lettered? : Char → Option Switch
  | 'h' => some .help
  | 'v' => some .verbose
  | _ => none

def Choice.text (choice : Choice) : String :=
  "/".intercalate ((spellings.filter fun entry => entry.2 = choice).map (·.1))

/-- Why a command line is refused. -/
inductive UsageError where
  | ambiguous (word : String) (candidates : List String)
  | argumentMissing (dial : Dial)
  | argumentIgnored (switch : Switch) (argument : String)
  | notWhole (dial : Dial) (argument : String)
  | programMissing
  | unrecognized (words : List String)
  deriving DecidableEq, Repr

namespace UsageError

def about (choice : Choice) (trouble : String) : String :=
  "argument " ++ choice.text ++ ": " ++ trouble

def message : UsageError → String
  | .ambiguous word candidates =>
      "ambiguous option: " ++ word ++ " could match " ++ ", ".intercalate candidates
  | .argumentMissing dial => about (.dial dial) "expected one argument"
  | .argumentIgnored switch argument =>
      about (.switch switch) ("ignored explicit argument " ++ Text.quoted argument)
  | .notWhole dial argument =>
      about (.dial dial) ("invalid int value: " ++ Text.quoted argument)
  | .programMissing => "the following arguments are required: rom"
  | .unrecognized words => "unrecognized arguments: " ++ " ".intercalate words

def text (e : UsageError) : String :=
  "chip8vm: error: " ++ e.message

/-- The last line that is printed about a refused command line; a word may bring lines along. -/
def line (e : UsageError) : String :=
  (Text.lines e.text).getLastD ""

end UsageError

/-! ### Telling words apart -/

/-- What a word is on the command line. An option may have a value in the same word, and the letter
of a switch may have more letters behind it. -/
inductive Word where
  | argument (text : String)
  | marker
  | option (choice : Choice) (value : Option String)
  | letters (switch : Switch) (others : List Char)
  | unknown (text : String)
  deriving DecidableEq, Repr

/-- A word cut at its first equals sign, if it has one. -/
def cutAtEquals (word : List Char) : List Char × Option String :=
  match word.dropWhile (· != '=') with
  | _ :: value => (word.takeWhile (· != '='), some (String.ofList value))
  | [] => (word, none)

def isLong : List Char → Bool
  | '-' :: '-' :: _ => true
  | _ => false

/-- The spellings that a word can be cut short from. -/
def completions (word : List Char) : List (String × Choice) :=
  spellings.filter fun entry => word.isPrefixOf entry.1.toList

def allDigits (text : List Char) : Bool :=
  text.all fun c => (Text.digitValue? c).isSome

/-- Is a text digits, or a point with digits behind it and perhaps in front? -/
def isPlainNumber (text : List Char) : Bool :=
  match text.dropWhile (· != '.') with
  | [] => !text.isEmpty && allDigits text
  | _ :: fraction =>
      allDigits (text.takeWhile (· != '.')) && !fraction.isEmpty && allDigits fraction

/-- Is a word a negative number? One end of line behind it does no harm. -/
def isNegativeNumber : List Char → Bool
  | '-' :: rest =>
      isPlainNumber rest || (rest.getLast? == some '\n' && isPlainNumber rest.dropLast)
  | _ => false

/-- A word that starts with a dash and is no spelling of an option. -/
def undeclared (word : List Char) : Word :=
  let text := String.ofList word
  if isNegativeNumber word || word.contains ' ' then .argument text else .unknown text

/-- A long option that is cut short, with or without a value. -/
def shortened (word : List Char) : Except UsageError Word :=
  let (start, value) := cutAtEquals word
  match completions start with
  | [] => .ok (undeclared word)
  | [(_, choice)] => .ok (.option choice value)
  | several => .error (.ambiguous (String.ofList word) (several.map (·.1)))

/-- A word of one dash and letters, the first of which may be that of a switch. The equals sign
behind it is dropped if more follows. -/
def lettered (word : List Char) : Word :=
  match word with
  | _ :: c :: rest =>
      match lettered? c, rest with
      | none, _ => undeclared word
      | some switch, [] => .option (.switch switch) none
      | some switch, ['='] => .option (.switch switch) (some "")
      | some switch, '=' :: others => .letters switch others
      | some switch, others => .letters switch others
  | _ => .argument (String.ofList word)

/-- Tells what a word is that stands before any marker. -/
def classify (text : String) : Except UsageError Word :=
  let word := text.toList
  if word.head? ≠ some '-' then .ok (.argument text)
  else if !isLong word then .ok (lettered word)
  else
    let (start, value) := cutAtEquals word
    match spelled? (String.ofList start) with
    | some choice => .ok (.option choice value)
    | none => shortened word

def classifyAll : List String → Except UsageError (List Word)
  | [] => .ok []
  | text :: rest =>
      if text = "--" then .ok (.marker :: rest.map .argument)
      else do
        let word ← classify text
        return word :: (← classifyAll rest)

/-! ### Reading -/

/-- Why reading ends early: the help text was asked for, or the line is refused. -/
inductive Stop where
  | help
  | refused (e : UsageError)
  deriving DecidableEq, Repr

/-- The settings so far, the path if there is one yet, and the words that nobody took. -/
structure Progress where
  path : Option String := none
  settings : Settings := { program := "" }
  leftOver : List String := []
  deriving DecidableEq, Repr

namespace Progress

def leave (p : Progress) (word : String) : Progress :=
  { p with leftOver := p.leftOver ++ [word] }

def put (p : Progress) (dial : Dial) (number : Option Int) : Progress :=
  let s := p.settings
  { p with settings := match dial with
    | .scale => { s with scale := number }
    | .clock => { s with clock := number }
    | .tone => { s with tone := number }
    | .steps => { s with steps := number } }

/-- Sets the number that an argument stands for. -/
def set (p : Progress) (dial : Dial) (argument : String) : Except Stop Progress :=
  match Text.whole? argument with
  | none => .error (.refused (.notWhole dial argument))
  | some n => .ok (p.put dial (some n))

/-- Sets the number behind an equals sign. Two dashes there are no number and take it away. -/
def setAttached (p : Progress) (dial : Dial) (value : String) : Except Stop Progress :=
  if value = "--" then .ok (p.put dial none) else p.set dial value

def turnOn (p : Progress) (switch : Switch) : Except Stop Progress :=
  let s := p.settings
  match switch with
  | .help => .error .help
  | .legacyStore => .ok { p with settings := { s with mode.legacyStore := true } }
  | .strict => .ok { p with settings := { s with mode.strict := true } }
  | .headless => .ok { p with settings := { s with headless := true } }
  | .verbose => .ok { p with settings := { s with verbose := true } }

end Progress

/-- A switch and those whose letters follow it. The first letter of no switch is refused, with all
behind it, as an argument of the switch before. -/
def cluster (switch : Switch) : List Char → Except UsageError (List Switch)
  | [] => .ok [switch]
  | c :: rest =>
      match lettered? c with
      | some next => do return switch :: (← cluster next rest)
      | none => .error (.argumentIgnored switch (String.ofList (c :: rest)))

/-- Turns a switch and those whose letters follow it on, unless a letter is refused. -/
def readLetters (p : Progress) (switch : Switch) (others : List Char) : Except Stop Progress :=
  match cluster switch others with
  | .error e => .error (.refused e)
  | .ok switches => switches.foldlM Progress.turnOn p

/-- Reads words from the left. A marker next to the path vanishes; anywhere else it is left over. -/
def readWords (p : Progress) : List Word → Except Stop Progress
  | [] => .ok p
  | .argument a :: .marker :: rest =>
      match p.path with
      | none => readWords { p with path := some a } rest
      | some _ => readWords ((p.leave a).leave "--") rest
  | .argument a :: rest =>
      match p.path with
      | none => readWords { p with path := some a } rest
      | some _ => readWords (p.leave a) rest
  | .marker :: .argument a :: rest =>
      match p.path with
      | none => readWords { p with path := some a } rest
      | some _ => readWords ((p.leave "--").leave a) rest
  | .marker :: rest => readWords (p.leave "--") rest
  | .unknown word :: rest => readWords (p.leave word) rest
  | .letters switch others :: rest => do
      readWords (← readLetters p switch others) rest
  | .option (.switch switch) none :: rest => do
      readWords (← p.turnOn switch) rest
  | .option (.switch switch) (some value) :: _ => .error (.refused (.argumentIgnored switch value))
  | .option (.dial dial) (some value) :: rest => do
      readWords (← p.setAttached dial value) rest
  | .option (.dial dial) none :: .argument a :: rest => do
      readWords (← p.set dial a) rest
  | .option (.dial dial) none :: _ => .error (.refused (.argumentMissing dial))

def parse (words : List String) : Except Stop Settings :=
  match classifyAll words with
  | .error e => .error (.refused e)
  | .ok classified => do
      let p ← readWords {} classified
      match p.path with
      | none => throw (.refused .programMissing)
      | some path =>
          if p.leftOver = [] then return { p.settings with program := path }
          else throw (.refused (.unrecognized p.leftOver))

end CommandLine

end Chip8
