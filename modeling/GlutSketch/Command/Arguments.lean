import GlutSketch.Numeric.Rounding
import GlutSketch.Text.Digits

/-!
# GlutSketch.Command.Arguments

The command line: five commands, each with one argument of its own and some
options.  Options may stand before or after the argument.  An option with a
value takes it from the same word or the next one; after the word `--` nothing
is an option.
-/

namespace GlutSketch.Command

/-! ## Requests -/

/-- The names of the commands. -/
inductive Name where
  | generate
  | check
  | sample
  | preview
  | init
deriving DecidableEq, Repr

/-- What a command line asks for. -/
inductive Request where
  /-- Write the program of a scene, or print it. -/
  | generate (scene : String) (output : Option String) (print : Bool)
  /-- Say what an equation is, or what is wrong with it. -/
  | check (expression : String)
  /-- Print the samples of a scene. -/
  | sample (scene : String)
  /-- Draw the functions of a scene. -/
  | preview (scene output : String) (width height : Option UInt32)
  /-- Write a new scene. -/
  | init (scene : String) (force : Bool)
deriving DecidableEq, Repr

/-- Why a command line does not get as far as a request. -/
inductive Stop where
  /-- The line is not valid. -/
  | usage
  /-- Help is asked for: for all commands, or one. -/
  | help (command : Option Name)
  /-- Help is asked for about help. -/
  | helpOnHelp
  /-- The version is asked for. -/
  | version
deriving DecidableEq, Repr

/-! ## Options -/

/-- What the values of an option look like. -/
inductive ValueKind where
  | path
  | word
  | size
deriving DecidableEq, Repr

/-- A whole number from zero to 32 bits, in decimal digits, perhaps after a
sign.  The only one that may have a minus is zero. -/
def size? (text : String) : Option UInt32 :=
  let (negative, digits) := splitSign text.toList
  let n := digitsValue digits
  if digits ≠ [] ∧ digits.all Char.isDigit ∧ n < pow2 32 ∧ (negative → n = 0) then
    some (UInt32.ofNat n)
  else none

/-- A value is of a kind.  A path may not be empty. -/
def ValueKind.accepts : ValueKind → String → Bool
  | path, text => text != ""
  | word, _ => true
  | size, text => (size? text).isSome

/-- An option: its name after two hyphens, its letter after one, and its value
if it has one. -/
structure OptionSpec where
  long : String
  short : Option Char
  value : Option ValueKind
deriving DecidableEq, Repr

/-- The options of a command, apart from help. -/
def Name.options : Name → List OptionSpec
  | generate => [⟨"output", some 'o', some .path⟩, ⟨"stdout", none, none⟩]
  | check => []
  | sample => []
  | preview =>
      [⟨"output", some 'o', some .path⟩, ⟨"width", none, some .size⟩, ⟨"height", none, some .size⟩]
  | init => [⟨"force", none, none⟩]

/-- What the argument of a command looks like. -/
def Name.argument : Name → ValueKind
  | check => .word
  | _ => .path

/-! ## Words -/

/-- What has been read of the words of a command: its argument, and its options
with their values. -/
structure Words where
  argument : Option String
  options : List (String × String)

namespace Words

/-- Adds an argument, of which there is one at most. -/
def addArgument (w : Words) (kind : ValueKind) (text : String) : Except Stop Words :=
  if w.argument.isNone && kind.accepts text then .ok { w with argument := some text }
  else .error .usage

/-- Adds an option, which may not be repeated. -/
def addOption (w : Words) (o : OptionSpec) (text : String) : Except Stop Words :=
  let accepted := match o.value with
    | none => true
    | some kind => kind.accepts text
  if (w.options.lookup o.long).isNone && accepted then
    .ok { w with options := w.options ++ [(o.long, text)] }
  else .error .usage

/-- Adds words that are all arguments. -/
def addArguments (w : Words) (kind : ValueKind) (texts : List String) : Except Stop Words :=
  texts.foldlM (fun w text => w.addArgument kind text) w

end Words

/-- A word is the value of the option before it: it does not begin with a
hyphen, or is nothing but one. -/
def isValueWord (word : String) : Bool :=
  match word.toList with
  | ['-'] => true
  | '-' :: _ => false
  | _ => true

/-- An option as it is written in one word: the option, and its value if there
is one in the word. -/
inductive Written where
  | option (o : OptionSpec) (value : Option String)
  | help
  | unknown

/-- Reads a word after two hyphens: a name, and perhaps an equals sign and a
value. -/
def writtenLong (options : List OptionSpec) (cs : List Char) : Written :=
  let name := String.ofList (cs.takeWhile (· != '='))
  let value := match cs.dropWhile (· != '=') with
    | [] => none
    | _ :: rest => some (String.ofList rest)
  if name = "help" then if value.isNone then .help else .unknown
  else match options.find? fun o => o.long = name with
    | none => .unknown
    | some o => if o.value.isNone && value.isSome then .unknown else .option o value

/-- Reads a word after one hyphen: a letter, and its value if it has one,
perhaps after an equals sign. -/
def writtenShort (options : List OptionSpec) : List Char → Written
  | [] => .unknown
  | letter :: rest =>
      if letter = 'h' then .help
      else match options.find? fun o => o.short = some letter with
        | none => .unknown
        | some o =>
            match rest with
            | [] => .option o none
            | '=' :: value => .option o (some (String.ofList value))
            | value => .option o (some (String.ofList value))

/-- Reads a word as an option, if it is one. -/
def written? (options : List OptionSpec) (word : String) : Option Written :=
  match word.toList with
  | '-' :: '-' :: cs => some (writtenLong options cs)
  | ['-'] => none
  | '-' :: cs => some (writtenShort options cs)
  | _ => none

/-- Reads the words of a command. -/
def readWords (options : List OptionSpec) (argument : ValueKind) :
    Words → List String → Except Stop Words
  | w, [] => .ok w
  | w, "--" :: rest => w.addArguments argument rest
  | w, word :: rest =>
      match written? options word with
      | none => do readWords options argument (← w.addArgument argument word) rest
      | some .help => .error (.help none)
      | some .unknown => .error .usage
      | some (.option o (some value)) => do
          readWords options argument (← w.addOption o value) rest
      | some (.option o none) =>
          if o.value.isNone then do readWords options argument (← w.addOption o "") rest
          else match rest with
            | value :: others =>
                if isValueWord value then do
                  readWords options argument (← w.addOption o value) others
                else .error .usage
            | [] => .error .usage

/-! ## Command lines -/

/-- The name of a command as it is written. -/
def Name.text : Name → String
  | generate => "generate"
  | check => "check"
  | sample => "sample"
  | preview => "preview"
  | init => "init"

/-- The command of a name. -/
def Name.ofText? (text : String) : Option Name :=
  [generate, check, sample, preview, init].find? fun n => n.text = text

/-- The request of a command and its words: what is required has to be there,
and a program is either written to a file or printed. -/
def request? (name : Name) (w : Words) : Option Request := do
  let argument ← w.argument
  let output := w.options.lookup "output"
  match name with
  | .generate =>
      let print := (w.options.lookup "stdout").isSome
      if output.isSome && print then none else some (.generate argument output print)
  | .check => some (.check argument)
  | .sample => some (.sample argument)
  | .preview =>
      some (.preview argument (← output) ((w.options.lookup "width").bind size?)
        ((w.options.lookup "height").bind size?))
  | .init => some (.init argument (w.options.lookup "force").isSome)

/-- Reads the words after the name of a command. -/
def readCommand (name : Name) (words : List String) : Except Stop Request :=
  match readWords name.options name.argument ⟨none, []⟩ words with
  | .error (.help _) => .error (.help (some name))
  | .error stop => .error stop
  | .ok w =>
      match request? name w with
      | none => .error .usage
      | some r => .ok r

/-- What the command `help` is asked for. -/
def helpTopic : List String → Stop
  | [] => .help none
  | ["help"] => .helpOnHelp
  | [name] =>
      match Name.ofText? name with
      | none => .usage
      | some n => .help (some n)
  | _ => .usage

/-- Reads a word that stands where a command should. -/
def stopOfWord (word : String) : Stop :=
  match word.toList with
  | '-' :: 'h' :: _ => .help none
  | '-' :: 'V' :: _ => .version
  | _ => if word = "--help" then .help none else if word = "--version" then .version else .usage

/-- Reads a command line. -/
def readArguments : List String → Except Stop Request
  | [] => .error .usage
  | word :: rest =>
      match Name.ofText? word with
      | some name => readCommand name rest
      | none => .error (if word = "help" then helpTopic rest else stopOfWord word)

end GlutSketch.Command
