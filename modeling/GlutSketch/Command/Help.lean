import GlutSketch.Command.Arguments

/-!
# GlutSketch.Command.Help

What the command line says about itself.
-/

namespace GlutSketch.Command

/-- The name of the program. -/
def programName : String := "vectorgl"

/-- The name and version of the program. -/
def versionText : String := programName ++ " 0.1.0\n"

/-- What a command does. -/
def Name.about : Name → String
  | generate => "Write the FreeGLUT program for a scene"
  | check => "Parse one equation and point at the first problem"
  | sample => "Print the sampled function points of a scene as JSON"
  | preview => "Render the scene's functions to a PNG"
  | init => "Write a starter scene"

/-- What the command `help` does. -/
def helpAbout : String := "Print this message or the help of the given subcommand(s)"

/-- The line of the usage of a command, after the name of the program. -/
def Name.usage : Name → String
  | generate => "generate [OPTIONS] <SCENE>"
  | check => "check <EXPRESSION>"
  | sample => "sample <SCENE>"
  | preview => "preview [OPTIONS] --output <OUTPUT> <SCENE>"
  | init => "init [OPTIONS] <SCENE>"

/-- The lines on the arguments and options of a command. -/
def Name.details : Name → List String
  | generate =>
      ["Arguments:", "  <SCENE>  Scene JSON file", "", "Options:",
        "  -o, --output <OUTPUT>  Output file (defaults to `output_file` from the config)",
        "      --stdout           Print the program instead of writing a file",
        "  -h, --help             Print help"]
  | check =>
      ["Arguments:", "  <EXPRESSION>  e.g. \"y = sin(x) / x\" or \"x = 3\"", "", "Options:",
        "  -h, --help  Print help"]
  | sample => ["Arguments:", "  <SCENE>  ", "", "Options:", "  -h, --help  Print help"]
  | preview =>
      ["Arguments:", "  <SCENE>  ", "", "Options:", "  -o, --output <OUTPUT>  ",
        "      --width <WIDTH>    Image width in pixels (defaults to the config)",
        "      --height <HEIGHT>  ", "  -h, --help             Print help"]
  | init =>
      ["Arguments:", "  <SCENE>  ", "", "Options:", "      --force  Replace an existing file",
        "  -h, --help   Print help"]

/-- Lines as a text. -/
def joinLines (lines : List String) : String := String.join (lines.map (· ++ "\n"))

/-- A help text: what is described, how it is used, and details. -/
def helpLines (about usage : String) (details : List String) : String :=
  joinLines ([about, "", "Usage: " ++ programName ++ " " ++ usage, ""] ++ details)

/-- Help for all commands. -/
def overview : String :=
  helpLines "Generate FreeGLUT programs from vector scenes" "<COMMAND>"
    ["Commands:",
      "  generate  " ++ Name.generate.about,
      "  check     " ++ Name.check.about,
      "  sample    " ++ Name.sample.about,
      "  preview   " ++ Name.preview.about,
      "  init      " ++ Name.init.about,
      "  help      " ++ helpAbout,
      "", "Options:", "  -h, --help     Print help", "  -V, --version  Print version"]

/-- Help for all commands or one. -/
def helpText : Option Name → String
  | none => overview
  | some name => helpLines name.about name.usage name.details

/-- Help on help. -/
def helpOnHelpText : String :=
  helpLines helpAbout "help [COMMAND]..."
    ["Arguments:", "  [COMMAND]...  Print help for the subcommand(s)"]

/-- What is said about a command line that is not valid. -/
def usageText : String :=
  "error: invalid command line\n\nUsage: " ++ programName ++
    " <COMMAND>\n\nFor more information, try '--help'.\n"

end GlutSketch.Command
