import GlutSketch.Command.Help
import GlutSketch.Command.Host
import GlutSketch.Config
import GlutSketch.Preview.Render
import GlutSketch.Scene.File
import GlutSketch.Scene.Recompute

/-!
# GlutSketch.Command.Run

Running a command.  A command reads and writes the files of its `Host` and ends
with an `Outcome`: the code it exits with and what it prints at the end.  What
is left out of a drawing is only a warning, which is reported before anything is
written; a command that cannot do its work says so in one line.
-/

namespace GlutSketch.Command

/-! ## Outcomes -/

/-- How a run ends. -/
structure Outcome where
  exitCode : UInt8
  output : String
  errors : String
deriving DecidableEq, Repr

/-- Why a command cannot do its work. -/
inductive Failure where
  | reading (path : String)
  | parsing (path : String)
  | writingProgram (path : String)
  | writingPreview (path : String)
  | writingScene (path : String)
  | rendering (cause : SizeError)
  | sceneExists (path : String)
deriving DecidableEq, Repr

/-- What went wrong, in words. -/
def Failure.message : Failure → String
  | reading path => "reading scene " ++ path
  | parsing path => "parsing scene " ++ path
  | writingProgram path => "writing program to " ++ path
  | writingPreview path => "writing preview to " ++ path
  | writingScene path => "writing scene to " ++ path
  | rendering _ => "rendering preview"
  | sceneExists path => path ++ " already exists (use --force to replace it)"

/-- The end of a run that did its work by printing a text. -/
def Outcome.success (output : String) : Outcome := ⟨0, output, ""⟩

/-- The end of a run that did its work by writing a file, as a message says. -/
def Outcome.written (message : String) : Outcome := ⟨0, "", message ++ "\n"⟩

/-- The end of a run that did not do its work. -/
def Outcome.failure (f : Failure) : Outcome := ⟨1, "", "Error: " ++ f.message ++ "\n"⟩

/-! ## Warnings -/

/-- The lines on a diagnostic.  If part of an equation is wrong, the equation is
shown with carets. -/
def warning (s : Scene) (d : Diagnostic) : List String :=
  let marked := match d.subject, d.span with
    | .function id, some span => (s.function? id).toList.map fun f => span.underline f.expression
    | _, _ => []
  ("warning: " ++ d.display) :: marked

/-- The lines on all diagnostics. -/
def warnings (s : Scene) (ds : List Diagnostic) : List String := ds.flatMap (warning s)

/-! ## Commands -/

section Commands

variable {m : Type → Type} [Monad m] [Host m]

/-- The settings in the folder `base` of all settings.  A file that is missing
is made, if possible. -/
def loadConfig (base : Option String) : m Config := do
  match base with
  | none => return .default
  | some base =>
      let folder := base ++ "/" ++ programName
      if ← Host.makeFolder folder then
        let path := folder ++ "/config.toml"
        match ← Host.read path with
        | some text => return .ofText text
        | none =>
            let _ ← Host.write (m := m) path (.text Config.defaultText)
            return .default
      else return .default

/-- Reads a scene file. -/
def loadScene (path : String) : m (Except Failure Scene) := do
  match ← Host.read path with
  | none => return .error (.reading path)
  | some text =>
      match Scene.load? text with
      | none => return .error (.parsing path)
      | some s => return .ok s

/-- Reports what is left out of a drawing of a scene. -/
def reportAll (s : Scene) (ds : List Diagnostic) : m Unit := Host.report (joinLines (warnings s ds))

/-- Writes a file as the last step of a run. -/
def finish (path : String) (content : FileContent) (done : String) (failed : Failure) :
    m Outcome := do
  if ← Host.write path content then return .written done else return .failure failed

/-- Writes or prints the program of a scene. -/
def generate (config : Config) (scene : String) (output : Option String) (print : Bool) :
    m Outcome := do
  match ← loadScene scene with
  | .error f => return .failure f
  | .ok s =>
      let synthesis := s.recompute
      reportAll s synthesis.diagnostics
      if print then return .success synthesis.program
      else
        let path := output.getD config.outputFile
        finish path (.text synthesis.program) ("wrote " ++ path) (.writingProgram path)

/-- Says what an equation is. -/
def check (expression : String) : Outcome :=
  match Equation.classify expression with
  | .error e => ⟨1, "", e.render expression ++ "\n"⟩
  | .ok (.vertical x) => .success ("vertical line at x = " ++ plainText x ++ "\n")
  | .ok (.function f) => .success ("function of x, f(0) = " ++ plainText (f.eval 0) ++ "\n")

/-- Prints the samples of a scene. -/
def sample (scene : String) : m Outcome := do
  match ← loadScene scene with
  | .error f => return .failure f
  | .ok s =>
      let samples := s.sampleAll
      reportAll s samples.diagnostics
      return .success ((Json.array (samples.functions.map SampledFunction.toJson)).print ++ "\n")

/-- Draws a preview of a scene. -/
def preview (scene output : String) (width height : UInt32) : m Outcome := do
  match ← loadScene scene with
  | .error f => return .failure f
  | .ok s =>
      let samples := s.sampleAll
      reportAll s samples.diagnostics
      match Preview.render samples.functions s.viewport width.toNat height.toNat with
      | .error e => return .failure (.rendering e)
      | .ok picture =>
          let size := toString width.toNat ++ "x" ++ toString height.toNat
          finish output (.picture picture) ("wrote " ++ size ++ " preview to " ++ output)
            (.writingPreview output)

/-- Writes a new scene. -/
def init (config : Config) (scene : String) (force : Bool) : m Outcome := do
  if !force && (← Host.isThere scene) then return .failure (.sceneExists scene)
  else
    finish scene (.text (Scene.starter config.viewport).save) ("wrote starter scene to " ++ scene)
      (.writingScene scene)

/-- Does what is asked for. -/
def Request.run (config : Config) : Request → m Outcome
  | .generate scene output print => Command.generate config scene output print
  | .check expression => pure (Command.check expression)
  | .sample scene => Command.sample scene
  | .preview scene output width height =>
      Command.preview scene output (width.getD config.previewWidth)
        (height.getD config.previewHeight)
  | .init scene force => Command.init config scene force

/-- The end of a run that does not get as far as a request. -/
def Stop.outcome : Stop → Outcome
  | usage => ⟨2, "", usageText⟩
  | help command => .success (helpText command)
  | helpOnHelp => .success helpOnHelpText
  | version => .success versionText

/-- Runs a command line.  The settings are read only if the line is valid. -/
def run (base : Option String) (args : List String) : m Outcome := do
  match readArguments args with
  | .error stop => return stop.outcome
  | .ok request => request.run (← loadConfig base)

end Commands

end GlutSketch.Command
