import GlutSketch.Command.Run
import GlutSketch.Preview.Png

/-!
# GlutSketch.Main

The command line program: it gives the files of the system to `Command.run`,
prints what the outcome says and exits with its code.
-/

namespace GlutSketch

/-- Whether an action ends without an error. -/
def succeeds {α : Type} (action : IO α) : IO Bool := do
  try
    let _ ← action
    return true
  catch _ => return false

/-- The files of the system. -/
instance : Host IO where
  read path := do
    try
      return String.fromUTF8? (← IO.FS.readBinFile path)
    catch _ => return none
  isThere path := succeeds (IO.FS.realPath path)
  write path content := succeeds <| match content with
    | .text value => IO.FS.writeFile path value
    | .picture value => IO.FS.writeBinFile path (Png.encode value)
  makeFolder path := succeeds (IO.FS.createDirAll path)
  report text := IO.eprint text

/-- The folder of all settings: the one the environment names, or one in the
home folder. -/
def settingsFolder : IO (Option String) := do
  match ← IO.getEnv "XDG_CONFIG_HOME" with
  | some folder => if folder.startsWith "/" then return some folder
  | none => pure ()
  match ← IO.getEnv "HOME" with
  | some home => return if home.isEmpty then none else some (home ++ "/.config")
  | none => return none

end GlutSketch

def main (args : List String) : IO UInt32 := do
  let outcome ← GlutSketch.Command.run (m := IO) (← GlutSketch.settingsFolder) args
  IO.print outcome.output
  IO.eprint outcome.errors
  return outcome.exitCode.toUInt32
