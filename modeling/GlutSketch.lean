import GlutSketch.Main
import GlutSketch.Proofs.Command.Init
import GlutSketch.Proofs.Drawing.ColorText
import GlutSketch.Proofs.Drawing.Sector
import GlutSketch.Proofs.Equation.Carets
import GlutSketch.Proofs.Equation.Faults
import GlutSketch.Proofs.Equation.Progress
import GlutSketch.Proofs.Equation.Refusal
import GlutSketch.Proofs.Equation.Spacing
import GlutSketch.Proofs.Equation.Value
import GlutSketch.Proofs.Plot.Runs
import GlutSketch.Proofs.Preview.Picture
import GlutSketch.Proofs.Program.Captions
import GlutSketch.Proofs.Program.Thousandths
import GlutSketch.Proofs.Scene.Appearance
import GlutSketch.Proofs.Scene.Marking
import GlutSketch.Proofs.Scene.Pens
import GlutSketch.Proofs.Scene.Respelling
