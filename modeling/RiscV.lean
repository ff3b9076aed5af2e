import RiscV.Command.Run
import RiscV.Main
import RiscV.Proofs.Assembly.Shown
import RiscV.Proofs.Assembly.Named
import RiscV.Proofs.Builtin.Agreement
import RiscV.Proofs.Builtin.Legibility
import RiscV.Proofs.Catalogue.Order
import RiscV.Proofs.InstructionSet.Provenance
import RiscV.Proofs.Layout.Drawing
import RiscV.Proofs.Catalogue.Acceptance
import RiscV.Proofs.Builtin.Overlap
import RiscV.Proofs.InstructionSet.Outcome
import RiscV.Proofs.Config.Build
import RiscV.Proofs.Image.Tiling
import RiscV.Proofs.Catalogue.Classification
import RiscV.Proofs.Image.Words
import RiscV.Proofs.Image.Splitting
import RiscV.Proofs.InstructionSet.Growth
import RiscV.Proofs.InstructionSet.Repetition
import RiscV.Proofs.InstructionSet.Stopping
import RiscV.Proofs.Text.Words
import RiscV.Proofs.Layout.Grammar
import RiscV.Proofs.Layout.Announced
import RiscV.Proofs.Layout.Respelling
import RiscV.Proofs.Layout.Written
import RiscV.Proofs.Json.Grammar
import RiscV.Proofs.Json.Lexing
import RiscV.Proofs.Config.Description
import RiscV.Proofs.Config.Reading
import RiscV.Proofs.Config.Text
import RiscV.Proofs.Command.Selection
import RiscV.Proofs.Operands.Scatter
import RiscV.Proofs.Listing.Columns
import RiscV.Proofs.Listing.Wrapping
import RiscV.Proofs.InstructionSet.Name
import RiscV.Proofs.Word.Arithmetic
import RiscV.Proofs.Command.Faults
import RiscV.Proofs.Command.Hex
