import SheetScript.Main
import SheetScript.Proofs.Compile.Standing
import SheetScript.Proofs.Compile.Success
import SheetScript.Proofs.Css.Report
import SheetScript.Proofs.Css.WrittenComponents
import SheetScript.Proofs.Document.Expansion
import SheetScript.Proofs.Document.SyntaxReport
import SheetScript.Proofs.Prefix.Conversion
import SheetScript.Proofs.Prefix.LastVersions
import SheetScript.Proofs.Prefix.Reference
import SheetScript.Proofs.Script.Arithmetic
import SheetScript.Proofs.Script.Bindings
import SheetScript.Proofs.Script.Cutting
import SheetScript.Proofs.Script.FailingNodes
import SheetScript.Proofs.Script.Interpolation
import SheetScript.Proofs.Script.Joining
import SheetScript.Proofs.Script.Literals
import SheetScript.Proofs.Script.Pending
import SheetScript.Proofs.Script.ReadBack
import SheetScript.Proofs.Script.Refusal
import SheetScript.Proofs.Script.Relocation
import SheetScript.Proofs.Watch.Handoff
