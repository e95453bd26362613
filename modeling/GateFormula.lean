import GateFormula.Formula.Spelling
import GateFormula.Main
import GateFormula.Proofs.Evaluation
import GateFormula.Proofs.Diagnosing
import GateFormula.Proofs.SessionRun
import GateFormula.Proofs.CompilationOrder
import GateFormula.Proofs.CompilingRequirements
import GateFormula.Proofs.BuildingSessions
import GateFormula.Proofs.MeetingRequirements
import GateFormula.Proofs.Visiting
import GateFormula.Proofs.StoreHistory
import GateFormula.Proofs.Additions
import GateFormula.Proofs.Composing
import GateFormula.Proofs.Printing
import GateFormula.Proofs.LongestMatch
import GateFormula.Proofs.Reindexing
import GateFormula.Proofs.Signs
import GateFormula.Proofs.Tiling
import GateFormula.Proofs.Layout
import GateFormula.Proofs.Pointing
import GateFormula.Proofs.ForeignStores
import GateFormula.Proofs.Extending
import GateFormula.Proofs.Inlining
import GateFormula.Proofs.CheckingSessions
import GateFormula.Proofs.RegistryHistory
import GateFormula.Proofs.Settings
import GateFormula.Proofs.Progress
import GateFormula.Proofs.Holding
import GateFormula.Proofs.GroupingStack
import GateFormula.Proofs.Unbroken
