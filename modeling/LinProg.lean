import LinProg.Expr.Formula
import LinProg.Number
import LinProg.Solve.Solver
import LinProg.Text.Report
import LinProg.Proofs.Expr.Formula
import LinProg.Proofs.Expr.Value
import LinProg.Proofs.Expr.Coverage
import LinProg.Proofs.Program.Store
import LinProg.Proofs.Program.Feasible
import LinProg.Proofs.Program.FreshName
import LinProg.Proofs.Program.Augment
import LinProg.Proofs.Program.Canonical
import LinProg.Proofs.Program.Completion
import LinProg.Proofs.Tableau.Residual
import LinProg.Proofs.Tableau.UnitBasis
import LinProg.Proofs.Program.Equations
import LinProg.Proofs.Solve.Outcome
import LinProg.Proofs.Solve.Rise
import LinProg.Proofs.Solve.HandOver
import LinProg.Proofs.Solve.Limit
import LinProg.Proofs.Program.Rewritten
import LinProg.Proofs.Program.Runs
import LinProg.Proofs.Solve.Rewritten
import LinProg.Proofs.Program.Tolerance
import LinProg.Proofs.Solve.Growth
import LinProg.Proofs.Tableau.Ratio
import LinProg.Proofs.Solve.Dropped
import LinProg.Proofs.Solve.Tolerance
import LinProg.Proofs.Program.Ledger
import LinProg.Proofs.Program.Numbers
import LinProg.Proofs.Tableau.Relabel
import LinProg.Proofs.Solve.Numbers
import LinProg.Proofs.Tableau.Admission
import LinProg.Proofs.Tableau.Grid
import LinProg.Proofs.Tableau.Lookup
import LinProg.Proofs.Program.Lookup
import LinProg.Proofs.Solve.Lookup
import LinProg.Proofs.Solve.Faults
import LinProg.Proofs.Tableau.InPlace
import LinProg.Proofs.Program.Bookkeeping
import LinProg.Proofs.Solve.Initial
import LinProg.Proofs.Solve.Stall
import LinProg.Proofs.Program.Evaluation
import LinProg.Proofs.Program.Sides
import LinProg.Proofs.Tableau.Undo
import LinProg.Proofs.Tableau.Carried
import LinProg.Proofs.Program.FreshSearch
import LinProg.Proofs.Tableau.NearUnit
import LinProg.Proofs.Tableau.Removal
import LinProg.Proofs.Tableau.Selection
import LinProg.Proofs.Solve.Endings
