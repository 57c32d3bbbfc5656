import ComponentGraph.Ranking
import ComponentGraph.Survey

/-!
The analysis of a project as a whole: the root is made canonical, the project below it is surveyed,
and what was found is ranked. A root that cannot be used is the only way for this to fail.
-/

set_option autoImplicit false
set_option relaxedAutoImplicit false

namespace ComponentGraph.Project

/-- Why a root cannot be used. -/
inductive RootProblem where
  | inaccessible (root : Path) (fault : FileTree.Fault)
  | notDirectory (root : Path)
  deriving Repr, DecidableEq

/-- The wording of a problem without its cause. -/
def RootProblem.headline : RootProblem → String
  | .inaccessible root _ => "Cannot access project root '" ++ root.text ++ "'"
  | .notDirectory root => "Project root '" ++ root.text ++ "' is not a directory"

/-- The wording of a problem with its cause. -/
def RootProblem.message (problem : RootProblem) : String :=
  match problem with
  | .inaccessible _ fault => Ledger.chain [problem.headline, fault.message]
  | .notDirectory _ => problem.headline

/-- The figures of an analysis, or the reason why there is none. -/
inductive Summary where
  | completed (total shown parsed skipped : Nat)
  | failed (reason : String)
  deriving Repr, DecidableEq

/-- The wording of a summary. -/
def Summary.message : Summary → String
  | .completed total shown _ _ =>
      "Analyzed " ++ toString shown ++ " important components and functions (" ++ toString shown ++
        " of " ++ toString total ++ " shown)"
  | .failed reason => "Analysis failed: " ++ reason

/-- The outcome of an analysis. -/
structure Outcome where
  nodes : List Node
  summary : Summary
  diagnostics : List Ledger.Diagnostic
  deriving Repr, DecidableEq

/-- Whether an analysis failed. -/
def Outcome.isFailure (outcome : Outcome) : Bool :=
  match outcome.summary with
  | .failed _ => true
  | .completed .. => false

/-- The canonical path of a root that can be used. -/
def rootOf (tree : FileTree) (root : Path) : Except RootProblem Path :=
  match tree.canonical root with
  | .error fault => .error (.inaccessible root fault)
  | .ok path => if tree.hasDirectory path then .ok path else .error (.notDirectory path)

/-- What a survey of a canonical root finds. -/
def ledgerOf (parse : Source.Parser) (tree : FileTree) (options : Options) (root : Path) : Ledger :=
  Survey.run parse tree options root {}

/-- The outcome that a ledger amounts to. -/
def outcomeOf (options : Options) (ledger : Ledger) : Outcome :=
  let ranking := Ranking.ofLedger ledger options.maxNodes
  { nodes := ranking.nodes
    summary :=
      .completed ranking.total ranking.shown ledger.parsed.length ledger.skipped.length
    diagnostics := ledger.diagnostics }

/-- Analyses the project at a root that has to be usable. -/
def tryAnalyze (parse : Source.Parser) (tree : FileTree) (options : Options) (root : Path) :
    Except RootProblem Outcome :=
  (rootOf tree root).map (fun path ↦ outcomeOf options (ledgerOf parse tree options path))

/-- Analyses the project at a root. -/
def analyze (parse : Source.Parser) (tree : FileTree) (options : Options) (root : Path) : Outcome :=
  match tryAnalyze parse tree options root with
  | .ok outcome => outcome
  | .error problem => ⟨[], .failed problem.message, []⟩

end ComponentGraph.Project
