import Apex.Core.Json
import Apex.Domain.Pipeline

/-!
# The Run Configuration

What a run of the pipeline was asked to do: which phases, in whose hands, with
which reviews, on which connections. The nodes of the graph read nothing else
about a run besides its checkpoint.

A configuration is parsed and compared with the checkpointed one before a node
sees it; the structure here is the result. The fields no modelled node reads
(the prompts, the models, the pinned context) are left out.

## Main definitions

* `PipelineConfigurable.plannedPhases`: The phases a run goes through.
* `PipelineConfigurable.validatePhaseExecution`: The checks on that choice.
-/

namespace Apex.Graphs

open Domain

inductive GateMode where
  | gated
  | auto
  deriving DecidableEq, Repr

structure GatePolicy where
  promptReview : GateMode := .gated
  outputReview : GateMode := .gated
  deriving DecidableEq, Repr

/-- The limits of a run. The number of poll cycles is that of the quotient of
    the poll timeout and the poll interval, rounded up. -/
structure Limits where
  maxReviseLoops : Nat := 3
  maxDialogueTurns : Nat := 20
  pollCycles : Nat := 2880
  deriving DecidableEq, Repr

def Limits.reviewsOk (l : Limits) : Bool := l.maxReviseLoops ≤ 10 && l.maxDialogueTurns ≤ 100

inductive PhaseOwner where
  | langgraph
  | hitl
  deriving DecidableEq, Repr

inductive AnalysisTool where
  | lraEngine
  | internalRca
  | perfreportforge
  | other
  deriving DecidableEq, Repr

structure AnalysisSelection where
  tool : AnalysisTool
  connectionId : String

/-- A run configuration. `trafficEntry` is the project and the application of
    the traffic entry of a test scope. -/
structure PipelineConfigurable where
  projectId : Option String := none
  appId : Option String := none
  trafficEntry : Option (String × String) := none
  environmentId : Option String := none
  environmentTarget : Option String := none
  environmentTargetVersion : Option Int := none
  cycleDispatchId : Option String := none
  engine : String := "sim"
  connections : Dict String := ∅
  phases : Option (List Phase) := none
  rerunPhases : Option (List Phase) := none
  phaseExecution : Option (Phase → PhaseOwner) := none
  analysis : Option (List AnalysisSelection) := none
  startPhase : Option Phase := none
  stopAfter : Option Phase := none
  gates : Phase → GatePolicy := fun _ => {}
  loadTest : Dict Json := ∅
  limits : Limits := {}

namespace PipelineConfigurable

variable (cfg : PipelineConfigurable)

def trafficProjectId : Option String := (cfg.trafficEntry.map Prod.fst).or cfg.projectId

def trafficAppId : Option String := (cfg.trafficEntry.map Prod.snd).or cfg.appId

def executor (phase : Phase) : PhaseOwner :=
  match cfg.phaseExecution with
  | none => .langgraph
  | some owners => owners phase

/-- `selected_phases`: the explicit list wins over the range. -/
def selectedPhases : List Phase :=
  match cfg.phases with
  | some requested => phaseOrder.filter (fun p => requested.contains p)
  | none =>
    let start := (cfg.startPhase.map phaseOrder.idxOf).getD 0
    let stop := (cfg.stopAfter.map phaseOrder.idxOf).getD (phaseOrder.length - 1)
    if stop < start then [] else (phaseOrder.take (stop + 1)).drop start

def plannedPhases : List Phase :=
  match cfg.rerunPhases with
  | some rerun => rerun
  | none => if cfg.phaseExecution.isSome then phaseOrder else cfg.selectedPhases

/-- Whether an engine's results can be given to a tool. -/
def toolAllowed (engine : String) (tool : AnalysisTool) : Bool :=
  if engine = "loadrunner" then tool ≠ .internalRca
  else if engine = "apex_load" then tool ≠ .lraEngine
  else false

/-- `validate_phase_execution`: the checks on the choice of phases. -/
def validatePhaseExecution : Bool :=
  cfg.rerunPhases.all (fun rerun =>
      cfg.phaseExecution.isSome && 1 ≤ rerun.length
        && rerun == phaseOrder.filter (fun p => rerun.contains p))
    && (cfg.phaseExecution.isNone
      || (cfg.startPhase.isNone && cfg.stopAfter.isNone && cfg.phases.all (· == phaseOrder)))
    && (cfg.analysis.getD []).all (fun s => toolAllowed cfg.engine s.tool)
    && !(cfg.phaseExecution.isSome && (cfg.engine == "apex_load" || cfg.engine == "loadrunner")
      && (cfg.analysis.getD []).isEmpty)

end PipelineConfigurable

end Apex.Graphs
