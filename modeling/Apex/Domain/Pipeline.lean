import Mathlib.Data.List.Basic

/-!
# Phases

The seven phases of a pipeline in their canonical order, and the statuses an
entry can be in. The state keeps phases and statuses as the strings of
`Phase.value` and `PhaseStatus.value`.

## Main definitions

* `Phase`: The phases.
* `phaseOrder`: Their canonical order.
* `terminalPhaseStatuses`: The statuses a phase can end in.

## Theorems

* `Phase.value_injective`: Phases are told apart by their names.
-/

namespace Apex.Domain

inductive Phase where
  | storyAnalysis
  | testPlanning
  | envTriage
  | scriptScenario
  | execution
  | reporting
  | postmortem
  deriving DecidableEq, Repr

namespace Phase

def value : Phase → String
  | storyAnalysis => "story_analysis"
  | testPlanning => "test_planning"
  | envTriage => "env_triage"
  | scriptScenario => "script_scenario"
  | execution => "execution"
  | reporting => "reporting"
  | postmortem => "postmortem"

theorem value_injective : Function.Injective value := by
  intro p q h
  cases p <;> cases q <;> first | rfl | exact absurd h (by decide)

end Phase

def phaseOrder : List Phase :=
  [.storyAnalysis, .testPlanning, .envTriage, .scriptScenario, .execution, .reporting, .postmortem]

def phaseNames : List String := phaseOrder.map Phase.value

inductive PhaseStatus where
  | pending
  | running
  | awaitingPromptReview
  | awaitingHumanCompletion
  | awaitingOutputReview
  | succeeded
  | failed
  | skipped
  | aborted
  deriving DecidableEq, Repr

namespace PhaseStatus

def value : PhaseStatus → String
  | pending => "pending"
  | running => "running"
  | awaitingPromptReview => "awaiting_prompt_review"
  | awaitingHumanCompletion => "awaiting_human_completion"
  | awaitingOutputReview => "awaiting_output_review"
  | succeeded => "succeeded"
  | failed => "failed"
  | skipped => "skipped"
  | aborted => "aborted"

def all : List PhaseStatus :=
  [pending, running, awaitingPromptReview, awaitingHumanCompletion, awaitingOutputReview,
    succeeded, failed, skipped, aborted]

end PhaseStatus

def phaseStatusValues : List String := PhaseStatus.all.map PhaseStatus.value

def terminalPhaseStatuses : List PhaseStatus := [.succeeded, .failed, .skipped, .aborted]

/-- The names of the statuses a phase can end in. -/
def terminalPhaseStatusValues : List String := terminalPhaseStatuses.map PhaseStatus.value

def maxToolCallRecords : Nat := 80

end Apex.Domain
