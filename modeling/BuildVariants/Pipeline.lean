import BuildVariants.Graph.Loading
import BuildVariants.Transition.Pass
import BuildVariants.BottomUp.Pass

/-!
# Pipelines

A pipeline is a list of passes that run strictly in order over the graph of the declared
modules. A bottom-up pass sees the transitions before it as settled. The first pass that
reports failures ends the run.
-/

set_option autoImplicit false

namespace BuildVariants

inductive Pass (M T : Type)
  | transition (t : Transition M T)
  | bottomUp (name : String) (mutator : BottomUpMutator M T)

structure Pipeline (M T : Type) where
  settings : Settings
  passes : List (Pass M T)

namespace Pipeline

variable {M T : Type}

def dimensions (p : Pipeline M T) : List String :=
  p.passes.filterMap fun pass => match pass with
    | .transition t => some t.name
    | .bottomUp .. => none

def take (p : Pipeline M T) (count : Nat) : Pipeline M T :=
  { p with passes := p.passes.take count }

variable [BuildModule M T]

def runPasses (settings : Settings) :
    List (Pass M T) → List (Transition M T) → Graph M T → Except Failures (Graph M T)
  | [], _, g => .ok g
  | .transition t :: rest, completed, g => do
    let next ← t.run g
    runPasses settings rest (completed ++ [t]) next
  | .bottomUp _ b :: rest, completed, g => do
    let next ← b.run settings.allowMissing completed g
    runPasses settings rest completed next

/-- Loads the modules and runs every pass. A cycle among the declared modules fails before
any pass. -/
def resolve (p : Pipeline M T) (modules : List M) : Except Failures (Graph M T) := do
  let g ← Graph.load p.settings modules
  let _ ← g.topDown.mapError Failures.single
  runPasses p.settings p.passes [] g

end Pipeline

end BuildVariants
