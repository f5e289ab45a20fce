import BuildVariants.Transition.Rewiring

/-!
# Transition passes

A transition runs over a whole graph in three steps: it plans the variations, rewires the
graph to them and lets every new instance change itself. Each step reports everything it
finds, and a later step runs only when the earlier ones found nothing.
-/

set_option autoImplicit false

namespace BuildVariants

variable {M T : Type} [BuildModule M T]

namespace Transition

def mutateInstance (t : Transition M T) (x : Instance M T) : Except Failure (Instance M T) :=
  match t.mutator.mutate x.content (x.variant.get t.name) with
  | .ok content => .ok { x with content }
  | .error e => .error (e.error.toFailure e.content x.variant)

def mutateAll (t : Transition M T) (g : Graph M T) : Except Failures (Graph M T) :=
  let results := g.instances.map t.mutateInstance
  (Failures.ofList (results.flatMap failureOf)).guard
    { g with instances := results.filterMap Except.toOption }

def run (t : Transition M T) (g : Graph M T) : Except Failures (Graph M T) := do
  let plans ← t.plan g
  let rewired ← t.rewire g plans
  t.mutateAll rewired

end Transition

end BuildVariants
