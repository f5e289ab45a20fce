import BuildVariants.BottomUp.Addition
import BuildVariants.Graph.VisitOrder

/-!
# Bottom-up passes

A bottom-up pass visits every instance after its dependencies and gathers the edges that
the visits ask for. Every addition is resolved against the graph as it was before the pass;
the edges are attached together at the end, and only when nothing failed.
-/

set_option autoImplicit false

namespace BuildVariants

variable {M T : Type}

structure BottomUpMutator (M T : Type) where
  visit : Graph M T → Instance M T → List (Addition T) × Option MutatorError

namespace BottomUpMutator

variable [BuildModule M T]

/-- What the visit of one instance leaves behind: failures and new edges. The visit's own
error comes before the failures of its additions. -/
def visitAt (b : BottomUpMutator M T) (s : Site M T) : List Failure × List (Nat × Edge T) :=
  let (additions, error) := b.visit s.graph s.self
  let outcomes := additions.map s.resolve
  ( (error.map fun e => e.toFailure s.self.content s.self.variant).toList
      ++ outcomes.flatMap fun o => match o with
        | .ok _ => []
        | .error f => [f],
    outcomes.filterMap fun o => match o with
      | .ok edge => edge
      | .error _ => none )

def site? (allowMissing : Bool) (completed : List (Transition M T)) (g : Graph M T) (id : Nat) :
    Option (Site M T) :=
  (g.instance? id).map fun self => ⟨g, completed, allowMissing, id, self⟩

def run (b : BottomUpMutator M T) (allowMissing : Bool) (completed : List (Transition M T))
    (g : Graph M T) : Except Failures (Graph M T) := do
  let order ← g.bottomUp.mapError Failures.single
  let visits := (order.filterMap (site? allowMissing completed g)).map b.visitAt
  let edges ← (Failures.ofList (visits.flatMap Prod.fst)).guard (visits.flatMap Prod.snd)
  let extended := g.addEdges edges
  let _ ← extended.topDown.mapError Failures.single
  return extended

end BottomUpMutator

end BuildVariants
