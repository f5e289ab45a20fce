import BuildVariants.Graph

/-!
# Transitions

A transition mutator adds one dimension to the variants. It says into which variations a
module splits, which variation a dependent asks of a dependency, which one the dependency
gives for a request, and how an instance changes once its variation is known.
-/

set_option autoImplicit false

namespace BuildVariants

structure MutatorError where
  message : String
deriving DecidableEq, Repr

def MutatorError.toFailure {M T : Type} [BuildModule M T] (e : MutatorError) (m : M)
    (v : Variant) : Failure :=
  .mutatorError (BuildModule.name m) (BuildModule.location m) v.name e.message

/-- A module is changed in place, so a mutation that fails may have changed it before. -/
structure MutationError (M : Type) where
  error : MutatorError
  content : M

/-- Why a dependency is asked for a variation: while variants spread along the edges of the
graph, or when an edge is added to a graph whose variants are settled. -/
inductive Phase
  | structural
  | addingDependency
deriving DecidableEq, Repr

structure SplitContext (M : Type) where
  content : M
  variant : Variant

structure OutgoingContext (M T : Type) where
  content : M
  variant : Variant
  depName : String
  tag : T

structure IncomingContext (M : Type) where
  content : M
  variant : Variant
  phase : Phase

/-- The decisions of a transition mutator. What is left out splits into the default
variation alone, hands requests on unchanged and leaves modules as they are. -/
structure TransitionMutator (M T : Type) where
  split : SplitContext M → Except MutatorError (List String) := fun _ => .ok [""]
  outgoing : OutgoingContext M T → String → Except MutatorError String := fun _ v => .ok v
  incoming : IncomingContext M → String → Except MutatorError String := fun _ v => .ok v
  mutate : M → String → Except (MutationError M) M := fun m _ => .ok m

structure Transition (M T : Type) where
  name : String
  neverFar : Bool
  mutator : TransitionMutator M T

def Transition.appliesTo {M T : Type} (t : Transition M T) (far : Bool) : Bool :=
  !far || t.neverFar

end BuildVariants
