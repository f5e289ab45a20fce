import BuildVariants.Declared.Module
import BuildVariants.Pipeline

/-!
# The pipeline of declared modules

Declared modules are resolved by one transition, which reads its decisions from their
properties, and one bottom-up pass, which adds the dependencies that they want after it.
-/

set_option autoImplicit false

namespace BuildVariants.DeclaredModule

structure Options where
  mutator : String := "transition"
  neverFar : Bool := false
deriving DecidableEq, Repr

def configuredError (text : String) : MutatorError := ⟨"Error: " ++ text⟩

def splitValues (m : DeclaredModule) : List String := if m.split = [] then [""] else m.split

def outgoingValue (m : DeclaredModule) (source : String) : Except MutatorError String :=
  match m.outgoingError with
  | some text => .error (configuredError text)
  | none => .ok (m.outgoing.getD source)

/-- A dependency added after the transitions is given what the property for it says, if the
module has it. -/
def incomingValue (m : DeclaredModule) (phase : Phase) (asked : String) :
    Except MutatorError String :=
  match m.incomingError with
  | some text => .error (configuredError text)
  | none =>
    match phase, m.postTransitionIncoming with
    | .addingDependency, some v => .ok v
    | _, _ => .ok (m.incoming.getD asked)

def propertyTransition : TransitionMutator DeclaredModule DepKind where
  split ctx := .ok ctx.content.splitValues
  outgoing ctx source := ctx.content.outgoingValue source
  incoming ctx asked := ctx.content.incomingValue ctx.phase asked
  mutate m value := .ok { m with mutated := value }

def additions (mutator : String) (m : DeclaredModule) : List (Addition DepKind) :=
  (m.postTransitionDeps.map fun r =>
      .forward (r.variant.toList.map fun v => ⟨mutator, v⟩) .postTransition r.name false)
    ++ (m.farDeps.map fun name => .forward [] .far name true)
    ++ (m.reverseDeps.map fun name => .reverse [] .reverse name)
    ++ (m.reverseVariationDeps.map fun r => .reverse [⟨mutator, r.variant⟩] .reverse r.name)

def lateDependencies (mutator : String) : BottomUpMutator DeclaredModule DepKind where
  visit _ x := (x.content.additions mutator, none)

def pipeline (options : Options) (settings : Settings) : Pipeline DeclaredModule DepKind where
  settings := settings
  passes := [
    .transition ⟨options.mutator, options.neverFar, propertyTransition⟩,
    .bottomUp "post_transition_deps" (lateDependencies options.mutator)]

end BuildVariants.DeclaredModule
