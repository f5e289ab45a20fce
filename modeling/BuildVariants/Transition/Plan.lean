import BuildVariants.Transition
import BuildVariants.Graph.VisitOrder

/-!
# Plans of a transition

A plan says for every instance which variations it is to have, and for every variation
which variation each of its edges leads to. An instance has the variations of its own split
followed by those that its dependents ask for, so plans are made top-down.
-/

set_option autoImplicit false

namespace BuildVariants

variable {M T : Type} [BuildModule M T]

/-- What a transition decided for one instance. `resolved` has a row for each value and in
it a value for each edge. -/
structure InstancePlan where
  id : Nat
  values : List String
  resolved : List (List String)
  failures : List Failure

namespace InstancePlan

def row (p : InstancePlan) (value : String) : List String :=
  ((p.values.zip p.resolved).lookup value).getD []

def requests (g : Graph M T) (p : InstancePlan) : List (Nat × String) :=
  p.resolved.flatMap fun row => (g.targets p.id).zip row

end InstancePlan

namespace Transition

def firstRepeat : List String → List String → Option String
  | _, [] => none
  | earlier, v :: rest => if v ∈ earlier then some v else firstRepeat (v :: earlier) rest

def checkSplit (source mutator : String) (split : List String) : Except Failure (List String) :=
  if split = [] then .error (.emptySplit source mutator)
  else
    match firstRepeat [] split with
    | some value => .error (.duplicateSplit source mutator value)
    | none => .ok split

def splitOf (t : Transition M T) (x : Instance M T) : Except Failure (List String) := do
  let split ← (t.mutator.split ⟨x.content, x.variant⟩).mapError (·.toFailure x.content x.variant)
  checkSplit x.group t.name split

def propagate (t : Transition M T) (x y : Instance M T) (value : String) (tag : T) :
    Except Failure String := do
  let asked ← (t.mutator.outgoing ⟨x.content, x.variant, y.group, tag⟩ value).mapError
    (·.toFailure x.content (x.variant.set t.name value))
  (t.mutator.incoming ⟨y.content, y.variant, .structural⟩ asked).mapError
    (·.toFailure y.content y.variant)

def edgeValue (t : Transition M T) (g : Graph M T) (x : Instance M T) (value : String)
    (e : Edge T) : Except Failure String :=
  if t.appliesTo e.far then
    match g.instance? e.target with
    | some y => t.propagate x y value e.tag
    | none => .ok ""
  else .ok ""

def mergeRequests (split requested : List String) : List String :=
  split ++ requested.filter fun v => v ∉ split

def failureOf {α : Type} : Except Failure α → List Failure
  | .ok _ => []
  | .error f => [f]

def valueOf : Except Failure String → String
  | .ok v => v
  | .error _ => ""

/-- Plans one instance for the requests that reached it. A failed decision counts as the
default variation, so that the rest of the graph is still examined. -/
def planInstance (t : Transition M T) (g : Graph M T) (requested : List String) (id : Nat)
    (x : Instance M T) : InstancePlan :=
  let split := t.splitOf x
  let own := match split with
    | .ok values => values
    | .error _ => [""]
  let values := mergeRequests own requested
  let decisions := values.map fun v => x.deps.map (t.edgeValue g x v)
  { id
    values
    resolved := decisions.map fun row => row.map valueOf
    failures := failureOf split ++ decisions.flatten.flatMap failureOf }

def requestsOf (g : Graph M T) (plans : List InstancePlan) (id : Nat) : List String :=
  Text.sortedSet (((plans.flatMap (·.requests g)).filter fun r => r.1 = id).map Prod.snd)

def planAll (t : Transition M T) (g : Graph M T) :
    List Nat → List InstancePlan → List InstancePlan
  | [], plans => plans
  | id :: rest, plans =>
    match g.instance? id with
    | some x => planAll t g rest (plans ++ [t.planInstance g (requestsOf g plans id) id x])
    | none => planAll t g rest plans

def plan (t : Transition M T) (g : Graph M T) : Except Failures (List InstancePlan) := do
  let order ← g.topDown.mapError Failures.single
  let plans := t.planAll g order []
  (Failures.ofList (plans.flatMap InstancePlan.failures)).guard plans

end Transition

end BuildVariants
