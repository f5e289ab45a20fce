import BuildVariants.Graph
import BuildVariants.Text.Sorted

/-!
# Visit orders

The top-down order puts every dependent before its dependencies; the bottom-up order is its
reverse. Both come from a depth-first walk whose finish order is then checked against the
edges. A graph with a cycle has no such order: the failure names the instances of the
component in which the walk got stuck.
-/

set_option autoImplicit false

namespace BuildVariants

/-- The state of a depth-first walk. An instance is seen when it first comes to the top of
the stack, and finished when it comes there again. The finished ones are listed last
first. -/
structure Walk where
  stack : List Nat
  seen : List Nat
  finished : List Nat
deriving Repr

namespace Walk

def run (next : Nat → List Nat) : Nat → Walk → Except Nat (List Nat)
  | 0, w => .ok w.finished
  | steps + 1, w =>
    match w.stack with
    | [] => .ok w.finished
    | i :: rest =>
      if i ∈ w.seen then
        run next steps
          { w with
            stack := rest
            finished := if i ∈ w.finished then w.finished else i :: w.finished }
      else if i ∈ next i then .error i
      else
        run next steps
          { w with
            stack := (next i).filter (fun j => j ∉ i :: w.seen) ++ i :: rest
            seen := i :: w.seen }

end Walk

namespace Graph

variable {M T : Type}

def reach (next : Nat → List Nat) : Nat → List Nat → List Nat → List Nat
  | 0, _, found => found
  | _, [], found => found
  | steps + 1, i :: pending, found =>
    if i ∈ found then reach next steps pending found
    else reach next steps (next i ++ pending) (i :: found)

def dependents (g : Graph M T) (id : Nat) : List Nat :=
  (List.range g.size).filter fun i => id ∈ g.targets i

def component (g : Graph M T) (id : Nat) : List Nat :=
  let steps := g.size + g.edgeCount + 1
  let below := reach g.targets steps [id] []
  let above := reach g.dependents steps [id] []
  below.filter fun i => i ∈ above

def cycleFailure (g : Graph M T) (id : Nat) : Failure :=
  .cycle (Text.sortedSet ((g.component id).map g.label))

/-- The walk over the whole arena. Each instance is seen once and each edge pushes its
target at most once, which bounds the steps. -/
def finishOrder (g : Graph M T) : Except Nat (List Nat) :=
  Walk.run g.targets (2 * g.size + g.edgeCount + 1) ⟨List.range g.size, [], []⟩

def misplaced (g : Graph M T) : List Nat → List Nat → Option Nat
  | _, [] => none
  | before, i :: rest =>
    match (g.dependents i).find? fun j => j ∉ before with
    | some j => some j
    | none => misplaced g (i :: before) rest

def topDown (g : Graph M T) : Except Failure (List Nat) :=
  match g.finishOrder with
  | .error id => .error (g.cycleFailure id)
  | .ok order =>
    match g.misplaced [] order with
    | some id => .error (g.cycleFailure id)
    | none => .ok order

def bottomUp (g : Graph M T) : Except Failure (List Nat) := g.topDown.map List.reverse

end Graph

end BuildVariants
