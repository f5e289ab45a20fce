import BuildVariants.Transition.Plan

/-!
# Rewiring

A plan is carried out by replacing every instance by one instance per planned variation.
The new instances are numbered group by group, within a group by the old instances and then
by their variations, and every edge is led to the planned variation of its old target.
-/

set_option autoImplicit false

namespace BuildVariants

variable {M T : Type}

namespace Transition

def planOf? (plans : List InstancePlan) (id : Nat) : Option InstancePlan :=
  plans.find? fun p => p.id = id

def valuesOf (plans : List InstancePlan) (id : Nat) : List String :=
  ((planOf? plans id).map InstancePlan.values).getD []

def groupKeys (plans : List InstancePlan) (grp : Group) : List (Nat × String) :=
  grp.members.flatMap fun id => (valuesOf plans id).map fun v => (id, v)

def keys (g : Graph M T) (plans : List InstancePlan) : List (Nat × String) :=
  g.groups.flatMap (groupKeys plans)

def rewireEdge (t : Transition M T) (g : Graph M T) (keys : List (Nat × String)) (e : Edge T)
    (value : String) : Except Failure (Edge T) :=
  match keys.idxOf? (e.target, value) with
  | some target => .ok { e with target }
  | none => .error (.missingTransitionVariant (g.groupName e.target) t.name value)

def rewireDeps (t : Transition M T) (g : Graph M T) (plans : List InstancePlan)
    (keys : List (Nat × String)) (key : Nat × String) : List (Except Failure (Edge T)) :=
  match planOf? plans key.1 with
  | some p => ((g.deps key.1).zip (p.row key.2)).map fun (e, w) => t.rewireEdge g keys e w
  | none => []

def rewireInstance (t : Transition M T) (g : Graph M T) (plans : List InstancePlan)
    (keys : List (Nat × String)) (key : Nat × String) : Option (Instance M T) :=
  (g.instance? key.1).map fun x =>
    { x with
      variant := x.variant.set t.name key.2
      deps := (t.rewireDeps g plans keys key).filterMap Except.toOption }

def regroup (plans : List InstancePlan) : Nat → List Group → List Group
  | _, [] => []
  | start, grp :: rest =>
    let count := (groupKeys plans grp).length
    ⟨grp.name, List.range' start count⟩ :: regroup plans (start + count) rest

theorem regroup_names (plans : List InstancePlan) (start : Nat) (groups : List Group) :
    (regroup plans start groups).map Group.name = groups.map Group.name := by
  induction groups generalizing start with
  | nil => rfl
  | cons grp rest ih => simp [regroup, ih]

def rebuilt (t : Transition M T) (g : Graph M T) (plans : List InstancePlan) : Graph M T where
  instances := (keys g plans).filterMap (t.rewireInstance g plans (keys g plans))
  groups := regroup plans 0 g.groups
  byName := g.byName
  named := g.named.trans (Group.positions_congr (regroup_names plans 0 g.groups)).symm

def rewire (t : Transition M T) (g : Graph M T) (plans : List InstancePlan) :
    Except Failures (Graph M T) :=
  let ks := keys g plans
  let failures := ks.flatMap fun key => (t.rewireDeps g plans ks key).flatMap failureOf
  (Failures.ofList failures).guard (t.rebuilt g plans)

end Transition

end BuildVariants
