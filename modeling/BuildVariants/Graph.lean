import BuildVariants.Failure
import BuildVariants.Module

/-!
# Graphs of module instances

A graph is an arena of module instances. Each instance has a variant, and all instances of
one declared module form a group. An edge points from a dependent to the arena index of the
instance it depends on.
-/

set_option autoImplicit false

namespace BuildVariants

/-- A dependency of an instance. A far edge does not pass its source's variant on. -/
structure Edge (T : Type) where
  target : Nat
  tag : T
  far : Bool
deriving Repr

structure Instance (M T : Type) where
  group : String
  content : M
  variant : Variant
  deps : List (Edge T)

structure Group where
  name : String
  members : List Nat
deriving Repr

def Group.positions (groups : List Group) : List (String × Nat) :=
  groups.mapIdx fun i grp => (grp.name, i)

structure Graph (M T : Type) where
  instances : List (Instance M T)
  groups : List Group
  byName : List (String × Nat)
  named : byName = Group.positions groups

namespace Group

theorem lookup_positions (groups : List Group) (name : String) :
    (positions groups).lookup name = groups.findIdx? fun grp => grp.name = name := by
  have shifted (start : Nat) : (groups.mapIdx fun i grp => (grp.name, i + start)).lookup name =
      (groups.findIdx? fun grp => grp.name = name).map (· + start) := by
    induction groups generalizing start with
    | nil => rfl
    | cons grp rest ih =>
      by_cases here : grp.name = name
      · simp [List.mapIdx_cons, List.findIdx?_cons, here]
      · have next := ih (start + 1)
        have other : (name == grp.name) = false := beq_eq_false_iff_ne.mpr (Ne.symm here)
        simp only [List.mapIdx_cons, List.findIdx?_cons, List.lookup_cons, here, other, decide_false,
          Bool.false_eq_true, if_false, Option.map_map]
        simpa [Nat.add_assoc, Nat.add_comm 1 start, Function.comp_def] using next
  simpa [positions] using shifted 0

theorem positions_congr {groups next : List Group} (h : next.map name = groups.map name) :
    positions next = positions groups := by
  apply List.ext_getElem?
  intro i
  have same := congrArg (fun names => (names[i]?).map fun n => (n, i)) h
  simpa [positions, Function.comp_def] using same

end Group

namespace Instance

variable {M T : Type}

def label (x : Instance M T) : String := x.group ++ "(" ++ x.variant.name ++ ")"

end Instance

namespace Graph

variable {M T : Type}

def size (g : Graph M T) : Nat := g.instances.length

def instance? (g : Graph M T) (id : Nat) : Option (Instance M T) := g.instances[id]?

def deps (g : Graph M T) (id : Nat) : List (Edge T) := ((g.instance? id).map Instance.deps).getD []

def targets (g : Graph M T) (id : Nat) : List Nat := (g.deps id).map Edge.target

def edgeCount (g : Graph M T) : Nat :=
  g.instances.foldl (fun count x => count + x.deps.length) 0

def variant (g : Graph M T) (id : Nat) : Variant :=
  ((g.instance? id).map Instance.variant).getD .empty

def groupName (g : Graph M T) (id : Nat) : String :=
  ((g.instance? id).map Instance.group).getD ""

def label (g : Graph M T) (id : Nat) : String := ((g.instance? id).map Instance.label).getD ""

def depLabels (g : Graph M T) (id : Nat) : List String := (g.targets id).map g.label

def groupIndex? (g : Graph M T) (name : String) : Option Nat := g.byName.lookup name

def group? (g : Graph M T) (name : String) : Option Group :=
  (g.groupIndex? name).bind fun i => g.groups[i]?

theorem ext_groups {g g' : Graph M T} (instances : g.instances = g'.instances)
    (groups : g.groups = g'.groups) : g = g' := by
  cases g with | mk _ _ _ named =>
  cases g' with | mk _ _ _ named' =>
  subst instances groups named named'
  rfl

theorem groupIndex?_eq (g : Graph M T) (name : String) :
    g.groupIndex? name = g.groups.findIdx? fun grp => grp.name = name := by
  rw [groupIndex?, g.named, Group.lookup_positions]

theorem group?_eq (g : Graph M T) (name : String) :
    g.group? name = g.groups.find? fun grp => grp.name = name := by
  rw [group?, groupIndex?_eq, List.find?_eq_bind_findIdx?_getElem?]

def findMember (g : Graph M T) (grp : Group) (test : Variant → Bool) : Option Nat :=
  grp.members.find? fun id => test (g.variant id)

def byVariant? (g : Graph M T) (name : String) (v : Variant) : Option Nat :=
  (g.group? name).bind fun grp => g.findMember grp (· == v)

def byVariantName? (g : Graph M T) (name variantName : String) : Option Nat :=
  (g.group? name).bind fun grp => g.findMember grp fun v => v.name = variantName

def variations (g : Graph M T) (name mutator : String) : List String :=
  match g.group? name with
  | some grp => grp.members.map fun id => (g.variant id).get mutator
  | none => []

def addEdges (g : Graph M T) (added : List (Nat × Edge T)) : Graph M T :=
  { g with
    instances := g.instances.mapIdx fun id x =>
      { x with deps := x.deps ++ (added.filter fun p => p.1 = id).map Prod.snd } }

@[simp] theorem size_addEdges (g : Graph M T) (added : List (Nat × Edge T)) :
    (g.addEdges added).size = g.size := by
  simp [addEdges, size]

theorem deps_addEdges (g : Graph M T) (added : List (Nat × Edge T)) (id : Nat)
    (h : id < g.size) :
    (g.addEdges added).deps id =
      g.deps id ++ (added.filter fun p => p.1 = id).map Prod.snd := by
  simp only [size] at h
  simp [addEdges, deps, instance?, List.getElem?_eq_getElem h]

end Graph

end BuildVariants
