import BuildVariants.Transition

/-!
# Dependencies added after transitions

Once variants are settled, a module may still ask for edges: forward ones, which inherit
its variant or, when they are far, only what the never-far mutators pass on; and reverse
ones, which make another module depend on it. An edge is only added to an instance that
exists.
-/

set_option autoImplicit false

namespace BuildVariants

inductive Addition (T : Type)
  | forward (choices : List Variation) (tag : T) (name : String) (far : Bool)
  | reverse (choices : List Variation) (tag : T) (name : String)
  | failure (message : String)
deriving Repr

structure Site (M T : Type) where
  graph : Graph M T
  completed : List (Transition M T)
  allowMissing : Bool
  id : Nat
  self : Instance M T

namespace Site

variable {M T : Type} [BuildModule M T]

/-- The values that the completed mutators gave the visited instance. A mutator that a far
edge does not reach counts with the default. -/
def completedVariant (s : Site M T) (far : Bool) : Variant :=
  .ofList (s.completed.map fun t =>
    ⟨t.name, if t.appliesTo far then s.self.variant.get t.name else ""⟩)

def startVariant (s : Site M T) (choices : List Variation) (far : Bool) : Variant :=
  (s.completedVariant far).setAll choices

def missingVariant (s : Site M T) (direction : Direction) (grp : Group) (wanted : Variant) :
    Failure :=
  .missingVariant direction grp.name s.self.group (BuildModule.location s.self.content) wanted
    (grp.members.map s.graph.variant)

def request (s : Site M T) (t : Transition M T) (choices : List Variation) (tag : T)
    (name : String) (wanted : Variant) : Except Failure String :=
  if choices.any fun c => c.mutator = t.name then .ok (wanted.get t.name)
  else
    (t.mutator.outgoing ⟨s.self.content, s.self.variant, name, tag⟩ (wanted.get t.name)).mapError
      (·.toFailure s.self.content s.self.variant)

/-- What the dependency gives for a request: the first instance that agrees with the wanted
variant on the earlier mutators decides; without one the request stands. -/
def grant (s : Site M T) (t : Transition M T) (grp : Group) (earlier : List String)
    (wanted : Variant) (asked : String) : Except Failure String :=
  match (s.graph.findMember grp fun v => v.matchesOn wanted earlier).bind s.graph.instance? with
  | some y =>
    (t.mutator.incoming ⟨y.content, y.variant, .addingDependency⟩ asked).mapError
      (·.toFailure y.content y.variant)
  | none => .ok asked

def negotiate (s : Site M T) (grp : Group) (choices : List Variation) (tag : T) (far : Bool) :
    List (Transition M T) → List String → Variant → Except Failure Variant
  | [], _, wanted => .ok wanted
  | t :: rest, earlier, wanted =>
    if t.appliesTo far then do
      let asked ← s.request t choices tag grp.name wanted
      let given ← s.grant t grp earlier wanted asked
      negotiate s grp choices tag far rest (earlier ++ [t.name]) (wanted.set t.name given)
    else negotiate s grp choices tag far rest (earlier ++ [t.name]) wanted

/-- The instance with the wanted variant. A far edge is content with the first instance
that assigns all that is wanted. -/
def search (s : Site M T) (grp : Group) (wanted : Variant) (far : Bool) : Option Nat :=
  (s.graph.findMember grp (· == wanted)).or
    (if far then s.graph.findMember grp wanted.isSubsetOf else none)

def forwardEdge (s : Site M T) (choices : List Variation) (tag : T) (name : String)
    (far : Bool) : Except Failure (Option (Nat × Edge T)) :=
  match s.graph.group? name with
  | none =>
    if s.allowMissing then .ok none
    else .error (.missingDependency s.self.group (BuildModule.location s.self.content) name)
  | some grp => do
    let wanted ← s.negotiate grp choices tag far s.completed [] (s.startVariant choices far)
    match s.search grp wanted far with
    | some target => .ok (some (s.id, ⟨target, tag, far⟩))
    | none => .error (s.missingVariant .forward grp wanted)

def reverseEdge (s : Site M T) (choices : List Variation) (tag : T) (name : String) :
    Except Failure (Option (Nat × Edge T)) :=
  match s.graph.group? name with
  | none =>
    if s.allowMissing then .ok none
    else
      .error (.missingReverseDependency s.self.group (BuildModule.location s.self.content) name)
  | some grp =>
    let wanted := s.startVariant choices false
    match s.graph.findMember grp (· == wanted) with
    | some source => .ok (some (source, ⟨s.id, tag, false⟩))
    | none => .error (s.missingVariant .reverse grp wanted)

def resolve (s : Site M T) : Addition T → Except Failure (Option (Nat × Edge T))
  | .forward choices tag name far => s.forwardEdge choices tag name far
  | .reverse choices tag name => s.reverseEdge choices tag name
  | .failure message =>
    .error (.mutatorError s.self.group (BuildModule.location s.self.content) s.self.variant.name message)

end Site

end BuildVariants
