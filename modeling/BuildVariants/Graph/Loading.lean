import BuildVariants.Graph

/-!
# Loading declared modules

The first graph has one instance per declared module, with the default variant and the
edges that the modules themselves name. A name that is declared again and a dependency on a
name that nobody declares are failures; in relaxed mode the latter are dropped instead.
-/

set_option autoImplicit false

namespace BuildVariants

variable {M T : Type} [BuildModule M T]

structure Settings where
  allowMissing : Bool
deriving DecidableEq, Repr

namespace Graph

def partitionDeclared : List String → List M → List M × List String
  | _, [] => ([], [])
  | seen, m :: rest =>
    if BuildModule.name m ∈ seen then
      let (kept, again) := partitionDeclared seen rest
      (kept, BuildModule.name m :: again)
    else
      let (kept, again) := partitionDeclared (BuildModule.name m :: seen) rest
      (m :: kept, again)

def declaredAt? (kept : List M) (name : String) : Option Nat :=
  kept.findIdx? fun m => BuildModule.name m = name

def staticEdges (kept : List M) (m : M) : List (Edge T) :=
  (BuildModule.deps m).filterMap fun dep =>
    (declaredAt? kept dep).map fun target => ⟨target, BuildModule.staticTag M, false⟩

def undefinedDeps (kept : List M) (m : M) : List Failure :=
  ((BuildModule.deps m).filter fun dep => (declaredAt? kept dep).isNone).map fun dep =>
    .missingDependency (BuildModule.name m) (BuildModule.location m) dep

def initial (kept : List M) : Graph M T where
  instances := kept.map fun m => ⟨BuildModule.name m, m, .empty, staticEdges kept m⟩
  groups := kept.mapIdx fun i m => ⟨BuildModule.name m, [i]⟩
  byName := Group.positions (kept.mapIdx fun i m => ⟨BuildModule.name m, [i]⟩)
  named := rfl

def loadFailures (settings : Settings) (modules : List M) : Failures :=
  let (kept, again) := partitionDeclared [] modules
  .ofList (again.map Failure.duplicateModule ++
    if settings.allowMissing then [] else kept.flatMap (undefinedDeps kept))

def load (settings : Settings) (modules : List M) : Except Failures (Graph M T) :=
  (loadFailures settings modules).guard (initial (partitionDeclared [] modules).1)

end Graph

end BuildVariants
