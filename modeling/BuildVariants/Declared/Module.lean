import BuildVariants.Json
import BuildVariants.Module
import BuildVariants.Reference

/-!
# Declared modules

The kind of module that declaration scripts describe. All its decisions come from its own
properties. A property that is not given is told apart from one that is empty: an empty
`incoming` always leads to the default variation.
-/

set_option autoImplicit false

namespace BuildVariants

inductive DepKind
  | static
  | postTransition
  | far
  | reverse
deriving DecidableEq, Repr

def DepKind.render : DepKind → String
  | .static => "static"
  | .postTransition => "post_transition"
  | .far => "far"
  | .reverse => "reverse"

structure DeclaredModule where
  name : String := ""
  deps : List String := []
  split : List String := []
  outgoing : Option String := none
  incoming : Option String := none
  /-- Like `incoming`, for dependencies added after the transitions. -/
  postTransitionIncoming : Option String := none
  outgoingError : Option String := none
  incomingError : Option String := none
  postTransitionDeps : List VariationRef := []
  farDeps : List String := []
  reverseDeps : List String := []
  reverseVariationDeps : List ReverseRef := []
  mutated : String := ""
  location : Option String := none
deriving DecidableEq, Repr

namespace DeclaredModule

instance : BuildModule DeclaredModule DepKind where
  name := DeclaredModule.name
  deps := DeclaredModule.deps
  staticTag := .static
  location := DeclaredModule.location
  withLocation place m := { m with location := some place }

def optionalText : Option String → Json
  | some s => .text s
  | none => .null

def texts (items : List String) : Json := .list (items.map .text)

def toJson (m : DeclaredModule) : Json :=
  .record [
    ("name", .text m.name),
    ("deps", texts m.deps),
    ("split", texts m.split),
    ("outgoing", optionalText m.outgoing),
    ("incoming", optionalText m.incoming),
    ("post_transition_incoming", optionalText m.postTransitionIncoming),
    ("outgoing_transition_error", optionalText m.outgoingError),
    ("incoming_transition_error", optionalText m.incomingError),
    ("post_transition_deps", texts (m.postTransitionDeps.map VariationRef.render)),
    ("post_transition_far_deps", texts m.farDeps),
    ("post_transition_reverse_deps", texts m.reverseDeps),
    ("post_transition_reverse_variation_deps", texts (m.reverseVariationDeps.map ReverseRef.render)),
    ("mutated", .text m.mutated),
    ("location", optionalText m.location)]

end DeclaredModule

end BuildVariants
