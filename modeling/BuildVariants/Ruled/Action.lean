import BuildVariants.BottomUp.Pass
import BuildVariants.Ruled.Module

/-!
# Actions of ruled modules

A bottom-up mutator given by a list of actions. Every instance that is visited goes through
the actions that concern it; one that gives up ends its visit there.
-/

set_option autoImplicit false

namespace BuildVariants.Ruled

inductive Deed
  | depend (far : Bool)
  | reverse
  | reverseChosen
  | report
  | giveUp
deriving DecidableEq, Repr

structure Action where
  deed : Deed
  onModule : Option String
  onVariant : Option String
  choices : List Variation
  tag : String
  names : List String
  message : String
deriving DecidableEq, Repr

namespace Action

def concerns (a : Action) (x : Instance RuledModule String) : Bool :=
  a.onModule.all (· = x.content.name) && a.onVariant.all (· = x.variant.name)

def situation (g : Graph RuledModule String) (x : Instance RuledModule String) : Variables :=
  let deps := match g.byVariant? x.content.name x.variant with
    | some id => g.depLabels id
    | none => []
  x.content.situation x.variant ++ [("full", x.variant.render), ("deps", ",".intercalate deps)]

def additions (a : Action) (vars : Variables) : List (Addition String) :=
  match a.deed with
  | .depend far => a.names.map fun name => .forward a.choices a.tag name far
  | .reverse => a.names.map fun name => .reverse [] a.tag name
  | .reverseChosen => a.names.map fun name => .reverse a.choices a.tag name
  | .report => [.failure (expand vars a.message)]
  | .giveUp => []

def perform (vars : Variables) (x : Instance RuledModule String) :
    List Action → List (Addition String) × Option MutatorError
  | [] => ([], none)
  | a :: rest =>
    if a.concerns x then
      if a.deed = .giveUp then ([], some ⟨expand vars a.message⟩)
      else
        let (more, error) := perform vars x rest
        (a.additions vars ++ more, error)
    else perform vars x rest

def mutator (actions : List Action) : BottomUpMutator RuledModule String where
  visit g x := perform (situation g x) x actions

end Action

end BuildVariants.Ruled
