import BuildVariants.Ruled.Rule
import BuildVariants.Transition

/-!
# Modules with rules

A kind of module whose decisions are given by rules, one set of rules for each mutator. It
records which variations it was told.
-/

set_option autoImplicit false

namespace BuildVariants.Ruled

structure Rules where
  splitFail : Option String := none
  split : Option (List String) := none
  outgoing : List Rule := []
  incoming : List Rule := []
  mutate : List Rule := []
deriving DecidableEq, Repr

structure RuledModule where
  name : String
  deps : List String
  location : Option String
  rules : List (String × Rules)
  mutated : List String := []
deriving DecidableEq, Repr

namespace RuledModule

instance : BuildModule RuledModule String where
  name := RuledModule.name
  deps := RuledModule.deps
  staticTag := ""
  location := RuledModule.location

def rulesFor (m : RuledModule) (mutator : String) : Rules := (m.rules.lookup mutator).getD {}

def situation (m : RuledModule) (v : Variant) : Variables :=
  [("name", m.name), ("variant", v.name), ("mutated", "/".intercalate m.mutated)]

def splitValues (m : RuledModule) (mutator : String) (v : Variant) :
    Except MutatorError (List String) :=
  let rules := m.rulesFor mutator
  let vars := m.situation v
  match rules.splitFail with
  | some text => .error ⟨expand vars text⟩
  | none =>
    match rules.split with
    | some texts => .ok (texts.map (expand vars))
    | none => .ok [""]

def decide (rules : List Rule) (vars : Variables) (request : String) :
    Except MutatorError String :=
  ((Rule.decide? rules vars).getD (.ok request)).mapError MutatorError.mk

def Phase.render : Phase → String
  | .structural => "structural"
  | .addingDependency => "adding"

def told (m : RuledModule) (mutator value : String) :
    Except (MutationError RuledModule) RuledModule :=
  let vars := [("name", m.name), ("req", value)]
  match ((m.rulesFor mutator).mutate.find? fun r => r.holds vars).bind Rule.fail with
  | some text => .error ⟨⟨expand vars text⟩, m⟩
  | none => .ok { m with mutated := m.mutated ++ [mutator ++ "=" ++ value] }

def ruledTransition (mutator : String) : TransitionMutator RuledModule String where
  split ctx := ctx.content.splitValues mutator ctx.variant
  outgoing ctx source :=
    decide (ctx.content.rulesFor mutator).outgoing
      (ctx.content.situation ctx.variant ++
        [("req", source), ("dep", ctx.depName), ("tag", ctx.tag)])
      source
  incoming ctx asked :=
    decide (ctx.content.rulesFor mutator).incoming
      (ctx.content.situation ctx.variant ++ [("req", asked), ("phase", Phase.render ctx.phase)])
      asked
  mutate m value := m.told mutator value

end RuledModule

end BuildVariants.Ruled
