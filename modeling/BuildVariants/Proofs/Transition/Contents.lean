import BuildVariants.Proofs.Transition.Instances

/-!
# Passes over graphs with other contents

A change of the contents that a transition does not notice makes no difference to a pass.
-/

set_option autoImplicit false

namespace BuildVariants

namespace Transition

variable {M T : Type} [BuildModule M T] {t : Transition M T} {f : M → M}

theorem Blind.overlooks (blind : t.Blind f) (keeps : KeepsLabel f) :
    t.Overlooks (Instance.mapContent f) fun _ => True where
  group _ _ := rfl
  label _ _ := rfl
  deps _ _ := rfl
  splitOf x _ := by simp only [splitOf, Instance.mapContent, blind.split, keeps.toFailure]
  propagate x y _ _ v tag := by
    simp only [propagate, Instance.mapContent, blind.outgoing, blind.incoming, keeps.toFailure]
  rewired _ _ _ _ := rfl
  mutateInstance x _ := by
    simp only [mutateInstance, Instance.mapContent, blind.mutate]
    cases t.mutator.mutate x.content (x.variant.get t.name) with
    | ok content => rfl
    | error e => simp only [Except.map, Except.mapError, keeps.toFailure]
  keeps _ _ _ _ _ := trivial

theorem run_mapContents (keeps : KeepsLabel f) (blind : t.Blind f) (g : Graph M T) :
    t.run (g.mapContents f) = (t.run g).map (Graph.mapContents f) :=
  (blind.overlooks keeps).run fun _ _ => trivial

end Transition

end BuildVariants
