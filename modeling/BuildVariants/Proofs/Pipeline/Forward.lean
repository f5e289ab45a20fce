import BuildVariants.Proofs.BottomUp.Forward
import BuildVariants.Proofs.Pipeline.Agreement

/-!
# Forward additions

After any passes of a run whose transitions have distinct names, a forward addition that is not far
leads to the one instance that is chosen for it, or fails: with what the first transition that refuses
reports, or because the module has no instance of the negotiated variant.
-/

set_option autoImplicit false

namespace BuildVariants

variable {M T : Type} [BuildModule M T]

namespace Pipeline

/-- A forward addition onto a declared module leaves one edge behind or one failure. It is the edge to
an instance exactly if no transition refuses and the instance is the chosen one, of which there is only
one, and which there is not if a value is chosen for a mutator that has not run. A failure is the first
refusal, if there is any. Otherwise it is that the variant that was negotiated is missing. -/
theorem forward_resolves {p : Pipeline M T} {modules : List M} {count : Nat} {g : Graph M T}
    {id : Nat} {s : Site M T} {name : String} {grp : Group} (distinct : (p.take count).dimensions.Nodup)
    (ran : (p.take count).resolve modules = .ok g)
    (site : BottomUpMutator.site? p.settings.allowMissing (transitions (p.passes.take count)) g id =
      some s) (defined : g.group? name = some grp) (choices : List Variation) (tag : T)
    {outcome : List Failure × List (Nat × Edge T)}
    (h : s.contribution (.forward choices tag name false) = outcome) :
    ((∃ target, outcome = ([], [(id, ⟨target, tag, false⟩)])) ∨ ∃ f, outcome = ([f], [])) ∧
    (∀ target, outcome = ([], [(id, ⟨target, tag, false⟩)]) ↔
      (∀ f, ¬ s.FirstRefusal grp choices tag s.completed f) ∧ s.Chosen grp choices tag target) ∧
    (∀ target target', s.Chosen grp choices tag target → s.Chosen grp choices tag target' →
      target = target') ∧
    (∀ m value, m ∉ (p.take count).dimensions → Variant.lastChosen? choices m = some value →
      value ≠ "" → ∃ f, outcome = ([f], [])) ∧
    (∀ f, s.FirstRefusal grp choices tag s.completed f → outcome = ([f], [])) ∧
    ((∀ f, ¬ s.FirstRefusal grp choices tag s.completed f) →
      (∀ target, ¬ s.Chosen grp choices tag target) →
      ∃ requested, s.SettlesAll grp choices tag s.completed requested ∧
        (∀ m, m ∉ (p.take count).dimensions →
          requested.get m = (Variant.lastChosen? choices m).getD "") ∧
        outcome = ([.missingVariant .forward name s.self.group
          (BuildModule.location s.self.content) requested (grp.members.map g.variant)], [])) := by
  have settled := resolve_settled distinct ran
  obtain ⟨self, _, visited⟩ := BottomUpMutator.site?_eq_some_iff.mp site
  obtain rfl : s.graph = g := by rw [visited]
  obtain rfl : s.id = id := by rw [visited]
  have dimensions : s.completed.map Transition.name = (p.take count).dimensions := by
    rw [dimensions_eq, visited]
    rfl
  rw [← dimensions] at settled distinct ⊢
  have chosen_iff : ∀ {target}, s.resolve (.forward choices tag name false) =
      .ok (some (s.id, ⟨target, tag, false⟩)) ↔ s.Chosen grp choices tag target :=
    Site.forwardEdge_eq_ok_iff settled distinct defined
  have refused : ∀ {f}, s.FirstRefusal grp choices tag s.completed f →
      s.resolve (.forward choices tag name false) = .error f :=
    Site.forwardEdge_refused distinct defined
  have outcomes := Site.forwardEdge_cases choices tag distinct defined
  simp only [← h, Site.contribution_eq_edge_iff, Site.contribution_eq_failure_iff, chosen_iff]
  refine ⟨?_, ?_, ?_, ?_, fun f => refused, ?_⟩
  · rcases outcomes with ⟨target, added⟩ | ⟨f, _, failed⟩ | ⟨requested, _, _, failed⟩
    · exact Or.inl ⟨target, chosen_iff.mp added⟩
    · exact Or.inr ⟨f, failed⟩
    · exact Or.inr ⟨_, failed⟩
  · intro target
    refine ⟨fun chosen => ⟨fun f refusal => ?_, chosen⟩, And.right⟩
    cases (refused refusal).symm.trans (chosen_iff.mpr chosen)
  · intro target target' chosen chosen'
    cases (chosen_iff.mpr chosen).symm.trans (chosen_iff.mpr chosen')
    rfl
  · intro m value beyond last given
    rcases outcomes with ⟨target, added⟩ | ⟨f, _, failed⟩ | ⟨requested, _, _, failed⟩
    · exact absurd ((chosen_iff.mp added).unchosen m value beyond last) given
    · exact ⟨f, failed⟩
    · exact ⟨_, failed⟩
  · intro none unchosen
    rcases outcomes with ⟨target, added⟩ | ⟨f, refusal, _⟩ | ⟨requested, settles, beyond, failed⟩
    · exact absurd (chosen_iff.mp added) (unchosen target)
    · exact absurd refusal (none f)
    · rw [Site.missingVariant, Graph.name_of_group? defined] at failed
      exact ⟨requested, settles, beyond, failed⟩

/-- Of two choices for the first dimension the last one counts, and the second dimension goes on as it
is. A choice beyond the dimensions leads nowhere. -/
theorem forward_resolves_agreeing :
    (osThenArch.take 2).dimensions.Nodup ∧ ∃ g s grp, (osThenArch.take 2).resolve agreeing = .ok g ∧
      BottomUpMutator.site? false (transitions (osThenArch.passes.take 2)) g 2 = some s ∧
      g.group? "base" = some grp ∧
      (g.variant 2).render = "os:y,arch:x" ∧ (g.variant 6).render = "os:x,arch:x" ∧
      s.contribution (.forward [⟨"os", "z"⟩, ⟨"os", "x"⟩] .postTransition "base" false) =
        ([], [(2, ⟨6, .postTransition, false⟩)]) ∧
      (∀ f, ¬ s.FirstRefusal grp [⟨"os", "z"⟩, ⟨"os", "x"⟩] .postTransition s.completed f) ∧
      s.Chosen grp [⟨"os", "z"⟩, ⟨"os", "x"⟩] .postTransition 6 ∧
      ∃ f, s.contribution (.forward [⟨"abi", "z"⟩] .postTransition "base" false) = ([f], []) := by
  have distinct : (osThenArch.take 2).dimensions.Nodup := by decide
  obtain ⟨g, s, grp, ran, site, defined, own, other, added⟩ :
      ∃ g s grp, (osThenArch.take 2).resolve agreeing = .ok g ∧
        BottomUpMutator.site? false (transitions (osThenArch.passes.take 2)) g 2 = some s ∧
        g.group? "base" = some grp ∧
        (g.variant 2).render = "os:y,arch:x" ∧ (g.variant 6).render = "os:x,arch:x" ∧
        s.contribution (.forward [⟨"os", "z"⟩, ⟨"os", "x"⟩] .postTransition "base" false) =
          ([], [(2, ⟨6, .postTransition, false⟩)]) :=
    ⟨_, _, _, rfl, rfl, rfl, by decide +kernel, by decide +kernel, rfl⟩
  obtain ⟨_, chosen_iff, _⟩ := forward_resolves distinct ran site defined _ _ added
  obtain ⟨none, chosen⟩ := (chosen_iff 6).mp rfl
  obtain ⟨_, _, _, beyond, _⟩ :=
    forward_resolves distinct ran site defined [⟨"abi", "z"⟩] .postTransition rfl
  have fails := beyond "abi" "z" (by decide) rfl (by decide)
  exact ⟨distinct, g, s, grp, ran, site, defined, own, other, added, none, chosen, fails⟩

end Pipeline

end BuildVariants
