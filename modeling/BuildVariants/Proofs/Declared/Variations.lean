import BuildVariants.Proofs.BottomUp.Given
import BuildVariants.Proofs.Transition.Unfolding

/-!
# Variations of declared modules

The transition of declared modules makes each of them into its variations. Which variation an edge
leads to can be read off the properties of its two modules, and the members of a module's group are
told apart by their one value.
-/

set_option autoImplicit false

namespace BuildVariants.DeclaredModule

structure Instantiates (mutator : String) (m : DeclaredModule) (v : String)
    (y : Instance DeclaredModule DepKind) : Prop where
  group : y.group = m.name
  entries : y.variant.entries = [⟨mutator, v⟩]
  content : y.content = { m with mutated := v }

def staticValue (m n : DeclaredModule) (v : String) : String :=
  n.incoming.getD (m.outgoing.getD v)

structure EdgeTo (g : Graph DeclaredModule DepKind) (mutator : String) (kind : DepKind)
    (n : DeclaredModule) (value : String) (e : Edge DepKind) : Prop where
  tag : e.tag = kind
  far : e.far = false
  target : ∃ y, g.instance? e.target = some y ∧ n.Instantiates mutator value y

/-- One edge for each static dependency of `m(v)` that is declared. -/
def StaticEdges (modules : List DeclaredModule) (g : Graph DeclaredModule DepKind)
    (mutator : String) (m : DeclaredModule) (v : String) (edges : List (Edge DepKind)) : Prop :=
  List.Forall₂ (fun dep e => ∃ n ∈ modules, n.name = dep ∧
      EdgeTo g mutator .static n (m.staticValue n v) e)
    (m.deps.filter fun dep => dep ∈ modules.map DeclaredModule.name) edges

def only (mutator value : String) : Variant := ⟨[⟨mutator, value⟩]⟩

section Variants

variable {mutator value : String}

theorem only_distinct : (only mutator value).Distinct := by
  simp [Variant.Distinct, only]

theorem get_only : (only mutator value).get mutator = value := by
  simp [Variant.get, only]

theorem set_only (given : String) :
    (only mutator value).set mutator given = only mutator given := by
  simp [Variant.set, Variant.assign, only]

theorem only_beq_iff {u : String} : (only mutator u == only mutator value) = true ↔ u = value := by
  constructor
  · intro same
    have gets := Variant.get_eq_of_beq same mutator
    rwa [get_only, get_only] at gets
  · rintro rfl
    exact only_distinct.beq_self

theorem only_default_isSubsetOf (w : Variant) : (only mutator "").isSubsetOf w = true := by
  simp [Variant.isSubsetOf, Variant.assigned, Variation.isAssigned, only]

end Variants

theorem Instantiates.variant {mutator : String} {m : DeclaredModule} {v : String}
    {y : Instance DeclaredModule DepKind} (h : m.Instantiates mutator v y) :
    y.variant = only mutator v := by
  rw [only, ← h.entries]

section Decisions

variable {m : DeclaredModule} {asked given : String}

theorem outgoingValue_ok (h : m.outgoingValue asked = .ok given) : given = m.outgoing.getD asked := by
  unfold outgoingValue at h
  split at h
  · cases h
  · exact (Except.ok.inj h).symm

theorem incomingValue_structural_ok (h : m.incomingValue .structural asked = .ok given) :
    given = m.incoming.getD asked := by
  unfold incomingValue at h
  split at h
  · cases h
  · exact (Except.ok.inj h).symm

theorem incomingValue_addingDependency_ok (h : m.incomingValue .addingDependency asked = .ok given) :
    given = m.postTransitionIncoming.getD (m.incoming.getD asked) := by
  unfold incomingValue at h
  split at h
  · cases h
  · cases late : m.postTransitionIncoming with
    | none =>
      rw [late] at h
      exact (Except.ok.inj h).symm
    | some v =>
      rw [late] at h
      exact (Except.ok.inj h).symm

end Decisions

def transition (options : Options) : Transition DeclaredModule DepKind :=
  ⟨options.mutator, options.neverFar, propertyTransition⟩

structure Unfolded (modules : List DeclaredModule) (mutator : String)
    (g : Graph DeclaredModule DepKind) : Prop
    extends g.Settled (modules.map DeclaredModule.name) [mutator] where
  instances : ∀ i y, g.instance? i = some y → ∃ m ∈ modules, ∃ v, m.Instantiates mutator v y

section Transition

variable {options : Options} {settings : Settings} {modules : List DeclaredModule}
  {rewired : Graph DeclaredModule DepKind}

def asDeclared (modules : List DeclaredModule) (m : DeclaredModule) :
    Instance DeclaredModule DepKind := ⟨m.name, m, .empty, Graph.staticEdges modules m⟩

theorem instance?_asDeclared {k : Nat} {m : DeclaredModule} (hm : modules[k]? = some m) :
    (Graph.initial modules : Graph DeclaredModule DepKind).instance? k =
      some (asDeclared modules m) := by
  rw [Graph.instance?_initial, hm]
  rfl

theorem eq_staticValue_of_leads {m n : DeclaredModule} {v w : String} {j : Nat}
    (hn : modules[j]? = some n) (leads : (transition options).Leads (.initial modules)
      (asDeclared modules m) v ⟨j, .static, false⟩ w) : w = m.staticValue n v := by
  cases leads with
  | negotiated _ there outgoing incoming =>
    obtain rfl := Option.some.inj ((instance?_asDeclared hn).symm.trans there)
    have asks : _ = m.outgoing.getD v := outgoingValue_ok outgoing
    rw [staticValue, ← asks]
    exact incomingValue_structural_ok incoming
  | default far => cases far

theorem run_instantiates {plans : List InstancePlan} {between : Graph DeclaredModule DepKind}
    (wf : (Graph.initial modules : Graph DeclaredModule DepKind).WellFormed)
    (accepted : (transition options).Accepted (.initial modules) plans)
    (carried : (transition options).rewire (.initial modules) plans = .ok between)
    (mutated : (transition options).mutateAll between = .ok rewired) {n k : Nat} {v : String}
    (there : (Transition.keys (.initial modules) plans)[n]? = some (k, v)) {m : DeclaredModule}
    (hm : modules[k]? = some m) : ∃ z, rewired.instance? n = some z ∧
      m.Instantiates options.mutator v z ∧ z.deps = (Graph.staticEdges modules m).map
        ((transition options).ledEdge (.initial modules) (Transition.keys (.initial modules) plans)
          (asDeclared modules m) v) := by
  obtain ⟨content, changed, new⟩ :=
    Transition.run_instance_led wf accepted carried mutated there (instance?_asDeclared hm)
  exact ⟨_, new, ⟨rfl, rfl, (Except.ok.inj changed).symm⟩, rfl⟩

/-- What became of a declared module: an instance with one edge for each of its dependencies that
are declared, to the variation that the two modules agree on. -/
theorem run_declared (nodup : (modules.map DeclaredModule.name).Nodup)
    (h : (transition options).run (.initial modules) = .ok rewired) {i : Nat}
    {y : Instance DeclaredModule DepKind} (hy : rewired.instance? i = some y) :
    ∃ m ∈ modules, ∃ v, m.Instantiates options.mutator v y ∧
      StaticEdges modules rewired options.mutator m v y.deps := by
  have wf : (Graph.initial modules : Graph DeclaredModule DepKind).WellFormed :=
    Graph.initial_wellFormed nodup
  obtain ⟨plans, between, planned, carried, mutated⟩ := Transition.run_eq_ok_iff.mp h
  have accepted := Transition.plan_accepted wf.targets_valid planned
  obtain ⟨k, v, x, there, hx, hv, _⟩ := Transition.run_key wf accepted carried mutated hy
  obtain ⟨m, hm, rfl⟩ : ∃ m, modules[k]? = some m ∧ asDeclared modules m = x := by
    rwa [Graph.instance?_initial, Option.map_eq_some_iff] at hx
  obtain ⟨y', hy', instantiates, deps⟩ := run_instantiates wf accepted carried mutated there hm
  obtain rfl := Option.some.inj (hy'.symm.trans hy)
  refine ⟨m, List.mem_of_getElem? hm, v, instantiates, ?_⟩
  rw [StaticEdges, deps, Graph.staticEdges, List.map_filterMap]
  refine Graph.forall₂_filterMap (fun dep hdep declared => ?_) fun dep _ undeclared => ?_
  · obtain ⟨j, found⟩ : ∃ j, Graph.declaredAt? modules dep = some j :=
      Option.ne_none_iff_exists'.mp fun none =>
        Graph.declaredAt?_eq_none_iff.mp none (of_decide_eq_true declared)
    obtain ⟨n, hn, named⟩ := Option.map_eq_some_iff.mp
      ((Graph.declaredAt?_eq_some_iff nodup).mp found)
    have he : (⟨j, .static, false⟩ : Edge DepKind) ∈ Graph.staticEdges modules m :=
      List.mem_filterMap.mpr ⟨dep, hdep, by rw [found]; rfl⟩
    refine ⟨_, by rw [found]; rfl, n, List.mem_of_getElem? hn, named, rfl, rfl, ?_⟩
    obtain ⟨w, place, leads⟩ := (Transition.ledEdge_repointed wf accepted hx hv he).target
    obtain ⟨z, hz, target, _⟩ := run_instantiates wf accepted carried mutated place hn
    exact ⟨z, hz, eq_staticValue_of_leads hn leads ▸ target⟩
  · have absent : Graph.declaredAt? modules dep = none :=
      Graph.declaredAt?_eq_none_iff.mpr (of_decide_eq_false undeclared)
    simp [absent]

theorem run_unfolded
    (isLoaded : Graph.load settings modules = .ok (.initial modules : Graph DeclaredModule DepKind))
    (h : (transition options).run (.initial modules) = .ok rewired) :
    Unfolded modules options.mutator rewired where
  toSettled :=
    Transition.run_settled (Graph.load_settled isLoaded) List.nodup_nil List.not_mem_nil h
  instances i y hy := by
    obtain ⟨m, hm, v, instantiates, _⟩ := run_declared (Graph.load_ok isLoaded).2 h hy
    exact ⟨m, hm, v, instantiates⟩

end Transition

section Lookup

variable {modules : List DeclaredModule} {mutator : String} {g : Graph DeclaredModule DepKind}
  {n : DeclaredModule} {grp : Group}

theorem Unfolded.group?_isSome (unfolded : Unfolded modules mutator g) {name : String} :
    (g.group? name).isSome = true ↔ name ∈ modules.map DeclaredModule.name := by
  rw [Graph.group?_isSome_iff, unfolded.group_names]

theorem Unfolded.eq_of_named (unfolded : Unfolded modules mutator g) {m : DeclaredModule}
    (hm : m ∈ modules) (hn : n ∈ modules) (same : m.name = n.name) : m = n :=
  List.inj_on_of_nodup_map (unfolded.group_names ▸ unfolded.names_nodup) hm hn same

theorem Unfolded.member (unfolded : Unfolded modules mutator g) (hn : n ∈ modules)
    (defined : g.group? n.name = some grp) {j : Nat} (member : j ∈ grp.members) :
    ∃ y u, g.instance? j = some y ∧ n.Instantiates mutator u y := by
  have hgrp := Graph.mem_of_group? defined
  obtain ⟨y, hy⟩ := g.exists_instance (unfolded.member_lt hgrp member)
  obtain ⟨m, hm, u, instantiates⟩ := unfolded.instances j y hy
  have named : m.name = n.name := by
    rw [← instantiates.group, unfolded.group_of_member defined member hy]
  obtain rfl := unfolded.eq_of_named hm hn named
  exact ⟨y, u, hy, instantiates⟩

theorem Unfolded.findMember_eq_some_iff (unfolded : Unfolded modules mutator g) (hn : n ∈ modules)
    (defined : g.group? n.name = some grp) {value : String} {j : Nat} :
    g.findMember grp (· == only mutator value) = some j ↔
      ∃ y, g.instance? j = some y ∧ n.Instantiates mutator value y := by
  constructor
  · intro found
    obtain ⟨y, u, hy, instantiates⟩ := unfolded.member hn defined (List.mem_of_find?_eq_some found)
    have passed := List.find?_some found
    rw [Graph.variant_of_instance hy, instantiates.variant, only_beq_iff] at passed
    exact ⟨y, hy, passed ▸ instantiates⟩
  · rintro ⟨y, hy, instantiates⟩
    rw [← instantiates.group] at defined
    refine unfolded.findMember_eq (by simp) hy defined only_distinct fun _ => ?_
    rw [instantiates.variant]

end Lookup

section AddEdges

variable {modules : List DeclaredModule} {g : Graph DeclaredModule DepKind} {m n : DeclaredModule}
  {mutator u v : String}

theorem Instantiates.withDeps {y : Instance DeclaredModule DepKind}
    (h : n.Instantiates mutator u y) (deps : List (Edge DepKind)) :
    n.Instantiates mutator u { y with deps } :=
  ⟨h.group, h.entries, h.content⟩

theorem EdgeTo.addEdges {kind : DepKind} {e : Edge DepKind}
    (h : EdgeTo g mutator kind n u e) (added : List (Nat × Edge DepKind)) :
    EdgeTo (g.addEdges added) mutator kind n u e where
  tag := h.tag
  far := h.far
  target := by
    obtain ⟨y, hy, instantiates⟩ := h.target
    exact ⟨_, by rw [Graph.instance?_addEdges, hy, Option.map_some], instantiates.withDeps _⟩

theorem StaticEdges.addEdges {edges : List (Edge DepKind)}
    (h : StaticEdges modules g mutator m v edges) (added : List (Nat × Edge DepKind)) :
    StaticEdges modules (g.addEdges added) mutator m v edges :=
  h.imp fun _ _ ⟨n, hn, named, leads⟩ => ⟨n, hn, named, leads.addEdges added⟩

end AddEdges

end BuildVariants.DeclaredModule
