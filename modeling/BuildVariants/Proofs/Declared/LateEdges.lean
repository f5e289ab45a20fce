import BuildVariants.Proofs.BottomUp.Added
import BuildVariants.Proofs.Declared.Variations
import BuildVariants.Proofs.Pipeline.Run

/-!
# The edges of declared modules

The properties of the declared modules say in closed form which edges an instance has: the
ones that the transition led on, the ones that its own late dependencies add, and the ones
that the reverse dependencies of all instances add to it.
-/

set_option autoImplicit false

namespace BuildVariants.DeclaredModule

/-- The variation of `n` that a late dependency of `m(v)` leads to. A choice in the entry goes
before what `m` asks for, and what `n` gives goes before both. -/
def lateValue (m n : DeclaredModule) (v : String) (choice : Option String) : String :=
  n.postTransitionIncoming.getD (n.incoming.getD (choice.getD (m.outgoing.getD v)))

/-- A far edge to the default instance of `n`, or to its first instance if there is no default
one. -/
structure FarEdgeTo (g : Graph DeclaredModule DepKind) (mutator : String) (n : DeclaredModule)
    (e : Edge DepKind) : Prop where
  tag : e.tag = .far
  far : e.far = true
  default : ∀ j y, g.instance? j = some y → n.Instantiates mutator "" y → e.target = j
  first : (∀ j y, g.instance? j = some y → ¬ n.Instantiates mutator "" y) →
    ∃ grp, g.group? n.name = some grp ∧ grp.members.head? = some e.target

structure OwnEdges (modules : List DeclaredModule) (g : Graph DeclaredModule DepKind)
    (mutator : String) (m : DeclaredModule) (v : String) (late far : List (Edge DepKind)) : Prop where
  late : List.Forall₂ (fun r e => ∃ n ∈ modules, n.name = r.name ∧
      EdgeTo g mutator .postTransition n (m.lateValue n v r.variant) e)
    (m.postTransitionDeps.filter fun r => r.name ∈ modules.map DeclaredModule.name) late
  far : List.Forall₂ (fun name e => ∃ n ∈ modules, n.name = name ∧ FarEdgeTo g mutator n e)
    (m.farDeps.filter fun name => name ∈ modules.map DeclaredModule.name) far

def reverseEdges (n : DeclaredModule) (u : String) (j : Nat) (m : DeclaredModule) (v : String) :
    List (Edge DepKind) :=
  ((n.reverseDeps.filter fun name => name = m.name ∧ u = v).map fun _ => ⟨j, .reverse, false⟩)
    ++ (n.reverseVariationDeps.filter fun r => r.name = m.name ∧ r.variant = v).map fun _ =>
      ⟨j, .reverse, false⟩

/-- The edges that the reverse entries of all instances add to `m(v)`. -/
def namedEdges (g : Graph DeclaredModule DepKind) (mutator : String) (m : DeclaredModule)
    (v : String) : List (Edge DepKind) :=
  g.instances.zipIdx.flatMap fun p =>
    p.1.content.reverseEdges (p.1.variant.get mutator) p.2 m v

section Additions

variable {options : Options} {modules : List DeclaredModule} {s : Site DeclaredModule DepKind}
  {m n : DeclaredModule} {v : String}

structure Visits (options : Options) (modules : List DeclaredModule)
    (s : Site DeclaredModule DepKind) (m : DeclaredModule) (v : String) : Prop where
  unfolded : Unfolded modules options.mutator s.graph
  completed : s.completed = [transition options]
  self : m.Instantiates options.mutator v s.self

namespace Visits

theorem get_self (visits : Visits options modules s m v) :
    s.self.variant.get options.mutator = v := by
  rw [visits.self.variant, get_only]

theorem startVariant (visits : Visits options modules s m v) (choice : Option String) :
    s.startVariant (choice.toList.map fun x => ⟨options.mutator, x⟩) false =
      only options.mutator (choice.getD v) := by
  have own : s.completedVariant false = only options.mutator v := by
    rw [Site.completedVariant, visits.completed]
    exact congrArg (only options.mutator) visits.get_self
  rw [Site.startVariant, own]
  cases choice with
  | none => rfl
  | some x => exact set_only x

theorem startVariant_far (visits : Visits options modules s m v) (exempt : options.neverFar = false) :
    s.startVariant [] true = only options.mutator "" := by
  have passed : (transition options).appliesTo true = false := exempt
  simp only [Site.startVariant, Variant.setAll_nil, Site.completedVariant, visits.completed,
    List.map_cons, List.map_nil, passed, Bool.false_eq_true, if_false]
  rfl

theorem request (visits : Visits options modules s m v) {choice : Option String} {tag : DepKind}
    {name asked : String} (h : s.request (transition options)
      (choice.toList.map fun x => ⟨options.mutator, x⟩) tag name
      (only options.mutator (choice.getD v)) = .ok asked) :
    asked = choice.getD (m.outgoing.getD v) := by
  have wanted : (only options.mutator (choice.getD v)).get (transition options).name =
      choice.getD v := get_only
  rw [Site.request, wanted] at h
  cases choice with
  | none =>
    obtain asks := mapError_eq_ok_iff.mp h
    rw [visits.self.content] at asks
    exact outgoingValue_ok asks
  | some x =>
    rw [if_pos (by simp [transition])] at h
    exact (Except.ok.inj h).symm

/-- A late dependency leads to the variation that the two modules settle on. -/
theorem called_late (visits : Visits options modules s m v) (hn : n ∈ modules)
    {choice : Option String} {edge : Option (Nat × Edge DepKind)}
    (h : s.resolve (.forward (choice.toList.map fun x => ⟨options.mutator, x⟩) .postTransition
      n.name false) = .ok edge) :
    ∃ e, edge = some (s.id, e) ∧
      EdgeTo s.graph options.mutator .postTransition n (m.lateValue n v choice) e := by
  have unfolded := visits.unfolded
  obtain ⟨grp, defined⟩ := Option.isSome_iff_exists.mp
    (unfolded.group?_isSome.mpr (List.mem_map_of_mem hn))
  have hgrp := Graph.mem_of_group? defined
  rw [Site.resolve, Site.forwardEdge_of_group defined, visits.startVariant, visits.completed] at h
  obtain ⟨wanted, negotiated, placed⟩ := bind_eq_ok_iff.mp h
  obtain ⟨asked, given, wants, gives, settled⟩ :=
    (Site.negotiate_cons_eq_ok_iff (t := transition options) rfl).mp negotiated
  -- Nothing is settled before the one dimension, so the first instance of the group is asked.
  have matched : s.Matched grp [] (only options.mutator (choice.getD v)) := by
    obtain ⟨j, member⟩ := List.exists_mem_of_ne_nil _ (unfolded.members_ne_nil grp hgrp)
    exact ⟨j, member, rfl⟩
  obtain ⟨j, member, y, hy, consulted⟩ := Site.grant_of_matched unfolded.toWellFormed hgrp matched
  obtain ⟨y', u, hy', instance_y⟩ := unfolded.member hn defined member
  obtain rfl := Option.some.inj (hy.symm.trans hy')
  rw [consulted] at gives
  have answers : n.incomingValue .addingDependency asked = .ok given := by
    have told := mapError_eq_ok_iff.mp gives
    rw [instance_y.content] at told
    exact told
  have value : wanted = only options.mutator (m.lateValue n v choice) := by
    rw [lateValue, ← visits.request wants, ← incomingValue_addingDependency_ok answers]
    exact (Except.ok.inj settled).symm.trans (set_only given)
  obtain ⟨target, found, rfl⟩ := Site.place_eq_ok_iff.mp placed
  rw [Site.search, if_neg Bool.false_ne_true, Option.or_none, value,
    unfolded.findMember_eq_some_iff hn defined] at found
  exact ⟨_, rfl, rfl, rfl, found⟩

/-- A far dependency asks for the default variation and is content with any. -/
theorem called_far (visits : Visits options modules s m v) (exempt : options.neverFar = false)
    (hn : n ∈ modules) {edge : Option (Nat × Edge DepKind)}
    (h : s.resolve (.forward [] .far n.name true) = .ok edge) :
    ∃ e, edge = some (s.id, e) ∧ FarEdgeTo s.graph options.mutator n e := by
  have unfolded := visits.unfolded
  obtain ⟨grp, defined⟩ := Option.isSome_iff_exists.mp
    (unfolded.group?_isSome.mpr (List.mem_map_of_mem hn))
  have passed : ¬ (transition options).appliesTo true = true := by
    simp [transition, Transition.appliesTo, exempt]
  rw [Site.resolve, Site.forwardEdge_of_group defined, visits.startVariant_far exempt,
    visits.completed, Site.negotiate_cons_of_not passed] at h
  obtain ⟨target, found, rfl⟩ := Site.place_eq_ok_iff.mp h
  refine ⟨_, rfl, rfl, rfl, ?_, ?_⟩
  · intro j y hy instantiates
    have exactly := (unfolded.findMember_eq_some_iff hn defined).mpr ⟨y, hy, instantiates⟩
    rw [Site.search, exactly, Option.some_or] at found
    exact (Option.some.inj found).symm
  · intro none
    have absent : s.graph.findMember grp (· == only options.mutator "") = .none :=
      Option.eq_none_iff_forall_ne_some.mpr fun j there => by
        obtain ⟨y, hy, instantiates⟩ := (unfolded.findMember_eq_some_iff hn defined).mp there
        exact none j y hy instantiates
    rw [Site.search, absent, Option.none_or, if_pos rfl] at found
    refine ⟨grp, defined, ?_⟩
    rw [← found, Graph.findMember]
    cases grp.members with
    | nil => rfl
    | cons j rest => simp [only_default_isSubsetOf]

/-- A reverse dependency adds an edge to the named module's instance of the named variation. -/
theorem called_reverse (visits : Visits options modules s m v) (choice : Option String)
    {name : String} {edge : Option (Nat × Edge DepKind)}
    (h : s.resolve (.reverse (choice.toList.map fun x => ⟨options.mutator, x⟩) .reverse name) =
      .ok edge) (hn : n ∈ modules) {i : Nat} {x : Instance DeclaredModule DepKind} {w : String}
    (hx : s.graph.instance? i = some x) (instantiates : n.Instantiates options.mutator w x) :
    (name = n.name ∧ choice.getD v = w → edge = some (i, ⟨s.id, .reverse, false⟩)) ∧
      (¬ (name = n.name ∧ choice.getD v = w) → ∀ p, edge = some p → p.1 ≠ i) := by
  have unfolded := visits.unfolded
  constructor
  · rintro ⟨rfl, rfl⟩
    obtain ⟨grp, defined⟩ := Option.isSome_iff_exists.mp
      (unfolded.group?_isSome.mpr (List.mem_map_of_mem hn))
    have found := (unfolded.findMember_eq_some_iff hn defined).mpr ⟨x, hx, instantiates⟩
    simp only [Site.resolve, Site.reverseEdge, defined, visits.startVariant, found] at h
    exact (Except.ok.inj h).symm
  · -- An edge to another instance than `n(w)` would have found it by its name and its value.
    rintro other p rfl rfl
    obtain ⟨grp, source, defined, found, called⟩ := Site.reverseEdge_added h
    rw [called] at hx
    rw [visits.startVariant] at found
    have declared : name ∈ modules.map DeclaredModule.name :=
      unfolded.group?_isSome.mp (Option.isSome_iff_exists.mpr ⟨grp, defined⟩)
    obtain ⟨n', hn', rfl⟩ := List.mem_map.mp declared
    obtain ⟨y, hy, instance_y⟩ := (unfolded.findMember_eq_some_iff hn' defined).mp found
    obtain rfl := Option.some.inj (hx.symm.trans hy)
    apply other
    refine ⟨instance_y.group.symm.trans instantiates.group, ?_⟩
    have entries := instance_y.entries.symm.trans instantiates.entries
    simpa using entries

end Visits

end Additions

section Pass

variable {options : Options} {modules : List DeclaredModule} {s : Site DeclaredModule DepKind}
  {m n : DeclaredModule} {u v : String}

def ownAdditions (mutator : String) (m : DeclaredModule) : List (Addition DepKind) :=
  (m.postTransitionDeps.map fun r =>
      .forward (r.variant.toList.map fun v => ⟨mutator, v⟩) .postTransition r.name false)
    ++ m.farDeps.map fun name => .forward [] .far name true

def reverseAdditions (mutator : String) (m : DeclaredModule) : List (Addition DepKind) :=
  (m.reverseDeps.map fun name => .reverse [] .reverse name)
    ++ m.reverseVariationDeps.map fun r => .reverse [⟨mutator, r.variant⟩] .reverse r.name

theorem additions_eq (mutator : String) (m : DeclaredModule) :
    m.additions mutator = m.ownAdditions mutator ++ m.reverseAdditions mutator :=
  List.append_assoc _ _ _

theorem Visits.addedTo_self (visits : Visits options modules s m v)
    (exempt : options.neverFar = false)
    (resolves : ∀ a ∈ m.ownAdditions options.mutator, ∃ edge, s.resolve a = .ok edge) :
    ∃ late far, s.addedTo s.id (m.ownAdditions options.mutator) = late ++ far ∧
      OwnEdges modules s.graph options.mutator m v late far := by
  have undefined : ∀ {name}, decide (name ∈ modules.map DeclaredModule.name) = false →
      s.graph.group? name = none := by
    intro name fails
    rw [← Option.not_isSome_iff_eq_none, visits.unfolded.group?_isSome]
    exact of_decide_eq_false fails
  refine ⟨_, _, Site.addedTo_append _ _ _, Site.addedTo_forall₂ _ ?_ ?_,
    Site.addedTo_forall₂ _ ?_ ?_⟩
  · intro r hr declared
    obtain ⟨n, hn, named⟩ := List.mem_map.mp (of_decide_eq_true declared)
    obtain ⟨edge, outcome⟩ := resolves _ (List.mem_append_left _ (List.mem_map_of_mem hr))
    obtain ⟨e, rfl, leads⟩ := visits.called_late hn (named.symm ▸ outcome)
    exact ⟨e, Site.called_of_ok outcome, n, hn, named, leads⟩
  · intro r _ fails
    exact (Site.called_undefined (undefined fails) _ _ false).1
  · intro name hname declared
    obtain ⟨n, hn, named⟩ := List.mem_map.mp (of_decide_eq_true declared)
    obtain ⟨edge, outcome⟩ := resolves _ (List.mem_append_right _ (List.mem_map_of_mem hname))
    obtain ⟨e, rfl, leads⟩ := visits.called_far exempt hn (named.symm ▸ outcome)
    exact ⟨e, Site.called_of_ok outcome, n, hn, named, leads⟩
  · intro name _ fails
    exact (Site.called_undefined (undefined fails) _ _ true).1

theorem Visits.addedTo_named (visits : Visits options modules s n u)
    (resolves : ∀ a ∈ n.reverseAdditions options.mutator, ∃ edge, s.resolve a = .ok edge)
    (hm : m ∈ modules) {i : Nat} {x : Instance DeclaredModule DepKind}
    (hx : s.graph.instance? i = some x) (instantiates : m.Instantiates options.mutator v x) :
    s.addedTo i (n.reverseAdditions options.mutator) = n.reverseEdges u s.id m v := by
  rw [reverseAdditions, Site.addedTo_append, reverseEdges]
  congr 1
  · apply Site.addedTo_eq_map
    · intro name hname named
      obtain ⟨edge, outcome⟩ := resolves _ (List.mem_append_left _ (List.mem_map_of_mem hname))
      rw [Site.called_of_ok outcome]
      exact (visits.called_reverse none outcome hm hx instantiates).1
        (of_decide_eq_true named)
    · intro name hname other
      obtain ⟨edge, outcome⟩ := resolves _ (List.mem_append_left _ (List.mem_map_of_mem hname))
      rw [Site.called_of_ok outcome]
      exact (visits.called_reverse none outcome hm hx instantiates).2
        (of_decide_eq_false other)
  · apply Site.addedTo_eq_map
    · intro r hr named
      obtain ⟨edge, outcome⟩ := resolves _ (List.mem_append_right _ (List.mem_map_of_mem hr))
      rw [Site.called_of_ok outcome]
      exact (visits.called_reverse (some r.variant) outcome hm hx instantiates).1
        (of_decide_eq_true named)
    · intro r hr other
      obtain ⟨edge, outcome⟩ := resolves _ (List.mem_append_right _ (List.mem_map_of_mem hr))
      rw [Site.called_of_ok outcome]
      exact (visits.called_reverse (some r.variant) outcome hm hx instantiates).2
        (of_decide_eq_false other)

end Pass

section Run

theorem flatMap_zipIdx {α β : Type} (f : α × Nat → List β) (l : List α) : l.zipIdx.flatMap f =
    (List.range l.length).flatMap fun j => ((l[j]?).map fun a => f (a, j)).getD [] := by
  rw [List.range_eq_range', ← List.zipIdx_map_snd, List.flatMap_map]
  apply List.flatMap_congr
  rintro ⟨a, j⟩ there
  rw [List.mem_zipIdx_iff_getElem?.mp there, Option.map_some, Option.getD_some]

variable {options : Options} {settings : Settings} {modules : List DeclaredModule}
  {g rewired : Graph DeclaredModule DepKind} {m n : DeclaredModule} {u v : String}

theorem FarEdgeTo.addEdges {mutator : String} {e : Edge DepKind} (h : FarEdgeTo g mutator n e)
    (added : List (Nat × Edge DepKind)) : FarEdgeTo (g.addEdges added) mutator n e where
  tag := h.tag
  far := h.far
  default j y hy instantiates := by
    rw [Graph.instance?_addEdges, Option.map_eq_some_iff] at hy
    obtain ⟨y', hy', rfl⟩ := hy
    exact h.default j y' hy' (instantiates.withDeps y'.deps)
  first none := h.first fun j y hy instantiates =>
    none j _ (by rw [Graph.instance?_addEdges, hy, Option.map_some]) (instantiates.withDeps _)

theorem OwnEdges.addEdges {mutator : String} {late far : List (Edge DepKind)}
    (h : OwnEdges modules g mutator m v late far) (added : List (Nat × Edge DepKind)) :
    OwnEdges modules (g.addEdges added) mutator m v late far where
  late := h.late.imp fun _ _ ⟨n, hn, named, leads⟩ => ⟨n, hn, named, leads.addEdges added⟩
  far := h.far.imp fun _ _ ⟨n, hn, named, leads⟩ => ⟨n, hn, named, leads.addEdges added⟩

theorem namedEdges_addEdges (added : List (Nat × Edge DepKind)) (mutator : String) :
    namedEdges (g.addEdges added) mutator m v = namedEdges g mutator m v := by
  have size : (g.addEdges added).instances.length = g.instances.length := g.size_addEdges added
  rw [namedEdges, namedEdges, flatMap_zipIdx, flatMap_zipIdx, size]
  apply List.flatMap_congr
  intro j _
  rw [← Graph.instance?, ← Graph.instance?, Graph.instance?_addEdges, Option.map_map]
  rfl

theorem resolve_steps (h : (pipeline options settings).resolve modules = .ok g) :
    ∃ rewired, ((pipeline options settings).take 1).resolve modules = .ok rewired ∧
      Graph.load settings modules = .ok (.initial modules : Graph DeclaredModule DepKind) ∧
      (transition options).run (.initial modules) = .ok rewired ∧
      (lateDependencies options.mutator).run settings.allowMissing [transition options] rewired =
        .ok g := by
  obtain ⟨loaded, order, isLoaded, acyclic, ran⟩ := Pipeline.resolve_eq_ok_iff.mp h
  obtain ⟨rfl, _⟩ := Graph.load_ok isLoaded
  obtain ⟨rewired, first, rest⟩ := bind_eq_ok_iff.mp ran
  obtain ⟨last, second, result⟩ := bind_eq_ok_iff.mp rest
  obtain rfl := Except.ok.inj result
  refine ⟨rewired, ?_, isLoaded, first, second⟩
  exact Pipeline.resolve_eq_ok_iff.mpr
    ⟨_, order, isLoaded, acyclic, bind_eq_ok_iff.mpr ⟨rewired, first, rfl⟩⟩

theorem Instantiates.reverseEdges {mutator : String} {y : Instance DeclaredModule DepKind}
    (h : n.Instantiates mutator u y) (j : Nat) (m : DeclaredModule) (v : String) :
    y.content.reverseEdges (y.variant.get mutator) j m v = n.reverseEdges u j m v := by
  rw [h.variant, get_only, h.content]
  rfl

section Visited

def siteAt (options : Options) (settings : Settings) (rewired : Graph DeclaredModule DepKind) (j : Nat)
    (y : Instance DeclaredModule DepKind) : Site DeclaredModule DepKind :=
  ⟨rewired, [transition options], settings.allowMissing, j, y⟩

variable (unfolded : Unfolded modules options.mutator rewired)
  (h : (lateDependencies options.mutator).run settings.allowMissing [transition options] rewired =
    .ok g)

include unfolded

theorem visits_siteAt {j : Nat} {y : Instance DeclaredModule DepKind}
    (self : n.Instantiates options.mutator u y) :
    Visits options modules (siteAt options settings rewired j y) n u :=
  ⟨unfolded, rfl, self⟩

include h

theorem resolves_siteAt {j : Nat} {y : Instance DeclaredModule DepKind}
    (hy : rewired.instance? j = some y) (self : n.Instantiates options.mutator u y) :
    ∀ a ∈ n.ownAdditions options.mutator ++ n.reverseAdditions options.mutator, ∃ edge,
      (siteAt options settings rewired j y).resolve a = .ok edge := by
  intro a ha
  apply BottomUpMutator.run_resolves unfolded.toWellFormed h
    (BottomUpMutator.site?_eq_some_iff.mpr ⟨y, hy, rfl⟩)
  have asks : y.content.additions options.mutator = n.additions options.mutator := by
    rw [self.content]
    rfl
  rw [← additions_eq, ← asks] at ha
  exact ha

theorem addedBy_reverse (hm : m ∈ modules) {i : Nat} {x : Instance DeclaredModule DepKind}
    (hx : rewired.instance? i = some x) (instantiates : m.Instantiates options.mutator v x) :
    (List.range rewired.size).flatMap (BottomUpMutator.addedBy settings.allowMissing
        [transition options] rewired (fun y => y.content.reverseAdditions options.mutator) i) =
      namedEdges rewired options.mutator m v := by
  rw [namedEdges, flatMap_zipIdx]
  apply List.flatMap_congr
  intro j hj
  obtain ⟨y, hy⟩ := rewired.exists_instance (List.mem_range.mp hj)
  obtain ⟨n, _, u, self⟩ := unfolded.instances j y hy
  have resolves := resolves_siteAt unfolded h hy self
  rw [BottomUpMutator.addedBy_of_instance hy, ← Graph.instance?, hy, Option.map_some,
    Option.getD_some, self.reverseEdges, self.content]
  exact (visits_siteAt unfolded self).addedTo_named
    (fun a ha => resolves a (List.mem_append_right _ ha)) hm hx instantiates

/-- What the pass adds to `m(v)`: what its own late and far dependencies add, and the reverse edges
that name it. -/
theorem run_lateEdges (exempt : options.neverFar = false) (hm : m ∈ modules) {i : Nat}
    {x : Instance DeclaredModule DepKind} (hx : rewired.instance? i = some x)
    (instantiates : m.Instantiates options.mutator v x) :
    ∃ late far added, g.instance? i = some { x with deps := x.deps ++ added } ∧
      OwnEdges modules rewired options.mutator m v late far ∧
      added.Perm (late ++ far ++ namedEdges rewired options.mutator m v) := by
  obtain ⟨added, next, perm⟩ := BottomUpMutator.run_added unfolded.toWellFormed h hx
  have resolves := resolves_siteAt unfolded h hx instantiates
  obtain ⟨late, far, own, edges⟩ := (visits_siteAt unfolded instantiates).addedTo_self exempt
    fun a ha => resolves a (List.mem_append_left _ ha)
  refine ⟨late, far, added, next, edges, ?_⟩
  have parts : (fun y => ((lateDependencies options.mutator).visit rewired y).1) = fun y =>
      y.content.ownAdditions options.mutator ++ y.content.reverseAdditions options.mutator :=
    funext fun y => additions_eq options.mutator y.content
  -- No other instance adds a late or far edge to this one.
  have others : ∀ j ∈ List.range rewired.size, j ≠ i →
      BottomUpMutator.addedBy settings.allowMissing [transition options] rewired
        (fun y => y.content.ownAdditions options.mutator) i j = [] := by
    intro j hj other
    obtain ⟨y, hy⟩ := rewired.exists_instance (List.mem_range.mp hj)
    rw [BottomUpMutator.addedBy_of_instance hy]
    apply Site.addedTo_eq_nil
    intro a ha p calls
    rcases List.mem_append.mp ha with ha | ha <;> obtain ⟨_, _, rfl⟩ := List.mem_map.mp ha <;>
      exact Site.called_forward calls ▸ other
  have here : BottomUpMutator.addedBy settings.allowMissing [transition options] rewired
      (fun y => y.content.ownAdditions options.mutator) i i = late ++ far := by
    rw [BottomUpMutator.addedBy_of_instance hx, instantiates.content]
    exact own
  rw [parts, funext (BottomUpMutator.addedBy_append _ _ i)] at perm
  rw [← here, ← addedBy_reverse unfolded h hm hx instantiates]
  exact perm.trans (flatMap_perm_of_single List.nodup_range
    (List.mem_range.mpr (rewired.instance_lt hx)) others)

end Visited

/-- The edges of an instance `m(v)` of a resolved graph are those that the transition led on and
then, in some order: one for each late dependency that is declared, to the variation that the two
modules settle on; one for each far dependency that is declared; and one for each reverse entry
of any instance that names `m(v)`. -/
theorem resolve_edges (exempt : options.neverFar = false)
    (h : (pipeline options settings).resolve modules = .ok g) :
    ∃ rewired, ((pipeline options settings).take 1).resolve modules = .ok rewired ∧
      ∀ i x, g.instance? i = some x → ∃ m ∈ modules, ∃ v, m.Instantiates options.mutator v x ∧
        ∃ static late far added,
          rewired.instance? i = some { x with deps := static } ∧ x.deps = static ++ added ∧
          StaticEdges modules g options.mutator m v static ∧
          OwnEdges modules g options.mutator m v late far ∧
          added.Perm (late ++ far ++ namedEdges g options.mutator m v) := by
  obtain ⟨rewired, first, isLoaded, rewires, adds⟩ := resolve_steps h
  refine ⟨rewired, first, ?_⟩
  have unfolded := run_unfolded isLoaded rewires
  obtain ⟨new, rfl, _⟩ := BottomUpMutator.run_addEdges unfolded.toWellFormed adds
  intro i x hx
  obtain ⟨x', hx', _⟩ := Option.map_eq_some_iff.mp ((Graph.instance?_addEdges i).symm.trans hx)
  obtain ⟨m, hm, v, instantiates, static⟩ := run_declared (Graph.load_ok isLoaded).2 rewires hx'
  obtain ⟨late, far, added, next, own, perm⟩ :=
    run_lateEdges unfolded adds exempt hm hx' instantiates
  obtain rfl := Option.some.inj (next.symm.trans hx)
  exact ⟨m, hm, v, instantiates.withDeps _, x'.deps, late, far, added, hx', rfl,
    static.addEdges new, own.addEdges new, by rwa [namedEdges_addEdges]⟩

def crossing : List DeclaredModule := [
  { name := "app", split := ["x", ""], outgoing := some "w", deps := ["base"], farDeps := ["tool"],
    postTransitionDeps := [⟨"base", some "x"⟩, ⟨"tool", some "t"⟩, ⟨"gone", none⟩] },
  { name := "base", split := ["z"], incoming := some "y", postTransitionIncoming := some "z",
    reverseVariationDeps := [⟨"log", "t"⟩] },
  { name := "tool", split := ["t", "t2"], reverseDeps := ["log"] },
  { name := "log", split := ["t", "t2"] }]

/-- The entry for `gone` adds nothing where missing modules are allowed. -/
theorem resolve_edges_crossing : ({} : Options).neverFar = false ∧ ∃ g,
    (pipeline {} ⟨true⟩).resolve crossing = .ok g ∧
      ((List.range g.size).map fun n => (g.label n, g.depLabels n)) = [
        ("app(x)", ["base(y)", "base(z)", "tool(t)", "tool(t)"]),
        ("app()", ["base(y)", "base(z)", "tool(t)", "tool(t)"]),
        ("base(z)", []), ("base(y)", []), ("tool(t)", []), ("tool(t2)", []),
        ("log(t)", ["base(y)", "base(z)", "tool(t)"]), ("log(t2)", ["tool(t2)"])] ∧
      ∃ rewired, ((pipeline {} ⟨true⟩).take 1).resolve crossing = .ok rewired ∧
        ∀ i x, g.instance? i = some x → ∃ m ∈ crossing, ∃ v, m.Instantiates "transition" v x ∧
          ∃ static late far added,
            rewired.instance? i = some { x with deps := static } ∧ x.deps = static ++ added ∧
            StaticEdges crossing g "transition" m v static ∧
            OwnEdges crossing g "transition" m v late far ∧
            added.Perm (late ++ far ++ namedEdges g "transition" m v) := by
  obtain ⟨g, h, labels⟩ : ∃ g, (pipeline {} ⟨true⟩).resolve crossing = .ok g ∧
      ((List.range g.size).map fun n => (g.label n, g.depLabels n)) = [
        ("app(x)", ["base(y)", "base(z)", "tool(t)", "tool(t)"]),
        ("app()", ["base(y)", "base(z)", "tool(t)", "tool(t)"]),
        ("base(z)", []), ("base(y)", []), ("tool(t)", []), ("tool(t2)", []),
        ("log(t)", ["base(y)", "base(z)", "tool(t)"]), ("log(t2)", ["tool(t2)"])] :=
    ⟨_, rfl, by decide +kernel⟩
  exact ⟨rfl, g, h, labels, resolve_edges rfl h⟩

end Run

end BuildVariants.DeclaredModule
