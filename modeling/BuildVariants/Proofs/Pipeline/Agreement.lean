import BuildVariants.Proofs.BottomUp.Given
import BuildVariants.Proofs.Pipeline.Extension
import BuildVariants.Proofs.Transition.Unfolding

/-!
# Late additions to static dependencies

An edge that a module names itself is led from pass to pass to the variations that its ends negotiate,
one dimension at a time. An addition after the passes negotiates all dimensions at once, with whichever
instances of the dependency agree so far. Where the decisions depend on the declared modules alone, the
two ways end at the same instance.
-/

set_option autoImplicit false

namespace BuildVariants

variable {M T : Type}

namespace Transition

def Derives (ts : List (Transition M T)) : M → M → Prop :=
  Relation.ReflTransGen fun m m' => ∃ t ∈ ts, ∃ value, t.mutator.mutate m value = .ok m'

/-- The transitions decide about whatever they make of a module as they do about the module itself,
in every variant and phase and for edges of any tag. -/
structure Steady (ts : List (Transition M T)) (m : M) : Prop where
  outgoing : ∀ t ∈ ts, ∀ m', Derives ts m m' → ∀ v v' name tag tag' value,
    t.mutator.outgoing ⟨m', v, name, tag⟩ value = t.mutator.outgoing ⟨m, v', name, tag'⟩ value
  incoming : ∀ t ∈ ts, ∀ m', Derives ts m m' → ∀ v v' phase phase' asked,
    t.mutator.incoming ⟨m', v, phase⟩ asked = t.mutator.incoming ⟨m, v', phase'⟩ asked

def Meets [BuildModule M T] (t : Transition M T) (m n : M) (x y : Instance M T) : Prop :=
  ∃ asked, t.mutator.outgoing ⟨m, .empty, y.group, BuildModule.staticTag M⟩
      (x.variant.get t.name) = .ok asked ∧
    t.mutator.incoming ⟨n, .empty, .structural⟩ asked = .ok (y.variant.get t.name)

section Meets

variable [BuildModule M T] {t : Transition M T} {m n : M} {x x' y y' : Instance M T}

theorem Meets.congr (meets : t.Meets m n x y) (group : y'.group = y.group)
    (source : x'.variant.get t.name = x.variant.get t.name)
    (target : y'.variant.get t.name = y.variant.get t.name) : t.Meets m n x' y' := by
  obtain ⟨asked, asks, gives⟩ := meets
  exact ⟨asked, by rw [group, source, asks], by rw [target, gives]⟩

end Meets

end Transition

namespace Graph

variable [BuildModule M T] (modules : List M) (completed : List (Transition M T)) (g : Graph M T)

/-- An edge that the module `m` names. It leads from `x` to the instance of another declared module
that has in each dimension what the two negotiate. -/
structure StaticEdge (m : M) (x : Instance M T) (e : Edge T) : Prop where
  near : e.far = false
  target : ∃ n ∈ modules, ∃ y, g.instance? e.target = some y ∧ BuildModule.name n = y.group ∧
    ∀ t ∈ completed, t.Meets m n x y

structure Origin (ts : List (Transition M T)) (m : M) (x : Instance M T) : Prop where
  declared : m ∈ modules
  named : BuildModule.name m = x.group
  derives : Transition.Derives ts m x.content
  static : (staticEdges modules m : List (Edge T)).length ≤ x.deps.length
  edges : ∀ e ∈ x.deps.take (staticEdges modules m : List (Edge T)).length,
    StaticEdge modules completed g m x e

def Tracked (ts : List (Transition M T)) : Prop :=
  ∀ i x, g.instance? i = some x → ∃ m, Origin modules completed g ts m x

end Graph

section Steps

variable [BuildModule M T] {modules : List M} {ts completed : List (Transition M T)}
  {g next : Graph M T}

theorem Graph.Origin.eq_of_named {m : M} {x : Instance M T}
    (origin : Graph.Origin modules completed g ts m x)
    (nodup : (modules.map BuildModule.name).Nodup) {m' : M} (declared : m' ∈ modules)
    (named : BuildModule.name m' = x.group) : m' = m :=
  List.inj_on_of_nodup_map nodup declared origin.declared (named.trans origin.named.symm)

theorem Graph.initial_tracked (modules : List M) (ts : List (Transition M T)) :
    Graph.Tracked modules [] (Graph.initial modules) ts := by
  intro i x hx
  rw [Graph.instance?_initial] at hx
  obtain ⟨m, hm, rfl⟩ := Option.map_eq_some_iff.mp hx
  refine ⟨m, List.mem_of_getElem? hm, rfl, .refl, Nat.le_refl _, ?_⟩
  intro e he
  obtain ⟨dep, _, named⟩ := List.mem_filterMap.mp (List.mem_of_mem_take he)
  obtain ⟨k, found, rfl⟩ := Option.map_eq_some_iff.mp named
  have hk := Graph.declaredAt?_lt found
  have there : (Graph.initial modules).instance? k = some
      ⟨BuildModule.name modules[k], modules[k], .empty, Graph.staticEdges modules modules[k]⟩ := by
    rw [Graph.instance?_initial, List.getElem?_eq_getElem hk, Option.map_some]
  exact ⟨rfl, modules[k], List.getElem_mem hk, _, there, rfl, by simp⟩

/-- A pass leads a static edge to what its ends negotiate in the new dimension and leaves the other
dimensions as they are. -/
theorem Transition.run_tracked {t : Transition M T} (there : t ∈ ts)
    (steady : ∀ m ∈ modules, Steady ts m) (nodup : (modules.map BuildModule.name).Nodup)
    (wf : g.WellFormed) (new : t.name ∉ completed.map Transition.name)
    (tracked : Graph.Tracked modules completed g ts) (h : t.run g = .ok next) :
    Graph.Tracked modules (completed ++ [t]) next ts := by
  obtain ⟨plans, rewired, planned, carried, mutated⟩ := run_eq_ok_iff.mp h
  have accepted := plan_accepted wf.targets_valid planned
  intro k y hy
  obtain ⟨i, v, x, _, hx, hv, changed, led⟩ := run_key wf accepted carried mutated hy
  obtain ⟨m, origin⟩ := tracked i x hx
  rw [led]
  -- No edge is added, so the first edges are still those that the module names.
  refine ⟨m, origin.declared, origin.named, origin.derives.tail ⟨t, there, v, changed⟩,
    by simpa using origin.static, ?_⟩
  intro e' he'
  rw [← List.map_take] at he'
  obtain ⟨e, he, rfl⟩ := List.mem_map.mp he'
  obtain ⟨near, n, declared, z, hz, named, meets⟩ := origin.edges e he
  obtain ⟨w, place, leads⟩ :=
    (ledEdge_repointed wf accepted hx hv (List.mem_of_mem_take he)).target
  obtain ⟨content, _, hz'⟩ := run_instance_led wf accepted carried mutated place hz
  refine ⟨near, n, declared, _, hz', named, ?_⟩
  intro u hu
  rcases List.mem_append.mp hu with before | now
  · have other : u.name ≠ t.name := fun same => new (same ▸ List.mem_map_of_mem before)
    refine (meets u before).congr rfl ?_ ?_
    · rw [Variant.get_set, if_neg other]
    · rw [Variant.get_set, if_neg other]
  · -- The edge was led to what the two instances decided, as their modules would have decided it.
    obtain rfl := List.mem_singleton.mp now
    have derives : Derives ts n z.content := by
      obtain ⟨n', originZ⟩ := tracked e.target z hz
      exact originZ.eq_of_named nodup declared named ▸ originZ.derives
    cases leads with
    | @negotiated z' asked _ _ target outgoing incoming =>
      obtain rfl : z' = z := Option.some.inj (target.symm.trans hz)
      refine ⟨asked, ?_, ?_⟩
      · rw [Variant.get_set, if_pos rfl, ← outgoing]
        exact ((steady m origin.declared).outgoing _ there _ origin.derives _ _ _ _ _ _).symm
      · rw [Variant.get_set, if_pos rfl, ← incoming]
        exact ((steady n declared).incoming _ there _ derives _ _ _ _ _).symm
    | default far =>
      rw [near] at far
      cases far

theorem Transition.run_deps_length {t : Transition M T} (wf : g.WellFormed)
    (h : t.run g = .ok next) {n : Nat} {y : Instance M T} (hy : next.instance? n = some y) :
    ∃ i x, g.instance? i = some x ∧ y.group = x.group ∧ y.deps.length = x.deps.length := by
  obtain ⟨plans, rewired, planned, carried, mutated⟩ := run_eq_ok_iff.mp h
  have accepted := plan_accepted wf.targets_valid planned
  obtain ⟨i, v, x, _, hx, _, _, led⟩ := run_key wf accepted carried mutated hy
  refine ⟨i, x, hx, ?_, ?_⟩ <;> rw [led]
  exact List.length_map _

theorem Graph.Tracked.addEdges {ts : List (Transition M T)} {added : List (Nat × Edge T)}
    (tracked : Graph.Tracked modules completed g ts) :
    Graph.Tracked modules completed (g.addEdges added) ts := by
  intro i y hy
  rw [Graph.instance?_addEdges] at hy
  obtain ⟨x, hx, rfl⟩ := Option.map_eq_some_iff.mp hy
  obtain ⟨m, origin⟩ := tracked i x hx
  refine ⟨m, origin.declared, origin.named, origin.derives, ?_, ?_⟩
  · rw [List.length_append]
    exact Nat.le_add_right_of_le origin.static
  · intro e he
    rw [List.take_append_of_le_length origin.static] at he
    obtain ⟨near, n, declared, z, hz, named, meets⟩ := origin.edges e he
    have there : (g.addEdges added).instance? e.target = _ := Graph.instance?_addEdges e.target
    rw [hz, Option.map_some] at there
    exact ⟨near, n, declared, _, there, named, fun t ht => (meets t ht).congr rfl rfl rfl⟩

end Steps

namespace Pipeline

variable [BuildModule M T]

theorem tracked_invariant (settings : Settings) {modules : List M} {ts : List (Transition M T)}
    (steady : ∀ m ∈ modules, Transition.Steady ts m)
    (nodup : (modules.map BuildModule.name).Nodup) :
    Invariant settings fun completed (g : Graph M T) => completed ⊆ ts →
      (completed.map Transition.name).Nodup →
        g.Settled (modules.map BuildModule.name) (completed.map Transition.name) ∧
          Graph.Tracked modules completed g ts where
  transition {completed g t next} kept ran subset distinct := by
    rw [List.map_append, List.map_singleton, ← List.concat_eq_append,
      List.nodup_concat] at distinct
    obtain ⟨settled, tracked⟩ := kept (fun u hu => subset (by simp [hu])) distinct.2
    have there : t ∈ ts := subset (by simp)
    rw [List.map_append, List.map_singleton]
    exact ⟨Transition.run_settled settled distinct.2 distinct.1 ran, Transition.run_tracked there
      steady nodup settled.toWellFormed distinct.1 tracked ran⟩
  bottomUp kept ran subset distinct := by
    obtain ⟨settled, tracked⟩ := kept subset distinct
    obtain ⟨added, rfl, ends⟩ := BottomUpMutator.run_addEdges settled.toWellFormed ran
    exact ⟨settled.addEdges ends, tracked.addEdges⟩

theorem resolve_tracked {p : Pipeline M T} {modules : List M} {count : Nat} {g : Graph M T}
    (distinct : (p.take count).dimensions.Nodup)
    (steady : ∀ m ∈ modules, Transition.Steady (transitions (p.passes.take count)) m)
    (h : (p.take count).resolve modules = .ok g) :
    Graph.Tracked modules (transitions (p.passes.take count)) g
      (transitions (p.passes.take count)) := by
  obtain ⟨loaded, order, isLoaded, _, ran⟩ := resolve_eq_ok_iff.mp h
  obtain ⟨rfl, nodup⟩ := Graph.load_ok isLoaded
  rw [dimensions_eq] at distinct
  have start := Graph.load_settled isLoaded
  refine (runPasses_keeps (tracked_invariant p.settings steady nodup) ?_ ran
    (List.Subset.refl _) distinct).2
  exact fun _ _ => ⟨start, Graph.initial_tracked modules _⟩

theorem runPasses_deps_length {settings : Settings} {passes : List (Pass M T)}
    (structural : ∀ pass ∈ passes, ∃ t, pass = .transition t)
    {completed : List (Transition M T)} {g next : Graph M T} (wf : g.WellFormed)
    (h : runPasses settings passes completed g = .ok next) {n : Nat} {y : Instance M T}
    (hy : next.instance? n = some y) :
    ∃ i x, g.instance? i = some x ∧ y.group = x.group ∧ y.deps.length = x.deps.length := by
  induction passes generalizing completed g with
  | nil =>
    cases h
    exact ⟨n, y, hy, rfl, rfl⟩
  | cons pass passes ih =>
    obtain ⟨t, rfl⟩ := structural pass (by simp)
    obtain ⟨between, ran, rest⟩ := bind_eq_ok_iff.mp h
    obtain ⟨k, z, hz, groupZ, lengthZ⟩ := ih (fun p hp => structural p (by simp [hp]))
      (Transition.run_wellFormed wf ran) rest
    obtain ⟨i, x, hx, groupX, lengthX⟩ := Transition.run_deps_length wf ran hz
    exact ⟨i, x, hx, groupZ.trans groupX, lengthZ.trans lengthX⟩

theorem resolve_deps_length {p : Pipeline M T} (structural : p.Structural) {modules : List M}
    {g : Graph M T} (h : p.resolve modules = .ok g) {id : Nat} {y : Instance M T}
    (hy : g.instance? id = some y) {m : M} (declared : m ∈ modules)
    (named : BuildModule.name m = y.group) :
    y.deps.length = (Graph.staticEdges modules m : List (Edge T)).length := by
  obtain ⟨loaded, _, isLoaded, _, ran⟩ := resolve_eq_ok_iff.mp h
  obtain ⟨i, x, hx, group, length⟩ :=
    runPasses_deps_length structural (Graph.load_settled isLoaded).toWellFormed ran hy
  obtain ⟨rfl, nodup⟩ := Graph.load_ok isLoaded
  rw [Graph.instance?_initial] at hx
  obtain ⟨n, hn, rfl⟩ := Option.map_eq_some_iff.mp hx
  obtain rfl : n = m := List.inj_on_of_nodup_map nodup (List.mem_of_getElem? hn) declared
    (group.symm.trans named.symm)
  exact length

/-- A module that asks late for one of its static dependencies, and leaves the variations to the
transitions, is led to the instance that it already depends on. The static edges come first, and
after transitions alone there are no others. -/
theorem resolve_static {p : Pipeline M T} (distinct : p.dimensions.Nodup) {modules : List M}
    {count : Nat} {g : Graph M T} (h : (p.take count).resolve modules = .ok g)
    (steady : ∀ m ∈ modules, Transition.Steady (transitions (p.passes.take count)) m)
    {allowMissing : Bool} {id : Nat} {s : Site M T}
    (site : BottomUpMutator.site? allowMissing (transitions (p.passes.take count)) g id = some s)
    {m : M} (declared : m ∈ modules) (named : BuildModule.name m = s.self.group) :
    (∀ e ∈ s.self.deps.take (Graph.staticEdges modules m : List (Edge T)).length, ∀ tag,
      s.resolve (.forward [] tag (g.groupName e.target) false) =
        .ok (some (id, ⟨e.target, tag, false⟩))) ∧
      ((p.take count).Structural →
        s.self.deps.length = (Graph.staticEdges modules m : List (Edge T)).length) := by
  have distinct := distinct.sublist (p.dimensions_take_sublist count)
  have settled := resolve_settled distinct h
  have tracked := resolve_tracked distinct steady h
  obtain ⟨_, _, isLoaded, _⟩ := resolve_eq_ok_iff.mp h
  have nodup := (Graph.load_ok isLoaded).2
  obtain ⟨x, hx, rfl⟩ := BottomUpMutator.site?_eq_some_iff.mp site
  refine ⟨?_, fun structural => resolve_deps_length structural h hx declared named⟩
  intro e he tag
  obtain ⟨m', origin⟩ := tracked id x hx
  obtain rfl := origin.eq_of_named nodup declared named
  obtain ⟨_, n, declaredN, y, hy, namedN, meets⟩ := origin.edges e he
  rw [Graph.groupName_of_instance hy]
  obtain ⟨grp, defined, _⟩ := settled.group_of_instance hy
  have member : ∀ {i : Nat} {z : Instance M T}, i ∈ grp.members → g.instance? i = some z →
      z.group = y.group := by
    intro i z hi hz
    rw [← Graph.groupName_of_instance hz, settled.group_named grp (Graph.mem_of_group? defined) i hi,
      Graph.name_of_group? defined]
  have dimensions := dimensions_eq (p.take count)
  apply Site.resolve_given (dimensions ▸ settled) (dimensions ▸ distinct) hy defined
  intro t ht
  obtain ⟨asked, asks, gives⟩ := meets t ht
  refine ⟨asked, ?_, ?_⟩
  · rw [← asks, Graph.name_of_group? defined]
    exact (steady m declared).outgoing t ht _ origin.derives _ _ _ _ _ _
  · intro i hi z hz
    obtain ⟨n', originZ⟩ := tracked i z hz
    obtain rfl := originZ.eq_of_named nodup declaredN (namedN.trans (member hi hz).symm)
    rw [← gives]
    exact (steady n declaredN).incoming t ht _ originZ.derives _ _ _ _ _

/-- Transitions that follow the properties read none that they change. The only property that they
read in one phase alone is `postTransitionIncoming`. -/
theorem steady_of_properties {ts : List (Transition DeclaredModule DepKind)}
    (properties : ∀ t ∈ ts, t.mutator = DeclaredModule.propertyTransition) {m : DeclaredModule}
    (always : m.postTransitionIncoming = none) : Transition.Steady ts m := by
  have derived : ∀ m', Transition.Derives ts m m' → m' = { m with mutated := m'.mutated } := by
    intro m' derives
    induction derives with
    | refl => rfl
    | tail _ changes ih =>
      obtain ⟨t, ht, value, changed⟩ := changes
      rw [properties t ht] at changed
      cases changed
      rw [ih]
  constructor
  · intro t ht m' derives v v' name tag tag' value
    rw [properties t ht, derived m' derives]
    rfl
  · intro t ht m' derives v v' phase phase' asked
    rw [properties t ht, derived m' derives]
    simp only [DeclaredModule.propertyTransition, DeclaredModule.incomingValue, always]

def agreeing : List DeclaredModule := [
  { name := "app", deps := ["base", "tool"], split := ["x", "y"] },
  { name := "base", deps := ["tool"], outgoing := some "w" },
  { name := "tool", split := ["t"] }]

/-- Of the many variants of `base` and `tool` each instance of `app` finds its own again. -/
theorem resolve_static_agreeing :
    ∃ g s, (osThenArch.take 2).resolve agreeing = .ok g ∧
      BottomUpMutator.site? false (transitions (osThenArch.passes.take 2)) g 2 = some s ∧
      (g.label 2, g.depLabels 2) = ("app(y_x)", ["base(y_x)", "tool(y_x)"]) ∧
      (g.variants "tool").map Variant.name =
        ["t_t", "w_t", "w_w", "x_t", "x_x", "x_y", "y_t", "y_x", "y_y"] ∧
      ∀ e ∈ s.self.deps, ∀ tag, s.resolve (.forward [] tag (g.groupName e.target) false) =
        .ok (some (2, ⟨e.target, tag, false⟩)) := by
  obtain ⟨g, s, ran, site, group, edges, variants⟩ :
      ∃ g s, (osThenArch.take 2).resolve agreeing = .ok g ∧
        BottomUpMutator.site? false (transitions (osThenArch.passes.take 2)) g 2 = some s ∧
        s.self.group = "app" ∧
        (g.label 2, g.depLabels 2) = ("app(y_x)", ["base(y_x)", "tool(y_x)"]) ∧
        (g.variants "tool").map Variant.name =
          ["t_t", "w_t", "w_w", "x_t", "x_x", "x_y", "y_t", "y_x", "y_y"] :=
    ⟨_, _, rfl, rfl, rfl, by decide +kernel, by decide +kernel⟩
  have properties : ∀ t ∈ transitions (osThenArch.passes.take 2),
      t.mutator = DeclaredModule.propertyTransition := by
    intro t ht
    rcases List.mem_pair.mp ht with rfl | rfl <;> rfl
  have steady : ∀ m ∈ agreeing, Transition.Steady (transitions (osThenArch.passes.take 2)) m := by
    intro m hm
    apply steady_of_properties properties
    revert m
    decide
  obtain ⟨found, all⟩ := resolve_static (by decide) ran steady site
    (m := agreeing[0]) (List.getElem_mem (by decide)) group.symm
  rw [← all (osThenArch_structural.take 2), List.take_length] at found
  exact ⟨g, s, ran, site, edges, variants, found⟩

end Pipeline

end BuildVariants
