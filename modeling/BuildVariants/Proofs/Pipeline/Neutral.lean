import BuildVariants.Proofs.BottomUp.Neutral
import BuildVariants.Proofs.Pipeline.Acyclic

/-!
# Neutral transitions in a run

A transition that leaves out all decisions may stand anywhere in a pipeline. The run comes to the
same graph up to its entries in the variants, which assign nothing, or fails in the same way: from the
place of the transition on, every pass does what it does without it.
-/

set_option autoImplicit false

namespace BuildVariants

variable {M T : Type}

structure Instance.Same (x y : Instance M T) : Prop where
  group : y.group = x.group
  label : y.label = x.label
  content : y.content = x.content
  deps : y.deps = x.deps
  variant : (x.variant == y.variant) = true

inductive SameOutcome : Except Failures (Graph M T) → Except Failures (Graph M T) → Prop
  | ok {g h : Graph M T} (groups : h.groups = g.groups)
      (instances : List.Forall₂ Instance.Same g.instances h.instances) : SameOutcome (.ok g) (.ok h)
  | error {fs gs : Failures}
      (items : List.Forall₂ (fun f f' => (f == f') = true ∧ f'.message = f.message) fs.items
        gs.items) : SameOutcome (.error fs) (.error gs)

def Pass.Discreet : Pass M T → Prop
  | .transition t => t.Discreet
  | .bottomUp _ b => b.Discreet

def BottomUpMutator.Chooses (b : BottomUpMutator M T) (g : Graph M T) (name : String) : Prop :=
  ∃ x ∈ g.instances, ∃ a ∈ (b.visit g x).1, ∃ c ∈ a.choices, c.mutator = name

/-- What a run without a mutator comes to, `r`, beside what the run with it comes to, `s`, in which
the mutator assigns nothing. -/
structure Unseen (name : String) (r s : Except Failures (Graph M T)) : Prop where
  outcome : r = (s.mapError (Failures.without name)).map (Graph.without name)
  failures : FailsWith (Failures.All (Failure.Blank name)) s
  graph : ∀ g, s = .ok g → g.Blank name

namespace Unseen

variable {name : String} {r s : Except Failures (Graph M T)}

/-- Runs that have gone along with each other do so as long as their further steps do. -/
theorem bind {k l : Graph M T → Except Failures (Graph M T)} (first : Unseen name r s)
    (rest : ∀ g, s = .ok g → g.Blank name → Unseen name (k (g.without name)) (l g)) :
    Unseen name (r >>= k) (s >>= l) where
  outcome := by
    rw [first.outcome, map_bind]
    exact bind_mapError_map fun g h => (rest g h (first.graph g h)).outcome
  failures := first.failures.bind fun g h => (rest g h (first.graph g h)).failures
  graph final h := by
    obtain ⟨g, ran, h⟩ := bind_eq_ok_iff.mp h
    exact (rest g ran (first.graph g ran)).graph final h

theorem ran (unseen : Unseen name r s) {g : Graph M T} (h : s = .ok g) : r = .ok (g.without name) := by
  rw [unseen.outcome, h]
  rfl

theorem of_plain {fs : Failures} (plain : fs.All Failure.Plain) :
    Unseen name (.error fs : Except Failures (Graph M T)) (.error fs) where
  outcome := congrArg Except.error (Failures.without_of_plain plain).symm
  failures := failsWith_error fun f hf => (plain f hf).blank
  graph := nofun

theorem same (unseen : Unseen name r s) : SameOutcome r s := by
  obtain ⟨rfl, failures, graph⟩ := unseen
  cases s with
  | error fs =>
    refine .error ?_
    rw [Failures.without, List.forall₂_map_left_iff, List.forall₂_same]
    exact fun f hf => ⟨(failures fs rfl f hf).beq_self, (failures fs rfl f hf).message_without.symm⟩
  | ok g =>
    refine .ok rfl ?_
    rw [Graph.without, Graph.mapInstances, List.forall₂_map_left_iff, List.forall₂_same]
    intro x hx
    have blank := graph g rfl x hx
    refine ⟨rfl, ?_, rfl, rfl, blank.beq_self⟩
    rw [Instance.label, Instance.label, Instance.without, blank.name_without]

end Unseen

variable [BuildModule M T]

theorem Graph.load_bare {settings : Settings} {modules : List M} {g : Graph M T}
    (h : load settings modules = .ok g) (name : String) : g.Blank name ∧ g.without name = g := by
  obtain ⟨rfl, _⟩ := load_ok h
  constructor
  · intro x hx
    obtain ⟨m, _, rfl⟩ := List.mem_map.mp hx
    exact Variant.Blank.empty
  · rw [without, mapInstances, initial, List.map_map]
    rfl

theorem Transition.run_plain (t : Transition M T) {g : Graph M T} (wf : g.WellFormed) :
    FailsWith (Failures.All Failure.Plain) (t.run g) := by
  intro fs h
  rcases t.run_fails g wf h with ⟨f, unordered, rfl⟩ | all
  · exact Failures.all_single (g.topDown_plain f unordered)
  · exact fun f hf => (all f hf).plain

section Steps

variable {name : String} {g : Graph M T} (blank : g.Blank name)

include blank

theorem Transition.run_unseen {t : Transition M T} (other : t.name ≠ name) (discreet : t.Discreet)
    (wf : g.WellFormed) : Unseen name (t.run (g.without name)) (t.run g) where
  outcome := by
    have overlooks := discreet.overlooks other
    have same : (t.run g).mapError (Failures.without name) = t.run g :=
      Failures.mapError_without_of_plain (t.run_plain wf)
    rw [same]
    exact overlooks.run blank
  failures fs h f hf := (t.run_plain wf fs h f hf).blank
  graph _ h := (discreet.overlooks other).run_keeps wf blank h

theorem BottomUpMutator.run_unseen {b : BottomUpMutator M T} {allowMissing : Bool}
    {completed : List (Transition M T)} (discreet : b.Discreet) (wf : g.WellFormed)
    (heedless : ∀ t ∈ completed, t.Heedless name) (unnamed : ¬ b.Chooses (g.without name) name) :
    Unseen name (b.run allowMissing (completed.filter fun t => t.name ≠ name) (g.without name))
      (b.run allowMissing completed g) := by
  have others : ∀ x ∈ g.instances, ∀ a ∈ (b.visit g x).1, ∀ c ∈ a.choices, c.mutator ≠ name := by
    intro x hx a ha c hc named
    rw [← discreet blank.alike (Instance.alike_without (blank x hx))] at ha
    exact unnamed ⟨x.without name, List.mem_map_of_mem hx, a, ha, c, hc, named⟩
  refine ⟨run_without discreet blank heedless others, run_blank discreet blank heedless others, ?_⟩
  intro next ran
  obtain ⟨added, rfl, _⟩ := run_addEdges wf ran
  exact blank.addEdges added

end Steps

namespace Pipeline

def insert (p : Pipeline M T) (position : Nat) (pass : Pass M T) : Pipeline M T :=
  { p with passes := p.passes.take position ++ pass :: p.passes.drop position }

def Chooses (p : Pipeline M T) (modules : List M) (name : String) : Prop :=
  ∃ count g pass b, (p.take count).resolve modules = .ok g ∧
    p.passes[count]? = some (.bottomUp pass b) ∧ b.Chooses g name

def ChoosesFrom (settings : Settings) (passes : List (Pass M T)) (completed : List (Transition M T))
    (g : Graph M T) (name : String) : Prop :=
  ∃ count next pass b, runPasses settings (passes.take count) completed g = .ok next ∧
    passes[count]? = some (.bottomUp pass b) ∧ b.Chooses next name

section Choices

variable {settings : Settings} {first last : List (Pass M T)} {completed : List (Transition M T)}
  {g next : Graph M T} {name : String}

theorem ChoosesFrom.after (ran : runPasses settings first completed g = .ok next)
    (chooses : ChoosesFrom settings last (completed ++ transitions first) next name) :
    ChoosesFrom settings (first ++ last) completed g name := by
  obtain ⟨count, reached, pass, b, further, there, chosen⟩ := chooses
  refine ⟨first.length + count, reached, pass, b, ?_, ?_, chosen⟩
  · rw [List.take_length_add_append, runPasses_append, ran]
    exact further
  · rw [List.getElem?_append_right (Nat.le_add_right _ _), Nat.add_sub_cancel_left, there]

theorem ChoosesFrom.before (last : List (Pass M T))
    (chooses : ChoosesFrom settings first completed g name) :
    ChoosesFrom settings (first ++ last) completed g name := by
  obtain ⟨count, reached, pass, b, ran, there, chosen⟩ := chooses
  obtain ⟨inside, _⟩ := List.getElem?_eq_some_iff.mp there
  refine ⟨count, reached, pass, b, ?_, ?_, chosen⟩
  · rwa [List.take_append_of_le_length inside.le]
  · rwa [List.getElem?_append_left inside]

theorem ChoosesFrom.cons {pass : Pass M T} (ran : runPasses settings [pass] completed g = .ok next)
    (chooses : ChoosesFrom settings last (completed ++ transitions [pass]) next name) :
    ChoosesFrom settings (pass :: last) completed g name := chooses.after ran

theorem ChoosesFrom.resolve {p : Pipeline M T} {modules : List M} {loaded : Graph M T}
    {order : List Nat} (isLoaded : Graph.load p.settings modules = .ok loaded)
    (found : loaded.topDown = .ok order)
    (chooses : ChoosesFrom p.settings p.passes [] loaded name) : p.Chooses modules name := by
  obtain ⟨count, reached, pass, b, ran, there, chosen⟩ := chooses
  exact ⟨count, reached, pass, b, resolve_eq_ok_iff.mpr ⟨loaded, order, isLoaded, found, ran⟩, there,
    chosen⟩

end Choices

section Runs

variable {settings : Settings} {passes : List (Pass M T)} {completed : List (Transition M T)}
  {g : Graph M T} {name : String}

/-- Passes none of which minds a mutator without a value come to what they come to without it. -/
theorem runPasses_unseen (discreet : ∀ pass ∈ passes, pass.Discreet)
    (fresh : name ∉ (transitions passes).map Transition.name)
    (heedless : ∀ t ∈ completed, t.Heedless name) (wf : g.WellFormed) (blank : g.Blank name)
    (unnamed : ¬ ChoosesFrom settings passes (completed.filter fun t => t.name ≠ name)
      (g.without name) name) :
    Unseen name
      (runPasses settings passes (completed.filter fun t => t.name ≠ name) (g.without name))
      (runPasses settings passes completed g) := by
  -- The two runs stay in step: the one without the mutator has at each pass the graph of the other
  -- without it, and the same transitions completed except for the mutator.
  induction passes generalizing completed g with
  | nil => exact ⟨rfl, failsWith_ok _, fun _ h => Except.ok.inj h ▸ blank⟩
  | cons pass passes ih =>
    have discreetRest : ∀ pass ∈ passes, pass.Discreet := fun pass hp => discreet pass (by simp [hp])
    cases pass with
    | transition t =>
      have other : t.name ≠ name := (List.ne_of_not_mem_cons fresh).symm
      have freshRest := List.not_mem_of_not_mem_cons fresh
      have own : t.Discreet := discreet (.transition t) (by simp)
      have heedlessRest : ∀ u ∈ completed ++ [t], u.Heedless name := by
        intro u hu
        rcases List.mem_append.mp hu with old | new
        · exact heedless u old
        · exact List.mem_singleton.mp new ▸ Or.inr ⟨other, own⟩
      have passed : (completed ++ [t]).filter (fun u => u.name ≠ name) =
          completed.filter (fun u => u.name ≠ name) ++ [t] := by
        simp [List.filter_append, other]
      have step := t.run_unseen blank other own wf
      refine step.bind fun next ran blankNext => ?_
      rw [← passed]
      refine ih discreetRest freshRest heedlessRest (t.run_wellFormed wf ran) blankNext ?_
      rw [passed]
      exact fun chosen => unnamed (chosen.cons (bind_eq_ok_iff.mpr ⟨_, step.ran ran, rfl⟩))
    | bottomUp pass b =>
      have quiet : ¬ b.Chooses (g.without name) name :=
        fun chosen => unnamed ⟨0, _, pass, b, rfl, rfl, chosen⟩
      have step : Unseen name
          (b.run settings.allowMissing (completed.filter fun t => t.name ≠ name) (g.without name))
          (b.run settings.allowMissing completed g) :=
        BottomUpMutator.run_unseen blank (discreet (.bottomUp pass b) (by simp)) wf heedless quiet
      refine step.bind fun next ran blankNext => ?_
      refine ih discreetRest fresh heedless (BottomUpMutator.run_wellFormed wf ran) blankNext ?_
      intro chosen
      refine unnamed (ChoosesFrom.cons (bind_eq_ok_iff.mpr ⟨_, step.ran ran, rfl⟩) ?_)
      rwa [transitions, List.filterMap_cons, List.filterMap_nil, List.append_nil]

theorem runPasses_neutral (neverFar : Bool) (discreet : ∀ pass ∈ passes, pass.Discreet)
    (fresh : name ∉ (transitions passes).map Transition.name)
    (earlier : ∀ t ∈ completed, t.name ≠ name ∧ t.Discreet) (wf : g.WellFormed) (acyclic : g.Acyclic)
    (blank : g.Blank name) (unnamed : ¬ ChoosesFrom settings passes completed (g.without name) name) :
    Unseen name (runPasses settings passes completed (g.without name))
      (runPasses settings (.transition (.neutral name neverFar) :: passes) completed g) := by
  let neutral : Transition M T := .neutral name neverFar
  let next := g.mapInstances (Transition.setDefault name)
  have ran : neutral.run g = .ok next := Transition.neutral_run wf acyclic
  have step : runPasses settings (.transition neutral :: passes) completed g =
      runPasses settings passes (completed ++ [neutral]) next := by
    rw [runPasses, ran]
    rfl
  have others : (completed ++ [neutral]).filter (fun t => t.name ≠ name) = completed := by
    rw [List.filter_append, List.filter_eq_self.mpr fun t ht => decide_eq_true (earlier t ht).1]
    simp [neutral, Transition.neutral]
  have heedless : ∀ t ∈ completed ++ [neutral], t.Heedless name := by
    intro t ht
    rcases List.mem_append.mp ht with old | new
    · exact Or.inr (earlier t old)
    · exact Or.inl ⟨neverFar, List.mem_singleton.mp new⟩
  have without : next.without name = g.without name := Transition.setDefault_without name g
  rw [step, ← without]
  rw [← without, ← others] at unnamed
  have later := runPasses_unseen discreet fresh heedless (neutral.run_wellFormed wf ran)
    (Transition.setDefault_blank blank) unnamed
  rwa [others] at later

omit [BuildModule M T] in
theorem discreet_of_mem_transitions (discreet : ∀ pass ∈ passes, pass.Discreet)
    {t : Transition M T} (ht : t ∈ transitions passes) : t.Discreet := by
  obtain ⟨pass, hpass, made⟩ := List.mem_filterMap.mp ht
  cases pass with
  | transition u => exact Option.some.inj made ▸ discreet _ hpass
  | bottomUp pass b => cases made

/-- The neutral transition may stand before any of the passes, and changes nothing in the others. -/
theorem runPasses_insert {first last : List (Pass M T)} (neverFar : Bool)
    (discreet : ∀ pass ∈ first ++ last, pass.Discreet)
    (fresh : name ∉ (transitions (first ++ last)).map Transition.name) (wf : g.WellFormed)
    (acyclic : g.Acyclic) (blank : g.Blank name) (bare : g.without name = g)
    (unnamed : ¬ ChoosesFrom settings (first ++ last) [] g name) :
    Unseen name (runPasses settings (first ++ last) [] g)
      (runPasses settings (first ++ .transition (.neutral name neverFar) :: last) [] g) := by
  obtain ⟨discreetFirst, discreetLast⟩ := List.forall_mem_append.mp discreet
  obtain ⟨freshFirst, freshLast⟩ : name ∉ (transitions first).map Transition.name ∧
      name ∉ (transitions last).map Transition.name := by
    simpa [transitions, List.filterMap_append] using fresh
  have earlier : ∀ t ∈ transitions first, t.name ≠ name ∧ t.Discreet := fun t ht =>
    ⟨fun named => freshFirst (named ▸ List.mem_map_of_mem ht),
      discreet_of_mem_transitions discreetFirst ht⟩
  have quiet : ¬ ChoosesFrom settings first [] (g.without name) name := by
    rw [bare]
    exact fun chosen => unnamed (chosen.before last)
  -- Before the place of the transition there is only one run, in which nobody has its name.
  have before : Unseen name (runPasses settings first [] (g.without name))
      (runPasses settings first [] g) :=
    runPasses_unseen discreetFirst freshFirst (fun _ none => absurd none List.not_mem_nil) wf blank
      quiet
  rw [bare] at before
  rw [runPasses_append, runPasses_append]
  refine before.bind fun next ran blankNext => ?_
  obtain ⟨wfNext, acyclicNext⟩ := runPasses_keeps (acyclic_invariant settings) ⟨wf, acyclic⟩ ran
  exact runPasses_neutral neverFar discreetLast freshLast earlier wfNext acyclicNext blankNext
    fun chosen => unnamed (chosen.after (before.ran ran))

end Runs

section Declared

open DeclaredModule

theorem propertyTransition_discreet (name : String) (neverFar : Bool) :
    Transition.Discreet ⟨name, neverFar, propertyTransition⟩ where
  split _ _ := rfl
  outgoing _ _ _ _ _ := rfl
  incoming _ _ _ _ := rfl

theorem lateDependencies_discreet (mutator : String) : (lateDependencies mutator).Discreet := by
  intro g h x y _ alike
  simp only [lateDependencies, alike.content]

theorem eq_of_lateDependencies_chooses {mutator name : String} {g : Graph DeclaredModule DepKind}
    (h : (lateDependencies mutator).Chooses g name) : name = mutator := by
  obtain ⟨x, _, a, ha, c, hc, rfl⟩ := h
  simp only [lateDependencies, additions, List.mem_append, List.mem_map] at ha
  rcases ha with ((⟨r, _, rfl⟩ | ⟨dep, _, rfl⟩) | ⟨dep, _, rfl⟩) | ⟨r, _, rfl⟩ <;>
    simp [Addition.choices] at hc
  · obtain ⟨_, _, rfl⟩ := hc
    rfl
  · rw [hc]

theorem layered_discreet : ∀ pass ∈ layered.passes, pass.Discreet := by
  intro pass hpass
  simp only [layered, List.mem_cons, List.not_mem_nil, or_false] at hpass
  rcases hpass with rfl | rfl | rfl
  · exact propertyTransition_discreet _ _
  · exact lateDependencies_discreet _
  · exact propertyTransition_discreet _ _

theorem layered_chooses {modules : List DeclaredModule} {name : String}
    (h : layered.Chooses modules name) : name = "os" := by
  obtain ⟨count, g, pass, b, _, there, chosen⟩ := h
  have member := List.mem_of_getElem? there
  simp only [layered, List.mem_cons, List.not_mem_nil, or_false, reduceCtorEq, false_or,
    Pass.bottomUp.injEq] at member
  obtain ⟨_, rfl⟩ := member
  exact eq_of_lateDependencies_chooses chosen

end Declared

/-- A transition that leaves out all decisions may be put anywhere into a pipeline, under a name that
no transition has and no addition chooses a value for. As long as the other mutators see of variants
only what can be asked of them, the run ends as without it: in the same graph, where every variant
equals the one without it, or in equal failures in the same order. -/
theorem resolve_neutral {p : Pipeline M T} {modules : List M} {name : String}
    (fresh : name ∉ p.dimensions) (unnamed : ¬ p.Chooses modules name)
    (discreet : ∀ pass ∈ p.passes, pass.Discreet) (position : Nat) (neverFar : Bool) :
    SameOutcome (p.resolve modules)
      ((p.insert position (.transition (.neutral name neverFar))).resolve modules) := by
  refine Unseen.same (?_ : Unseen name _ _)
  have same : (p.insert position (.transition (.neutral name neverFar))).settings = p.settings := rfl
  rw [resolve, resolve, same]
  cases isLoaded : Graph.load p.settings modules with
  | error fs => exact .of_plain (Graph.load_plain p.settings modules fs isLoaded)
  | ok loaded =>
    simp only [bind, Except.bind]
    cases found : loaded.topDown with
    | error f => exact .of_plain (Failures.all_single (loaded.topDown_plain f found))
    | ok order =>
      have wf := (Graph.load_settled isLoaded).toWellFormed
      have acyclic : loaded.Acyclic := (loaded.topDown_ok wf.targets_valid found).acyclic
      have quiet : ¬ ChoosesFrom p.settings p.passes [] loaded name :=
        fun chosen => unnamed (chosen.resolve isLoaded found)
      obtain ⟨blank, bare⟩ := Graph.load_bare isLoaded name
      rw [dimensions_eq] at fresh
      rw [← List.take_append_drop position p.passes] at fresh discreet quiet
      have both := runPasses_insert neverFar discreet fresh wf acyclic blank bare quiet
      rwa [List.take_append_drop] at both

def smallLibrary : List DeclaredModule := [
  { name := "app", deps := ["base"], split := ["x"] },
  { name := "base", postTransitionDeps := [⟨"tool", some "t"⟩] },
  { name := "tool", split := ["t"] }]

/-- The transition between the two others takes part when the edges to `tool` are added. It leaves its
entries in the variants, and no other trace. -/
theorem resolve_neutral_between :
    "between" ∉ layered.dimensions ∧ ¬ layered.Chooses smallLibrary "between" ∧
      (∀ pass ∈ layered.passes, pass.Discreet) ∧ ∃ g h, layered.resolve smallLibrary = .ok g ∧
      (layered.insert 1 (.transition (.neutral "between" false))).resolve smallLibrary = .ok h ∧
      ((List.range h.size).map fun n => (h.label n, h.depLabels n)) = [
        ("app(x_x)", ["base(x_x)"]), ("base()", ["tool(t)"]), ("base(x)", ["tool(t)"]),
        ("base(x_x)", ["tool(t_x)"]), ("tool(t_t)", []), ("tool(t)", []), ("tool(t_x)", [])] ∧
      (g.variant 6).entries = [⟨"os", "t"⟩, ⟨"arch", "x"⟩] ∧
      (h.variant 6).entries = [⟨"os", "t"⟩, ⟨"between", ""⟩, ⟨"arch", "x"⟩] ∧
      SameOutcome (.ok g) (.ok h) := by
  have fresh : "between" ∉ layered.dimensions := by decide
  have unnamed : ¬ layered.Chooses smallLibrary "between" := fun chosen =>
    absurd (layered_chooses chosen) (by decide)
  obtain ⟨g, ran, entries⟩ : ∃ g, layered.resolve smallLibrary = .ok g ∧
      (g.variant 6).entries = [⟨"os", "t"⟩, ⟨"arch", "x"⟩] := ⟨_, rfl, by decide +kernel⟩
  obtain ⟨h, ran', labels, entries'⟩ :
      ∃ h, (layered.insert 1 (.transition (.neutral "between" false))).resolve smallLibrary = .ok h ∧
      ((List.range h.size).map fun n => (h.label n, h.depLabels n)) = [
        ("app(x_x)", ["base(x_x)"]), ("base()", ["tool(t)"]), ("base(x)", ["tool(t)"]),
        ("base(x_x)", ["tool(t_x)"]), ("tool(t_t)", []), ("tool(t)", []), ("tool(t_x)", [])] ∧
      (h.variant 6).entries = [⟨"os", "t"⟩, ⟨"between", ""⟩, ⟨"arch", "x"⟩] :=
    ⟨_, rfl, by decide +kernel, by decide +kernel⟩
  have same := resolve_neutral fresh unnamed layered_discreet 1 false
  rw [ran, ran'] at same
  exact ⟨fresh, unnamed, layered_discreet, g, h, ran, ran', labels, entries, entries', same⟩

end Pipeline

end BuildVariants
