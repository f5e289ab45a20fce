import BuildVariants.Proofs.Pipeline.Run
import BuildVariants.Proofs.Transition.Unfolding
import BuildVariants.Ruled.Action

/-!
# Histories of instances

A pass copies the content of an instance for each of its variations and then tells every copy its own
one. Whatever the copies have in common with their siblings, in the end the content of an instance is
what its declared module becomes when it is told the values of the instance's variant, one transition
after the other.
-/

set_option autoImplicit false

namespace BuildVariants

variable {M T : Type}

namespace Transition

def tellAll (ts : List (Transition M T)) (v : Variant) (m : M) : Except (MutationError M) M :=
  ts.foldlM (fun m t => t.mutator.mutate m (v.get t.name)) m

theorem tellAll_concat {ts : List (Transition M T)} {t : Transition M T} {v : Variant} {m : M} :
    tellAll (ts ++ [t]) v m = (tellAll ts v m >>= fun told => t.mutator.mutate told (v.get t.name)) := by
  rw [tellAll, List.foldlM_append]
  simp only [List.foldlM_cons, List.foldlM_nil, bind_pure]
  rfl

theorem tellAll_congr {ts : List (Transition M T)} {v w : Variant}
    (same : ∀ t ∈ ts, v.get t.name = w.get t.name) (m : M) : tellAll ts v m = tellAll ts w m := by
  induction ts generalizing m with
  | nil => rfl
  | cons t rest ih =>
    rw [tellAll, tellAll, List.foldlM_cons, List.foldlM_cons, same t (by simp)]
    exact congrArg _ (funext fun told => ih (fun u hu => same u (by simp [hu])) told)

theorem tellAll_set {ts : List (Transition M T)} {t : Transition M T}
    (new : t.name ∉ ts.map Transition.name) (v : Variant) (value : String) (m : M) :
    tellAll ts (v.set t.name value) m = tellAll ts v m := by
  apply tellAll_congr
  intro u hu
  have other : u.name ≠ t.name := fun same => new (same ▸ List.mem_map_of_mem hu)
  rw [Variant.get_set, if_neg other]

end Transition

variable [BuildModule M T]

/-- Every instance holds what its declared module became when the completed transitions told it the
values of the instance's variant. -/
def Graph.Told (modules : List M) (completed : List (Transition M T)) (g : Graph M T) : Prop :=
  ∀ i x, g.instance? i = some x → ∃ m ∈ modules, BuildModule.name m = x.group ∧
    Transition.tellAll completed x.variant m = .ok x.content

theorem Graph.initial_told (modules : List M) :
    (Graph.initial modules : Graph M T).Told modules [] := by
  intro i x hx
  rw [Graph.instance?_initial] at hx
  obtain ⟨m, hm, rfl⟩ := Option.map_eq_some_iff.mp hx
  exact ⟨m, List.mem_of_getElem? hm, rfl, rfl⟩

theorem Graph.Told.addEdges {modules : List M} {completed : List (Transition M T)} {g : Graph M T}
    (told : g.Told modules completed) (added : List (Nat × Edge T)) :
    (g.addEdges added).Told modules completed := by
  intro i y hy
  rw [Graph.instance?_addEdges] at hy
  obtain ⟨x, hx, rfl⟩ := Option.map_eq_some_iff.mp hy
  exact told i x hx

/-- A pass of a new transition goes on with the history of the old instance, for its own variation. -/
theorem Transition.run_told {modules : List M} {completed : List (Transition M T)}
    {t : Transition M T} {g next : Graph M T} (wf : g.WellFormed)
    (new : t.name ∉ completed.map Transition.name) (told : g.Told modules completed)
    (h : t.run g = .ok next) : next.Told modules (completed ++ [t]) := by
  obtain ⟨plans, rewired, planned, carried, mutated⟩ := run_eq_ok_iff.mp h
  have accepted := plan_accepted wf.targets_valid planned
  intro n y hy
  obtain ⟨i, v, x, _, hx, _, changed, led⟩ := run_key wf accepted carried mutated hy
  obtain ⟨m, declared, named, history⟩ := told i x hx
  have variant : y.variant = x.variant.set t.name v := by rw [led]
  have group : y.group = x.group := by rw [led]
  refine ⟨m, declared, named.trans group.symm, ?_⟩
  have own : y.variant.get t.name = v := by rw [variant, Variant.get_set, if_pos rfl]
  rw [tellAll_concat, own, variant, tellAll_set new, history]
  exact changed

namespace Pipeline

theorem told_invariant (settings : Settings) (modules : List M) :
    Invariant settings fun completed (g : Graph M T) => (completed.map Transition.name).Nodup →
      g.WellFormed ∧ g.Told modules completed where
  transition {completed g t next} kept ran distinct := by
    rw [List.map_append, List.map_singleton, ← List.concat_eq_append,
      List.nodup_concat] at distinct
    obtain ⟨wf, told⟩ := kept distinct.2
    exact ⟨Transition.run_wellFormed wf ran, Transition.run_told wf distinct.1 told ran⟩
  bottomUp kept ran distinct := by
    obtain ⟨wf, told⟩ := kept distinct
    obtain ⟨added, rfl, ends⟩ := BottomUpMutator.run_addEdges wf ran
    exact ⟨wf.addEdges ends, told.addEdges added⟩

/-- The content of an instance after a run is what its declared module, the only one of its name,
becomes when every transition of the pipeline tells it, once and in their order, the value that the
instance has in its dimension. -/
theorem resolve_told {p : Pipeline M T} (distinct : p.dimensions.Nodup) {modules : List M}
    {g : Graph M T} (h : p.resolve modules = .ok g) {id : Nat} {x : Instance M T}
    (hx : g.instance? id = some x) :
    x.variant.entries.map Variation.mutator = p.dimensions ∧
      ∃ m ∈ modules, BuildModule.name m = x.group ∧
        (∀ m' ∈ modules, BuildModule.name m' = x.group → m' = m) ∧
        (transitions p.passes).foldlM (fun told t => t.mutator.mutate told (x.variant.get t.name)) m =
          .ok x.content := by
  obtain ⟨loaded, _, isLoaded, _, ran⟩ := resolve_eq_ok_iff.mp h
  obtain ⟨rfl, nodup⟩ := Graph.load_ok isLoaded
  have start := (Graph.load_settled isLoaded).toWellFormed
  have settled := resolve_settled distinct h
  refine ⟨settled.entries x (Graph.mem_instances hx), ?_⟩
  rw [dimensions_eq] at distinct
  obtain ⟨_, told⟩ := runPasses_keeps (told_invariant p.settings modules)
    (fun _ => ⟨start, Graph.initial_told modules⟩) ran distinct
  obtain ⟨m, declared, named, history⟩ := told id x hx
  refine ⟨m, declared, named, fun m' declared' named' => ?_, history⟩
  exact List.inj_on_of_nodup_map nodup declared' declared (named'.trans named.symm)

section Recorded

open Ruled

def recorded : Pipeline RuledModule String where
  settings := ⟨false⟩
  passes := [
    .transition ⟨"arch", false, RuledModule.ruledTransition "arch"⟩,
    .bottomUp "late" (Action.mutator [⟨.depend false, some "app", none, [], "late", ["tool"], ""⟩]),
    .transition ⟨"link", false, RuledModule.ruledTransition "link"⟩]

def recordedModules : List RuledModule := [
  ⟨"app", [], none, [("arch", { split := some ["x", ""] }), ("link", { split := some ["a", "b"] })], []⟩,
  ⟨"tool", [], none, [("arch", { split := some ["", "x"] })], []⟩]

/-- These modules write down what they are told. The four copies of `app` have records of their own,
and so has the `tool` of each. -/
theorem resolve_told_recorded :
    recorded.dimensions.Nodup ∧ ∃ g x, recorded.resolve recordedModules = .ok g ∧
      g.instances.map (fun y => (y.label, y.content.mutated)) = [
        ("app(x_a)", ["arch=x", "link=a"]), ("app(x_b)", ["arch=x", "link=b"]),
        ("app(a)", ["arch=", "link=a"]), ("app(b)", ["arch=", "link=b"]),
        ("tool()", ["arch=", "link="]), ("tool(a)", ["arch=", "link=a"]),
        ("tool(b)", ["arch=", "link=b"]), ("tool(x)", ["arch=x", "link="]),
        ("tool(x_a)", ["arch=x", "link=a"]), ("tool(x_b)", ["arch=x", "link=b"])] ∧
      g.instance? 9 = some x ∧ x.variant.entries.map Variation.mutator = ["arch", "link"] ∧
      ∃ m ∈ recordedModules, m.name = x.group ∧
        (∀ m' ∈ recordedModules, m'.name = x.group → m' = m) ∧
        (transitions recorded.passes).foldlM
          (fun told t => t.mutator.mutate told (x.variant.get t.name)) m = .ok x.content := by
  have distinct : recorded.dimensions.Nodup := by decide
  obtain ⟨g, x, h, records, hx⟩ : ∃ g x, recorded.resolve recordedModules = .ok g ∧
      g.instances.map (fun y => (y.label, y.content.mutated)) = [
        ("app(x_a)", ["arch=x", "link=a"]), ("app(x_b)", ["arch=x", "link=b"]),
        ("app(a)", ["arch=", "link=a"]), ("app(b)", ["arch=", "link=b"]),
        ("tool()", ["arch=", "link="]), ("tool(a)", ["arch=", "link=a"]),
        ("tool(b)", ["arch=", "link=b"]), ("tool(x)", ["arch=x", "link="]),
        ("tool(x_a)", ["arch=x", "link=a"]), ("tool(x_b)", ["arch=x", "link=b"])] ∧
      g.instance? 9 = some x := ⟨_, _, rfl, by decide +kernel, rfl⟩
  exact ⟨distinct, g, x, h, records, hx, resolve_told distinct h hx⟩

end Recorded

end Pipeline

end BuildVariants
