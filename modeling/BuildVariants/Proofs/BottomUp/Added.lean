import BuildVariants.Proofs.BottomUp.Renumbering

/-!
# What a pass adds to an instance

The edges that a pass adds to one instance come from the visits of all instances, in the order of the
visits. Up to that order they are what the visits call for, taken in the order of the arena.
-/

set_option autoImplicit false

namespace BuildVariants

variable {M T : Type}

theorem flatMap_perm_of_single {ι α : Type} {l : List ι} (nodup : l.Nodup) {i : ι} (hi : i ∈ l)
    {front back : ι → List α} (others : ∀ j ∈ l, j ≠ i → front j = []) :
    (l.flatMap fun j => front j ++ back j).Perm (front i ++ l.flatMap back) := by
  have single : l.flatMap front = front i := by
    obtain ⟨first, last, rfl⟩ := List.append_of_mem hi
    have apart := List.nodup_append.mp nodup
    have before : first.flatMap front = [] := by
      rw [List.flatMap_eq_nil_iff]
      intro j hj
      exact others j (by simp [hj]) (apart.2.2 j hj i (by simp))
    have after : last.flatMap front = [] := by
      rw [List.flatMap_eq_nil_iff]
      intro j hj
      exact others j (by simp [hj]) fun same => (List.nodup_cons.mp apart.2.1).1 (same ▸ hj)
    rw [List.flatMap_append, List.flatMap_cons, before, after, List.nil_append, List.append_nil]
  rw [← single]
  exact (List.flatMap_append_perm l front back).symm

variable [BuildModule M T]

namespace Site

variable {s : Site M T}

def called (s : Site M T) (a : Addition T) : Option (Nat × Edge T) :=
  match s.resolve a with
  | .ok edge => edge
  | .error _ => none

theorem called_of_ok {a : Addition T} {edge : Option (Nat × Edge T)} (h : s.resolve a = .ok edge) :
    s.called a = edge := by
  rw [called, h]

theorem called_forward {choices : List Variation} {tag : T} {name : String} {far : Bool}
    {p : Nat × Edge T} (h : s.called (.forward choices tag name far) = some p) : p.1 = s.id := by
  cases outcome : s.resolve (.forward choices tag name far) with
  | error f => simp [called, outcome] at h
  | ok edge =>
    obtain rfl := (called_of_ok outcome).symm.trans h
    obtain ⟨_, _, _, _, _, rfl⟩ := forwardEdge_added outcome
    rfl

theorem called_undefined {name : String} (undefined : s.graph.group? name = none)
    (choices : List Variation) (tag : T) (far : Bool) :
    s.called (.forward choices tag name far) = none ∧ s.called (.reverse choices tag name) = none := by
  cases missing : s.allowMissing <;>
    simp [called, resolve, forwardEdge, reverseEdge, undefined, missing]

def addedTo (s : Site M T) (i : Nat) (additions : List (Addition T)) : List (Edge T) :=
  additions.filterMap fun a => (s.called a).bind fun p => if p.1 = i then some p.2 else none

theorem addedTo_append (i : Nat) (first last : List (Addition T)) :
    s.addedTo i (first ++ last) = s.addedTo i first ++ s.addedTo i last :=
  List.filterMap_append

theorem addedTo_eq (i : Nat) (additions : List (Addition T)) : s.addedTo i additions =
    ((additions.filterMap s.called).filter fun p => p.1 = i).map Prod.snd := by
  induction additions with
  | nil => rfl
  | cons a rest ih =>
    rw [addedTo] at ih ⊢
    cases calls : s.called a with
    | none => rw [List.filterMap_cons_none (by rw [calls, Option.bind_none]), ih,
        List.filterMap_cons_none calls]
    | some p => by_cases here : p.1 = i <;> simp [calls, here, ih]

theorem addedTo_eq_nil {i : Nat} {additions : List (Addition T)}
    (elsewhere : ∀ a ∈ additions, ∀ p, s.called a = some p → p.1 ≠ i) :
    s.addedTo i additions = [] := by
  rw [addedTo, List.filterMap_eq_nil_iff]
  intro a ha
  rw [Option.bind_eq_none_iff]
  exact fun p calls => if_neg (elsewhere a ha p calls)

/-- Each of the additions that pass a test adds one edge, the others add none. -/
theorem addedTo_forall₂ {ι : Type} {i : Nat} (addition : ι → Addition T) {test : ι → Bool}
    {R : ι → Edge T → Prop} {entries : List ι}
    (passing : ∀ a ∈ entries, test a = true → ∃ e, s.called (addition a) = some (i, e) ∧ R a e)
    (failing : ∀ a ∈ entries, test a = false → s.called (addition a) = none) :
    List.Forall₂ R (entries.filter test) (s.addedTo i (entries.map addition)) := by
  rw [addedTo, List.filterMap_map]
  refine Graph.forall₂_filterMap (fun a ha passes => ?_) fun a ha fails => ?_
  · obtain ⟨e, calls, related⟩ := passing a ha passes
    exact ⟨e, by simp [calls], related⟩
  · simp [failing a ha fails]

theorem addedTo_eq_map {ι : Type} {i : Nat} (addition : ι → Addition T) {test : ι → Bool}
    {e : Edge T} {entries : List ι}
    (passing : ∀ a ∈ entries, test a = true → s.called (addition a) = some (i, e))
    (failing : ∀ a ∈ entries, test a = false → ∀ p, s.called (addition a) = some p → p.1 ≠ i) :
    s.addedTo i (entries.map addition) = (entries.filter test).map fun _ => e := by
  induction entries with
  | nil => rfl
  | cons a rest ih =>
    have later := ih (fun c hc => passing c (by simp [hc])) fun c hc => failing c (by simp [hc])
    rw [List.map_cons, ← List.singleton_append, addedTo_append, later]
    cases passes : test a with
    | true =>
      rw [List.filter_cons_of_pos passes, List.map_cons]
      simp [addedTo, passing a (by simp) passes]
    | false =>
      have none : s.addedTo i [addition a] = [] :=
        addedTo_eq_nil fun c hc => List.mem_singleton.mp hc ▸ failing a (by simp) passes
      rw [List.filter_cons_of_neg (by simp [passes]), none, List.nil_append]

end Site

namespace BottomUpMutator

variable {b : BottomUpMutator M T} {allowMissing : Bool} {completed : List (Transition M T)}
  {g next : Graph M T}

theorem edges_visitAt (s : Site M T) :
    (b.visitAt s).2 = (b.visit s.graph s.self).1.filterMap s.called := by
  simp only [visitAt, List.filterMap_map]
  rfl

variable (allowMissing completed g) in
/-- The edges of the instance `i` that the instance at the index `j` calls for, where `asks` says what
an instance asks for. -/
def addedBy (asks : Instance M T → List (Addition T)) (i j : Nat) : List (Edge T) :=
  ((site? allowMissing completed g j).map fun s => s.addedTo i (asks s.self)).getD []

theorem addedBy_of_instance {asks : Instance M T → List (Addition T)} {i j : Nat}
    {y : Instance M T} (hy : g.instance? j = some y) : addedBy allowMissing completed g asks i j =
      Site.addedTo ⟨g, completed, allowMissing, j, y⟩ i (asks y) := by
  rw [addedBy, site?, hy]
  rfl

theorem addedBy_of_none {asks : Instance M T → List (Addition T)} {i j : Nat}
    (hj : g.instance? j = none) : addedBy allowMissing completed g asks i j = [] := by
  rw [addedBy, site?, hj]
  rfl

theorem addedBy_append (first last : Instance M T → List (Addition T)) (i j : Nat) :
    addedBy allowMissing completed g (fun x => first x ++ last x) i j =
      addedBy allowMissing completed g first i j ++ addedBy allowMissing completed g last i j := by
  cases hj : g.instance? j with
  | none => simp only [addedBy_of_none hj, List.append_nil]
  | some y => simp only [addedBy_of_instance hj, Site.addedTo_append]

theorem addedBy_visit (i : Nat) :
    addedBy allowMissing completed g (fun x => (b.visit g x).1) i = fun j =>
      ((b.visited allowMissing completed g j).2.filter fun p => p.1 = i).map Prod.snd := by
  funext j
  cases hj : g.instance? j with
  | none =>
    rw [addedBy_of_none hj, visited, site?, hj]
    rfl
  | some y =>
    rw [addedBy_of_instance hj, visited, site?, hj, Option.map_some, Option.map_some,
      Option.getD_some, edges_visitAt, Site.addedTo_eq]

theorem run_resolves (wf : g.WellFormed) (h : b.run allowMissing completed g = .ok next) {j : Nat}
    {s : Site M T} (site : site? allowMissing completed g j = some s) {a : Addition T}
    (ha : a ∈ (b.visit s.graph s.self).1) : ∃ edge, s.resolve a = .ok edge := by
  obtain ⟨order, _, found, clean, _⟩ := run_eq_ok_iff.mp h
  rw [failuresAlong_eq, List.flatMap_eq_nil_iff] at clean
  obtain ⟨x, hx, _⟩ := site?_eq_some_iff.mp site
  have turn : j ∈ order :=
    (g.bottomUp_perm wf.targets_valid found).mem_iff.mpr (List.mem_range.mpr (g.instance_lt hx))
  have none := clean j turn
  rw [visited, site, Option.map_some, Option.getD_some] at none
  cases outcome : s.resolve a with
  | ok edge => exact ⟨edge, rfl⟩
  | error f =>
    have there := mem_failures_visitAt ha outcome
    rw [none] at there
    cases there

/-- A pass adds to an instance what the visits call for, in some order. -/
theorem run_added (wf : g.WellFormed) (h : b.run allowMissing completed g = .ok next) {i : Nat}
    {x : Instance M T} (hx : g.instance? i = some x) : ∃ added,
      next.instance? i = some { x with deps := x.deps ++ added } ∧
      added.Perm ((List.range g.size).flatMap
        (addedBy allowMissing completed g (fun x => (b.visit g x).1) i)) := by
  obtain ⟨order, _, found, _, rfl, _⟩ := run_eq_ok_iff.mp h
  refine ⟨_, by rw [Graph.instance?_addEdges, hx, Option.map_some], ?_⟩
  -- The visits go bottom-up, which is some order of all instances.
  have own : ((b.edgesAlong allowMissing completed g order).filter fun p => p.1 = i).map Prod.snd =
      order.flatMap (addedBy allowMissing completed g (fun x => (b.visit g x).1) i) := by
    rw [edgesAlong_eq, List.filter_flatMap, List.map_flatMap, addedBy_visit]
  rw [own]
  exact (g.bottomUp_perm wf.targets_valid found).flatMap_right _

end BottomUpMutator

end BuildVariants
