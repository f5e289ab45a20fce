import BuildVariants.Proofs.BottomUp.Pass
import BuildVariants.Proofs.Failure.Blank
import BuildVariants.Proofs.Transition.Neutral

/-!
# Bottom-up passes after a neutral one

A neutral transition takes part in every negotiation, but what it asks for and gives is the default,
and its entry is found in every instance. So additions lead where they lead without it.
-/

set_option autoImplicit false

namespace BuildVariants

variable {M T : Type}

def Addition.choices : Addition T → List Variation
  | .forward choices _ _ _ => choices
  | .reverse choices _ _ => choices
  | .failure _ => []

structure Instance.Alike (x y : Instance M T) : Prop where
  group : y.group = x.group
  content : y.content = x.content
  variant : x.variant.Alike y.variant
  deps : y.deps = x.deps

structure Graph.Alike (g h : Graph M T) : Prop where
  groups : h.groups = g.groups
  instances : List.Forall₂ Instance.Alike g.instances h.instances

/-- The mutator sees of variants only what can be asked of them. -/
def BottomUpMutator.Discreet (b : BottomUpMutator M T) : Prop :=
  ∀ {g h : Graph M T} {x y : Instance M T}, g.Alike h → x.Alike y → b.visit h y = b.visit g x

/-- The transition decides nothing under the name, or has another one and sees of variants only what
can be asked of them. -/
def Transition.Heedless (name : String) (t : Transition M T) : Prop :=
  (∃ neverFar, t = .neutral name neverFar) ∨ t.name ≠ name ∧ t.Discreet

section Alike

variable {name : String} {g : Graph M T} {x : Instance M T}

theorem Instance.alike_without (blank : x.variant.Blank name) : x.Alike (x.without name) :=
  ⟨rfl, rfl, blank.alike, rfl⟩

theorem Graph.Blank.alike (blank : g.Blank name) : g.Alike (g.without name) where
  groups := rfl
  instances := by
    rw [Graph.without, Graph.mapInstances, List.forall₂_map_right_iff, List.forall₂_same]
    exact fun x hx => Instance.alike_without (blank x hx)

theorem Graph.variant_without (i : Nat) : (g.without name).variant i = (g.variant i).without name := by
  rw [Graph.variant, Graph.variant, Graph.without, Graph.instance?_mapInstances]
  cases g.instance? i <;> rfl

theorem Graph.Blank.keepsShape (blank : g.Blank name) : g.KeepsShape (Instance.without name) where
  group _ _ := rfl
  label x hx := by
    rw [Instance.label, Instance.label, Instance.without, (blank x hx).name_without]
  deps _ _ := rfl

theorem Graph.Blank.addEdges (blank : g.Blank name) (added : List (Nat × Edge T)) :
    (g.addEdges added).Blank name := by
  intro x hx
  obtain ⟨i, hi, rfl⟩ := List.mem_mapIdx.mp hx
  exact blank g.instances[i] (List.getElem_mem hi)

theorem Graph.Blank.topDown (blank : g.Blank name) : (g.without name).topDown = g.topDown :=
  blank.keepsShape.topDown

theorem Graph.Blank.bottomUp (blank : g.Blank name) : (g.without name).bottomUp = g.bottomUp :=
  blank.keepsShape.bottomUp

theorem Graph.addEdges_without (added : List (Nat × Edge T)) :
    (g.without name).addEdges added = (g.addEdges added).without name :=
  g.addEdges_mapInstances _ (fun _ _ => rfl) added

theorem Graph.topDown_plain (g : Graph M T) : FailsWith Failure.Plain g.topDown := by
  intro f h
  obtain ⟨id, rfl⟩ := g.topDown_error h
  exact nofun

theorem Graph.bottomUp_plain (g : Graph M T) : FailsWith Failure.Plain g.bottomUp :=
  fun f failed => g.topDown_plain f (g.bottomUp_error_iff.mp failed)

theorem mapError_single_without (name : String) {α : Type} {x : Except Failure α}
    (plain : FailsWith Failure.Plain x) :
    (x.mapError Failures.single).mapError (Failures.without name) = x.mapError Failures.single :=
  Failures.mapError_without_of_plain (plain.mapError fun _ => Failures.all_single)

theorem Graph.Blank.findMember_without (blank : g.Blank name) (grp : Group)
    {test test' : Variant → Bool} (same : ∀ v, v.Blank name → test' (v.without name) = test v) :
    (g.without name).findMember grp test' = g.findMember grp test := by
  rw [findMember, findMember]
  congr 1
  funext i
  rw [variant_without, same _ (blank.variant i)]

end Alike

namespace Site

def without (name : String) (s : Site M T) : Site M T :=
  { s with
    graph := s.graph.without name
    completed := s.completed.filter fun t => t.name ≠ name
    self := s.self.without name }

structure Blank (name : String) (s : Site M T) : Prop where
  graph : s.graph.Blank name
  self : s.self.variant.Blank name
  completed : ∀ t ∈ s.completed, t.Heedless name

variable {name : String} {s : Site M T} {choices : List Variation} {far : Bool}

theorem completedVariant_without (blank : s.Blank name) (far : Bool) :
    (s.without name).completedVariant far = (s.completedVariant far).without name := by
  rw [completedVariant, completedVariant, Variant.ofList, Variant.ofList,
    Variant.setAll_without_filter, List.filter_map]
  congr 1
  apply List.map_congr_left
  intro t _
  rw [without, Instance.without, blank.self.get_without]

theorem completedVariant_blank (blank : s.Blank name) (far : Bool) :
    (s.completedVariant far).Blank name := by
  apply Variant.Blank.empty.setAll
  intro c hc named
  obtain ⟨t, _, rfl⟩ := List.mem_map.mp hc
  have own : t.name = name := named
  by_cases applies : t.appliesTo far = true <;> simp [applies, own, blank.self.get]

theorem startVariant_without (blank : s.Blank name) (others : ∀ c ∈ choices, c.mutator ≠ name) :
    (s.without name).startVariant choices far = (s.startVariant choices far).without name := by
  rw [startVariant, startVariant, completedVariant_without blank, Variant.setAll_without _ others]

theorem startVariant_blank (blank : s.Blank name) (others : ∀ c ∈ choices, c.mutator ≠ name)
    (far : Bool) : (s.startVariant choices far).Blank name :=
  (completedVariant_blank blank far).setAll fun c hc named => absurd named (others c hc)

theorem search_without (blank : s.Blank name) (grp : Group) {wanted : Variant}
    (hw : wanted.Blank name) (far : Bool) :
    (s.without name).search grp (wanted.without name) far = s.search grp wanted far := by
  have exactly : (s.without name).graph.findMember grp (· == wanted.without name) =
      s.graph.findMember grp (· == wanted) :=
    blank.graph.findMember_without grp fun v hv => hv.beq_without hw
  have containing : (s.without name).graph.findMember grp (wanted.without name).isSubsetOf =
      s.graph.findMember grp wanted.isSubsetOf :=
    blank.graph.findMember_without grp fun v hv => hw.isSubsetOf_without hv
  rw [search, search, exactly, containing]

variable [BuildModule M T]

theorem missingVariant_without (direction : Direction) (grp : Group) (wanted : Variant) :
    (s.without name).missingVariant direction grp (wanted.without name) =
      (s.missingVariant direction grp wanted).without name := by
  have listed : grp.members.map (s.without name).graph.variant =
      (grp.members.map s.graph.variant).map fun v => v.without name := by
    rw [List.map_map]
    exact List.map_congr_left fun i _ => Graph.variant_without i
  rw [missingVariant, missingVariant, listed]
  rfl

theorem missingVariant_blank (blank : s.Blank name) (direction : Direction) (grp : Group)
    {wanted : Variant} (hw : wanted.Blank name) :
    (s.missingVariant direction grp wanted).Blank name := by
  refine ⟨hw, fun v hv => ?_⟩
  obtain ⟨i, _, rfl⟩ := List.mem_map.mp hv
  exact blank.graph.variant i

section Negotiation

variable {grp : Group} {tag : T} {t : Transition M T} {wanted : Variant}

theorem request_without (blank : s.Blank name) (discreet : t.Discreet)
    (hw : wanted.Blank name) (dep : String) :
    (s.without name).request t choices tag dep (wanted.without name) =
      s.request t choices tag dep wanted := by
  simp only [request, without, Instance.without, hw.get_without, discreet.outgoing blank.self.alike,
    Transition.toFailure_without blank.self]

theorem grant_without (blank : s.Blank name) (discreet : t.Discreet) (hw : wanted.Blank name)
    (earlier : List String) (asked : String) :
    (s.without name).grant t grp (earlier.filter (· ≠ name)) (wanted.without name) asked =
      s.grant t grp earlier wanted asked := by
  have consulted : ((s.without name).graph.findMember grp fun v =>
      v.matchesOn (wanted.without name) (earlier.filter (· ≠ name))) =
      s.graph.findMember grp fun v => v.matchesOn wanted earlier :=
    blank.graph.findMember_without grp fun v hv => hv.matchesOn_without hw earlier
  rw [grant, grant, consulted]
  cases s.graph.findMember grp fun v => v.matchesOn wanted earlier with
  | none => rfl
  | some i =>
    have there : (s.without name).graph.instance? i =
        (s.graph.instance? i).map (Instance.without name) := s.graph.instance?_mapInstances _ i
    rw [Option.bind_some, Option.bind_some, there]
    cases hy : s.graph.instance? i with
    | none => rfl
    | some y =>
      have blankY := blank.graph y (Graph.mem_instances hy)
      simp only [Option.map_some, Instance.without, discreet.incoming blankY.alike,
        Transition.toFailure_without blankY]

variable (s choices far grp tag) in
/-- The neutral transition settles on the default. -/
theorem negotiate_neutral (hw : wanted.Blank name) (neverFar : Bool) (rest : List (Transition M T))
    (earlier : List String) : ∃ next, next.Blank name ∧ next.without name = wanted.without name ∧
      s.negotiate grp choices tag far (.neutral name neverFar :: rest) earlier wanted =
        s.negotiate grp choices tag far rest (earlier ++ [name]) next := by
  by_cases applies : (Transition.neutral name neverFar : Transition M T).appliesTo far = true
  · refine ⟨wanted.set name "", .set_default hw.distinct, Variant.set_self_without, ?_⟩
    have asked : s.request (.neutral name neverFar) choices tag grp.name wanted = .ok "" := by
      have value : wanted.get (Transition.neutral name neverFar : Transition M T).name = "" := hw.get
      rw [request, value]
      split <;> rfl
    have given : s.grant (.neutral name neverFar) grp earlier wanted "" = .ok "" := by
      rw [grant]
      split <;> rfl
    rw [negotiate_cons applies, asked]
    simp only [bind, Except.bind, given]
    rfl
  · exact ⟨wanted, hw, rfl, negotiate_cons_of_not applies⟩

variable (choices far grp tag) in
/-- A negotiation with the neutral transition settles on what is settled on without it. -/
theorem negotiate_without (blank : s.Blank name) {ts : List (Transition M T)}
    (heedless : ∀ t ∈ ts, t.Heedless name) (earlier : List String) (hw : wanted.Blank name) :
    (s.without name).negotiate grp choices tag far (ts.filter fun t => t.name ≠ name)
        (earlier.filter (· ≠ name)) (wanted.without name) =
      (s.negotiate grp choices tag far ts earlier wanted).map (Variant.without · name) ∧
    ∀ final, s.negotiate grp choices tag far ts earlier wanted = .ok final → final.Blank name := by
  induction ts generalizing earlier wanted with
  | nil => exact ⟨rfl, fun final h => Except.ok.inj h ▸ hw⟩
  | cons t rest ih =>
    have heedlessRest : ∀ u ∈ rest, u.Heedless name := fun u hu => heedless u (by simp [hu])
    rcases heedless t (by simp) with ⟨neverFar, rfl⟩ | ⟨other, discreet⟩
    · -- The neutral transition has no step on the other side, and is left out of what is matched on.
      obtain ⟨next, blankNext, same, step⟩ :=
        negotiate_neutral s choices far grp tag hw neverFar rest earlier
      have passed : (earlier ++ [name]).filter (· ≠ name) = earlier.filter (· ≠ name) := by
        simp [List.filter_append]
      have later := ih heedlessRest (earlier ++ [name]) blankNext
      rw [passed, same] at later
      rw [List.filter_cons_of_neg (by simp [Transition.neutral]), step]
      exact later
    · have passed : (earlier ++ [t.name]).filter (· ≠ name) =
          earlier.filter (· ≠ name) ++ [t.name] := by
        simp [List.filter_append, other]
      have later : ∀ {next : Variant}, next.Blank name → _ := fun blankNext =>
        ih heedlessRest (earlier ++ [t.name]) blankNext
      rw [passed] at later
      rw [List.filter_cons_of_pos (by simpa using other)]
      by_cases applies : t.appliesTo far = true
      · rw [negotiate_cons applies, negotiate_cons applies, request_without blank discreet hw]
        constructor
        · refine bind_map fun asked _ => ?_
          rw [grant_without blank discreet hw]
          refine bind_map fun given _ => ?_
          rw [← Variant.set_without other]
          exact (later (hw.set other)).1
        · intro final h
          obtain ⟨asked, _, h⟩ := bind_eq_ok_iff.mp h
          obtain ⟨given, _, h⟩ := bind_eq_ok_iff.mp h
          exact (later (hw.set other)).2 final h
      · rw [negotiate_cons_of_not applies, negotiate_cons_of_not applies]
        exact later hw

end Negotiation

section Edges

variable {tag : T} {dep : String}

theorem place_without (blank : s.Blank name) (grp : Group) (far : Bool) {wanted : Variant}
    (hw : wanted.Blank name) : (s.without name).place grp tag far (wanted.without name) =
      (s.place grp tag far wanted).mapError (Failure.without name) := by
  rw [place, place, search_without blank grp hw, missingVariant_without]
  cases s.search grp wanted far <;> rfl

theorem forwardEdge_without (blank : s.Blank name) (others : ∀ c ∈ choices, c.mutator ≠ name) :
    (s.without name).forwardEdge choices tag dep far =
      (s.forwardEdge choices tag dep far).mapError (Failure.without name) := by
  have same : (s.without name).graph.group? dep = s.graph.group? dep := rfl
  cases defined : s.graph.group? dep with
  | none =>
    rw [forwardEdge, forwardEdge, same, defined]
    cases missing : s.allowMissing <;> simp only [without, missing] <;> rfl
  | some grp =>
    rw [forwardEdge_of_group (same.trans defined), forwardEdge_of_group defined,
      startVariant_without blank others]
    have start := startVariant_blank blank others far
    obtain ⟨negotiated, settles⟩ :=
      negotiate_without choices far grp tag blank blank.completed [] start
    have along : (s.without name).negotiate grp choices tag far (s.without name).completed [] _ = _ :=
      negotiated
    rw [along]
    cases h : s.negotiate grp choices tag far s.completed [] (s.startVariant choices far) with
    | error f =>
      have plain := (negotiate_refusal (fun _ there => there) _ _ f h).ofDecision.plain
      exact congrArg Except.error (Failure.without_of_plain plain).symm
    | ok final => exact place_without blank grp far (settles final h)

theorem reverseEdge_without (blank : s.Blank name) (others : ∀ c ∈ choices, c.mutator ≠ name) :
    (s.without name).reverseEdge choices tag dep =
      (s.reverseEdge choices tag dep).mapError (Failure.without name) := by
  have same : (s.without name).graph.group? dep = s.graph.group? dep := rfl
  rw [reverseEdge, reverseEdge, same]
  cases s.graph.group? dep with
  | none => cases missing : s.allowMissing <;> simp only [without, missing] <;> rfl
  | some grp =>
    have start := startVariant_blank blank others false
    have found : (s.without name).graph.findMember grp
        (· == (s.startVariant choices false).without name) =
          s.graph.findMember grp (· == s.startVariant choices false) :=
      blank.graph.findMember_without grp fun v hv => hv.beq_without start
    simp only [startVariant_without blank others, found, missingVariant_without]
    cases s.graph.findMember grp (· == s.startVariant choices false) <;> rfl

theorem resolve_without (blank : s.Blank name) {a : Addition T}
    (others : ∀ c ∈ a.choices, c.mutator ≠ name) :
    (s.without name).resolve a = (s.resolve a).mapError (Failure.without name) := by
  cases a with
  | forward choices tag dep far => exact forwardEdge_without blank others
  | reverse choices tag dep => exact reverseEdge_without blank others
  | failure message =>
    simp only [resolve, without, Instance.without, blank.self.name_without]
    rfl

theorem forwardEdge_blank (blank : s.Blank name) (others : ∀ c ∈ choices, c.mutator ≠ name) :
    FailsWith (Failure.Blank name) (s.forwardEdge choices tag dep far) := by
  cases defined : s.graph.group? dep with
  | none =>
    rw [forwardEdge, defined]
    cases s.allowMissing
    · exact failsWith_error trivial
    · exact failsWith_ok _
  | some grp =>
    rw [forwardEdge_of_group defined]
    have start := startVariant_blank blank others far
    have refused : FailsWith (Failure.Blank name) (s.negotiate grp choices tag far s.completed []
        (s.startVariant choices far)) := fun f h =>
      (negotiate_refusal (fun _ there => there) _ _ f h).ofDecision.plain.blank
    refine refused.bind fun wanted h => ?_
    have settles := (negotiate_without choices far grp tag blank blank.completed [] start).2 wanted h
    rw [place]
    cases s.search grp wanted far with
    | none => exact failsWith_error (missingVariant_blank blank .forward grp settles)
    | some target => exact failsWith_ok _

theorem reverseEdge_blank (blank : s.Blank name) (others : ∀ c ∈ choices, c.mutator ≠ name) :
    FailsWith (Failure.Blank name) (s.reverseEdge choices tag dep) := by
  rw [reverseEdge]
  cases s.graph.group? dep with
  | none =>
    cases s.allowMissing
    · exact failsWith_error trivial
    · exact failsWith_ok _
  | some grp =>
    have start := startVariant_blank blank others false
    simp only
    cases s.graph.findMember grp (· == s.startVariant choices false) with
    | none => exact failsWith_error (missingVariant_blank blank .reverse grp start)
    | some source => exact failsWith_ok _

theorem resolve_blank (blank : s.Blank name) {a : Addition T}
    (others : ∀ c ∈ a.choices, c.mutator ≠ name) :
    FailsWith (Failure.Blank name) (s.resolve a) := by
  cases a with
  | forward choices tag dep far => exact forwardEdge_blank blank others
  | reverse choices tag dep => exact reverseEdge_blank blank others
  | failure message => exact failsWith_error trivial

end Edges

end Site

namespace BottomUpMutator

variable [BuildModule M T] {b : BottomUpMutator M T} {name : String}

section Visit

variable {s : Site M T} (discreet : b.Discreet) (blank : s.Blank name)
  (others : ∀ a ∈ (b.visit s.graph s.self).1, ∀ c ∈ a.choices, c.mutator ≠ name)

include discreet blank others

/-- A visit leaves behind the edges that it leaves without the mutator, and failures that differ only
in the variants that they list. -/
theorem visitAt_without : b.visitAt (s.without name) =
    ((b.visitAt s).1.map (Failure.without name), (b.visitAt s).2) := by
  have visit : b.visit (s.without name).graph (s.without name).self = b.visit s.graph s.self :=
    discreet blank.graph.alike (Instance.alike_without blank.self)
  have outcomes : ((b.visit s.graph s.self).1.map (s.without name).resolve) =
      ((b.visit s.graph s.self).1.map s.resolve).map (Except.mapError (Failure.without name)) := by
    rw [List.map_map]
    exact List.map_congr_left fun a ha => Site.resolve_without blank (others a ha)
  rw [visitAt, visitAt, visit]
  simp only [outcomes, List.flatMap_map, List.filterMap_map, List.map_append, List.map_flatMap,
    Prod.mk.injEq]
  constructor
  · congr 1
    · cases (b.visit s.graph s.self).2 with
      | none => rfl
      | some e =>
        exact congrArg (fun f => [f]) (Transition.toFailure_without blank.self e s.self.content)
    · congr 1
      funext a
      cases s.resolve a <;> rfl
  · congr 1
    funext a
    rw [Function.comp_apply, Function.comp_apply, Function.comp_apply]
    cases s.resolve a <;> rfl

omit discreet in
theorem visitAt_blank : ∀ f ∈ (b.visitAt s).1, f.Blank name := by
  intro f hf
  rcases List.mem_append.mp hf with own | added
  · obtain ⟨e, _, rfl⟩ := Option.map_eq_some_iff.mp (Option.mem_toList.mp own)
    trivial
  · obtain ⟨o, ho, hf⟩ := List.mem_flatMap.mp added
    obtain ⟨a, ha, rfl⟩ := List.mem_map.mp ho
    cases failed : s.resolve a with
    | ok edge => simp [failed] at hf
    | error f' =>
      simp only [failed, List.mem_singleton] at hf
      exact hf ▸ Site.resolve_blank blank (others a ha) f' failed

end Visit

section Run

variable {allowMissing : Bool} {completed : List (Transition M T)} {g : Graph M T}

omit [BuildModule M T] in
theorem site?_without (i : Nat) :
    site? allowMissing (completed.filter fun t => t.name ≠ name) (g.without name) i =
      (site? allowMissing completed g i).map (Site.without name) := by
  have there : (g.without name).instance? i = (g.instance? i).map (Instance.without name) :=
    g.instance?_mapInstances _ i
  rw [site?, site?, there, Option.map_map, Option.map_map]
  rfl

variable (discreet : b.Discreet) (blank : g.Blank name)
  (heedless : ∀ t ∈ completed, t.Heedless name)
  (others : ∀ x ∈ g.instances, ∀ a ∈ (b.visit g x).1, ∀ c ∈ a.choices, c.mutator ≠ name)

include discreet blank heedless others

variable (allowMissing) in
theorem visited_without (i : Nat) :
    b.visited allowMissing (completed.filter fun t => t.name ≠ name) (g.without name) i =
      ((b.visited allowMissing completed g i).1.map (Failure.without name),
        (b.visited allowMissing completed g i).2) ∧
    ∀ f ∈ (b.visited allowMissing completed g i).1, f.Blank name := by
  rw [visited, visited, site?_without]
  cases site : site? allowMissing completed g i with
  | none => exact ⟨rfl, fun f none => absurd none List.not_mem_nil⟩
  | some s =>
    obtain ⟨x, hx, rfl⟩ := site?_eq_some_iff.mp site
    have there := Graph.mem_instances hx
    have blankSite : Site.Blank name ⟨g, completed, allowMissing, i, x⟩ :=
      ⟨blank, blank x there, heedless⟩
    exact ⟨visitAt_without discreet blankSite (others x there),
      visitAt_blank blankSite (others x there)⟩

/-- A pass comes to what it comes to without the mutator. -/
theorem run_without :
    b.run allowMissing (completed.filter fun t => t.name ≠ name) (g.without name) =
      ((b.run allowMissing completed g).mapError (Failures.without name)).map
        (Graph.without name) := by
  have visited := visited_without allowMissing discreet blank heedless others
  have failures : ∀ order, b.failuresAlong allowMissing (completed.filter fun t => t.name ≠ name)
      (g.without name) order =
        (b.failuresAlong allowMissing completed g order).map (Failure.without name) := by
    intro order
    simp only [failuresAlong_eq, (visited _).1, List.map_flatMap]
  have edges : ∀ order, b.edgesAlong allowMissing (completed.filter fun t => t.name ≠ name)
      (g.without name) order = b.edgesAlong allowMissing completed g order := by
    intro order
    simp only [edgesAlong_eq, (visited _).1]
  have listed : ∀ order, ∀ f ∈ b.failuresAlong allowMissing completed g order, f.Blank name := by
    intro order f hf
    rw [failuresAlong_eq, List.mem_flatMap] at hf
    obtain ⟨i, _, hf⟩ := hf
    exact (visited i).2 f hf
  rw [run_eq, run_eq, blank.bottomUp]
  -- The three ways to fail, and the result, differ only in the variants.
  conv_lhs => rw [← mapError_single_without name g.bottomUp_plain]
  refine bind_mapError_map fun order _ => ?_
  rw [failures, edges, Failures.ofList_without (listed order), Failures.guard_without]
  refine bind_mapError_map fun added _ => ?_
  have extended := blank.addEdges added
  rw [Graph.addEdges_without, extended.topDown]
  conv_lhs => rw [← mapError_single_without name (g.addEdges added).topDown_plain]
  exact bind_mapError_map fun _ _ => rfl

theorem run_blank :
    FailsWith (Failures.All (Failure.Blank name)) (b.run allowMissing completed g) := by
  have single : ∀ {α : Type} {x : Except Failure α}, FailsWith Failure.Plain x →
      FailsWith (Failures.All (Failure.Blank name)) (x.mapError Failures.single) := fun plain =>
    plain.mapError fun f h => Failures.all_single h.blank
  rw [run_eq]
  refine (single g.bottomUp_plain).bind fun order _ => ?_
  refine (Failures.guard_ofList_failsWith fun f hf => ?_).bind fun added _ => ?_
  · rw [failuresAlong_eq, List.mem_flatMap] at hf
    obtain ⟨i, _, hf⟩ := hf
    exact (visited_without allowMissing discreet blank heedless others i).2 f hf
  · exact (single (g.addEdges added).topDown_plain).bind fun _ _ => failsWith_ok _

end Run

end BottomUpMutator

end BuildVariants
