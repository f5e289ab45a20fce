import BuildVariants.Proofs.BottomUp.Forward
import BuildVariants.Proofs.Pipeline.Agreement
import Mathlib.Data.List.Find

/-!
# Far additions without never-far transitions

Where none of the completed transitions is never-far, none has a say in a far addition. It leads to the
instance that has just the values that are chosen, or else to the first one that has them among others,
whatever the variant of the instance that asks for it.
-/

set_option autoImplicit false

namespace BuildVariants

variable {M T : Type}

namespace Variant

def Has (v w : Variant) : Prop := ∀ m, w.get m ≠ "" → v.get m = w.get m

theorem has_iff {v w : Variant} (distinct : w.Distinct) : v.Has w ↔ w.isSubsetOf v = true := by
  rw [isSubsetOf_iff distinct]
  constructor
  · intro has m
    by_cases none : w.get m = ""
    · exact Or.inl none
    · exact Or.inr (has m none).symm
  · exact fun agrees m given => ((agrees m).resolve_left given).symm

theorem Has.of_beq {v w : Variant} (h : (v == w) = true) : v.Has w := fun m _ => get_eq_of_beq h m

end Variant

namespace Graph

def First (g : Graph M T) (grp : Group) (P : Variant → Prop) (id : Nat) : Prop :=
  ∃ before after, grp.members = before ++ id :: after ∧ P (g.variant id) ∧
    ∀ i ∈ before, ¬ P (g.variant i)

theorem findMember_eq_some_iff {g : Graph M T} {grp : Group} {test : Variant → Bool} {id : Nat} :
    g.findMember grp test = some id ↔ g.First grp (fun v => test v = true) id := by
  rw [findMember, List.find?_eq_some_iff_append]
  simp only [First, Bool.not_eq_true', Bool.not_eq_true]
  constructor
  · rintro ⟨passes, before, after, members, fail⟩
    exact ⟨before, after, members, passes, fail⟩
  · rintro ⟨before, after, members, passes, fail⟩
    exact ⟨passes, before, after, members, fail⟩

section Chosen

variable {g : Graph M T} {grp : Group} {chosen : Variant} (distinct : chosen.Distinct)
include distinct

theorem findMember_or_eq_some_iff {id : Nat} :
    (g.findMember grp (· == chosen)).or (g.findMember grp chosen.isSubsetOf) = some id ↔
      g.First grp (fun v => (v == chosen) = true) id ∨
      (∀ i ∈ grp.members, ¬ (g.variant i == chosen) = true) ∧ g.First grp (·.Has chosen) id := by
  rw [Option.or_eq_some_iff, findMember_eq_some_iff, findMember_eq_none_iff, findMember_eq_some_iff]
  simp only [← Variant.has_iff distinct, not_exists, not_and]

theorem findMember_or_eq_none_iff :
    (g.findMember grp (· == chosen)).or (g.findMember grp chosen.isSubsetOf) = none ↔
      ∀ i ∈ grp.members, ¬ (g.variant i).Has chosen := by
  rw [Option.or_eq_none_iff, findMember_eq_none_iff, findMember_eq_none_iff]
  simp only [← Variant.has_iff distinct, not_exists, not_and]
  constructor
  · exact And.right
  · intro none
    exact ⟨fun i hi same => none i hi (.of_beq same), none⟩

end Chosen

end Graph

theorem Transition.not_appliesTo_far {t : Transition M T} (h : t.neverFar = false) :
    ¬ t.appliesTo true = true := by
  simp [appliesTo, h]

namespace Site

variable {s : Site M T} {grp : Group} {choices : List Variation} {tag : T}

theorem startVariant_detached (detached : ∀ t ∈ s.completed, t.neverFar = false) :
    s.startVariant choices true =
      (Variant.ofList ((s.completed.map Transition.name).map fun m => ⟨m, ""⟩)).setAll choices := by
  rw [startVariant, completedVariant, List.map_map]
  congr 2
  apply List.map_congr_left
  intro t ht
  rw [if_neg (Transition.not_appliesTo_far (detached t ht))]
  rfl

theorem get_startVariant_detached (detached : ∀ t ∈ s.completed, t.neverFar = false)
    (choices : List Variation) (m : String) :
    (s.startVariant choices true).get m = (Variant.ofList choices).get m := by
  have bare : (Variant.ofList ((s.completed.map Transition.name).map fun m => ⟨m, ""⟩)).get m = "" := by
    rw [Variant.ofList, Variant.get_setAll_of_uniform _ (f := fun _ => ""), Variant.get_empty, ite_self]
    intro c hc
    obtain ⟨_, _, rfl⟩ := List.mem_map.mp hc
    rfl
  rw [startVariant_detached detached, Variant.get_setAll, bare, Variant.get_ofList]

theorem search_detached (detached : ∀ t ∈ s.completed, t.neverFar = false) :
    s.search grp (s.startVariant choices true) true =
      (s.graph.findMember grp (· == Variant.ofList choices)).or
        (s.graph.findMember grp (Variant.ofList choices).isSubsetOf) := by
  have same := get_startVariant_detached detached choices
  have start := s.startVariant_distinct choices true
  have chosen := Variant.ofList_distinct choices
  rw [search_far, search_ordinary]
  congr 2
  · funext v
    exact Variant.beq_congr same start chosen v
  · funext v
    exact Variant.isSubsetOf_congr_left same start chosen v

variable [BuildModule M T]

theorem negotiate_detached {ts : List (Transition M T)} (detached : ∀ t ∈ ts, t.neverFar = false)
    (earlier : List String) (wanted : Variant) :
    s.negotiate grp choices tag true ts earlier wanted = .ok wanted := by
  induction ts generalizing earlier with
  | nil => rfl
  | cons t ts ih =>
    have passed := Transition.not_appliesTo_far (detached t (by simp))
    rw [negotiate_cons_of_not passed, ih fun u hu => detached u (by simp [hu])]

theorem forwardEdge_detached (detached : ∀ t ∈ s.completed, t.neverFar = false) {name : String}
    (defined : s.graph.group? name = some grp) : s.forwardEdge choices tag name true =
      s.place grp tag true (s.startVariant choices true) := by
  rw [forwardEdge_of_group defined, negotiate_detached detached]
  rfl

theorem contribution_detached_eq_edge_iff (detached : ∀ t ∈ s.completed, t.neverFar = false)
    {name : String} (defined : s.graph.group? name = some grp) {target : Nat} :
    s.contribution (.forward choices tag name true) = ([], [(s.id, ⟨target, tag, true⟩)]) ↔
      s.graph.First grp (fun v => (v == Variant.ofList choices) = true) target ∨
      (∀ i ∈ grp.members, ¬ (s.graph.variant i == Variant.ofList choices) = true) ∧
        s.graph.First grp (·.Has (Variant.ofList choices)) target := by
  rw [contribution_eq_edge_iff, resolve, forwardEdge_detached detached defined, place_eq_ok_iff,
    search_detached detached, ← Graph.findMember_or_eq_some_iff (Variant.ofList_distinct choices)]
  simp

theorem contribution_detached_eq_failure_iff (detached : ∀ t ∈ s.completed, t.neverFar = false)
    {name : String} (defined : s.graph.group? name = some grp) {f : Failure} :
    s.contribution (.forward choices tag name true) = ([f], []) ↔
      (∀ i ∈ grp.members, ¬ (s.graph.variant i).Has (Variant.ofList choices)) ∧
        f = s.missingVariant .forward grp (s.startVariant choices true) := by
  rw [contribution_eq_failure_iff, resolve, forwardEdge_detached detached defined,
    place_eq_error_iff, search_detached detached,
    Graph.findMember_or_eq_none_iff (Variant.ofList_distinct choices)]

/-- A site from which a far addition onto the group looks the same. The modules, the variant that asks
and the mutators of the transitions may all be others. -/
structure FarAlike (grp : Group) (s s' : Site M T) : Prop where
  id : s'.id = s.id
  group : s'.self.group = s.self.group
  location : BuildModule.location s'.self.content = BuildModule.location s.self.content
  names : s'.completed.map Transition.name = s.completed.map Transition.name
  detached : ∀ t ∈ s'.completed, t.neverFar = false
  variants : ∀ i ∈ grp.members, s'.graph.variant i = s.graph.variant i

/-- What matters of the choices is the variant that they come to. -/
theorem contribution_detached_congr (detached : ∀ t ∈ s.completed, t.neverFar = false) {name : String}
    (defined : s.graph.group? name = some grp) {s' : Site M T} (alike : s.FarAlike grp s')
    (defined' : s'.graph.group? name = some grp) {choices' : List Variation}
    (same : Variant.ofList choices' = Variant.ofList choices) :
    s'.contribution (.forward choices' tag name true) =
      s.contribution (.forward choices tag name true) := by
  have members : ∀ test : Variant → Bool, s'.graph.findMember grp test = s.graph.findMember grp test := by
    intro test
    exact List.find?_congr fun i hi => by rw [alike.variants i hi]
  have start : s'.startVariant choices' true = s.startVariant choices true := by
    rw [startVariant_detached alike.detached, startVariant_detached detached, alike.names,
      ← Variant.setAll_ofList, same, Variant.setAll_ofList]
  have found : s'.search grp (s.startVariant choices true) true =
      s.search grp (s.startVariant choices true) true := by
    rw [search_far, search_far, search_ordinary, search_ordinary, members, members]
  have missing : s'.missingVariant .forward grp (s.startVariant choices true) =
      s.missingVariant .forward grp (s.startVariant choices true) := by
    rw [missingVariant, missingVariant, alike.group, alike.location,
      List.map_congr_left alike.variants]
  simp only [contribution, resolve, forwardEdge_detached alike.detached defined',
    forwardEdge_detached detached defined, place, start, found, alike.id, missing]

end Site

namespace Pipeline

variable [BuildModule M T]

/-- A far addition onto a declared module leaves one edge behind or one failure. The edge leads to the
instance with just the chosen values or, without one, to the first that has them all. It fails exactly
if there is none of these either, and so never if nothing is chosen. The variant that asks and what the
mutators decide are of no consequence. -/
theorem far_detached {p : Pipeline M T} {modules : List M} {count : Nat} {g : Graph M T}
    {id : Nat} {s : Site M T} {name : String} {grp : Group}
    (ran : (p.take count).resolve modules = .ok g)
    (detached : ∀ t ∈ transitions (p.passes.take count), t.neverFar = false)
    (site : BottomUpMutator.site? p.settings.allowMissing (transitions (p.passes.take count)) g id =
      some s) (defined : g.group? name = some grp) (choices : List Variation) (tag : T)
    {outcome : List Failure × List (Nat × Edge T)}
    (h : s.contribution (.forward choices tag name true) = outcome) :
    ((∃ target, outcome = ([], [(id, ⟨target, tag, true⟩)])) ∨ ∃ f, outcome = ([f], [])) ∧
    (∀ target, outcome = ([], [(id, ⟨target, tag, true⟩)]) ↔
      g.First grp (fun v => (v == Variant.ofList choices) = true) target ∨
      (∀ i ∈ grp.members, ¬ (g.variant i == Variant.ofList choices) = true) ∧
        g.First grp (·.Has (Variant.ofList choices)) target) ∧
    ((p.take count).dimensions.Nodup → ∀ target ∈ grp.members,
      (g.variant target == Variant.ofList choices) = true →
        outcome = ([], [(id, ⟨target, tag, true⟩)])) ∧
    ((∀ i ∈ grp.members, ¬ (g.variant i).Has (Variant.ofList choices)) ↔
      ∃ requested, (requested == Variant.ofList choices) = true ∧
        outcome = ([.missingVariant .forward name s.self.group
          (BuildModule.location s.self.content) requested (grp.members.map g.variant)], [])) ∧
    (choices = [] → ∃ target, outcome = ([], [(id, ⟨target, tag, true⟩)])) ∧
    ∀ s' : Site M T, s.FarAlike grp s' → s'.graph.group? name = some grp →
      ∀ choices', Variant.ofList choices' = Variant.ofList choices →
        s'.contribution (.forward choices' tag name true) = outcome := by
  have wf := resolve_wellFormed ran
  obtain ⟨_, _, visited⟩ := BottomUpMutator.site?_eq_some_iff.mp site
  obtain rfl : s.graph = g := by rw [visited]
  obtain rfl : s.id = id := by rw [visited]
  obtain completed : s.completed = transitions (p.passes.take count) := by rw [visited]
  rw [← completed] at detached
  have chosen := Variant.ofList_distinct choices
  have edge_iff : ∀ {target}, outcome = ([], [(s.id, ⟨target, tag, true⟩)]) ↔ _ := fun {_} =>
    h ▸ Site.contribution_detached_eq_edge_iff detached defined
  have failure_iff : ∀ {f}, outcome = ([f], []) ↔ _ := fun {_} =>
    h ▸ Site.contribution_detached_eq_failure_iff detached defined
  have outcomes : (∃ target, outcome = ([], [(s.id, ⟨target, tag, true⟩)])) ∨
      ∀ i ∈ grp.members, ¬ (s.graph.variant i).Has (Variant.ofList choices) := by
    cases found : (s.graph.findMember grp (· == Variant.ofList choices)).or
        (s.graph.findMember grp (Variant.ofList choices).isSubsetOf) with
    | some target =>
      exact Or.inl ⟨target, edge_iff.mpr ((Graph.findMember_or_eq_some_iff chosen).mp found)⟩
    | none => exact Or.inr ((Graph.findMember_or_eq_none_iff chosen).mp found)
  refine ⟨outcomes.imp_right fun none => ⟨_, failure_iff.mpr ⟨none, rfl⟩⟩,
    fun target => edge_iff, ?_, ?_, ?_, ?_⟩
  · intro nodup target member same
    have settled := resolve_settled nodup ran
    obtain ⟨x, hx⟩ := s.graph.exists_instance (wf.member_lt (Graph.mem_of_group? defined) member)
    rw [Graph.variant_of_instance hx, Variant.beq_iff_get (settled.variant_distinct nodup hx) chosen] at same
    have group : s.graph.group? x.group = some grp := by
      rw [wf.group_of_member defined member hx, defined]
    have found := settled.findMember_eq nodup hx group chosen fun m => (same m).symm
    exact edge_iff.mpr (Or.inl (Graph.findMember_eq_some_iff.mp found))
  · constructor
    · intro none
      refine ⟨s.startVariant choices true, ?_, failure_iff.mpr ⟨none, ?_⟩⟩
      · rw [Variant.beq_iff_get (s.startVariant_distinct choices true) chosen]
        exact Site.get_startVariant_detached detached choices
      · rw [Site.missingVariant, Graph.name_of_group? defined]
    · rintro ⟨requested, _, failed⟩
      exact (failure_iff.mp failed).1
  · rintro rfl
    refine outcomes.resolve_right fun absent => ?_
    -- There is a first instance, and it has all of nothing.
    obtain ⟨i, hi⟩ := List.exists_mem_of_ne_nil _
      (wf.members_ne_nil grp (Graph.mem_of_group? defined))
    exact absent i hi fun m given => absurd (Variant.get_empty m) given
  · intro s' alike defined' choices' same
    rw [← h]
    exact Site.contribution_detached_congr detached defined alike defined' same

def byAbi : Transition DeclaredModule DepKind :=
  ⟨"abi", false, DeclaredModule.propertyTransition⟩

def osThenAbi : Pipeline DeclaredModule DepKind where
  settings := ⟨false⟩
  passes := [.transition byOs, .transition byAbi]

/-- From `app(y_x)` the choice of one dimension leads to the first instance of `tool` that has the value,
and the other dimension may differ from the own one. -/
theorem far_detached_agreeing :
    (∀ t ∈ transitions (osThenAbi.passes.take 2), t.neverFar = false) ∧
    ∃ g s grp, (osThenAbi.take 2).resolve agreeing = .ok g ∧
      BottomUpMutator.site? false (transitions (osThenAbi.passes.take 2)) g 2 = some s ∧
      g.group? "tool" = some grp ∧
      (g.label 2, g.label 11) = ("app(y_x)", "tool(t_t)") ∧
      s.contribution (.forward [⟨"abi", "z"⟩, ⟨"abi", "t"⟩] .far "tool" true) =
        ([], [(2, ⟨11, .far, true⟩)]) ∧
      (∀ i ∈ grp.members, ¬ (g.variant i == .ofList [⟨"abi", "z"⟩, ⟨"abi", "t"⟩]) = true) ∧
      g.First grp (·.Has (.ofList [⟨"abi", "z"⟩, ⟨"abi", "t"⟩])) 11 ∧
      ∃ target, s.contribution (.forward [] .far "tool" true) =
        ([], [(2, ⟨target, .far, true⟩)]) := by
  have detached : ∀ t ∈ transitions (osThenAbi.passes.take 2), t.neverFar = false := by
    intro t ht
    rcases List.mem_pair.mp ht with rfl | rfl <;> rfl
  obtain ⟨g, s, grp, ran, site, defined, labels, added, none⟩ :
      ∃ g s grp, (osThenAbi.take 2).resolve agreeing = .ok g ∧
        BottomUpMutator.site? false (transitions (osThenAbi.passes.take 2)) g 2 = some s ∧
        g.group? "tool" = some grp ∧
        (g.label 2, g.label 11) = ("app(y_x)", "tool(t_t)") ∧
        s.contribution (.forward [⟨"abi", "z"⟩, ⟨"abi", "t"⟩] .far "tool" true) =
          ([], [(2, ⟨11, .far, true⟩)]) ∧
        ∀ i ∈ grp.members, ¬ (g.variant i == .ofList [⟨"abi", "z"⟩, ⟨"abi", "t"⟩]) = true :=
    ⟨_, _, _, rfl, rfl, rfl, by decide +kernel, rfl, by decide +kernel⟩
  obtain ⟨_, edge_iff, _⟩ := far_detached ran detached site defined _ _ added
  obtain ⟨_, _, _, _, unchosen, _⟩ := far_detached ran detached site defined [] .far rfl
  have first := ((edge_iff 11).mp rfl).resolve_left (fun ⟨_, _, members, exactly, _⟩ =>
    none 11 (by simp [members]) exactly)
  exact ⟨detached, g, s, grp, ran, site, defined, labels, added, none, first.2, unchosen rfl⟩

end Pipeline

end BuildVariants
