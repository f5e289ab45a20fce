import BuildVariants.Proofs.Pipeline.Run
import BuildVariants.Ruled.Action

/-!
# Far additions

A never-far transition has its say in a far addition as in any other, so where all of them are
never-far, the two kinds negotiate the same variant. They can still part afterwards: a far
addition is content with an instance that assigns more than was negotiated. Nor does a
dependency always have its say. Where the values settled so far belong to none of its
instances, the request stands as it was made.
-/

set_option autoImplicit false

namespace BuildVariants

variable {M T : Type}

namespace Site

variable {s : Site M T} {grp : Group} {choices : List Variation} {tag : T}

def asFar (added : Nat × Edge T) : Nat × Edge T := (added.1, { added.2 with far := true })

theorem startVariant_far (all : ∀ t ∈ s.completed, t.neverFar = true)
    (choices : List Variation) (far : Bool) :
    s.startVariant choices far = s.startVariant choices false := by
  have same : s.completedVariant far = s.completedVariant false := by
    unfold completedVariant
    congr 1
    apply List.map_congr_left
    intro t ht
    rw [Transition.appliesTo_of_neverFar (all t ht), Transition.appliesTo_of_neverFar (all t ht)]
  rw [startVariant, startVariant, same]

variable [BuildModule M T]

theorem negotiate_far {ts : List (Transition M T)} (all : ∀ t ∈ ts, t.neverFar = true)
    (far : Bool) (earlier : List String) (wanted : Variant) :
    s.negotiate grp choices tag far ts earlier wanted =
      s.negotiate grp choices tag false ts earlier wanted := by
  induction ts generalizing earlier wanted with
  | nil => rfl
  | cons t rest ih =>
    have here : t.neverFar = true := all t (by simp)
    have allRest : ∀ u ∈ rest, u.neverFar = true := fun u hu => all u (List.mem_cons_of_mem _ hu)
    rw [negotiate_cons (Transition.appliesTo_of_neverFar here far),
      negotiate_cons (Transition.appliesTo_of_neverFar here false)]
    simp only [ih allRest]

/-- Once the wanted variant is settled, a far edge and another one part exactly where no
instance has that variant and some instance assigns all of it and more. -/
theorem place_far_iff (wanted : Variant) :
    s.place grp tag true wanted = (s.place grp tag false wanted).map (Option.map asFar) ↔
      ((∃ id ∈ grp.members, wanted.isSubsetOf (s.graph.variant id) = true) →
        ∃ id ∈ grp.members, (s.graph.variant id == wanted) = true) := by
  rw [place, place, search_far, search_ordinary]
  cases exactly : s.graph.findMember grp (· == wanted) with
  | some target =>
    constructor
    · intro _ _
      exact Graph.exists_findMember_iff.mp ⟨target, exactly⟩
    · intro _
      rfl
  | none =>
    have missing := Graph.findMember_eq_none_iff.mp exactly
    cases larger : s.graph.findMember grp wanted.isSubsetOf with
    | some target =>
      constructor
      · intro same
        cases same
      · intro settles
        exact absurd (settles (Graph.exists_findMember_iff.mp ⟨target, larger⟩)) missing
    | none =>
      constructor
      · intro _ more
        exact absurd more (Graph.findMember_eq_none_iff.mp larger)
      · intro _
        rfl

/-- Where every completed transition is never-far, a far addition comes to what the same
addition comes to without being far, failures included, unless the negotiated variant is one
that no instance of the dependency has and that some instance only adds to. -/
theorem forwardEdge_far_iff (s : Site M T) (all : ∀ t ∈ s.completed, t.neverFar = true)
    (choices : List Variation) (tag : T) (name : String) :
    s.forwardEdge choices tag name true =
        (s.forwardEdge choices tag name false).map (Option.map asFar) ↔
      ∀ grp wanted, s.graph.group? name = some grp →
        s.negotiate grp choices tag false s.completed [] (s.startVariant choices false) =
          .ok wanted →
        (∃ id ∈ grp.members, wanted.isSubsetOf (s.graph.variant id) = true) →
        ∃ id ∈ grp.members, (s.graph.variant id == wanted) = true := by
  cases defined : s.graph.group? name with
  | none =>
    have undefined : s.forwardEdge choices tag name true =
        (s.forwardEdge choices tag name false).map (Option.map asFar) := by
      rw [forwardEdge, forwardEdge, defined]
      by_cases missing : s.allowMissing = true <;> simp [missing, Except.map]
    constructor
    · intro _ _ _ found
      cases found
    · intro _
      exact undefined
  | some grp =>
    rw [forwardEdge_of_group defined, forwardEdge_of_group defined, startVariant_far all,
      negotiate_far all]
    cases negotiated :
        s.negotiate grp choices tag false s.completed [] (s.startVariant choices false) with
    | error f =>
      constructor
      · intro _ _ _ found negotiated'
        cases found
        cases negotiated.symm.trans negotiated'
      · intro _
        rfl
    | ok wanted =>
      constructor
      · intro same _ _ found negotiated'
        cases found
        cases negotiated.symm.trans negotiated'
        exact (place_far_iff wanted).mp same
      · intro settles
        exact (place_far_iff wanted).mpr (settles grp wanted rfl negotiated)

end Site

namespace Pipeline

def neverFar : Pipeline DeclaredModule DepKind := DeclaredModule.pipeline { neverFar := true } ⟨false⟩

def toolchain : List DeclaredModule := [
  { name := "app", farDeps := ["tool"] },
  { name := "base", split := ["x", ""] },
  { name := "tool", split := ["x", "y"] }]

theorem forwardEdge_far_base :
    ∃ g s, (neverFar.take 1).resolve toolchain = .ok g ∧
      BottomUpMutator.site? false (transitions (neverFar.passes.take 1)) g 0 = some s ∧
      (∀ t ∈ s.completed, t.neverFar = true) ∧
      s.forwardEdge [] .far "base" true = .ok (some (0, ⟨2, .far, true⟩)) ∧
      ∀ grp wanted, s.graph.group? "base" = some grp →
        s.negotiate grp [] .far false s.completed [] (s.startVariant [] false) = .ok wanted →
        (∃ id ∈ grp.members, wanted.isSubsetOf (s.graph.variant id) = true) →
        ∃ id ∈ grp.members, (s.graph.variant id == wanted) = true := by
  obtain ⟨g, s, ran, site, all, found, same⟩ :
      ∃ g s, (neverFar.take 1).resolve toolchain = .ok g ∧
        BottomUpMutator.site? false (transitions (neverFar.passes.take 1)) g 0 = some s ∧
        (∀ t ∈ s.completed, t.neverFar = true) ∧
        s.forwardEdge [] .far "base" true = .ok (some (0, ⟨2, .far, true⟩)) ∧
        s.forwardEdge [] .far "base" true =
          (s.forwardEdge [] .far "base" false).map (Option.map Site.asFar) :=
    ⟨_, _, rfl, rfl, by simp [neverFar, DeclaredModule.pipeline, transitions], rfl, rfl⟩
  exact ⟨g, s, ran, site, all, found, (s.forwardEdge_far_iff all [] .far "base").mp same⟩

/-- The default variation of `tool` does not exist. A far edge leads to its first instance
instead, another one nowhere. -/
theorem forwardEdge_far_ne :
    ∃ g s f, (neverFar.take 1).resolve toolchain = .ok g ∧
      BottomUpMutator.site? false (transitions (neverFar.passes.take 1)) g 0 = some s ∧
      (∀ t ∈ s.completed, t.neverFar = true) ∧
      s.forwardEdge [] .far "tool" true = .ok (some (0, ⟨3, .far, true⟩)) ∧
      s.forwardEdge [] .far "tool" false = .error f ∧
      f.message = "dependency \"tool\" of \"app\" missing variant:\n  <empty variant>\n" ++
        "available variants:\n  transition:x\n  transition:y" ∧
      s.forwardEdge [] .far "tool" true ≠
        (s.forwardEdge [] .far "tool" false).map (Option.map Site.asFar) :=
  ⟨_, _, _, rfl, rfl, by simp [neverFar, DeclaredModule.pipeline, transitions], rfl, rfl,
    by decide +kernel, nofun⟩

variable [BuildModule M T]

/-- A far addition without choices onto a declared module either fails with what a transition
reports, or goes for a variant in which the value of a never-far dimension is one that the
dependency gave for the request exactly when some instance of the dependency agrees with the
values settled before, or happens to give what it is asked for. Where none agrees the value is
the request itself. -/
theorem far_answered_iff {p : Pipeline M T} {modules : List M} {count : Nat} {g : Graph M T}
    {id : Nat} {s : Site M T} {name : String} {grp : Group}
    (ran : (p.take count).resolve modules = .ok g)
    (site : BottomUpMutator.site? p.settings.allowMissing (transitions (p.passes.take count)) g id =
      some s) (defined : g.group? name = some grp) (tag : T) :
    (∃ f, s.forwardEdge [] tag name true = .error f ∧ s.Refusal grp tag f) ∨
    ∃ wanted, s.forwardEdge [] tag name true = s.place grp tag true wanted ∧
      ∀ before t after, transitions (p.passes.take count) = before ++ t :: after →
        t.neverFar = true → t.name ∉ after.map Transition.name →
        ∃ settled asked,
          s.negotiate grp [] tag true before [] (s.startVariant [] true) = .ok settled ∧
          (t.name ∉ before.map Transition.name →
            settled.get t.name = s.self.variant.get t.name) ∧
          t.mutator.outgoing ⟨s.self.content, s.self.variant, name, tag⟩ (settled.get t.name) =
            .ok asked ∧
          (s.Answers t grp asked (wanted.get t.name) ↔
            s.Matched grp (before.map Transition.name) settled ∨ s.Answers t grp asked asked) ∧
          (¬ s.Matched grp (before.map Transition.name) settled → wanted.get t.name = asked) := by
  obtain ⟨self, _, visited⟩ := BottomUpMutator.site?_eq_some_iff.mp site
  obtain rfl : s.graph = g := by rw [visited]
  have dimensions : s.completed = transitions (p.passes.take count) := by rw [visited]
  obtain rfl := Graph.name_of_group? defined
  rw [Site.forwardEdge_of_group defined]
  cases negotiated : s.negotiate grp [] tag true s.completed [] (s.startVariant [] true) with
  | error f =>
    have refused := Site.negotiate_refusal (fun _ there => there) [] _ f negotiated
    exact Or.inl ⟨f, rfl, refused⟩
  | ok wanted =>
    refine Or.inr ⟨wanted, rfl, ?_⟩
    intro before t after split never last
    exact Site.negotiated_dimension (resolve_wellFormed ran) (Graph.mem_of_group? defined)
      (dimensions.trans split) (Transition.appliesTo_of_neverFar never true) last negotiated

section Linked

open Ruled

def byRules (name : String) (neverFar : Bool) : Transition RuledModule String :=
  ⟨name, neverFar, RuledModule.ruledTransition name⟩

def linked : Pipeline RuledModule String where
  settings := ⟨false⟩
  passes := [
    .transition (byRules "arch" false),
    .transition (byRules "link" true),
    .bottomUp "late" (Action.mutator [⟨.depend true, some "app", none, [], "far", ["tool"], ""⟩])]

def programs : List RuledModule := [
  ⟨"app", [], none, [("link", { split := some ["a"] })], []⟩,
  ⟨"base", [], none, [("link", { split := some ["b"], incoming := [⟨[], none, "b"⟩] })], []⟩,
  ⟨"tool", [], none, [("arch", { split := some ["x"] }),
    ("link", { split := some ["b"], incoming := [⟨[], none, "b"⟩] })], []⟩]

theorem far_answered_iff_base :
    ∃ g s grp wanted, (linked.take 2).resolve programs = .ok g ∧
      BottomUpMutator.site? false (transitions (linked.passes.take 2)) g 0 = some s ∧
      g.group? "base" = some grp ∧
      s.forwardEdge [] "far" "base" true = .ok (some (0, ⟨1, "far", true⟩)) ∧
      s.forwardEdge [] "far" "base" true = s.place grp "far" true wanted ∧
      s.Answers (byRules "link" true) grp "a" (wanted.get "link") := by
  obtain ⟨g, s, grp, reached, ran, site, defined, found, start, matched, own, asks⟩ :
      ∃ g s grp reached, (linked.take 2).resolve programs = .ok g ∧
        BottomUpMutator.site? false (transitions (linked.passes.take 2)) g 0 = some s ∧
        g.group? "base" = some grp ∧
        s.forwardEdge [] "far" "base" true = .ok (some (0, ⟨1, "far", true⟩)) ∧
        s.negotiate grp [] "far" true [byRules "arch" false] [] (s.startVariant [] true) =
          .ok reached ∧
        s.Matched grp ["arch"] reached ∧ s.self.variant.get "link" = "a" ∧
        (byRules "link" true).mutator.outgoing
          ⟨s.self.content, s.self.variant, "base", "far"⟩ "a" = .ok "a" :=
    ⟨_, _, _, _, rfl, rfl, rfl, rfl, rfl, ⟨1, .head _, rfl⟩, rfl, rfl⟩
  rcases far_answered_iff ran site defined "far" with ⟨f, failed, _⟩ | ⟨wanted, goes, each⟩
  · cases found.symm.trans failed
  · obtain ⟨settled, asked, part, kept, asks', answered, _⟩ :=
      each [byRules "arch" false] (byRules "link" true) [] rfl rfl (by simp)
    obtain rfl := Except.ok.inj (start.symm.trans part)
    have value : reached.get (byRules "link" true).name = "a" := (kept (by decide)).trans own
    rw [value] at asks'
    obtain rfl := Except.ok.inj (asks.symm.trans asks')
    exact ⟨g, s, grp, wanted, ran, site, defined, found, goes, answered.mpr (Or.inl matched)⟩

/-- No instance of `tool` has the default architecture, so the request for the link `a` stands,
which no instance of it gives, and leads nowhere. -/
theorem far_unanswered_tool :
    ∃ g s grp wanted, (linked.take 2).resolve programs = .ok g ∧
      BottomUpMutator.site? false (transitions (linked.passes.take 2)) g 0 = some s ∧
      g.group? "tool" = some grp ∧
      s.negotiate grp [] "far" true s.completed [] (s.startVariant [] true) = .ok wanted ∧
      s.forwardEdge [] "far" "tool" true = .error (s.missingVariant .forward grp wanted) ∧
      s.self.variant.get "link" = "a" ∧
      (byRules "link" true).mutator.outgoing
        ⟨s.self.content, s.self.variant, "tool", "far"⟩ "a" = .ok "a" ∧
      (s.missingVariant .forward grp wanted).message =
        "dependency \"tool\" of \"app\" missing variant:\n  link:a\n" ++
          "available variants:\n  arch:x,link:b" ∧
      wanted.get "link" = "a" ∧ ¬ s.Answers (byRules "link" true) grp "a" (wanted.get "link") := by
  refine ⟨_, _, _, _, rfl, rfl, rfl, rfl, rfl, rfl, rfl, by decide +kernel, rfl, ?_⟩
  rintro ⟨id, member, y, here, gives⟩
  obtain rfl : id = 2 := List.mem_singleton.mp member
  cases here
  cases gives

end Linked

end Pipeline

end BuildVariants
