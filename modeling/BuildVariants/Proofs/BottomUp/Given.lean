import BuildVariants.Proofs.BottomUp.Negotiation

/-!
# Additions that are given one variant

A negotiation consults whichever instance agrees with what is settled so far. Where all instances of
the dependency give the same answers, and one of them has the variant that these answers make up, the
addition leads to that instance.
-/

set_option autoImplicit false

namespace BuildVariants

variable {M T : Type}

namespace Transition

def choices (ts : List (Transition M T)) (f : Transition M T → String) : List Variation :=
  ts.map fun t => ⟨t.name, f t⟩

theorem choices_mutators (ts : List (Transition M T)) (f : Transition M T → String) :
    (choices ts f).map Variation.mutator = ts.map Transition.name := by
  rw [choices, List.map_map]
  rfl

theorem get_setAll_choices {ts : List (Transition M T)} (nodup : (ts.map Transition.name).Nodup)
    (f : Transition M T → String) (v : Variant) {t : Transition M T} (ht : t ∈ ts) :
    (v.setAll (choices ts f)).get t.name = f t := by
  rw [← choices_mutators ts f] at nodup
  exact Variant.get_setAll_of_mem v nodup (List.mem_map_of_mem ht)

theorem get_choices_again {ts : List (Transition M T)} (nodup : (ts.map Transition.name).Nodup)
    (f : Transition M T → String) {v : Variant}
    (entries : v.entries.map Variation.mutator = ts.map Transition.name) (m : String) :
    ((Variant.ofList (choices ts f)).setAll (choices ts fun t => v.get t.name)).get m =
      v.get m := by
  by_cases dimension : m ∈ ts.map Transition.name
  · obtain ⟨t, ht, rfl⟩ := List.mem_map.mp dimension
    exact get_setAll_choices nodup _ _ ht
  · have others : ∀ f, m ∉ (choices ts f).map Variation.mutator := by
      intro f
      rwa [choices_mutators]
    rw [← entries] at dimension
    rw [Variant.get_setAll_of_notMem _ (others _), Variant.ofList,
      Variant.get_setAll_of_notMem _ (others _), Variant.get_empty, Variant.get_of_fresh dimension]

end Transition

theorem Graph.Settled.findMember_eq {g : Graph M T} {names dims : List String}
    (settled : g.Settled names dims) (nodup : dims.Nodup) {target : Nat} {y : Instance M T}
    (hy : g.instance? target = some y) {grp : Group} (defined : g.group? y.group = some grp)
    {wanted : Variant} (distinct : wanted.Distinct)
    (same : ∀ m, wanted.get m = y.variant.get m) :
    g.findMember grp (· == wanted) = some target := by
  obtain ⟨grp', defined', member⟩ := settled.group_of_instance hy
  obtain rfl : grp = grp' := Option.some.inj (defined.symm.trans defined')
  have hgrp := Graph.mem_of_group? defined
  have fits : (g.variant target == wanted) = true := by
    rw [Graph.variant_of_instance hy, Variant.beq_iff_get (settled.variant_distinct nodup hy) distinct]
    exact fun m => (same m).symm
  obtain ⟨id, found⟩ : ∃ id, g.findMember grp (· == wanted) = some id :=
    Graph.exists_findMember_iff.mpr ⟨target, member, fits⟩
  have memberId : id ∈ grp.members := List.mem_of_find?_eq_some found
  have passed := List.find?_some found
  have fitsId : (g.variant id == wanted) = true := passed
  rw [Variant.beq_comm] at fits
  rw [found, settled.distinct grp hgrp id memberId target member (Variant.beq_trans fitsId fits)]

namespace Site

variable [BuildModule M T] {s : Site M T} {grp : Group} {tag : T}

/-- For what the visited instance asks in the dimension of a transition, every instance of a group
gives the variation of `v`. -/
def Gives (s : Site M T) (grp : Group) (tag : T) (v : Variant) (t : Transition M T) : Prop :=
  ∃ asked, t.mutator.outgoing ⟨s.self.content, s.self.variant, grp.name, tag⟩
      (s.self.variant.get t.name) = .ok asked ∧
    ∀ id ∈ grp.members, ∀ z, s.graph.instance? id = some z →
      t.mutator.incoming ⟨z.content, z.variant, .addingDependency⟩ asked = .ok (v.get t.name)

theorem Gives.negotiate_cons {v : Variant} {t : Transition M T} (gives : s.Gives grp tag v t)
    (wf : s.graph.WellFormed) (hgrp : grp ∈ s.graph.groups) (rest : List (Transition M T))
    {earlier : List String} {wanted : Variant} (matched : s.Matched grp earlier wanted)
    (own : wanted.get t.name = s.self.variant.get t.name) :
    s.negotiate grp [] tag false (t :: rest) earlier wanted =
      s.negotiate grp [] tag false rest (earlier ++ [t.name])
        (wanted.set t.name (v.get t.name)) := by
  obtain ⟨asked, asks, given⟩ := gives
  have request : s.request t [] tag grp.name wanted = .ok asked := by
    rw [Site.request, if_neg (by simp), own, asks]
    rfl
  obtain ⟨id, member, z, here, consulted⟩ := grant_of_matched wf hgrp matched
  rw [Site.negotiate_cons rfl, request]
  simp only [bind, Except.bind, consulted, given id member z here]
  rfl

/-- If the group has an instance of the variant that all its instances give, then that variant is
negotiated. In every step it agrees with what is settled so far, so some instance is consulted. -/
theorem negotiate_given (wf : s.graph.WellFormed) (hgrp : grp ∈ s.graph.groups) {v : Variant}
    (there : ∃ id ∈ grp.members, s.graph.variant id = v) {ts : List (Transition M T)}
    (nodup : (ts.map Transition.name).Nodup) (gives : ∀ t ∈ ts, s.Gives grp tag v t)
    {earlier : List String} {wanted : Variant}
    (own : ∀ t ∈ ts, wanted.get t.name = s.self.variant.get t.name)
    (settled : ∀ m ∈ earlier, wanted.get m = v.get m) :
    s.negotiate grp [] tag false ts earlier wanted =
      .ok (wanted.setAll (Transition.choices ts fun t => v.get t.name)) := by
  induction ts generalizing earlier wanted with
  | nil => rfl
  | cons t rest ih =>
    rw [List.map_cons, List.nodup_cons] at nodup
    have matched : s.Matched grp earlier wanted := by
      obtain ⟨id, member, same⟩ := there
      refine ⟨id, member, ?_⟩
      rw [Variant.matchesOn, List.all_eq_true]
      intro m hm
      simp [same, settled m hm]
    rw [(gives t (by simp)).negotiate_cons wf hgrp rest matched (own t (by simp)),
      Transition.choices, List.map_cons, Variant.setAll_cons]
    apply ih nodup.2 fun u hu => gives u (by simp [hu])
    · intro u hu
      have other : u.name ≠ t.name := fun same => nodup.1 (same ▸ List.mem_map_of_mem hu)
      rw [Variant.get_set, if_neg other, own u (by simp [hu])]
    · intro m hm
      rw [Variant.get_set]
      by_cases here : m = t.name
      · rw [if_pos here, here]
      · have before : m ∈ earlier := by simpa [here] using hm
        rw [if_neg here, settled m before]

/-- An addition resolves to an instance whose variant is all that its module gives for what the
visited instance asks. -/
theorem resolve_given {names : List String}
    (settled : s.graph.Settled names (s.completed.map Transition.name))
    (nodup : (s.completed.map Transition.name).Nodup) {target : Nat} {y : Instance M T}
    (hy : s.graph.instance? target = some y) (hgrp : s.graph.group? y.group = some grp)
    (gives : ∀ t ∈ s.completed, s.Gives grp tag y.variant t) :
    s.resolve (.forward [] tag y.group false) = .ok (some (s.id, ⟨target, tag, false⟩)) := by
  obtain ⟨grp', defined, member⟩ := settled.group_of_instance hy
  obtain rfl : grp = grp' := Option.some.inj (hgrp.symm.trans defined)
  have start : s.startVariant [] false =
      .ofList (Transition.choices s.completed fun t => s.self.variant.get t.name) := rfl
  have own : ∀ t ∈ s.completed,
      (s.startVariant [] false).get t.name = s.self.variant.get t.name := by
    intro t ht
    rw [start]
    exact Transition.get_setAll_choices nodup _ _ ht
  have negotiated : s.negotiate grp [] tag false s.completed [] (s.startVariant [] false) = .ok _ :=
    negotiate_given settled.toWellFormed (Graph.mem_of_group? hgrp)
      ⟨target, member, Graph.variant_of_instance hy⟩ nodup gives own (by simp)
  have same := Transition.get_choices_again nodup (fun t => s.self.variant.get t.name)
    (settled.entries y (Graph.mem_instances hy))
  rw [← start] at same
  have distinct : ((s.startVariant [] false).setAll
      (Transition.choices s.completed fun t => y.variant.get t.name)).Distinct :=
    Variant.distinct_setAll (s.startVariant_distinct [] false) _
  have found := settled.findMember_eq nodup hy hgrp distinct same
  rw [Site.resolve, forwardEdge_of_group hgrp, negotiated]
  simp only [bind, Except.bind, place, search, found, Option.some_or]

end Site

end BuildVariants
