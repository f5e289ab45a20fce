import BuildVariants.BottomUp.Pass
import BuildVariants.Proofs.Failure
import BuildVariants.Proofs.Graph.WellFormed
import BuildVariants.Proofs.Variant

/-!
# Negotiated variants

A forward addition settles the wanted variant one completed transition after the other. A
transition sets the value of its own dimension and no other, so what is wanted in a dimension
in the end is what the last transition of that name gave there, for a request made of the
values settled before it.
-/

set_option autoImplicit false

namespace BuildVariants

variable {M T : Type}

namespace Graph

variable {g : Graph M T} {grp : Group}

theorem exists_findMember_iff {test : Variant → Bool} :
    (∃ id, g.findMember grp test = some id) ↔ ∃ id ∈ grp.members, test (g.variant id) = true := by
  rw [← Option.isSome_iff_exists, findMember, List.find?_isSome]

theorem findMember_eq_none_iff {test : Variant → Bool} :
    g.findMember grp test = none ↔ ¬ ∃ id ∈ grp.members, test (g.variant id) = true := by
  rw [← exists_findMember_iff, ← Option.isSome_iff_exists, Option.not_isSome_iff_eq_none]

end Graph

theorem Transition.appliesTo_of_neverFar {t : Transition M T} (h : t.neverFar = true)
    (far : Bool) : t.appliesTo far = true := by
  simp [appliesTo, h]

namespace Site

variable {s : Site M T} {grp : Group} {choices : List Variation} {tag : T} {far : Bool}

theorem search_far (wanted : Variant) : s.search grp wanted true =
    (s.search grp wanted false).or (s.graph.findMember grp wanted.isSubsetOf) := by
  simp [search]

theorem search_ordinary (wanted : Variant) :
    s.search grp wanted false = s.graph.findMember grp (· == wanted) := by
  simp [search]

theorem startVariant_distinct (s : Site M T) (choices : List Variation) (far : Bool) :
    (s.startVariant choices far).Distinct :=
  Variant.distinct_setAll (Variant.ofList_distinct _) choices

theorem startVariant_get {before after : List (Transition M T)} {t : Transition M T}
    (completed : s.completed = before ++ t :: after) (applies : t.appliesTo far = true)
    (last : t.name ∉ after.map Transition.name) :
    (s.startVariant [] far).get t.name = s.self.variant.get t.name := by
  -- A later entry of the same name would have replaced the value.
  have others : t.name ∉ (after.map fun u => (⟨u.name, if u.appliesTo far then
      s.self.variant.get u.name else ""⟩ : Variation)).map Variation.mutator := by
    rw [List.map_map]
    exact last
  rw [startVariant, Variant.setAll_nil, completedVariant, completed, List.map_append,
    List.map_cons, Variant.ofList, Variant.setAll_append, Variant.setAll_cons,
    Variant.get_setAll_of_notMem _ others, Variant.get_set, if_pos rfl, if_pos applies]

variable [BuildModule M T]

def place (s : Site M T) (grp : Group) (tag : T) (far : Bool) (wanted : Variant) :
    Except Failure (Option (Nat × Edge T)) :=
  match s.search grp wanted far with
  | some target => .ok (some (s.id, ⟨target, tag, far⟩))
  | none => .error (s.missingVariant .forward grp wanted)

theorem place_eq_ok_iff {wanted : Variant} {added : Option (Nat × Edge T)} :
    s.place grp tag far wanted = .ok added ↔ ∃ target, s.search grp wanted far = some target ∧
      added = some (s.id, ⟨target, tag, far⟩) := by
  rw [place]
  cases s.search grp wanted far with
  | none => simp
  | some target => simp [eq_comm]

theorem place_eq_error_iff {wanted : Variant} {f : Failure} :
    s.place grp tag far wanted = .error f ↔
      s.search grp wanted far = none ∧ f = s.missingVariant .forward grp wanted := by
  rw [place]
  cases s.search grp wanted far with
  | none => simp [eq_comm]
  | some target => simp

theorem forwardEdge_of_group {name : String} (defined : s.graph.group? name = some grp) :
    s.forwardEdge choices tag name far =
      (s.negotiate grp choices tag far s.completed [] (s.startVariant choices far) >>=
        s.place grp tag far) := by
  rw [forwardEdge, defined]
  rfl

section Steps

variable {t : Transition M T} {rest ts : List (Transition M T)} {earlier : List String}
  {wanted final : Variant}

theorem negotiate_cons (applies : t.appliesTo far = true) :
    s.negotiate grp choices tag far (t :: rest) earlier wanted = (do
      let asked ← s.request t choices tag grp.name wanted
      let given ← s.grant t grp earlier wanted asked
      s.negotiate grp choices tag far rest (earlier ++ [t.name]) (wanted.set t.name given)) := by
  rw [negotiate, if_pos applies]

theorem negotiate_cons_of_not (passed : ¬ t.appliesTo far = true) :
    s.negotiate grp choices tag far (t :: rest) earlier wanted =
      s.negotiate grp choices tag far rest (earlier ++ [t.name]) wanted := by
  rw [negotiate, if_neg passed]

theorem negotiate_cons_eq_ok_iff (applies : t.appliesTo far = true) :
    s.negotiate grp choices tag far (t :: rest) earlier wanted = .ok final ↔
      ∃ asked given, s.request t choices tag grp.name wanted = .ok asked ∧
        s.grant t grp earlier wanted asked = .ok given ∧
        s.negotiate grp choices tag far rest (earlier ++ [t.name]) (wanted.set t.name given) =
          .ok final := by
  simp only [negotiate_cons applies, bind_eq_ok_iff]
  constructor
  · rintro ⟨asked, wants, given, gives, h⟩
    exact ⟨asked, given, wants, gives, h⟩
  · rintro ⟨asked, given, wants, gives, h⟩
    exact ⟨asked, wants, given, gives, h⟩

theorem negotiate_append (first last : List (Transition M T)) (earlier : List String)
    (wanted : Variant) :
    s.negotiate grp choices tag far (first ++ last) earlier wanted =
      (s.negotiate grp choices tag far first earlier wanted >>= fun settled =>
        s.negotiate grp choices tag far last (earlier ++ first.map Transition.name) settled) := by
  induction first generalizing earlier wanted with
  | nil => simp [negotiate, bind, Except.bind]
  | cons t first ih =>
    have names : earlier ++ (t :: first).map Transition.name =
        earlier ++ [t.name] ++ first.map Transition.name := by simp
    rw [List.cons_append, names]
    by_cases applies : t.appliesTo far = true
    · simp only [negotiate_cons applies, ih, bind_assoc]
    · rw [negotiate_cons_of_not applies, negotiate_cons_of_not applies, ih]

theorem negotiate_get {m : String}
    (others : ∀ t ∈ ts, t.appliesTo far = true → t.name ≠ m)
    (h : s.negotiate grp choices tag far ts earlier wanted = .ok final) :
    final.get m = wanted.get m := by
  induction ts generalizing earlier wanted with
  | nil =>
    cases h
    rfl
  | cons t rest ih =>
    have othersRest : ∀ t ∈ rest, t.appliesTo far = true → t.name ≠ m :=
      fun u hu => others u (List.mem_cons_of_mem _ hu)
    by_cases applies : t.appliesTo far = true
    · -- The step sets the dimension of `t`, which is another one.
      obtain ⟨_, given, _, _, h⟩ := (negotiate_cons_eq_ok_iff applies).mp h
      have other : m ≠ t.name := (others t (by simp) applies).symm
      rw [ih othersRest h, Variant.get_set, if_neg other]
    · rw [negotiate_cons_of_not applies] at h
      exact ih othersRest h

theorem negotiate_last {before after : List (Transition M T)} (applies : t.appliesTo far = true)
    (last : t.name ∉ after.map Transition.name)
    (h : s.negotiate grp choices tag far (before ++ t :: after) earlier wanted = .ok final) :
    ∃ settled asked,
      s.negotiate grp choices tag far before earlier wanted = .ok settled ∧
      s.request t choices tag grp.name settled = .ok asked ∧
      s.grant t grp (earlier ++ before.map Transition.name) settled asked =
        .ok (final.get t.name) := by
  rw [negotiate_append] at h
  obtain ⟨settled, part, h⟩ := bind_eq_ok_iff.mp h
  obtain ⟨asked, given, wants, gives, h⟩ := (negotiate_cons_eq_ok_iff applies).mp h
  have others : ∀ u ∈ after, u.appliesTo far = true → u.name ≠ t.name := by
    intro u hu _ same
    exact last (same ▸ List.mem_map_of_mem hu)
  have value : final.get t.name = given := by
    rw [negotiate_get others h, Variant.get_set, if_pos rfl]
  exact ⟨settled, asked, part, wants, value ▸ gives⟩

end Steps

def Matched (s : Site M T) (grp : Group) (earlier : List String) (wanted : Variant) : Prop :=
  ∃ id ∈ grp.members, (s.graph.variant id).matchesOn wanted earlier = true

def Answers (s : Site M T) (t : Transition M T) (grp : Group) (asked given : String) : Prop :=
  ∃ id ∈ grp.members, ∃ y, s.graph.instance? id = some y ∧
    t.mutator.incoming ⟨y.content, y.variant, .addingDependency⟩ asked = .ok given

/-- The first instance that agrees with what is wanted so far is consulted. -/
theorem grant_of_matched (wf : s.graph.WellFormed) (there : grp ∈ s.graph.groups)
    {earlier : List String} {wanted : Variant} (matched : s.Matched grp earlier wanted) :
    ∃ id ∈ grp.members, ∃ y, s.graph.instance? id = some y ∧
      ∀ (t : Transition M T) (asked : String), s.grant t grp earlier wanted asked =
        (t.mutator.incoming ⟨y.content, y.variant, .addingDependency⟩ asked).mapError
          (·.toFailure y.content y.variant) := by
  obtain ⟨id, found⟩ : ∃ id, (s.graph.findMember grp fun v => v.matchesOn wanted earlier) =
      some id := Graph.exists_findMember_iff.mpr matched
  have member : id ∈ grp.members := List.mem_of_find?_eq_some found
  obtain ⟨y, here⟩ := s.graph.exists_instance (wf.member_lt there member)
  refine ⟨id, member, y, here, fun t asked => ?_⟩
  rw [grant, found, Option.bind_some, here]

theorem answers_of_grant (wf : s.graph.WellFormed) (there : grp ∈ s.graph.groups)
    {t : Transition M T} {earlier : List String} {wanted : Variant} {asked given : String}
    (matched : s.Matched grp earlier wanted)
    (h : s.grant t grp earlier wanted asked = .ok given) : s.Answers t grp asked given := by
  obtain ⟨id, member, y, here, consulted⟩ := grant_of_matched wf there matched
  rw [consulted] at h
  exact ⟨id, member, y, here, mapError_eq_ok_iff.mp h⟩

theorem grant_of_not_matched {t : Transition M T} {earlier : List String} {wanted : Variant}
    (unmatched : ¬ s.Matched grp earlier wanted) (asked : String) :
    s.grant t grp earlier wanted asked = .ok asked := by
  have none : (s.graph.findMember grp fun v => v.matchesOn wanted earlier) = none :=
    Graph.findMember_eq_none_iff.mpr unmatched
  rw [grant, none, Option.bind_none]

/-- How the value of a dimension comes about that is wanted in the end, for an addition without
choices: the visited instance asks for one, and what it asks for is given by an instance of the
group, or stands if no instance agrees with what was settled before. -/
theorem negotiated_dimension (wf : s.graph.WellFormed) (there : grp ∈ s.graph.groups)
    {before after : List (Transition M T)} {t : Transition M T}
    (completed : s.completed = before ++ t :: after) (applies : t.appliesTo far = true)
    (last : t.name ∉ after.map Transition.name) {wanted : Variant}
    (h : s.negotiate grp [] tag far s.completed [] (s.startVariant [] far) = .ok wanted) :
    ∃ settled asked,
      s.negotiate grp [] tag far before [] (s.startVariant [] far) = .ok settled ∧
      (t.name ∉ before.map Transition.name → settled.get t.name = s.self.variant.get t.name) ∧
      t.mutator.outgoing ⟨s.self.content, s.self.variant, grp.name, tag⟩ (settled.get t.name) =
        .ok asked ∧
      (s.Answers t grp asked (wanted.get t.name) ↔
        s.Matched grp (before.map Transition.name) settled ∨ s.Answers t grp asked asked) ∧
      (¬ s.Matched grp (before.map Transition.name) settled → wanted.get t.name = asked) := by
  rw [completed] at h
  obtain ⟨settled, asked, part, asks, gives⟩ := negotiate_last applies last h
  rw [List.nil_append] at gives
  have stands : ¬ s.Matched grp (before.map Transition.name) settled →
      wanted.get t.name = asked := by
    intro unmatched
    rw [grant_of_not_matched unmatched] at gives
    exact (Except.ok.inj gives).symm
  refine ⟨settled, asked, part, ?_, ?_, ⟨?_, ?_⟩, stands⟩
  · intro first
    have others : ∀ u ∈ before, u.appliesTo far = true → u.name ≠ t.name := by
      intro u hu _ same
      exact first (same ▸ List.mem_map_of_mem hu)
    rw [negotiate_get others part, startVariant_get completed applies last]
  · rw [request, if_neg (by simp)] at asks
    exact mapError_eq_ok_iff.mp asks
  · intro answers
    by_cases matched : s.Matched grp (before.map Transition.name) settled
    · exact Or.inl matched
    · rw [stands matched] at answers
      exact Or.inr answers
  · rintro (matched | itself)
    · exact answers_of_grant wf there matched gives
    · by_cases matched : s.Matched grp (before.map Transition.name) settled
      · exact answers_of_grant wf there matched gives
      · rw [stands matched]
        exact itself

/-- The failures that a transition reports while a variant is negotiated: at the visited
instance, about what it asks for, or at an instance of the group, about what it gives. -/
inductive Refusal (s : Site M T) (grp : Group) (tag : T) : Failure → Prop
  | asking {t : Transition M T} {value : String} {e : MutatorError} (completed : t ∈ s.completed)
      (failed : t.mutator.outgoing ⟨s.self.content, s.self.variant, grp.name, tag⟩ value =
        .error e) : Refusal s grp tag (e.toFailure s.self.content s.self.variant)
  | giving {t : Transition M T} {id : Nat} {y : Instance M T} {asked : String} {e : MutatorError}
      (completed : t ∈ s.completed) (member : id ∈ grp.members)
      (here : s.graph.instance? id = some y)
      (failed : t.mutator.incoming ⟨y.content, y.variant, .addingDependency⟩ asked = .error e) :
      Refusal s grp tag (e.toFailure y.content y.variant)

theorem Refusal.ofDecision {f : Failure} (h : s.Refusal grp tag f) : f.OfDecision := by
  cases h with
  | asking completed failed => exact .mutatorError _ _ _ _
  | giving completed member here failed => exact .mutatorError _ _ _ _

theorem request_refusal {t : Transition M T} (completed : t ∈ s.completed) (wanted : Variant) :
    FailsWith (s.Refusal grp tag) (s.request t choices tag grp.name wanted) := by
  intro f h
  unfold request at h
  split at h
  · cases h
  · obtain ⟨e, failed, rfl⟩ := mapError_eq_error_iff.mp h
    exact .asking completed failed

theorem grant_refusal {t : Transition M T} (completed : t ∈ s.completed) (earlier : List String)
    (wanted : Variant) (asked : String) :
    FailsWith (s.Refusal grp tag) (s.grant t grp earlier wanted asked) := by
  intro f h
  unfold grant at h
  split at h
  · next y consulted =>
    obtain ⟨id, found, here⟩ := Option.bind_eq_some_iff.mp consulted
    obtain ⟨e, failed, rfl⟩ := mapError_eq_error_iff.mp h
    exact .giving completed (List.mem_of_find?_eq_some found) here failed
  · cases h

/-- A negotiation only fails where a transition does. -/
theorem negotiate_refusal {ts : List (Transition M T)} (completed : ∀ t ∈ ts, t ∈ s.completed)
    (earlier : List String) (wanted : Variant) :
    FailsWith (s.Refusal grp tag) (s.negotiate grp choices tag far ts earlier wanted) := by
  induction ts generalizing earlier wanted with
  | nil => exact failsWith_ok wanted
  | cons t rest ih =>
    have here : t ∈ s.completed := completed t (by simp)
    have completedRest : ∀ t ∈ rest, t ∈ s.completed :=
      fun u hu => completed u (List.mem_cons_of_mem _ hu)
    by_cases applies : t.appliesTo far = true
    · rw [negotiate_cons applies]
      refine (request_refusal here wanted).bind fun asked _ => ?_
      refine (grant_refusal here earlier wanted asked).bind fun given _ => ?_
      exact ih completedRest (earlier ++ [t.name]) (wanted.set t.name given)
    · rw [negotiate_cons_of_not applies]
      exact ih completedRest (earlier ++ [t.name]) wanted

end Site

end BuildVariants
