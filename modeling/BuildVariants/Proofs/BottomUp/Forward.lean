import BuildVariants.Proofs.BottomUp.Given
import BuildVariants.Proofs.BottomUp.Pass
import Mathlib.Data.List.Induction

/-!
# What a forward addition comes to

An addition that is not far negotiates its target in the order of the completed transitions. What an
instance of the dependency gives in one dimension depends only on the request and on the values of the
earlier dimensions, so the negotiation can be told from its result: each value is what the first
instance that agrees with the result on the earlier dimensions gives for the request. A transition that
fails ends the negotiation there.
-/

set_option autoImplicit false

namespace BuildVariants

variable {M T : Type}

theorem Transition.nodup_names_concat {ts : List (Transition M T)} {t : Transition M T} :
    ((ts ++ [t]).map Transition.name).Nodup ↔
      t.name ∉ ts.map Transition.name ∧ (ts.map Transition.name).Nodup := by
  rw [List.map_append, List.map_singleton, ← List.concat_eq_append, List.nodup_concat]

namespace Site

variable {s : Site M T} {grp : Group} {choices : List Variation} {tag : T}

theorem get_completedVariant (s : Site M T) (m : String) : (s.completedVariant false).get m =
    if m ∈ s.completed.map Transition.name then s.self.variant.get m else "" := by
  have names : (s.completed.map fun t => (⟨t.name, if t.appliesTo false then
      s.self.variant.get t.name else ""⟩ : Variation)).map Variation.mutator =
      s.completed.map Transition.name := by
    rw [List.map_map]
    rfl
  rw [completedVariant, Variant.ofList, Variant.get_setAll_of_uniform _ (f := s.self.variant.get),
    names, Variant.get_empty]
  intro c hc
  obtain ⟨t, _, rfl⟩ := List.mem_map.mp hc
  rfl

theorem get_startVariant (s : Site M T) (choices : List Variation) (m : String) :
    (s.startVariant choices false).get m = (Variant.lastChosen? choices m).getD
      (if m ∈ s.completed.map Transition.name then s.self.variant.get m else "") := by
  rw [startVariant, Variant.get_setAll, get_completedVariant]

variable (s grp) in
def consulted (names : List String) (v : Variant) : Option (Instance M T) :=
  (s.graph.findMember grp fun u => u.matchesOn v names).bind s.graph.instance?

theorem consulted_congr {names : List String} {v w : Variant}
    (same : ∀ m ∈ names, v.get m = w.get m) : s.consulted grp names v = s.consulted grp names w := by
  simp only [consulted, Variant.matchesOn_congr same]

variable [BuildModule M T]

variable (s choices tag) in
def asks (name : String) (t : Transition M T) : Except Failure String :=
  match Variant.lastChosen? choices t.name with
  | some value => .ok value
  | none => (t.mutator.outgoing ⟨s.self.content, s.self.variant, name, tag⟩
      (s.self.variant.get t.name)).mapError (·.toFailure s.self.content s.self.variant)

theorem request_eq_asks {t : Transition M T} (completed : t ∈ s.completed) {name : String}
    {wanted : Variant} (start : wanted.get t.name = (s.startVariant choices false).get t.name) :
    s.request t choices tag name wanted = s.asks choices tag name t := by
  rw [get_startVariant, if_pos (List.mem_map_of_mem completed)] at start
  rw [request, ← Variant.lastChosen?_isSome, asks, start]
  cases Variant.lastChosen? choices t.name <;> rfl

theorem grant_eq_consulted (t : Transition M T) (names : List String) (v : Variant) (asked : String) :
    s.grant t grp names v asked = match s.consulted grp names v with
      | some y => (t.mutator.incoming ⟨y.content, y.variant, .addingDependency⟩ asked).mapError
          (·.toFailure y.content y.variant)
      | none => .ok asked := rfl

theorem grant_congr {t : Transition M T} {names : List String} {v w : Variant}
    (same : ∀ m ∈ names, v.get m = w.get m) {asked : String} :
    s.grant t grp names v asked = s.grant t grp names w asked := by
  rw [grant_eq_consulted, grant_eq_consulted, consulted_congr same]

theorem negotiate_concat (ts : List (Transition M T)) (t : Transition M T) (start : Variant) :
    s.negotiate grp choices tag false (ts ++ [t]) [] start = (do
      let settled ← s.negotiate grp choices tag false ts [] start
      let asked ← s.request t choices tag grp.name settled
      let given ← s.grant t grp (ts.map Transition.name) settled asked
      .ok (settled.set t.name given)) := by
  rw [negotiate_append, List.nil_append]
  simp only [negotiate_cons (show t.appliesTo false = true from rfl)]
  rfl

variable (s grp choices tag) in
/-- `v` has in the dimension of `t` what the instance that is consulted gives for what is asked. Where
there is none to consult, it has what is asked. -/
def Settles (earlier : List (Transition M T)) (t : Transition M T) (v : Variant) : Prop :=
  ∃ asked, s.asks choices tag grp.name t = .ok asked ∧
    match s.consulted grp (earlier.map Transition.name) v with
    | some y =>
      t.mutator.incoming ⟨y.content, y.variant, .addingDependency⟩ asked = .ok (v.get t.name)
    | none => v.get t.name = asked

variable (s grp choices tag) in
inductive Refuses (earlier : List (Transition M T)) (t : Transition M T) (v : Variant) :
    Failure → Prop
  | asking {e : MutatorError} (unchosen : Variant.lastChosen? choices t.name = none)
      (failed : t.mutator.outgoing ⟨s.self.content, s.self.variant, grp.name, tag⟩
        (s.self.variant.get t.name) = .error e) :
      Refuses earlier t v (e.toFailure s.self.content s.self.variant)
  | giving {asked : String} {y : Instance M T} {e : MutatorError}
      (asks : s.asks choices tag grp.name t = .ok asked)
      (consulted : s.consulted grp (earlier.map Transition.name) v = some y)
      (failed : t.mutator.incoming ⟨y.content, y.variant, .addingDependency⟩ asked = .error e) :
      Refuses earlier t v (e.toFailure y.content y.variant)

section Step

variable {earlier : List (Transition M T)} {t : Transition M T} {v : Variant}

theorem settles_iff : s.Settles grp choices tag earlier t v ↔
    ∃ asked, s.asks choices tag grp.name t = .ok asked ∧
      s.grant t grp (earlier.map Transition.name) v asked = .ok (v.get t.name) := by
  simp only [Settles, grant_eq_consulted]
  cases s.consulted grp (earlier.map Transition.name) v with
  | none => simp only [Except.ok.injEq, eq_comm]
  | some y => simp only [mapError_eq_ok_iff]

theorem refuses_iff {f : Failure} : s.Refuses grp choices tag earlier t v f ↔
    s.asks choices tag grp.name t = .error f ∨ ∃ asked, s.asks choices tag grp.name t = .ok asked ∧
      s.grant t grp (earlier.map Transition.name) v asked = .error f := by
  simp only [grant_eq_consulted]
  constructor
  · intro h
    cases h with
    | asking unchosen failed => exact Or.inl (by simp [asks, unchosen, failed, Except.mapError])
    | giving asks consulted failed =>
      exact Or.inr ⟨_, asks, by simp [consulted, failed, Except.mapError]⟩
  · rintro (unasked | ⟨asked, asks, ungiven⟩)
    · rw [Site.asks] at unasked
      cases chosen : Variant.lastChosen? choices t.name with
      | some value => simp [chosen] at unasked
      | none =>
        simp only [chosen] at unasked
        obtain ⟨e, failed, rfl⟩ := mapError_eq_error_iff.mp unasked
        exact .asking chosen failed
    · cases consulted : s.consulted grp (earlier.map Transition.name) v with
      | none => simp [consulted] at ungiven
      | some y =>
        simp only [consulted] at ungiven
        obtain ⟨e, failed, rfl⟩ := mapError_eq_error_iff.mp ungiven
        exact .giving asks consulted failed

end Step

variable (s grp choices tag) in
def SettlesAll (ts : List (Transition M T)) (v : Variant) : Prop :=
  ∀ before t after, ts = before ++ t :: after → s.Settles grp choices tag before t v

section Run

variable {ts : List (Transition M T)} {v w : Variant}

theorem settlesAll_concat {t : Transition M T} : s.SettlesAll grp choices tag (ts ++ [t]) v ↔
    s.SettlesAll grp choices tag ts v ∧ s.Settles grp choices tag ts t v := by
  constructor
  · intro all
    refine ⟨fun before u after split => ?_, all ts t [] rfl⟩
    exact all before u (after ++ [t]) (by rw [split, List.append_assoc, List.cons_append])
  · rintro ⟨first, last⟩ before u after split
    rcases List.eq_nil_or_concat after with rfl | ⟨after', u', rfl⟩
    · obtain ⟨rfl, same⟩ := List.append_inj' split rfl
      cases same
      exact last
    · have parts : ts ++ [t] = (before ++ u :: after') ++ [u'] := by simpa using split
      obtain ⟨rfl, _⟩ := List.append_inj' parts rfl
      exact first before u after' rfl

theorem SettlesAll.congr (settles : s.SettlesAll grp choices tag ts v)
    (same : ∀ m ∈ ts.map Transition.name, v.get m = w.get m) :
    s.SettlesAll grp choices tag ts w := by
  rintro before t after rfl
  obtain ⟨asked, asks, gives⟩ := settles before t after rfl
  have earlier : ∀ m ∈ before.map Transition.name, v.get m = w.get m :=
    fun m hm => same m (by simp only [List.map_append, List.mem_append, hm, true_or])
  have here : v.get t.name = w.get t.name := same t.name (by simp)
  refine ⟨asked, asks, ?_⟩
  rwa [consulted_congr earlier, here] at gives

variable {start : Variant}

/-- With a new name each step is about the value that the negotiation started from. -/
theorem negotiate_concat_of_ok {t : Transition M T} (completed : t ∈ s.completed)
    (new : t.name ∉ ts.map Transition.name) {settled : Variant}
    (h : s.negotiate grp choices tag false ts [] (s.startVariant choices false) = .ok settled) :
    s.negotiate grp choices tag false (ts ++ [t]) [] (s.startVariant choices false) = (do
      let asked ← s.asks choices tag grp.name t
      let given ← s.grant t grp (ts.map Transition.name) settled asked
      .ok (settled.set t.name given)) := by
  have others : ∀ u ∈ ts, u.appliesTo false = true → u.name ≠ t.name :=
    fun u hu _ same => new (same ▸ List.mem_map_of_mem hu)
  rw [negotiate_concat, h, ← request_eq_asks completed (negotiate_get others h)]
  rfl

theorem negotiate_settles (completed : ∀ t ∈ ts, t ∈ s.completed)
    (nodup : (ts.map Transition.name).Nodup)
    (h : s.negotiate grp choices tag false ts [] (s.startVariant choices false) = .ok w) :
    s.SettlesAll grp choices tag ts w := by
  induction ts using List.reverseRecOn generalizing w with
  | nil =>
    intro before t after split
    simp at split
  | append_singleton ts t ih =>
    rw [Transition.nodup_names_concat] at nodup
    have completedFirst : ∀ u ∈ ts, u ∈ s.completed := fun u hu => completed u (by simp [hu])
    have first := h
    rw [negotiate_append] at first
    obtain ⟨settled, reached, _⟩ := bind_eq_ok_iff.mp first
    rw [negotiate_concat_of_ok (completed t (by simp)) nodup.1 reached] at h
    obtain ⟨asked, asks, h⟩ := bind_eq_ok_iff.mp h
    obtain ⟨given, gives, h⟩ := bind_eq_ok_iff.mp h
    obtain rfl := Except.ok.inj h
    have kept : ∀ m ∈ ts.map Transition.name, settled.get m = (settled.set t.name given).get m := by
      intro m hm
      have other : m ≠ t.name := fun same => nodup.1 (same ▸ hm)
      rw [Variant.get_set, if_neg other]
    refine settlesAll_concat.mpr ⟨(ih completedFirst nodup.2 reached).congr kept, ?_⟩
    refine settles_iff.mpr ⟨asked, asks, ?_⟩
    rw [← grant_congr kept, Variant.get_set, if_pos rfl, gives]

theorem exists_negotiate (completed : ∀ t ∈ ts, t ∈ s.completed)
    (nodup : (ts.map Transition.name).Nodup) (h : s.SettlesAll grp choices tag ts v) :
    ∃ w, s.negotiate grp choices tag false ts [] (s.startVariant choices false) = .ok w ∧
      ∀ m ∈ ts.map Transition.name, w.get m = v.get m := by
  induction ts using List.reverseRecOn with
  | nil => exact ⟨_, rfl, by simp⟩
  | append_singleton ts t ih =>
    rw [Transition.nodup_names_concat] at nodup
    obtain ⟨first, last⟩ := settlesAll_concat.mp h
    obtain ⟨settled, reached, same⟩ := ih (fun u hu => completed u (by simp [hu])) nodup.2 first
    obtain ⟨asked, asks, gives⟩ := settles_iff.mp last
    rw [← grant_congr same] at gives
    refine ⟨settled.set t.name (v.get t.name), ?_, ?_⟩
    · rw [negotiate_concat_of_ok (completed t (by simp)) nodup.1 reached, asks]
      simp only [bind, Except.bind, gives]
    · intro m hm
      rw [Variant.get_set]
      by_cases here : m = t.name
      · rw [if_pos here, here]
      · rw [if_neg here]
        exact same m (by simpa [here] using hm)

variable (s grp choices tag) in
/-- The first refusal in the order of the transitions: what comes before it is settled. -/
def FirstRefusal (ts : List (Transition M T)) (f : Failure) : Prop :=
  ∃ before t after v, ts = before ++ t :: after ∧ s.SettlesAll grp choices tag before v ∧
    s.Refuses grp choices tag before t v f

theorem FirstRefusal.append {f : Failure} (h : s.FirstRefusal grp choices tag ts f)
    (more : List (Transition M T)) : s.FirstRefusal grp choices tag (ts ++ more) f := by
  obtain ⟨before, t, after, v, rfl, settles, refuses⟩ := h
  exact ⟨before, t, after ++ more, v, by simp, settles, refuses⟩

/-- A negotiation fails with its first refusal. -/
theorem negotiate_eq_error_iff (completed : ∀ t ∈ ts, t ∈ s.completed)
    (nodup : (ts.map Transition.name).Nodup) {f : Failure} :
    s.negotiate grp choices tag false ts [] (s.startVariant choices false) = .error f ↔
      s.FirstRefusal grp choices tag ts f := by
  constructor
  · intro h
    induction ts using List.reverseRecOn with
    | nil => cases h
    | append_singleton ts t ih =>
      rw [Transition.nodup_names_concat] at nodup
      have completedFirst : ∀ u ∈ ts, u ∈ s.completed := fun u hu => completed u (by simp [hu])
      cases reached : s.negotiate grp choices tag false ts [] (s.startVariant choices false) with
      | error f' =>
        rw [negotiate_append, reached] at h
        obtain rfl := Except.error.inj h
        exact (ih completedFirst nodup.2 reached).append [t]
      | ok settled =>
        rw [negotiate_concat_of_ok (completed t (by simp)) nodup.1 reached] at h
        refine ⟨ts, t, [], settled, rfl, negotiate_settles completedFirst nodup.2 reached, ?_⟩
        rw [refuses_iff]
        rcases bind_eq_error_iff.mp h with unasked | ⟨asked, asks, h⟩
        · exact Or.inl unasked
        · rcases bind_eq_error_iff.mp h with ungiven | ⟨given, _, h⟩
          · exact Or.inr ⟨asked, asks, ungiven⟩
          · cases h
  · rintro ⟨before, t, after, v, rfl, settles, refuses⟩
    have there : before ++ t :: after = (before ++ [t]) ++ after := by simp
    rw [there, List.map_append] at nodup
    replace nodup := nodup.of_append_left
    rw [Transition.nodup_names_concat] at nodup
    obtain ⟨settled, reached, same⟩ :=
      exists_negotiate (fun u hu => completed u (by simp [hu])) nodup.2 settles
    rw [there, negotiate_append, negotiate_concat_of_ok (completed t (by simp)) nodup.1 reached]
    rcases refuses_iff.mp refuses with unasked | ⟨asked, asks, ungiven⟩
    · rw [unasked]
      rfl
    · rw [← grant_congr same] at ungiven
      simp only [bind, Except.bind, asks, ungiven]

end Run

theorem negotiate_distinct {ts : List (Transition M T)} {earlier : List String} {far : Bool}
    {wanted final : Variant} (distinct : wanted.Distinct)
    (h : s.negotiate grp choices tag far ts earlier wanted = .ok final) : final.Distinct := by
  induction ts generalizing earlier wanted with
  | nil =>
    cases h
    exact distinct
  | cons t ts ih =>
    by_cases applies : t.appliesTo far = true
    · obtain ⟨_, given, _, _, h⟩ := (negotiate_cons_eq_ok_iff applies).mp h
      exact ih (Variant.distinct_set distinct t.name given) h
    · rw [negotiate_cons_of_not applies] at h
      exact ih distinct h

variable (s grp choices tag) in
/-- The instance that a forward addition leads to: it has in each dimension what the first instance that
agrees with it on the earlier ones gives for what is asked, and nothing is chosen beyond the
dimensions. -/
structure Chosen (target : Nat) : Prop where
  member : target ∈ grp.members
  bare : ∀ m, m ∉ s.completed.map Transition.name → (s.graph.variant target).get m = ""
  unchosen : ∀ m value, m ∉ s.completed.map Transition.name →
    Variant.lastChosen? choices m = some value → value = ""
  given : ∀ before t after, s.completed = before ++ t :: after → ∃ asked y,
    s.asks choices tag grp.name t = .ok asked ∧
      s.consulted grp (before.map Transition.name) (s.graph.variant target) = some y ∧
      t.mutator.incoming ⟨y.content, y.variant, .addingDependency⟩ asked =
        .ok ((s.graph.variant target).get t.name)

section Result

variable {names : List String} {target : Nat}

theorem Chosen.settlesAll (chosen : s.Chosen grp choices tag target) :
    s.SettlesAll grp choices tag s.completed (s.graph.variant target) := by
  intro before t after split
  obtain ⟨asked, y, asks, consulted, gives⟩ := chosen.given before t after split
  refine ⟨asked, asks, ?_⟩
  simp only [consulted, gives]

omit [BuildModule M T] in
theorem exists_consulted (wf : s.graph.WellFormed) (hgrp : grp ∈ s.graph.groups)
    (member : target ∈ grp.members) (dims : List String) :
    ∃ y, s.consulted grp dims (s.graph.variant target) = some y := by
  have itself : (s.graph.variant target).matchesOn (s.graph.variant target) dims = true := by
    simp [Variant.matchesOn]
  obtain ⟨id, found⟩ : ∃ id, (s.graph.findMember grp fun u =>
      u.matchesOn (s.graph.variant target) dims) = some id :=
    Graph.exists_findMember_iff.mpr ⟨target, member, itself⟩
  obtain ⟨y, here⟩ := s.graph.exists_instance (wf.findMember_lt hgrp found)
  exact ⟨y, by rw [consulted, found, Option.bind_some, here]⟩

theorem SettlesAll.given (wf : s.graph.WellFormed) (hgrp : grp ∈ s.graph.groups)
    (member : target ∈ grp.members)
    (settles : s.SettlesAll grp choices tag s.completed (s.graph.variant target))
    {before after : List (Transition M T)} {t : Transition M T}
    (split : s.completed = before ++ t :: after) : ∃ asked y,
      s.asks choices tag grp.name t = .ok asked ∧
        s.consulted grp (before.map Transition.name) (s.graph.variant target) = some y ∧
        t.mutator.incoming ⟨y.content, y.variant, .addingDependency⟩ asked =
          .ok ((s.graph.variant target).get t.name) := by
  obtain ⟨asked, asks, gives⟩ := settles before t after split
  obtain ⟨y, consulted⟩ := exists_consulted wf hgrp member (before.map Transition.name)
  simp only [consulted] at gives
  exact ⟨asked, y, asks, consulted, gives⟩

theorem get_of_negotiated {wanted : Variant}
    (h : s.negotiate grp choices tag false s.completed [] (s.startVariant choices false) = .ok wanted)
    {m : String} (beyond : m ∉ s.completed.map Transition.name) :
    wanted.get m = (Variant.lastChosen? choices m).getD "" := by
  have others : ∀ t ∈ s.completed, t.appliesTo false = true → t.name ≠ m :=
    fun t ht _ same => beyond (same ▸ List.mem_map_of_mem ht)
  rw [negotiate_get others h, get_startVariant, if_neg beyond]

/-- In a settled graph an addition leads to an instance exactly if that is the chosen one. -/
theorem forwardEdge_eq_ok_iff
    (settled : s.graph.Settled names (s.completed.map Transition.name))
    (nodup : (s.completed.map Transition.name).Nodup) {name : String}
    (defined : s.graph.group? name = some grp) :
    s.forwardEdge choices tag name false = .ok (some (s.id, ⟨target, tag, false⟩)) ↔
      s.Chosen grp choices tag target := by
  have hgrp := Graph.mem_of_group? defined
  have lt : target ∈ grp.members → target < s.graph.size := settled.member_lt hgrp
  have bare : ∀ {x}, s.graph.instance? target = some x → ∀ m,
      m ∉ s.completed.map Transition.name → (s.graph.variant target).get m = "" := by
    intro x hx m beyond
    rw [← settled.entries x (Graph.mem_instances hx)] at beyond
    rw [Graph.variant_of_instance hx, Variant.get_of_fresh beyond]
  rw [forwardEdge_of_group defined]
  constructor
  · intro h
    obtain ⟨wanted, negotiated, placed⟩ := bind_eq_ok_iff.mp h
    obtain ⟨_, found, same⟩ := place_eq_ok_iff.mp placed
    cases same
    rw [search_ordinary] at found
    have member : target ∈ grp.members := List.mem_of_find?_eq_some found
    obtain ⟨x, hx⟩ := s.graph.exists_instance (lt member)
    have passed := List.find?_some found
    have equal : (s.graph.variant target == wanted) = true := passed
    have agree := Variant.get_eq_of_beq equal
    refine ⟨member, bare hx, ?_, ?_⟩
    · intro m value beyond last
      have beyondValue := get_of_negotiated negotiated beyond
      rwa [← agree m, bare hx m beyond, last, Option.getD_some, eq_comm] at beyondValue
    · intro before t after split
      have settles := negotiate_settles (fun _ there => there) nodup negotiated
      exact (settles.congr fun m _ => (agree m).symm).given settled.toWellFormed hgrp member split
  · intro chosen
    obtain ⟨x, hx⟩ := s.graph.exists_instance (lt chosen.member)
    obtain ⟨wanted, negotiated, same⟩ :=
      exists_negotiate (fun _ there => there) nodup chosen.settlesAll
    have equal : ∀ m, wanted.get m = x.variant.get m := by
      intro m
      rw [← Graph.variant_of_instance hx]
      by_cases dimension : m ∈ s.completed.map Transition.name
      · exact same m dimension
      · rw [get_of_negotiated negotiated dimension, chosen.bare m dimension]
        cases last : Variant.lastChosen? choices m with
        | none => rfl
        | some value => exact chosen.unchosen m value dimension last
    have group : s.graph.group? x.group = some grp := by
      rw [settled.group_of_member defined chosen.member hx, defined]
    have found := settled.findMember_eq nodup hx group
      (negotiate_distinct (s.startVariant_distinct choices false) negotiated) equal
    rw [negotiated]
    simp only [bind, Except.bind, place, search_ordinary, found]

theorem forwardEdge_refused (nodup : (s.completed.map Transition.name).Nodup) {name : String}
    (defined : s.graph.group? name = some grp) {f : Failure}
    (refusal : s.FirstRefusal grp choices tag s.completed f) :
    s.forwardEdge choices tag name false = .error f := by
  rw [forwardEdge_of_group defined,
    (negotiate_eq_error_iff (fun _ there => there) nodup).mpr refusal]
  rfl

variable (choices tag) in
/-- An addition comes to an edge, to the first refusal or to a missing variant. -/
theorem forwardEdge_cases (nodup : (s.completed.map Transition.name).Nodup) {name : String}
    (defined : s.graph.group? name = some grp) :
    (∃ target, s.forwardEdge choices tag name false = .ok (some (s.id, ⟨target, tag, false⟩))) ∨
    (∃ f, s.FirstRefusal grp choices tag s.completed f ∧
      s.forwardEdge choices tag name false = .error f) ∨
    ∃ requested, s.SettlesAll grp choices tag s.completed requested ∧
      (∀ m, m ∉ s.completed.map Transition.name →
        requested.get m = (Variant.lastChosen? choices m).getD "") ∧
      s.forwardEdge choices tag name false =
        .error (s.missingVariant .forward grp requested) := by
  rw [forwardEdge_of_group defined]
  cases negotiated :
      s.negotiate grp choices tag false s.completed [] (s.startVariant choices false) with
  | error f =>
    have refusal := (negotiate_eq_error_iff (fun _ there => there) nodup).mp negotiated
    exact Or.inr (Or.inl ⟨f, refusal, rfl⟩)
  | ok requested =>
    simp only [bind, Except.bind, place]
    cases s.search grp requested false with
    | some target => exact Or.inl ⟨target, rfl⟩
    | none =>
      have settles := negotiate_settles (fun _ there => there) nodup negotiated
      exact Or.inr (Or.inr ⟨requested, settles, fun m => get_of_negotiated negotiated, rfl⟩)

end Result

end Site

end BuildVariants
