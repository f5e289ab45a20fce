import BuildVariants.Transition.Rewiring
import BuildVariants.Proofs.Text.Order
import BuildVariants.Proofs.Transition.Decision

/-!
# Plans that account for each other

The plan of an instance is made for the requests that reached it so far. Along a top-down
order nothing planned later asks anything of an instance planned before, so in the end every
plan accounts for the requests of all plans. On an acyclic graph there is only one such
family of plans: no other top-down order would lead to different ones.
-/

set_option autoImplicit false

namespace BuildVariants

namespace Transition

variable {M T : Type}

theorem targets_of_mem_requests {g : Graph M T} {p : InstancePlan} {i : Nat} {w : String}
    (h : (i, w) ∈ p.requests g) : i ∈ g.targets p.id := by
  obtain ⟨row, _, pair⟩ := List.mem_flatMap.mp h
  exact (List.of_mem_zip pair).1

theorem mem_requestsOf {g : Graph M T} {plans : List InstancePlan} {i : Nat} {w : String} :
    w ∈ requestsOf g plans i ↔ ∃ p ∈ plans, (i, w) ∈ p.requests g := by
  simp [requestsOf, List.mem_flatMap]

theorem requestsOf_congr {g : Graph M T} {plans plans' : List InstancePlan} {i : Nat}
    (h : ∀ w, (∃ p ∈ plans, (i, w) ∈ p.requests g) ↔ ∃ p ∈ plans', (i, w) ∈ p.requests g) :
    requestsOf g plans i = requestsOf g plans' i := by
  apply Text.sortedSet_congr
  intro w
  have heard : ∀ all : List InstancePlan,
      w ∈ ((all.flatMap fun p => p.requests g).filter fun r => r.1 = i).map Prod.snd ↔
        ∃ p ∈ all, (i, w) ∈ p.requests g :=
    fun _ => Text.mem_sortedSet.symm.trans mem_requestsOf
  exact (heard plans).trans ((h w).trans (heard plans').symm)

variable [BuildModule M T]

section Instance

variable {t : Transition M T} {g : Graph M T} {requested : List String} {id : Nat}
  {x : Instance M T}

@[simp] theorem planInstance_id : (t.planInstance g requested id x).id = id := rfl

theorem planInstance_resolved : (t.planInstance g requested id x).resolved =
    (t.planInstance g requested id x).values.map fun v =>
      x.deps.map fun e => valueOf (t.edgeValue g x v e) := by
  simp [planInstance, Function.comp_def]

theorem lookup_zip_map {α β : Type} [BEq α] [LawfulBEq α] (f : α → β) {keys : List α} {key : α}
    (h : key ∈ keys) : (keys.zip (keys.map f)).lookup key = some (f key) := by
  induction keys with
  | nil => simp at h
  | cons k keys ih =>
    rw [List.map_cons, List.zip_cons_cons, List.lookup_cons]
    by_cases same : key = k
    · simp [same]
    · simp only [beq_false_of_ne same]
      exact ih ((List.mem_cons.mp h).resolve_left same)

theorem row_planInstance {value : String}
    (h : value ∈ (t.planInstance g requested id x).values) :
    (t.planInstance g requested id x).row value =
      x.deps.map fun e => valueOf (t.edgeValue g x value e) := by
  rw [InstancePlan.row, planInstance_resolved, lookup_zip_map _ h]
  rfl

theorem mem_requests_planInstance (hx : g.instance? id = some x) {i : Nat} {w : String} :
    (i, w) ∈ (t.planInstance g requested id x).requests g ↔
      ∃ v ∈ (t.planInstance g requested id x).values, ∃ e ∈ x.deps,
        e.target = i ∧ valueOf (t.edgeValue g x v e) = w := by
  rw [InstancePlan.requests, planInstance_resolved, planInstance_id, g.targets_of_instance hx]
  simp [List.zip_map', List.mem_flatMap]

theorem failures_planInstance_eq_nil_iff :
    (t.planInstance g requested id x).failures = [] ↔
      (∃ split, t.splitOf x = .ok split) ∧
        ∀ v ∈ (t.planInstance g requested id x).values, ∀ e ∈ x.deps,
          ∃ w, t.edgeValue g x v e = .ok w := by
  simp only [planInstance, List.append_eq_nil_iff, failureOf_eq_nil_iff, List.flatMap_eq_nil_iff,
    List.mem_flatten, List.mem_map]
  constructor
  · rintro ⟨split, decided⟩
    refine ⟨split, fun v hv e he => decided _ ⟨_, ⟨v, hv, rfl⟩, List.mem_map_of_mem he⟩⟩
  · rintro ⟨split, decided⟩
    refine ⟨split, ?_⟩
    rintro _ ⟨_, ⟨v, hv, rfl⟩, hrow⟩
    obtain ⟨e, he, rfl⟩ := List.mem_map.mp hrow
    exact decided v hv e he

theorem mem_failures_planInstance {f : Failure} :
    f ∈ (t.planInstance g requested id x).failures ↔ t.splitOf x = .error f ∨
      ∃ v ∈ (t.planInstance g requested id x).values, ∃ e ∈ x.deps,
        t.edgeValue g x v e = .error f := by
  simp only [planInstance, List.mem_append, mem_failureOf, List.mem_flatMap, List.mem_flatten,
    List.mem_map]
  refine or_congr Iff.rfl ?_
  constructor
  · rintro ⟨_, ⟨_, ⟨v, hv, rfl⟩, hrow⟩, failed⟩
    obtain ⟨e, he, rfl⟩ := List.mem_map.mp hrow
    exact ⟨v, hv, e, he, failed⟩
  · rintro ⟨v, hv, e, he, failed⟩
    exact ⟨_, ⟨_, ⟨v, hv, rfl⟩, List.mem_map_of_mem he⟩, failed⟩

theorem failures_planInstance_of_error {f : Failure} (h : t.splitOf x = .error f) :
    ∃ more, (t.planInstance g requested id x).failures = f :: more := by
  simp only [planInstance, h, failureOf, List.singleton_append]
  exact ⟨_, rfl⟩

theorem values_planInstance {split : List String} (h : t.splitOf x = .ok split) :
    (t.planInstance g requested id x).values = split ++ requested.filter fun v => v ∉ split := by
  simp [planInstance, h, mergeRequests]

/-- Whatever becomes of the split, what is requested is planned. -/
theorem requested_mem_values {w : String} (h : w ∈ requested) :
    w ∈ (t.planInstance g requested id x).values := by
  have merged : ∀ own, w ∈ mergeRequests own requested := by
    intro own
    rw [mergeRequests, List.mem_append, List.mem_filter]
    by_cases there : w ∈ own
    · exact Or.inl there
    · exact Or.inr ⟨h, by simpa using there⟩
  exact merged _

end Instance

theorem planAll_append (t : Transition M T) (g : Graph M T) (first last : List Nat)
    (plans : List InstancePlan) :
    t.planAll g (first ++ last) plans = t.planAll g last (t.planAll g first plans) := by
  induction first generalizing plans with
  | nil => rfl
  | cons i first ih =>
    rw [List.cons_append, planAll, planAll]
    split <;> exact ih _

theorem planAll_extends (t : Transition M T) (g : Graph M T) {order : List Nat}
    (inside : ∀ i ∈ order, i < g.size) (plans : List InstancePlan) :
    ∃ new, t.planAll g order plans = plans ++ new ∧ new.map InstancePlan.id = order := by
  induction order generalizing plans with
  | nil => exact ⟨[], by simp [planAll], rfl⟩
  | cons i order ih =>
    obtain ⟨x, hx⟩ := g.exists_instance (inside i (by simp))
    obtain ⟨new, extended, ids⟩ := ih (fun j hj => inside j (by simp [hj]))
      (plans ++ [t.planInstance g (requestsOf g plans i) i x])
    refine ⟨t.planInstance g (requestsOf g plans i) i x :: new, ?_, ?_⟩
    · simp only [planAll, hx, extended, List.append_assoc, List.singleton_append]
    · rw [List.map_cons, ids, planInstance_id]

/-- Plans for every instance that account for all requests of each other. -/
structure Agreed (t : Transition M T) (g : Graph M T) (plans : List InstancePlan) : Prop where
  ids_nodup : (plans.map InstancePlan.id).Nodup
  ids_complete : ∀ i, i ∈ plans.map InstancePlan.id ↔ i < g.size
  accounts : ∀ p ∈ plans, ∀ x, g.instance? p.id = some x →
    p = t.planInstance g (requestsOf g plans p.id) p.id x

/-- Plans made along a top-down order agree. -/
theorem planAll_agreed (t : Transition M T) {g : Graph M T} {order : List Nat}
    (topDown : g.TopDownOrder order) : t.Agreed g (t.planAll g order []) := by
  have inside : ∀ i ∈ order, i < g.size := fun i => (topDown.complete i).mp
  obtain ⟨plans, made, ids⟩ := planAll_extends t g inside []
  rw [made, List.nil_append]
  refine ⟨ids ▸ topDown.nodup, ids ▸ topDown.complete, ?_⟩
  intro p hp x hx
  -- At its turn the instance met all plans of its dependents, and no later plan asks it.
  have turn : p.id ∈ order := ids ▸ List.mem_map_of_mem hp
  obtain ⟨first, last, split⟩ := List.append_of_mem turn
  have insideFirst : ∀ i ∈ first, i < g.size := fun i hi => inside i (by simp [split, hi])
  have insideLast : ∀ i ∈ last, i < g.size := fun i hi => inside i (by simp [split, hi])
  obtain ⟨met, madeFirst, idsFirst⟩ := planAll_extends t g insideFirst []
  obtain ⟨later, madeLast, idsLast⟩ := planAll_extends t g insideLast
    (met ++ [t.planInstance g (requestsOf g met p.id) p.id x])
  have all : plans = met ++ t.planInstance g (requestsOf g met p.id) p.id x :: later := by
    have steps := made
    rw [split, planAll_append, madeFirst] at steps
    simp only [List.nil_append, planAll, hx, madeLast, List.append_assoc] at steps
    exact steps.symm
  have nodup : (first ++ p.id :: last).Nodup := split ▸ topDown.nodup
  have own : p = t.planInstance g (requestsOf g met p.id) p.id x := by
    have distinct : (plans.map InstancePlan.id).Nodup := ids ▸ topDown.nodup
    exact List.inj_on_of_nodup_map distinct hp (by simp [all]) rfl
  have heard : requestsOf g met p.id = requestsOf g plans p.id := by
    apply requestsOf_congr
    intro w
    constructor
    · rintro ⟨q, hq, asks⟩
      exact ⟨q, by simp [all, hq], asks⟩
    · rintro ⟨q, hq, asks⟩
      have before : q.id ∈ first := topDown.before split (targets_of_mem_requests asks)
      refine ⟨q, ?_, asks⟩
      rw [all] at hq
      rcases List.mem_append.mp hq with early | late
      · exact early
      · have after : q.id ∈ p.id :: last := by
          rcases List.mem_cons.mp late with rfl | late
          · simp
          · exact List.mem_cons_of_mem _ (idsLast ▸ List.mem_map_of_mem late)
        exact absurd rfl ((List.nodup_append.mp nodup).2.2 q.id before q.id after)
  rw [← heard]
  exact own

namespace Agreed

variable {t : Transition M T} {g : Graph M T} {plans : List InstancePlan}

theorem mem_iff (agreed : t.Agreed g plans) {p : InstancePlan} :
    p ∈ plans ↔ ∃ x, g.instance? p.id = some x ∧
      p = t.planInstance g (requestsOf g plans p.id) p.id x := by
  constructor
  · intro hp
    obtain ⟨x, hx⟩ := g.exists_instance
      ((agreed.ids_complete p.id).mp (List.mem_map_of_mem hp))
    exact ⟨x, hx, agreed.accounts p hp x hx⟩
  · rintro ⟨x, hx, own⟩
    obtain ⟨q, hq, same⟩ := List.mem_map.mp ((agreed.ids_complete p.id).mpr (g.instance_lt hx))
    have other := agreed.accounts q hq x (same ▸ hx)
    rw [same, ← own] at other
    exact other ▸ hq

/-- The plan found for an instance is the one made for the requests of all plans. -/
theorem planOf? (agreed : t.Agreed g plans) {i : Nat} {x : Instance M T}
    (hx : g.instance? i = some x) :
    Transition.planOf? plans i = some (t.planInstance g (requestsOf g plans i) i x) := by
  obtain ⟨p, hp, same⟩ := List.mem_map.mp ((agreed.ids_complete i).mpr (g.instance_lt hx))
  cases found : Transition.planOf? plans i with
  | none =>
    have absent := List.find?_eq_none.mp found p hp
    exact absurd same (by simpa using absent)
  | some q =>
    have named : q.id = i := by simpa using List.find?_some found
    have made := agreed.accounts q (List.mem_of_find?_eq_some found) x (named ▸ hx)
    rw [named] at made
    rw [made]

theorem valuesOf (agreed : t.Agreed g plans) {i : Nat} {x : Instance M T}
    (hx : g.instance? i = some x) :
    Transition.valuesOf plans i = (t.planInstance g (requestsOf g plans i) i x).values := by
  simp [Transition.valuesOf, agreed.planOf? hx]

theorem mem_requestsOf (agreed : t.Agreed g plans) {i : Nat} {w : String} :
    w ∈ requestsOf g plans i ↔ ∃ d x, g.instance? d = some x ∧
      ∃ v ∈ Transition.valuesOf plans d, ∃ e ∈ x.deps,
        e.target = i ∧ valueOf (t.edgeValue g x v e) = w := by
  rw [Transition.mem_requestsOf]
  constructor
  · rintro ⟨p, hp, asks⟩
    obtain ⟨x, hx, own⟩ := agreed.mem_iff.mp hp
    rw [own] at asks
    refine ⟨p.id, x, hx, ?_⟩
    rw [agreed.valuesOf hx]
    exact (mem_requests_planInstance hx).mp asks
  · rintro ⟨d, x, hx, asks⟩
    rw [agreed.valuesOf hx] at asks
    exact ⟨_, agreed.mem_iff.mpr ⟨x, hx, rfl⟩, (mem_requests_planInstance hx).mpr asks⟩

theorem led_planned (agreed : t.Agreed g plans) (valid : g.TargetsValid) {i : Nat}
    {x : Instance M T} (hx : g.instance? i = some x) {v : String}
    (hv : v ∈ Transition.valuesOf plans i) {e : Edge T} (he : e ∈ x.deps) :
    valueOf (t.edgeValue g x v e) ∈ Transition.valuesOf plans e.target := by
  obtain ⟨y, hy⟩ := g.exists_instance (valid.target_lt hx he)
  rw [agreed.valuesOf hy]
  exact requested_mem_values (agreed.mem_requestsOf.mpr ⟨i, x, hx, v, hv, e, he, rfl, rfl⟩)

theorem row_planned (agreed : t.Agreed g plans) (valid : g.TargetsValid) {p : InstancePlan}
    (hp : p ∈ plans) {v : String} (hv : v ∈ p.values) :
    List.Forall₂ (fun e w => w ∈ Transition.valuesOf plans e.target) (g.deps p.id) (p.row v) := by
  obtain ⟨x, hx, own⟩ := agreed.mem_iff.mp hp
  have planned : Transition.valuesOf plans p.id = p.values := by
    rw [agreed.valuesOf hx, ← own]
  have row : p.row v = x.deps.map fun e => valueOf (t.edgeValue g x v e) := by
    rw [own] at hv ⊢
    exact row_planInstance hv
  rw [row, g.deps_of_instance hx, List.forall₂_map_right_iff, List.forall₂_same]
  exact fun e he => agreed.led_planned valid hx (planned ▸ hv) he

/-- If the graph has a top-down order, plans that agree hear the same requests. -/
theorem requestsOf_unique {plans' : List InstancePlan} (agreed : t.Agreed g plans)
    (agreed' : t.Agreed g plans') {order : List Nat} (topDown : g.TopDownOrder order) (i : Nat) :
    requestsOf g plans i = requestsOf g plans' i := by
  have asksSame : ∀ {a b : List InstancePlan}, t.Agreed g a → t.Agreed g b → ∀ {i : Nat},
      (∀ d, i ∈ g.targets d → requestsOf g a d = requestsOf g b d) → ∀ {w : String},
      (∃ p ∈ a, (i, w) ∈ p.requests g) → ∃ p ∈ b, (i, w) ∈ p.requests g := by
    intro a b ha hb i ih w
    rintro ⟨p, hp, asks⟩
    obtain ⟨x, hx, own⟩ := ha.mem_iff.mp hp
    rw [ih p.id (targets_of_mem_requests asks)] at own
    exact ⟨p, hb.mem_iff.mpr ⟨x, hx, own⟩, asks⟩
  induction i using topDown.induct with
  | step i ih =>
    apply requestsOf_congr
    intro w
    exact ⟨asksSame agreed agreed' ih, asksSame agreed' agreed fun d hd => (ih d hd).symm⟩

theorem planOf?_eq_none (agreed : t.Agreed g plans) {i : Nat} (hi : ¬ i < g.size) :
    Transition.planOf? plans i = none := by
  rw [Transition.planOf?, List.find?_eq_none]
  intro p hp
  have inside := (agreed.ids_complete p.id).mp (List.mem_map_of_mem hp)
  simp only [decide_eq_true_eq]
  omega

theorem planOf?_unique {plans' : List InstancePlan} (agreed : t.Agreed g plans)
    (agreed' : t.Agreed g plans') {order : List Nat} (topDown : g.TopDownOrder order) :
    Transition.planOf? plans = Transition.planOf? plans' := by
  funext i
  by_cases hi : i < g.size
  · obtain ⟨x, hx⟩ := g.exists_instance hi
    rw [agreed.planOf? hx, agreed'.planOf? hx, agreed.requestsOf_unique agreed' topDown]
  · rw [agreed.planOf?_eq_none hi, agreed'.planOf?_eq_none hi]

end Agreed

structure Accepted (t : Transition M T) (g : Graph M T) (plans : List InstancePlan) : Prop
    extends Agreed t g plans where
  clean : ∀ p ∈ plans, p.failures = []

theorem plan_eq_ok_iff {t : Transition M T} {g : Graph M T} {plans : List InstancePlan} :
    t.plan g = .ok plans ↔ ∃ order, g.topDown = .ok order ∧ t.planAll g order [] = plans ∧
      ∀ p ∈ plans, p.failures = [] := by
  simp only [plan, bind_eq_ok_iff, mapError_eq_ok_iff, Failures.guard_ofList_eq_ok_iff,
    List.flatMap_eq_nil_iff]
  constructor
  · rintro ⟨order, found, clean, rfl⟩
    exact ⟨order, found, rfl, clean⟩
  · rintro ⟨order, found, rfl, clean⟩
    exact ⟨order, found, clean, rfl⟩

theorem plan_accepted {t : Transition M T} {g : Graph M T} {plans : List InstancePlan}
    (valid : g.TargetsValid) (h : t.plan g = .ok plans) : t.Accepted g plans := by
  obtain ⟨order, found, rfl, clean⟩ := plan_eq_ok_iff.mp h
  exact ⟨planAll_agreed t (g.topDown_ok valid found), clean⟩

namespace Accepted

variable {t : Transition M T} {g : Graph M T} {plans : List InstancePlan} {i : Nat}
  {x : Instance M T}

theorem failures_eq_nil (accepted : t.Accepted g plans) (hx : g.instance? i = some x) :
    (t.planInstance g (requestsOf g plans i) i x).failures = [] :=
  accepted.clean _ (List.mem_of_find?_eq_some (accepted.planOf? hx))

/-- An instance has the variations of its split and then those that are asked of it. -/
theorem values_eq (accepted : t.Accepted g plans) (hx : g.instance? i = some x) :
    ∃ split, t.splitOf x = .ok split ∧
      valuesOf plans i = split ++ (requestsOf g plans i).filter fun v => v ∉ split := by
  obtain ⟨⟨split, found⟩, _⟩ :=
    failures_planInstance_eq_nil_iff.mp (accepted.failures_eq_nil hx)
  exact ⟨split, found, by rw [accepted.valuesOf hx, values_planInstance found]⟩

theorem decided (accepted : t.Accepted g plans) (hx : g.instance? i = some x) {v : String}
    (hv : v ∈ valuesOf plans i) {e : Edge T} (he : e ∈ x.deps) :
    ∃ w, t.edgeValue g x v e = .ok w := by
  obtain ⟨_, all⟩ := failures_planInstance_eq_nil_iff.mp (accepted.failures_eq_nil hx)
  rw [accepted.valuesOf hx] at hv
  exact all v hv e he

theorem values_nodup (accepted : t.Accepted g plans) (hx : g.instance? i = some x) :
    (valuesOf plans i).Nodup := by
  obtain ⟨split, found, values⟩ := accepted.values_eq hx
  obtain ⟨_, _, nodup⟩ := splitOf_eq_ok_iff.mp found
  have increasing : (requestsOf g plans i).Pairwise (· < ·) := Text.increasing_sortedSet _
  have rest : ((requestsOf g plans i).filter fun v => v ∉ split).Nodup :=
    (increasing.imp String.ne_of_lt).filter _
  rw [values, List.nodup_append]
  refine ⟨nodup, rest, ?_⟩
  rintro a ha b hb rfl
  exact absurd ha (by simpa using (List.mem_filter.mp hb).2)

theorem values_ne_nil (accepted : t.Accepted g plans) (hx : g.instance? i = some x) :
    valuesOf plans i ≠ [] := by
  obtain ⟨split, found, values⟩ := accepted.values_eq hx
  obtain ⟨_, ne, _⟩ := splitOf_eq_ok_iff.mp found
  simp [values, ne]

end Accepted

end Transition

end BuildVariants
