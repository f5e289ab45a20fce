import BuildVariants.Proofs.Failure
import BuildVariants.Proofs.Variant.Blank

/-!
# Failures without a mutator

The only failures that list variants report that one is missing. As long as a mutator assigns nothing
in them, it can be left out: the text stays the same, and equal failures stay equal.
-/

set_option autoImplicit false

namespace BuildVariants

namespace Failure

def without (name : String) : Failure → Failure
  | .missingVariant direction dep source location requested available =>
    .missingVariant direction dep source location (requested.without name)
      (available.map fun v => v.without name)
  | f => f

def Blank (name : String) : Failure → Prop
  | .missingVariant _ _ _ _ requested available =>
    requested.Blank name ∧ ∀ v ∈ available, v.Blank name
  | _ => True

variable {name : String}

theorem beq_map_without {vs ws : List Variant} (hvs : ∀ v ∈ vs, v.Blank name)
    (hws : ∀ w ∈ ws, w.Blank name) :
    (vs.map (fun v => v.without name) == ws.map fun w => w.without name) = (vs == ws) := by
  induction vs generalizing ws with
  | nil => cases ws <;> rfl
  | cons v vs ih =>
    cases ws with
    | nil => rfl
    | cons w ws =>
      rw [List.map_cons, List.map_cons, List.cons_beq_cons, List.cons_beq_cons,
        (hvs v (by simp)).beq_without (hws w (by simp)),
        ih (fun v' hv' => hvs v' (by simp [hv'])) fun w' hw' => hws w' (by simp [hw'])]

theorem without_of_plain {f : Failure} (plain : f.Plain) : f.without name = f := by
  unfold without
  split
  · next direction dep source location requested available =>
    exact absurd rfl (plain direction dep source location requested available)
  · rfl

theorem Plain.blank {f : Failure} (plain : f.Plain) : f.Blank name := by
  unfold Blank
  split
  · next direction dep source location requested available =>
    exact absurd rfl (plain direction dep source location requested available)
  · trivial

/-- Leaving the mutator out keeps failures equal and different. -/
theorem Blank.beq_without {f f' : Failure} (hf : f.Blank name) (hf' : f'.Blank name) :
    (f.without name == f'.without name) = (f == f') := by
  rcases f.plain_or with plain | ⟨_, _, _, _, requested, available, rfl⟩ <;>
    rcases f'.plain_or with plain' | ⟨_, _, _, _, requested', available', rfl⟩
  · rw [without_of_plain plain, without_of_plain plain']
  · rw [without_of_plain plain, without, plain.beq_missingVariant.1, plain.beq_missingVariant.1]
  · rw [without_of_plain plain', without, plain'.beq_missingVariant.2, plain'.beq_missingVariant.2]
  · change instBEqFailure.beq _ _ = instBEqFailure.beq _ _
    simp only [without, instBEqFailure.beq, hf.1.beq_without hf'.1, beq_map_without hf.2 hf'.2]

theorem map_without_beq_self {vs : List Variant} (blank : ∀ v ∈ vs, v.Blank name) :
    (vs.map (fun v => v.without name) == vs) = true := by
  induction vs with
  | nil => rfl
  | cons v vs ih =>
    rw [List.map_cons, List.cons_beq_cons, (blank v (by simp)).beq_self,
      ih fun w hw => blank w (by simp [hw])]
    rfl

theorem Blank.beq_self {f : Failure} (blank : f.Blank name) : (f.without name == f) = true := by
  rcases f.plain_or with plain | ⟨direction, dep, source, location, requested, available, rfl⟩
  · rw [without_of_plain plain, plain.beq_self]
  · change instBEqFailure.beq _ _ = true
    simp [without, instBEqFailure.beq, blank.1.beq_self, map_without_beq_self blank.2]

theorem listVariants_without {vs : List Variant} (blank : ∀ v ∈ vs, v.Blank name) :
    listVariants (vs.map fun v => v.without name) = listVariants vs := by
  rw [listVariants, listVariants, List.map_map]
  congr 1
  apply List.map_congr_left
  intro v hv
  rw [Function.comp_apply, (blank v hv).alike.render]

theorem Blank.message_without {f : Failure} (blank : f.Blank name) :
    (f.without name).message = f.message := by
  rcases f.plain_or with plain | ⟨direction, dep, source, location, requested, available, rfl⟩
  · rw [without_of_plain plain]
  · unfold message
    dsimp only [without]
    rw [blank.1.alike.render, listVariants_without blank.2]

end Failure

namespace Failures

def without (name : String) (fs : Failures) : Failures := ⟨fs.items.map (Failure.without name)⟩

variable {name : String}

theorem without_of_plain {fs : Failures} (plain : fs.All Failure.Plain) : fs.without name = fs := by
  have same : fs.items.map (Failure.without name) = fs.items.map id :=
    List.map_congr_left fun f hf => Failure.without_of_plain (plain f hf)
  rw [without, same, List.map_id]

theorem mapError_without_of_plain {α : Type} {x : Except Failures α}
    (plain : FailsWith (All Failure.Plain) x) : x.mapError (without name) = x := by
  cases x with
  | error fs => exact congrArg Except.error (without_of_plain (plain fs rfl))
  | ok a => rfl

theorem push_without {fs : Failures} {f : Failure} (all : fs.All (Failure.Blank name))
    (blank : f.Blank name) : (fs.without name).push (f.without name) = (fs.push f).without name := by
  have found : ((fs.without name).items.any fun kept => kept == f.without name) =
      fs.items.any fun kept => kept == f := by
    rw [without, List.any_map, Bool.eq_iff_iff, List.any_eq_true, List.any_eq_true]
    refine exists_congr fun kept => and_congr_right fun hkept => ?_
    rw [Function.comp_apply, (all kept hkept).beq_without blank]
  rw [push, push, found]
  split
  · rfl
  · rw [without, without, List.map_append, List.map_singleton]

theorem extend_without (fs : Failures) (all : fs.All (Failure.Blank name)) {more : List Failure}
    (blank : ∀ f ∈ more, f.Blank name) :
    (fs.without name).extend (more.map (Failure.without name)) = (fs.extend more).without name := by
  induction more generalizing fs with
  | nil => rfl
  | cons f more ih =>
    have next : (fs.push f).All (Failure.Blank name) := by
      intro kept hkept
      rcases mem_of_mem_push hkept with old | rfl
      · exact all kept old
      · exact blank kept (by simp)
    have both := ih (fs.push f) next fun f' hf' => blank f' (by simp [hf'])
    rw [← push_without all (blank f (by simp))] at both
    exact both

/-- What is found is kept once with the mutator or without it. -/
theorem ofList_without {found : List Failure} (blank : ∀ f ∈ found, f.Blank name) :
    ofList (found.map (Failure.without name)) = (ofList found).without name :=
  extend_without empty (fun _ none => absurd none List.not_mem_nil) blank

theorem guard_without {α : Type} (fs : Failures) (value : α) :
    (fs.without name).guard value = (fs.guard value).mapError (without name) := by
  have same : (fs.without name).isEmpty = fs.isEmpty := List.isEmpty_map
  rw [guard, guard, same]
  split <;> rfl

end Failures

end BuildVariants
