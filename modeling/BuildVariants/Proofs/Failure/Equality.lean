import BuildVariants.Proofs.Failure
import BuildVariants.Proofs.Variant
import Mathlib.Data.List.Perm.Basic

/-!
# Equal failures

Failures are equal when they agree in what they report, where the variants that they list count
through what they assign. Of the same failures, found in whatever order, a collection keeps the same
ones up to that equality.
-/

set_option autoImplicit false

namespace BuildVariants

namespace Failure

def Distinct : Failure → Prop
  | .missingVariant _ _ _ _ requested available => requested.Distinct ∧ ∀ v ∈ available, v.Distinct
  | _ => True

def key : Failure → Failure × (String → String) × List (String → String)
  | .missingVariant direction dep source location requested available =>
    (.missingVariant direction dep source location .empty [], requested.get,
      available.map Variant.get)
  | f => (f, fun _ => "", [])

theorem Plain.key_eq {f : Failure} (plain : f.Plain) : f.key = (f, fun _ => "", []) := by
  unfold key
  split
  · next direction dep source location requested available =>
    exact absurd rfl (plain direction dep source location requested available)
  · rfl

theorem Plain.distinct {f : Failure} (plain : f.Plain) : f.Distinct := by
  unfold Distinct
  split
  · next direction dep source location requested available =>
    exact absurd rfl (plain direction dep source location requested available)
  · trivial

theorem beq_iff_map_get {vs ws : List Variant} (hvs : ∀ v ∈ vs, v.Distinct)
    (hws : ∀ w ∈ ws, w.Distinct) :
    (vs == ws) = true ↔ vs.map Variant.get = ws.map Variant.get := by
  induction vs generalizing ws with
  | nil => cases ws <;> simp
  | cons v vs ih =>
    cases ws with
    | nil => simp
    | cons w ws =>
      rw [List.cons_beq_cons, Bool.and_eq_true, List.map_cons, List.map_cons, List.cons.injEq,
        Variant.beq_iff_get (hvs v (by simp)) (hws w (by simp)), ← funext_iff,
        ih (fun v' hv' => hvs v' (by simp [hv'])) fun w' hw' => hws w' (by simp [hw'])]

theorem beq_iff_key {f f' : Failure} (hf : f.Distinct) (hf' : f'.Distinct) :
    (f == f') = true ↔ f.key = f'.key := by
  rcases f.plain_or with plain | ⟨direction, dep, source, location, requested, available, rfl⟩ <;>
    rcases f'.plain_or with plain' | ⟨direction', dep', source', location', requested', available', rfl⟩
  · rw [plain.key_eq, plain'.key_eq, Prod.mk.injEq]
    constructor
    · exact fun same => ⟨eq_of_beq same plain', rfl⟩
    · rintro ⟨rfl, _⟩
      exact plain.beq_self
  · rw [plain.beq_missingVariant.1, plain.key_eq]
    simp [key, plain _ _ _ _ _ _]
  · rw [plain'.beq_missingVariant.2, plain'.key_eq]
    simp [key, (plain' _ _ _ _ _ _).symm]
  · change instBEqFailure.beq _ _ = true ↔ _
    simp only [instBEqFailure.beq, Bool.and_eq_true, beq_iff_eq, key, Prod.mk.injEq,
      Variant.beq_iff_get hf.1 hf'.1, ← funext_iff, beq_iff_map_get hf.2 hf'.2,
      missingVariant.injEq]
    tauto

end Failure

namespace Failures

section Distinct

variable {found : List Failure} (distinct : ∀ f ∈ found, f.Distinct)
include distinct

theorem mem_map_key_ofList {k : Failure × (String → String) × List (String → String)} :
    k ∈ (ofList found).items.map Failure.key ↔ k ∈ found.map Failure.key := by
  simp only [List.mem_map]
  constructor
  · rintro ⟨f, hf, rfl⟩
    exact ⟨f, mem_of_mem_ofList hf, rfl⟩
  · rintro ⟨f, hf, rfl⟩
    obtain ⟨kept, hkept, rfl | same⟩ := exists_mem_ofList hf
    · exact ⟨kept, hkept, rfl⟩
    · have hd := distinct kept (mem_of_mem_ofList hkept)
      exact ⟨kept, hkept, (Failure.beq_iff_key hd (distinct f hf)).mp same⟩

theorem nodup_map_key_ofList : ((ofList found).items.map Failure.key).Nodup := by
  refine List.pairwise_map.mpr ((pairwise_ofList found).imp_of_mem ?_)
  intro f f' hf hf' apart same
  have hd := distinct f (mem_of_mem_ofList hf)
  have hd' := distinct f' (mem_of_mem_ofList hf')
  rw [(Failure.beq_iff_key hd hd').mpr same] at apart
  cases apart

/-- Found in another order, failures are kept in another order, and of equal ones another may be
kept. -/
theorem ofList_perm {found' : List Failure} (perm : found.Perm found') :
    ∃ reordered, reordered.Perm (ofList found').items ∧
      List.Forall₂ (fun f f' => (f == f') = true) (ofList found).items reordered := by
  have distinct' : ∀ f ∈ found', f.Distinct := fun f hf => distinct f (perm.mem_iff.mpr hf)
  have keys : ((ofList found).items.map Failure.key).Perm ((ofList found').items.map Failure.key) := by
    rw [List.perm_ext_iff_of_nodup (nodup_map_key_ofList distinct) (nodup_map_key_ofList distinct')]
    intro k
    rw [mem_map_key_ofList distinct, mem_map_key_ofList distinct', (perm.map Failure.key).mem_iff]
  have own : List.Forall₂ (fun k f => k = Failure.key f ∧ f.Distinct)
      ((ofList found').items.map Failure.key) (ofList found').items := by
    rw [List.forall₂_map_left_iff, List.forall₂_same]
    exact fun f hf => ⟨rfl, distinct' f (mem_of_mem_ofList hf)⟩
  obtain ⟨reordered, related, there⟩ := List.perm_comp_forall₂ keys own
  refine ⟨reordered, there, ?_⟩
  have members : ∀ f ∈ (ofList found).items, f.Distinct := fun f hf =>
    distinct f (mem_of_mem_ofList hf)
  refine ((List.forall₂_and_left _ _).mpr ⟨members, List.forall₂_map_left_iff.mp related⟩).imp ?_
  rintro f f' ⟨hf, same, hf'⟩
  exact (Failure.beq_iff_key hf hf').mpr same

end Distinct

end Failures

end BuildVariants
