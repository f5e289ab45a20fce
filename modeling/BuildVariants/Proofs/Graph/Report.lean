import BuildVariants.Graph.Report
import BuildVariants.Proofs.Graph.WellFormed

/-!
# Reports of settled graphs

A report goes through the groups and their members, while an instance holds its edges as places in
the arena. In a settled graph the members of all groups in a row are the arena, so that the report
tells of every instance once, in its place, and every edge leads to something that the report lists.
-/

set_option autoImplicit false

namespace BuildVariants

def GraphReport.variantCount (r : GraphReport) : Nat :=
  (r.modules.map fun entry => entry.variants.length).sum

namespace Graph

variable {M T : Type} {g : Graph M T}

def shown (g : Graph M T) (x : Instance M T) : VariantReport where
  label := x.label
  name := x.variant.name
  variations := x.variant
  deps := x.deps.map fun e => g.label e.target

/-- A report that lists the named modules once and in order, and under each of them its instances
once and in arena order. What an edge leads to is listed too. -/
structure Reported (g : Graph M T) (names : List String) (r : GraphReport) : Prop where
  modules : r.modules.map ModuleReport.name = names
  once : names.Nodup
  variants : ∀ entry ∈ r.modules,
    entry.variants = (g.instances.filter fun x => x.group = entry.name).map g.shown
  grouped : ∀ x ∈ g.instances, x.group ∈ names
  deps : ∀ entry ∈ r.modules, ∀ v ∈ entry.variants, ∀ dep ∈ v.deps,
    ∃ target ∈ r.modules, ∃ w ∈ target.variants, w.label = dep
  count : r.variantCount = g.size

theorem label_of_instance {i : Nat} {x : Instance M T} (hx : g.instance? i = some x) :
    g.label i = x.label := by
  simp [label, hx]

theorem reportInstance_of_instance {i : Nat} {x : Instance M T} (hx : g.instance? i = some x) :
    g.reportInstance i = g.shown x := by
  simp [reportInstance, shown, label_of_instance hx, variant_of_instance hx, depLabels, targets, deps,
    hx, List.map_map, Function.comp_def]

theorem filterMap_instance?_range (g : Graph M T) :
    (List.range g.size).filterMap g.instance? = g.instances := by
  have whole : ∀ xs : List (Instance M T),
      (List.range xs.length).filterMap (fun i => xs[i]?) = xs := by
    intro xs
    induction xs with
    | nil => rfl
    | cons x xs ih =>
      rw [List.length_cons, List.range_succ_eq_map, List.filterMap_cons, List.filterMap_map]
      simpa [Function.comp_def] using ih
  exact whole g.instances

theorem filter_members {groups : List Group} (nodup : (groups.map Group.name).Nodup)
    (named : ∀ grp ∈ groups, ∀ id ∈ grp.members, g.groupName id = grp.name) {grp : Group}
    (hgrp : grp ∈ groups) :
    (groups.flatMap Group.members).filter (fun id => g.groupName id = grp.name) = grp.members := by
  induction groups with
  | nil => cases hgrp
  | cons first rest ih =>
    rw [List.map_cons, List.nodup_cons] at nodup
    have namedRest : ∀ grp' ∈ rest, ∀ id ∈ grp'.members, g.groupName id = grp'.name :=
      fun grp' h => named grp' (List.mem_cons_of_mem _ h)
    rw [List.flatMap_cons, List.filter_append]
    rcases List.mem_cons.mp hgrp with rfl | later
    · have own : grp.members.filter (fun id => g.groupName id = grp.name) = grp.members :=
        List.filter_eq_self.mpr fun id hid => decide_eq_true (named grp (by simp) id hid)
      have others :
          (rest.flatMap Group.members).filter (fun id => g.groupName id = grp.name) = [] := by
        refine List.filter_eq_nil_iff.mpr fun id hid same => ?_
        obtain ⟨grp', hgrp', member⟩ := List.mem_flatMap.mp hid
        apply nodup.1
        rw [← of_decide_eq_true same, namedRest grp' hgrp' id member]
        exact List.mem_map_of_mem hgrp'
      rw [own, others, List.append_nil]
    · have others : first.members.filter (fun id => g.groupName id = grp.name) = [] := by
        refine List.filter_eq_nil_iff.mpr fun id hid same => ?_
        apply nodup.1
        rw [← named first (by simp) id hid, of_decide_eq_true same]
        exact List.mem_map_of_mem later
      rw [others, List.nil_append, ih nodup.2 namedRest later]

/-- The members of a group are the places of its instances, in arena order. -/
theorem WellFormed.members_eq (wf : g.WellFormed) {grp : Group} (hgrp : grp ∈ g.groups) :
    grp.members = (List.range g.size).filter fun id => g.groupName id = grp.name := by
  rw [← wf.members_arena, filter_members wf.names_nodup wf.group_named hgrp]

theorem WellFormed.report_variants (wf : g.WellFormed) {grp : Group} (hgrp : grp ∈ g.groups) :
    grp.members.map g.reportInstance =
      (g.instances.filter fun x => x.group = grp.name).map g.shown := by
  conv_rhs => rw [← g.filterMap_instance?_range]
  rw [wf.members_eq hgrp, List.filter_filterMap, List.map_filterMap, ← List.filterMap_eq_map,
    List.filterMap_filter]
  refine List.filterMap_congr fun id hid => ?_
  obtain ⟨x, hx⟩ := g.exists_instance (List.mem_range.mp hid)
  rw [hx, groupName_of_instance hx]
  by_cases own : x.group = grp.name <;> simp [own, reportInstance_of_instance hx, Option.filter]

theorem WellFormed.report_count (wf : g.WellFormed) (mutators : List String) :
    (g.report mutators).variantCount = g.size := by
  have row := congrArg List.length wf.members_arena
  rw [List.length_flatMap, List.length_range] at row
  rw [← row, GraphReport.variantCount, report, List.map_map]
  simp [Function.comp_def]

theorem WellFormed.label_listed (wf : g.WellFormed) (mutators : List String) {id : Nat}
    (inside : id < g.size) :
    ∃ entry ∈ (g.report mutators).modules, ∃ w ∈ entry.variants, w.label = g.label id := by
  obtain ⟨x, hx⟩ := g.exists_instance inside
  obtain ⟨grp, found, member⟩ := wf.group_of_instance hx
  exact ⟨_, List.mem_map_of_mem (mem_of_group? found), g.reportInstance id,
    List.mem_map_of_mem member, rfl⟩

theorem Settled.reported {names dims : List String} (settled : g.Settled names dims)
    (mutators : List String) : g.Reported names (g.report mutators) where
  modules := by
    rw [← settled.group_names, report, List.map_map]
    rfl
  once := settled.group_names ▸ settled.names_nodup
  variants entry hentry := by
    obtain ⟨grp, hgrp, rfl⟩ := List.mem_map.mp hentry
    exact settled.report_variants hgrp
  grouped x hx := by
    obtain ⟨i, hi, rfl⟩ := List.getElem_of_mem hx
    obtain ⟨grp, found, _⟩ := settled.group_of_instance (List.getElem?_eq_getElem hi)
    rw [← settled.group_names, ← name_of_group? found]
    exact List.mem_map_of_mem (mem_of_group? found)
  deps entry hentry v hv dep hdep := by
    obtain ⟨grp, hgrp, rfl⟩ := List.mem_map.mp hentry
    obtain ⟨id, hid, rfl⟩ := List.mem_map.mp hv
    obtain ⟨target, htarget, rfl⟩ := List.mem_map.mp hdep
    exact settled.label_listed mutators (settled.targets_valid id target htarget)
  count := settled.report_count mutators

end Graph

end BuildVariants
