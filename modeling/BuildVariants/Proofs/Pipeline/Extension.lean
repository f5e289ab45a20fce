import BuildVariants.Proofs.Pipeline.Run
import BuildVariants.Proofs.Transition.Embedding

/-!
# Runs over fewer modules

A run of transitions is monotone in the declared modules. What it makes of some modules lies
within what it makes of more of them, provided that none of the others is depended on by the
ones that are kept. So a new dependent may add variations to what it depends on, but takes none
away and leaves the order of the old ones as it was.
-/

set_option autoImplicit false

namespace BuildVariants

namespace Pipeline

variable {M T : Type}

def Structural (p : Pipeline M T) : Prop := ∀ pass ∈ p.passes, ∃ t, pass = .transition t

theorem Structural.take {p : Pipeline M T} (structural : p.Structural) (count : Nat) :
    (p.take count).Structural :=
  fun pass hpass => structural pass (List.mem_of_mem_take hpass)

variable [BuildModule M T]

theorem runPasses_embeds {settings : Settings} {passes : List (Pass M T)}
    (structural : ∀ pass ∈ passes, ∃ t, pass = .transition t)
    {completed : List (Transition M T)} {σ : Nat → Nat} {g g' next' : Graph M T}
    (wf : g.WellFormed) (wf' : g'.WellFormed) (emb : Graph.Embeds σ g g')
    (h : runPasses settings passes completed g' = .ok next') :
    ∃ next σ', runPasses settings passes completed g = .ok next ∧ Graph.Embeds σ' next next' := by
  induction passes generalizing completed g g' σ with
  | nil =>
    cases h
    exact ⟨g, σ, rfl, emb⟩
  | cons pass passes ih =>
    obtain ⟨t, rfl⟩ := structural pass (by simp)
    obtain ⟨between', ran', h⟩ := bind_eq_ok_iff.mp h
    obtain ⟨between, σ', ran, emb'⟩ := Transition.run_embeds wf wf' emb ran'
    obtain ⟨next, σ'', rest, emb''⟩ := ih (fun p hp => structural p (by simp [hp]))
      (Transition.run_wellFormed wf ran) (Transition.run_wellFormed wf' ran') emb' h
    exact ⟨next, σ'', bind_eq_ok_iff.mpr ⟨between, ran, rest⟩, emb''⟩

/-- Transitions that resolve a list of modules resolve any part of it on which the part does not
depend from outside. -/
theorem resolve_embeds {p : Pipeline M T} (structural : p.Structural) {modules modules' : List M}
    (nodup : (modules.map BuildModule.name).Nodup) (subset : modules ⊆ modules')
    (closed : ∀ m ∈ modules, ∀ dep ∈ BuildModule.deps m,
      dep ∈ modules'.map BuildModule.name → dep ∈ modules.map BuildModule.name)
    {larger : Graph M T} (h : p.resolve modules' = .ok larger) :
    ∃ smaller σ, p.resolve modules = .ok smaller ∧ Graph.Embeds σ smaller larger := by
  obtain ⟨loaded', _, isLoaded', acyclic', ran'⟩ := resolve_eq_ok_iff.mp h
  obtain ⟨nodup', defined', rfl⟩ := Graph.load_eq_ok_iff.mp isLoaded'
  have wf := Graph.initial_wellFormed nodup
  have wf' := Graph.initial_wellFormed nodup'
  have start := Graph.initial_embeds nodup nodup' subset closed
  have defined : p.settings.allowMissing = false → ∀ m ∈ modules, ∀ dep ∈ BuildModule.deps m,
      dep ∈ modules.map BuildModule.name :=
    fun strict m hm dep hdep => closed m hm dep hdep (defined' strict m (subset hm) dep hdep)
  have isLoaded : Graph.load p.settings modules = .ok (Graph.initial modules) :=
    Graph.load_eq_ok_iff.mpr ⟨nodup, defined, rfl⟩
  have acyclic := start.acyclic (Graph.topDown_ok _ wf'.targets_valid acyclic').acyclic
  obtain ⟨order, found⟩ := Graph.topDown_of_acyclic _ wf.targets_valid acyclic
  obtain ⟨smaller, σ, ran, emb⟩ := runPasses_embeds structural wf wf' start ran'
  exact ⟨smaller, σ, resolve_eq_ok_iff.mpr ⟨_, order, isLoaded, found, ran⟩, emb⟩

/-- A new module on which none of the others depends disturbs none of them. If transitions
resolve the modules with it, they resolve them without it; every instance without it is there
with it, with the same contents and edges; and the variants of a module only become more. -/
theorem resolve_extended {p : Pipeline M T} (structural : p.Structural) (before after : List M)
    (m : M) (unused : ∀ m' ∈ before ++ after, BuildModule.name m ∉ BuildModule.deps m')
    {larger : Graph M T} (h : p.resolve (before ++ m :: after) = .ok larger) :
    ∃ smaller σ, p.resolve (before ++ after) = .ok smaller ∧ Graph.Embeds σ smaller larger ∧
      ∀ name, (smaller.variants name).Sublist (larger.variants name) := by
  obtain ⟨_, _, isLoaded, _⟩ := resolve_eq_ok_iff.mp h
  have kept : (before ++ after).Sublist (before ++ m :: after) :=
    (List.Sublist.refl before).append (List.sublist_cons_self m after)
  have nodup := (Graph.load_ok isLoaded).2.sublist (kept.map BuildModule.name)
  have closed : ∀ m' ∈ before ++ after, ∀ dep ∈ BuildModule.deps m',
      dep ∈ (before ++ m :: after).map BuildModule.name →
        dep ∈ (before ++ after).map BuildModule.name := by
    intro m' hm' dep hdep declared
    obtain ⟨source, hsource, rfl⟩ := List.mem_map.mp declared
    rcases List.mem_cons.mp (List.perm_middle.subset hsource) with rfl | old
    · exact absurd hdep (unused m' hm')
    · exact List.mem_map_of_mem old
  obtain ⟨smaller, σ, ran, emb⟩ := resolve_embeds structural nodup kept.subset closed h
  exact ⟨smaller, σ, ran, emb,
    emb.variants (resolve_wellFormed ran) (resolve_wellFormed h)⟩

def osThenArch : Pipeline DeclaredModule DepKind where
  settings := ⟨false⟩
  passes := [.transition byOs, .transition byArch]

theorem osThenArch_structural : osThenArch.Structural := by
  intro pass hpass
  rcases List.mem_pair.mp hpass with rfl | rfl
  · exact ⟨byOs, rfl⟩
  · exact ⟨byArch, rfl⟩

def client : DeclaredModule := { name := "app", deps := ["lib"], split := ["x"] }

def plugin : DeclaredModule := { name := "plugin", deps := ["lib"], outgoing := some "w" }

def services : List DeclaredModule := [{ name := "lib", deps := ["base"] }, { name := "base" }]

/-- The variations that `plugin` asks for come between the old ones. -/
theorem resolve_extended_plugin :
    ∃ smaller larger σ, osThenArch.resolve (client :: services) = .ok smaller ∧
      osThenArch.resolve (client :: plugin :: services) = .ok larger ∧
      (smaller.variants "lib").map Variant.name = ["", "x", "x_x"] ∧
      (larger.variants "lib").map Variant.name = ["", "w", "w_w", "x", "x_x"] ∧
      Graph.Embeds σ smaller larger ∧
      ∀ name, (smaller.variants name).Sublist (larger.variants name) := by
  obtain ⟨larger, h, names'⟩ : ∃ larger, osThenArch.resolve (client :: plugin :: services) =
      .ok larger ∧ (larger.variants "lib").map Variant.name = ["", "w", "w_w", "x", "x_x"] :=
    ⟨_, rfl, by decide +kernel⟩
  obtain ⟨smaller, σ, ran, emb, order⟩ :=
    resolve_extended osThenArch_structural [client] services plugin (by decide) h
  have names : (smaller.variants "lib").map Variant.name = ["", "x", "x_x"] := by
    cases ran
    decide +kernel
  exact ⟨smaller, larger, σ, ran, h, names, names', emb, order⟩

end Pipeline

end BuildVariants
