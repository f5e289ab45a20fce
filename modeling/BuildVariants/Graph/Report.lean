import BuildVariants.Graph
import BuildVariants.Variant.Serialized

/-!
# Reports

The summary of a resolved graph that users see: every declared module in order, and under
it every instance with its variant and the labels of its direct dependencies.
-/

set_option autoImplicit false

namespace BuildVariants

structure VariantReport where
  label : String
  name : String
  variations : Variant
  deps : List String
deriving Repr

structure ModuleReport where
  name : String
  variants : List VariantReport
deriving Repr

structure GraphReport where
  mutators : List String
  modules : List ModuleReport
deriving Repr

namespace Graph

variable {M T : Type}

def reportInstance (g : Graph M T) (id : Nat) : VariantReport where
  label := g.label id
  name := (g.variant id).name
  variations := g.variant id
  deps := g.depLabels id

def report (g : Graph M T) (mutators : List String) : GraphReport where
  mutators := mutators
  modules := g.groups.map fun grp => ⟨grp.name, grp.members.map g.reportInstance⟩

end Graph

def VariantReport.toJson (r : VariantReport) : Json :=
  .record [("label", .text r.label), ("name", .text r.name),
    ("variations", r.variations.toJson), ("deps", .list (r.deps.map .text))]

def ModuleReport.toJson (r : ModuleReport) : Json :=
  .record [("name", .text r.name), ("variants", .list (r.variants.map VariantReport.toJson))]

def GraphReport.toJson (r : GraphReport) : Json :=
  .record [("mutators", .list (r.mutators.map .text)),
    ("modules", .list (r.modules.map ModuleReport.toJson))]

end BuildVariants
