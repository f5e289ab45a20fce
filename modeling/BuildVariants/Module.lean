/-!
# Kinds of modules

The engine works on any kind of module that has a name and names the modules it depends on.
-/

set_option autoImplicit false

namespace BuildVariants

class BuildModule (M : Type) (T : outParam Type) where
  name : M → String
  deps : M → List String
  staticTag : T
  location : M → Option String := fun _ => none
  withLocation : String → M → M := fun _ m => m

end BuildVariants
