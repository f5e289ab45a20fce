import BuildVariants.Script.Store

/-!
# Random numbers

Four words of state are mixed with shifts, rotations and exclusive sums. A number up to a bound
is taken from the least number of low bits that reach it; what is above is thrown away.
-/

set_option autoImplicit false

namespace BuildVariants.Script

namespace RandomState

def rotated (x : UInt64) (n : UInt64) : UInt64 := (x <<< n) ||| (x >>> (64 - n))

def next (s : RandomState) : UInt64 × RandomState :=
  let c := s.c ^^^ s.a
  let d := s.d ^^^ s.b
  (rotated (s.b * 5) 7 * 9,
    ⟨s.a ^^^ d, s.b ^^^ c, c ^^^ (s.b <<< 17), rotated d 45⟩)

def seeded (m n : UInt64) : RandomState :=
  Nat.fold 16 (fun _ _ s => s.next.2) ⟨m, 0xff, n, 0⟩

def unit (bits : UInt64) : Float := (bits >>> 11).toFloat / 9007199254740992.0

def mask (n : UInt64) : UInt64 :=
  [1, 2, 4, 8, 16, 32].foldl (fun (m : UInt64) (k : UInt64) => m ||| (m >>> k)) n

/-- A number up to a bound, made of some bits or else of the next ones. At least every second
try succeeds. -/
def project (bound : UInt64) : Nat → UInt64 → RandomState → UInt64 × RandomState
  | 0, _, s => (0, s)
  | fuel + 1, bits, s =>
    let x := bits &&& mask bound
    if x ≤ bound then (x, s)
    else
      let (bits, s) := s.next
      project bound fuel bits s

def tries : Nat := 100000

end RandomState

end BuildVariants.Script
