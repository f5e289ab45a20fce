import BuildVariants.Script.Process

/-!
# Functions on tables

Items are read and written like any other entries, so handlers take part. Sorting splits around
the middle item of a stretch; a comparison that is no order is noticed when a search for the
next item to exchange leaves the stretch.
-/

set_option autoImplicit false

namespace BuildVariants.Script

namespace Tables

open Native

def names : List (String × TableFunction) :=
  [("concat", .concat), ("insert", .insert), ("move", .move), ("pack", .pack),
   ("remove", .remove), ("sort", .sort), ("unpack", .unpack)]

/-! ### Arguments -/

def checkTableLike (args : List Value) (n : Nat) (events : List String) : Native Value := do
  let v := arg args n
  match v with
  | .table _ => return v
  | _ =>
    let handled ← look fun s =>
      (s.metatable? v).any fun m => events.all fun e => !((s.table m).getString e).isNil
    if handled then return v else wrongType args n "table"

def item (v : Value) (i : Int64) : Native Value := index v (.integer i)

def setItem (v : Value) (i : Int64) (value : Value) : Native Unit := setIndex v (.integer i) value

/-! ### Items -/

def joinFrom (v : Value) (separator : ByteArray) (last : Int64) :
    Nat → Int64 → ByteArray → Native ByteArray
  | 0, _, acc => return acc
  | n + 1, i, acc => do
    let found ← item v i
    match found.toText? with
    | some bytes =>
      if i = last then return acc ++ bytes
      else joinFrom v separator last n (i + 1) (acc ++ bytes ++ separator)
    | none =>
      complain ("invalid value (" ++ found.typeName ++ ") at index " ++ toString i.toInt
        ++ " in table for 'concat'").toUTF8

def span (first last : Int64) : Nat := (last.toInt - first.toInt + 1).toNat

def concat (args : List Value) : Native (List Value) := do
  let v ← checkTableLike args 1 ["__index", "__len"]
  let size ← integerLength v
  let separator ← optionalText args 2 .empty
  let first ← optionalInteger args 3 1
  let last ← optionalInteger args 4 size
  return [.text (← joinFrom v separator last (span first last) first .empty)]

def shiftUp (v : Value) : Nat → Int64 → Native Unit
  | 0, _ => return ()
  | n + 1, i => do
    setItem v i (← item v (i - 1))
    shiftUp v n (i - 1)

def shiftDown (v : Value) : Nat → Int64 → Native Unit
  | 0, _ => return ()
  | n + 1, i => do
    setItem v i (← item v (i + 1))
    shiftDown v n (i + 1)

def insert (args : List Value) : Native (List Value) := do
  let v ← checkTableLike args 1 ["__index", "__newindex", "__len"]
  let behind := (← integerLength v) + 1
  if args.length = 2 then
    setItem v behind (arg args 2)
    return []
  else if args.length = 3 then
    let position ← checkInteger args 2
    if position.toUInt64 - 1 < behind.toUInt64 then
      shiftUp v (behind.toInt - position.toInt).toNat behind
      setItem v position (arg args 3)
      return []
    else badArgument 2 "position out of bounds".toUTF8
  else complain "wrong number of arguments to 'insert'".toUTF8

def remove (args : List Value) : Native (List Value) := do
  let v ← checkTableLike args 1 ["__index", "__newindex", "__len"]
  let size ← integerLength v
  let position ← optionalInteger args 2 size
  if position ≠ size && size.toUInt64 < position.toUInt64 - 1 then
    badArgument 2 "position out of bounds".toUTF8
  else
    let removed ← item v position
    let count := (size.toInt - position.toInt).toNat
    shiftDown v count position
    setItem v (position + .ofNat count) .nil
    return [removed]

def copyItems (source target : Value) (step : Int64) : Nat → Int64 → Int64 → Native Unit
  | 0, _, _ => return ()
  | n + 1, i, j => do
    setItem target j (← item source i)
    copyItems source target step n (i + step) (j + step)

def move (args : List Value) : Native (List Value) := do
  let first ← checkInteger args 2
  let last ← checkInteger args 3
  let place ← checkInteger args 4
  let n := if isAbsent args 5 then 1 else 5
  let source ← checkTableLike args 1 ["__index"]
  let target ← checkTableLike args n ["__newindex"]
  if last < first then return [target]
  else
    let greatest : Int := Table.greatest
    let count := last.toInt - first.toInt + 1
    if greatest < count then badArgument 3 "too many elements to move".toUTF8
    else if greatest - count + 1 < place.toInt then badArgument 4 "destination wrap around".toUTF8
    else
      let upward ← if last < place || place ≤ first then Native.pure true
        else if n = 1 then Native.pure false
        else do Native.pure !(← equal source target)
      if upward then copyItems source target 1 count.toNat first place
      else copyItems source target (-1) count.toNat last (place + .ofInt (count - 1))
      return [target]

def pack (args : List Value) : Native (List Value) := do
  let n := args.length
  return [← change fun s =>
    let room := (Table.empty s.world.spread).resize n 1
    s.newTable (({ room with items := args.toArray } : Table).setString "n" (.ofNat n))]

def itemsFrom (v : Value) : Nat → Int64 → Array Value → Native (List Value)
  | 0, _, acc => return acc.toList
  | n + 1, i, acc => do
    let found ← item v i
    itemsFrom v n (i + 1) (acc.push found)

def resultLimit : Nat := 999900

def unpack (args : List Value) : Native (List Value) := do
  let v := arg args 1
  let first ← optionalInteger args 2 1
  let last ← if isAbsent args 3 then integerLength v else checkInteger args 3
  let count := span first last
  if resultLimit < count then complain "too many results to unpack".toUTF8
  else itemsFrom v count first #[]

/-! ### Sorting -/

def before (order : Value) (a b : Value) : Native Bool :=
  match order with
  | .nil => compare false a b
  | f => do return ((← ask (.call f [a, b])).head?.getD .nil).truth

def notOrder {α : Type} : Native α := complain "invalid order function for sorting".toUTF8

def at_ (v : Value) (i : Nat) : Native Value := item v (.ofNat i)

def setTwo (v : Value) (i : Nat) (a : Value) (j : Nat) (b : Value) : Native Unit := do
  setItem v (.ofNat i) a
  setItem v (.ofNat j) b

def seekUp (v order pivot : Value) (up : Nat) : Nat → Nat → Native (Nat × Value)
  | 0, _ => notOrder
  | fuel + 1, i => do
    let a ← at_ v (i + 1)
    if ← before order a pivot then
      if i + 1 = up - 1 then notOrder else seekUp v order pivot up fuel (i + 1)
    else return (i + 1, a)

def seekDown (v order pivot : Value) (i : Nat) : Nat → Nat → Native (Nat × Value)
  | 0, _ => notOrder
  | fuel + 1, j => do
    let b ← at_ v (j - 1)
    if ← before order pivot b then
      if j - 1 < i then notOrder else seekDown v order pivot i fuel (j - 1)
    else return (j - 1, b)

/-- Exchanges items around a pivot, which waits at the last place but one, and says where the
pivot goes. -/
def partition (v order pivot : Value) (up : Nat) : Nat → Nat → Nat → Native Nat
  | 0, _, _ => notOrder
  | fuel + 1, i, j => do
    let (i, a) ← seekUp v order pivot up (up + 1) i
    let (j, b) ← seekDown v order pivot i (up + 1) j
    if j < i then
      setTwo v (up - 1) a i pivot
      return i
    else
      setTwo v i b j a
      partition v order pivot up fuel i j

def sortFrom (v order : Value) : Nat → Nat → Nat → Native Unit
  | 0, _, _ => return ()
  | fuel + 1, lo, up => do
    if up ≤ lo then return ()
    let a ← at_ v lo
    let b ← at_ v up
    if ← before order b a then setTwo v lo b up a
    if up - lo = 1 then return ()
    let middle := (lo + up) / 2
    let p ← at_ v middle
    let a ← at_ v lo
    if ← before order p a then setTwo v middle a lo p
    else
      let b ← at_ v up
      if ← before order b p then setTwo v middle b up p
    if up - lo = 2 then return ()
    let pivot ← at_ v middle
    let b ← at_ v (up - 1)
    setTwo v middle b (up - 1) pivot
    let p ← partition v order pivot up (up + 1) lo (up - 1)
    if p - lo < up - p then
      sortFrom v order fuel lo (p - 1)
      sortFrom v order fuel (p + 1) up
    else
      sortFrom v order fuel (p + 1) up
      sortFrom v order fuel lo (p - 1)

def sortLimit : Int64 := 2147483647

def sort (args : List Value) : Native (List Value) := do
  let v ← checkTableLike args 1 ["__index", "__newindex", "__len"]
  let n ← integerLength v
  if n ≤ 1 then return []
  else if sortLimit ≤ n then badArgument 1 "array too big".toUTF8
  else
    if !isAbsent args 2 then
      let _ ← checkFunction args 2
    sortFrom v (arg args 2) (n.toInt.toNat + 1) 1 n.toInt.toNat
    return []

def work (f : TableFunction) (args : List Value) : Native (List Value) :=
  match f with
  | .concat => concat args
  | .insert => insert args
  | .move => move args
  | .pack => pack args
  | .remove => remove args
  | .sort => sort args
  | .unpack => unpack args

end Tables

end BuildVariants.Script
