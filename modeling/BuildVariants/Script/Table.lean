import BuildVariants.Script.World

/-!
# Tables of scripts

A table keeps a run of items in front and all other entries in nodes. A node stands at the main
position of its key or is chained to the node there. The order of a traversal and the length
of a table with gaps follow from where entries are kept, so growth is part of the rules: when
no free node is left, the items are recounted and everything is stored anew.
-/

set_option autoImplicit false

namespace BuildVariants.Script

structure Node where
  key : Value
  value : Value
  next : Option Nat
deriving Inhabited

structure Table where
  items : Array Value
  /-- Where the length was seen last. It is never above the number of item places. -/
  limit : Nat
  nodes : Array Node
  free : Nat
  metatable : Option Nat
  spread : Spread
deriving Inhabited

namespace Table

def empty (spread : Spread) : Table := ⟨#[], 0, #[], 0, none, spread⟩

def ceilLog2 (size : Nat) : Nat := if size ≤ 1 then 0 else Nat.log2 (size - 1) + 1

def newNodes (size : Nat) : Array Node :=
  if size = 0 then #[] else Array.replicate (Nat.pow 2 (ceilLog2 size)) ⟨.nil, .nil, none⟩

/-! ### Positions -/

def hashBytes (seed : UInt32) (bytes : ByteArray) : UInt32 :=
  bytes.data.foldr (fun b h => h ^^^ ((h <<< 5) + (h >>> 2) + b.toUInt32)) (seed ^^^ bytes.size.toUInt32)

def hashFloat (x : Float) : Nat :=
  if x - x != 0 then 0
  else
    let (mantissa, exponent) := x.frExp
    let digits := (mantissa * 2147483648.0).toInt64.toInt
    let u := ((exponent + digits) % 0x100000000).toNat
    if u ≤ 0x7fffffff then u else 0xffffffff - u

def mainPosition (spread : Spread) (size : Nat) (key : Value) : Nat :=
  let odd := (size - 1) ||| 1
  match key with
  | .integer n => (n.toUInt64 % UInt64.ofNat odd).toNat
  | .number x => hashFloat x % odd
  | .text bytes => (hashBytes spread.seed bytes).toNat % size
  | .boolean b => (if b then 1 else 0) % size
  | .table _ | .closure _ | .builtin _ | .thread _ | .handle _ =>
    spread.address key % 0x100000000 % odd
  | .nil | .positiveNaN => 0

def sameKey : Value → Value → Bool
  | .integer a, .integer b => a == b
  | .text a, .text b => a == b
  | .integer _, _ => false
  | _, .integer _ => false
  | a, b => a.same b

def findFrom (nodes : Array Node) (key : Value) : Nat → Nat → Option Nat
  | 0, _ => none
  | fuel + 1, i =>
    match nodes[i]? with
    | some node =>
      if sameKey node.key key then some i
      else
        match node.next with
        | some j => findFrom nodes key fuel j
        | none => none
    | none => none

def find? (t : Table) (key : Value) : Option Nat :=
  if t.nodes.size = 0 then none
  else findFrom t.nodes key t.nodes.size (mainPosition t.spread t.nodes.size key)

def normalKey : Value → Value
  | .number x =>
    match Real.asInteger? x with
    | some n => .integer n
    | none => .number x
  | key => key

def itemIndex? (t : Table) (n : Int64) : Option Nat :=
  if 0 < n then
    let i := (n.toUInt64 - 1).toNat
    if i < t.items.size then some i else none
  else none

def nodeValue (t : Table) (key : Value) : Value :=
  match t.find? key with
  | some i => (t.nodes[i]?.map Node.value).getD .nil
  | none => .nil

def getNormal (t : Table) (key : Value) : Value :=
  match key with
  | .nil => .nil
  | .integer n =>
    match t.itemIndex? n with
    | some i => t.items[i]?.getD .nil
    | none => t.nodeValue key
  | key => t.nodeValue key

def get (t : Table) (key : Value) : Value := t.getNormal (normalKey key)

def getText (t : Table) (bytes : ByteArray) : Value := t.nodeValue (.text bytes)

def getString (t : Table) (s : String) : Value := t.getText s.toUTF8

def getItem (t : Table) (n : Nat) : Value := t.getNormal (.ofNat n)

def sightedLimit (t : Table) (key : Value) : Nat :=
  if t.limit = t.items.size then t.limit
  else
    match key with
    | .integer n =>
      match t.itemIndex? n with
      | some i => max t.limit (i + 1)
      | none => t.limit
    | _ => t.limit

def sighted (t : Table) (key : Value) : Table := { t with limit := t.sightedLimit key }

/-! ### Storing -/

def freeBelow (nodes : Array Node) : Nat → Option Nat
  | 0 => none
  | n + 1 =>
    match nodes[n]? with
    | some node => if node.key.isNil then some n else freeBelow nodes n
    | none => freeBelow nodes n

def before (nodes : Array Node) (i : Nat) : Nat → Nat → Nat
  | 0, start => start
  | fuel + 1, start =>
    match nodes[start]?.bind Node.next with
    | some j => if j = i then start else before nodes i fuel j
    | none => start

inductive Spot
  | item (i : Nat)
  | node (i : Nat)
  | main (i : Nat)
  | chained (i main : Nat)
  /-- The main position, after what stands there has moved to a free place; the chain of what
  stands there begins at another node. -/
  | freed (i main home : Nat)
  | full

def newSpot (t : Table) (key : Value) : Spot :=
  let size := t.nodes.size
  if size = 0 then .full
  else
    let main := mainPosition t.spread size key
    match t.nodes[main]? with
    | some there =>
      if there.value.isNil then .main main
      else
        match freeBelow t.nodes t.free with
        | none => .full
        | some i =>
          let home := mainPosition t.spread size there.key
          if home = main then .chained i main else .freed i main home
    | none => .full

def spotAmongNodes (t : Table) (key value : Value) : Option Spot :=
  match t.find? key with
  | some i => some (.node i)
  | none => if value.isNil then none else some (t.newSpot key)

def spot? (t : Table) (key value : Value) : Option Spot :=
  match key with
  | .integer n =>
    match t.itemIndex? n with
    | some i => some (.item i)
    | none => t.spotAmongNodes key value
  | _ => t.spotAmongNodes key value

def fill (t : Table) (spot : Spot) (key value : Value) : Table :=
  match spot with
  | .item i => { t with items := t.items.setIfInBounds i value }
  | .node i => { t with nodes := t.nodes.modify i fun node => { node with value } }
  | .main i => { t with nodes := t.nodes.modify i fun node => ⟨key, value, node.next⟩ }
  | .chained i main =>
    let behind := t.nodes[main]?.bind Node.next
    let nodes := t.nodes.modify main fun node => { node with next := some i }
    { t with nodes := nodes.setIfInBounds i ⟨key, value, behind⟩, free := i }
  | .freed i main home =>
    let previous := before t.nodes main t.nodes.size home
    let there := t.nodes[main]?.getD default
    let nodes := t.nodes.modify previous fun node => { node with next := some i }
    let nodes := nodes.setIfInBounds i there
    { t with nodes := nodes.setIfInBounds main ⟨key, value, none⟩, free := i }
  | .full => t

def store (t : Table) (key value : Value) : Table :=
  match t.spot? key value with
  | some spot => t.fill spot key value
  | none => t

/-! ### Growing -/

def resize (t : Table) (items entries : Nat) : Table :=
  let kept : Array Value := t.items.take items
  let start : Table :=
    { items := kept ++ Array.replicate (items - kept.size) .nil
      limit := items
      nodes := newNodes entries
      free := (newNodes entries).size
      metatable := t.metatable
      spread := t.spread }
  let vanishing := t.items.size - items
  let moved := vanishing.fold (fun i _ (acc : Table) =>
    match t.items[items + i]? with
    | some v => if v.isNil then acc else acc.store (.ofNat (items + i + 1)) v
    | none => acc) start
  t.nodes.foldl (fun acc node =>
    if node.value.isNil then acc else acc.store node.key node.value) moved

def resizeItems (t : Table) (items : Nat) : Table := t.resize items t.nodes.size

def itemLimit : Nat := 2147483648

def sizeClass? : Value → Option Nat
  | .integer n => if 0 < n && n.toInt ≤ itemLimit then some (ceilLog2 n.toInt.toNat) else none
  | _ => none

def countKey (counts : Array Nat) (key : Value) : Array Nat :=
  match sizeClass? key with
  | some c => counts.modify c (· + 1)
  | none => counts

/-- The greatest power of two such that more than half of the items up to it are in use, and
how many these are. -/
def itemPlaces (counts : List Nat) (total : Nat) : Nat × Nat :=
  let step : (Nat × Nat × Nat × Nat) → Nat → (Nat × Nat × Nat × Nat) := fun (power, seen, best, used) count =>
    let seen := seen + count
    if power / 2 < seen then (2 * power, seen, power, seen) else (2 * power, seen, best, used)
  let classes := (List.range counts.length).filter fun i => Nat.pow 2 i / 2 < total
  let (_, _, best, used) := (counts.take classes.length).foldl step (1, 0, 0, 0)
  (best, used)

def grow (t : Table) (key : Value) : Table :=
  let start : Array Nat := Array.replicate 32 0
  let indexed := t.items.size.fold (fun i _ (acc : Array Nat × Nat) =>
    match t.items[i]? with
    | some v => if v.isNil then acc else (acc.1.modify (ceilLog2 (i + 1)) (· + 1), acc.2 + 1)
    | none => acc) (start, 0)
  let (counts, used) := t.nodes.foldl (fun (acc : Array Nat × Nat) node =>
    if node.value.isNil then acc else (countKey acc.1 node.key, acc.2 + 1)) indexed
  let counts := countKey counts key
  let candidates := counts.foldl (· + ·) 0
  let (items, itemsUsed) := itemPlaces counts.toList candidates
  t.resize items (used + 1 - itemsUsed)

def setNormal (t : Table) (key value : Value) : Table :=
  match t.spot? key value with
  | some .full => (t.grow key).store key value
  | some spot => t.fill spot key value
  | none => t

inductive KeyError
  | isNil
  | isNaN

def KeyError.message : KeyError → String
  | .isNil => "table index is nil"
  | .isNaN => "table index is NaN"

def keyError? : Value → Option KeyError
  | .nil => some .isNil
  | .positiveNaN => some .isNaN
  | .number x => if Real.isNaN x then some .isNaN else none
  | _ => none

def set (t : Table) (key value : Value) : Except KeyError Table :=
  let key := normalKey key
  match keyError? key with
  | some e => .error e
  | none => .ok ((t.sighted key).setNormal key value)

def setString (t : Table) (s : String) (value : Value) : Table := t.setNormal (.ofString s) value

def setItem (t : Table) (n : Nat) (value : Value) : Table := t.setNormal (.ofNat n) value

def setItems (t : Table) (done : Nat) (values : List Value) : Table :=
  let last := done + values.length
  let t := if t.items.size < last then t.resizeItems last else t
  { t with items := (values.foldl (fun (acc : Array Value × Nat) v =>
      (acc.1.setIfInBounds acc.2 v, acc.2 + 1)) (t.items, done)).1 }

/-! ### Length -/

def lacks (items : Array Value) (n : Nat) : Bool := (items[n - 1]?.getD .nil).isNil

def bisect (isMissing : Nat → Bool) : Nat → Nat → Nat → Nat
  | 0, low, _ => low
  | fuel + 1, low, high =>
    if 1 < high - low then
      let middle := (low + high) / 2
      if isMissing middle then bisect isMissing fuel low middle else bisect isMissing fuel middle high
    else low

def greatest : Nat := 9223372036854775807

def searchBehind (isMissing : Nat → Bool) : Nat → Nat → Nat
  | 0, present => present
  | fuel + 1, present =>
    if present ≤ greatest / 2 then
      let next := 2 * present
      if isMissing next then bisect isMissing 64 present next else searchBehind isMissing fuel next
    else if isMissing greatest then bisect isMissing 64 present greatest
    else greatest

def isPowerOfTwo (n : Nat) : Bool := n &&& (n - 1) = 0

/-- A length, and where the limit goes. When there are gaps, several lengths are possible. -/
def measure (t : Table) : Nat × Nat :=
  let size := t.items.size
  let limit := t.limit
  let keep (n : Nat) : Nat := if isPowerOfTwo size && size / 2 < n then n else limit
  if 0 < limit && lacks t.items limit then
    if 2 ≤ limit && !lacks t.items (limit - 1) then (limit - 1, keep (limit - 1))
    else
      let n := bisect (lacks t.items) 64 0 limit
      (n, keep n)
  else if limit ≠ size && lacks t.items (limit + 1) then (limit, limit)
  else if limit ≠ size && lacks t.items size then
    let n := bisect (lacks t.items) 64 limit size
    (n, n)
  else
    let isMissing : Nat → Bool := fun n => (t.nodeValue (.ofNat n)).isNil
    if t.nodes.size = 0 || isMissing (size + 1) then (size, limit)
    else if size = 0 then (searchBehind (fun n => (t.getItem n).isNil) 64 1, limit)
    else (searchBehind (fun n => (t.getItem n).isNil) 64 size, limit)

def length (t : Table) : Nat := t.measure.1

/-! ### Traversal -/

def entryFrom (t : Table) : Nat → Nat → Option (Value × Value)
  | 0, _ => none
  | fuel + 1, i =>
    if i < t.items.size then
      let v := t.items[i]?.getD .nil
      if v.isNil then entryFrom t fuel (i + 1) else some (.ofNat (i + 1), v)
    else
      match t.nodes[i - t.items.size]? with
      | some node => if node.value.isNil then entryFrom t fuel (i + 1) else some (node.key, node.value)
      | none => none

def positionBehind? (t : Table) (key : Value) : Option Nat :=
  match key with
  | .nil => some 0
  | .integer n =>
    match t.itemIndex? n with
    | some i => some (i + 1)
    | none => (t.find? key).map fun i => t.items.size + i + 1
  | key => (t.find? key).map fun i => t.items.size + i + 1

def next? (t : Table) (key : Value) : Option (Option (Value × Value)) :=
  (t.positionBehind? key).map fun i => t.entryFrom (t.items.size + t.nodes.size + 1 - i) i

def entries (t : Table) : List (Value × Value) :=
  let items := (List.range t.items.size).filterMap fun i =>
    let v := t.items[i]?.getD .nil
    if v.isNil then none else some (Value.ofNat (i + 1), v)
  items ++ t.nodes.toList.filterMap fun node =>
    if node.value.isNil then none else some (node.key, node.value)

end Table

end BuildVariants.Script
