import BuildVariants.Script.Operation

/-!
# Names for operands

Messages about an operand say what it is called in the script. The name is found by looking
back through the code for the instruction that filled the operand's slot: the name of a local
or captured variable, of a constant, or of the field that was read.
-/

set_option autoImplicit false

namespace BuildVariants.Script

structure Naming where
  kind : String
  name : ByteArray

namespace Naming

def behind : Option Naming → ByteArray
  | some n => (" (" ++ n.kind ++ " '").toUTF8 ++ Text.beforeNull n.name ++ "')".toUTF8
  | none => .empty

end Naming

namespace Routine

/-- The last instruction before a place that surely filled a slot. What a jump passes over
before the place is not sure. -/
def lastChange? (p : Routine) (pc slot : Nat) : Option Nat :=
  let step : Option Nat × Nat → Nat → Option Nat × Nat := fun (found, target) i =>
    match p.code[i]? with
    | some (.jump dest) => (found, if dest ≤ pc && target < dest then dest else target)
    | some instruction =>
      if instruction.changes slot then (if i < target then none else some i, target)
      else (found, target)
    | none => (found, target)
  ((List.range pc).foldl step (none, 0)).1

def captureName (p : Routine) (c : Nat) : String := (p.captures[c]?.map Capture.name).getD "?"

def constantName? (p : Routine) (k : Nat) : Option ByteArray :=
  match p.constants[k]? with
  | some (.text bytes) => some bytes
  | _ => none

def variableName? (p : Routine) : Nat → Nat → Nat → Option Naming × Option Nat
  | 0, _, _ => (none, none)
  | fuel + 1, pc, slot =>
    match p.localName? slot pc with
    | some name => (some ⟨"local", name.toUTF8⟩, none)
    | none =>
      match p.lastChange? pc slot with
      | none => (none, none)
      | some i =>
        match p.code[i]? with
        | some (.move a b) =>
          if b < a then variableName? p fuel i b else (none, some i)
        | some (.getCaptured _ c) => (some ⟨"upvalue", (p.captureName c).toUTF8⟩, none)
        | some (.loadConstant _ k) =>
          match p.constantName? k with
          | some bytes => (some ⟨"constant", bytes⟩, none)
          | none => (none, some i)
        | _ => (none, some i)

def fieldKind (table : Option Naming) : String :=
  match table with
  | some n =>
    if (n.kind = "local" || n.kind = "upvalue") && n.name == "_ENV".toUTF8 then "global" else "field"
  | none => "field"

def slotName? (p : Routine) (pc slot : Nat) : Option Naming :=
  match p.variableName? (p.code.size + 1) pc slot with
  | (some n, _) => some n
  | (none, none) => none
  | (none, some i) =>
    let named (r : Nat) : Option Naming := (p.variableName? (p.code.size + 1) i r).1
    let keyName (r : Nat) : ByteArray :=
      match named r with
      | some n => if n.kind = "constant" then n.name else "?".toUTF8
      | none => "?".toUTF8
    let constant (k : Nat) : ByteArray := (p.constantName? k).getD "?".toUTF8
    match p.code[i]? with
    | some (.getCapturedField _ c k) =>
      some ⟨fieldKind (some ⟨"upvalue", (p.captureName c).toUTF8⟩), constant k⟩
    | some (.getIndex _ t key) => some ⟨fieldKind (named t), keyName key⟩
    | some (.getItem ..) => some ⟨"field", "integer index".toUTF8⟩
    | some (.getField _ t k) => some ⟨fieldKind (named t), constant k⟩
    | some (.getMethod _ _ key) =>
      match key with
      | .constant k => some ⟨"method", constant k⟩
      | .slot r => some ⟨"method", keyName r⟩
      | _ => some ⟨"method", "?".toUTF8⟩
    | _ => none

def metamethod (e : Event) : Naming := ⟨"metamethod", e.name.toUTF8⟩

def calleeName? (p : Routine) (pc : Nat) : Option Naming :=
  match p.code[pc]? with
  | some (.call a _ _) => p.slotName? pc a
  | some (.tailCall a _ _) => p.slotName? pc a
  | some (.callEach ..) => some ⟨"for iterator", "for iterator".toUTF8⟩
  | some (.getCapturedField ..) => some (metamethod .index)
  | some (.getIndex ..) => some (metamethod .index)
  | some (.getItem ..) => some (metamethod .index)
  | some (.getField ..) => some (metamethod .index)
  | some (.getMethod ..) => some (metamethod .index)
  | some (.setCapturedField ..) => some (metamethod .newIndex)
  | some (.setIndex ..) => some (metamethod .newIndex)
  | some (.setItem ..) => some (metamethod .newIndex)
  | some (.setField ..) => some (metamethod .newIndex)
  | some (.binary op _ _ _) => some (metamethod (.binary op))
  | some (.unary .negate ..) => some (metamethod .negate)
  | some (.unary .bitNot ..) => some (metamethod .bitNot)
  | some (.unary .length ..) => some (metamethod .length)
  | some (.concat ..) => some (metamethod .concat)
  | some (.compare .equal ..) => some (metamethod .equal)
  | some (.compare .less ..) => some (metamethod .less)
  | some (.compare .lessEqual ..) => some (metamethod .lessEqual)
  | some (.close _) => some (metamethod .close)
  | some (.giveBack ..) => some (metamethod .close)
  | _ => none

def operand? (i : Instruction) : Side → Option Operand
  | .first =>
    match i with
    | .binary _ _ x _ => some x
    | .unary _ _ b => some (.slot b)
    | .getIndex _ t _ => some (.slot t)
    | .getItem _ t _ => some (.slot t)
    | .getField _ t _ => some (.slot t)
    | .getMethod _ t _ => some (.slot t)
    | .setIndex t _ _ => some (.slot t)
    | .setItem t _ _ => some (.slot t)
    | .setField t _ _ => some (.slot t)
    | _ => none
  | .second =>
    match i with
    | .binary _ _ _ y => some y
    | _ => none
  | .neither => none

def operandName? (p : Routine) (pc : Nat) (side : Side) : Option Naming :=
  match p.code[pc]?, side with
  | some (.getCapturedField _ c _), .first => some ⟨"upvalue", (p.captureName c).toUTF8⟩
  | some (.setCapturedField c _ _), .first => some ⟨"upvalue", (p.captureName c).toUTF8⟩
  | some i, side =>
    match operand? i side with
    | some (.slot r) => p.slotName? pc r
    | _ => none
  | none, _ => none

end Routine

end BuildVariants.Script
