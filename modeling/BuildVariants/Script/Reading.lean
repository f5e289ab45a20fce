import BuildVariants.Script.Assembly

/-!
# Reading scripts

The grammar of scripts. A script is read token by token and compiled on the way; it is refused
at the first token that does not fit. Every grammar rule takes a number that bounds the calls
below it; the size of the script gives a number that is always large enough.
-/

set_option autoImplicit false

namespace BuildVariants.Script

namespace Read

/-! ### Tokens -/

def fault {α : Type} (e : Token.Fault) : Read α := do
  let s ← get
  throw (.refused (s.source.messagePrefix e.line
    ++ Text.ofByteChars (e.message.toList ++ " near ".toList ++ e.near)))

def scan : Read Token := do
  let s ← get
  match Token.scan s.size (s.size + 1) s.input with
  | .ok (token, input) =>
    set { s with input }
    return token
  | .error e => fault e

def advance : Read Unit := do
  let s ← get
  let s := { s with lastLine := s.input.line }
  match s.ahead with
  | some token => set { s with token, ahead := none }
  | none =>
    set s
    let token ← scan
    modify fun s => { s with token }

def lookAhead : Read Token := do
  let token ← scan
  modify fun s => { s with ahead := some token }
  return token

def token : Read Token := return (← get).token

def line : Read Nat := return (← get).input.line

def isAt (s : String) : Read Bool := do
  match ← token with
  | .mark t => return t == s
  | .word t => return t == s
  | _ => return false

def shownMark (s : String) : List Char := (Token.mark s).shown

def accept (s : String) : Read Bool := do
  if ← isAt s then
    advance
    return true
  else return false

def expected {α : Type} (what : List Char) : Read α := do
  refuseNear (what ++ " expected".toList) (some (← token).shown)

def expect (s : String) : Read Unit := do
  if !(← accept s) then expected (shownMark s)

def expectClosing (closing opening : String) (openingLine : Nat) : Read Unit := do
  if !(← accept closing) then
    if openingLine = (← line) then expected (shownMark closing)
    else
      refuseNear (shownMark closing ++ " expected (to close ".toList ++ shownMark opening
        ++ (" at line " ++ toString openingLine ++ ")").toList) (some (← token).shown)

def name : Read String := do
  match ← token with
  | .name s =>
    advance
    return s
  | _ => expected "<name>".toList

def endsBlock (withUntil : Bool) : Read Bool := do
  match ← token with
  | .finish => return true
  | .word "else" => return true
  | .word "elseif" => return true
  | .word "end" => return true
  | .word "until" => return withUntil
  | _ => return false

def depthLimit : Nat := 200

def enter : Read Unit := do
  let s ← get
  if s.depth + 1 = depthLimit then throw .nestedTooDeep
  set { s with depth := s.depth + 1 }

def leave : Read Unit := modify fun s => { s with depth := s.depth - 1 }

/-! ### Variables -/

def declare (s : String) : Read Nat := do
  let a ← assembly
  checkLimit (a.declared.size + 1) 200 "local variables"
  modifyAssembly fun a => { a with declared := a.declared.push ⟨s, .plain, 0, 0⟩ }
  return a.declared.size

def openVariable (a : Assembly) (slot : Nat) : Assembly :=
  { a with
    declared := a.declared.modify a.active fun v => { v with slot, entry := a.locals.size }
    locals := a.locals.push ⟨(a.declared[a.active]?.map Variable.name).getD "", a.code.size, 0⟩
    active := a.active + 1 }

def openVariables (n : Nat) : Read Unit :=
  modifyAssembly fun a =>
    let level := a.variableSlots
    n.fold (fun i _ a => openVariable a (level + i)) a

def closeVariable (a : Assembly) : Assembly :=
  let active := a.active - 1
  let locals := match a.declared[active]? with
    | some v =>
      match v.kind with
      | .folded _ => a.locals
      | _ => a.locals.modify v.entry fun l => { l with stop := a.code.size }
    | none => a.locals
  { a with active, locals }

def closeVariables (n : Nat) : Read Unit :=
  modifyAssembly fun a =>
    let closed := (a.active - n).fold (fun _ _ a => closeVariable a) a
    { closed with declared := closed.declared.take (a.declared.size - (a.active - n)) }

def markCaptured (index : Nat) : List Block → List Block
  | b :: rest =>
    if index < b.varCount then b :: markCaptured index rest else { b with captured := true } :: rest
  | [] => []

def search? (a : Assembly) (s : String) : Nat → Option Shape
  | 0 => none
  | n + 1 =>
    match a.declared[n]? with
    | some v =>
      if v.name = s then
        match v.kind with
        | .folded value => some (.folded s value)
        | _ => some (.variable v.slot n)
      else search? a s n
    | none => search? a s n

def isPlain (a : Assembly) (index : Nat) : Bool :=
  match a.declared[index]? with
  | some v =>
    match v.kind with
    | .plain => true
    | _ => false
  | none => false

/-- Finds the variable of a name in a function and those around it. What belongs to a function
around is captured by all functions in between. Fails with the line of a function that
captures too much. -/
def resolve (s : String) (own : Bool) : List Assembly → Except Nat (Option Shape × List Assembly)
  | [] => .ok (none, [])
  | a :: outer =>
    match search? a s a.active with
    | some (.variable r index) =>
      let a := if own then a
        else { a with blocks := markCaptured index a.blocks, needsClose := true }
      .ok (some (.variable r index), a :: outer)
    | some shape => .ok (some shape, a :: outer)
    | none =>
      match a.captures.findIdx? fun c => c.capture.name = s with
      | some c => .ok (some (.captured c), a :: outer)
      | none =>
        match resolve s false outer with
        | .error e => .error e
        | .ok (found, outer) =>
          let draft? : Option CaptureDraft := match found, outer with
            | some (.variable r index), b :: _ => some ⟨⟨s, true, r⟩, isPlain b index⟩
            | some (.captured c), b :: _ =>
              some ⟨⟨s, false, c⟩, (b.captures[c]?.map CaptureDraft.assignable).getD true⟩
            | _, _ => none
          match draft? with
          | some draft =>
            if 255 ≤ a.captures.size then .error a.lineDefined
            else
              .ok (some (.captured a.captures.size),
                { a with captures := a.captures.push draft } :: outer)
          | none => .ok (found, a :: outer)

def find? (s : String) : Read (Option Shape) := do
  let st ← get
  match resolve s true (st.current :: st.outer) with
  | .ok (found, current :: outer) =>
    set { st with current, outer }
    return found
  | .ok (found, []) => return found
  | .error 0 => refuse "too many upvalues (limit is 255) in main function"
  | .error n =>
    refuse ("too many upvalues (limit is 255) in function at line " ++ toString n)

def environmentName : String := "_ENV"

def variableNamed (s : String) : Read Expr := do
  match ← find? s with
  | some shape => return .of shape
  | none =>
    match ← find? environmentName with
    | some shape =>
      let environment ← placeUncaptured (.of shape)
      indexed environment (.of (.text s.toUTF8))
    | none => return .of .void

def checkAssignable (e : Expr) : Read Unit := do
  let a ← assembly
  let fixed? : Option String := match e.shape with
    | .folded s _ => some s
    | .variable _ index =>
      if isPlain a index then none else (a.declared[index]?).map Variable.name
    | .captured c =>
      match a.captures[c]? with
      | some d => if d.assignable then none else some d.capture.name
      | none => none
    | _ => none
  match fixed? with
  | some s => refuseFor ("attempt to assign to const variable '" ++ s ++ "'")
  | none => pure ()

def adjust (targets values : Nat) (e : Expr) : Read Unit := do
  let needed : Int := targets - values
  if e.isOpen then setCount e (some (needed + 1).toNat)
  else
    match e.shape with
    | .void => pure ()
    | _ => let _ ← placeNext e
    if 0 < needed then loadNil (← assembly).free needed.toNat
  if 0 < needed then reserve needed.toNat
  else modifyAssembly fun a => { a with free := a.free - (-needed).toNat }

/-! ### Blocks and labels -/

def openBlock (isLoop : Bool) : Read Unit :=
  modifyAssembly fun a =>
    { a with blocks :=
      ⟨isLoop, a.active, a.labels.size, a.gotos.size, false,
        (a.blocks.head?.map Block.insideClosing).getD false⟩ :: a.blocks }

/-- Sends the jumps to a label that were waiting for it in the present block. Says whether one
of them leaves the scope of a captured variable. -/
def resolveGotos (l : Label) : Read Bool := do
  let a ← assembly
  let first := (a.blocks.head?.map Block.gotoCount).getD 0
  let waiting := a.gotos.toList.drop first
  let mine := waiting.filter fun g => g.name = l.name
  mine.forM fun g =>
    if g.varCount < l.varCount then
      refuseFor ("<goto " ++ g.name ++ "> at line " ++ toString g.line
        ++ " jumps into the scope of local '"
        ++ ((a.declared[g.varCount]?).map Variable.name).getD "" ++ "'")
    else patchTo g.jumps l.pc
  let others := waiting.filter fun g => g.name ≠ l.name
  modifyAssembly fun a => { a with gotos := (a.gotos.toList.take first ++ others).toArray }
  return mine.any Goto.closes

def addLabel (s : String) (labelLine : Nat) (last : Bool) : Read Bool := do
  let pc ← here
  let a ← assembly
  let varCount := if last then (a.blocks.head?.map Block.varCount).getD 0 else a.active
  let l : Label := ⟨s, pc, labelLine, varCount⟩
  modifyAssembly fun a => { a with labels := a.labels.push l }
  if ← resolveGotos l then
    emit_ (.close (← assembly).variableSlots)
    return true
  else return false

def addGoto (s : String) (gotoLine : Nat) (jumps : List Nat) : Read Unit :=
  modifyAssembly fun a =>
    { a with gotos := a.gotos.push ⟨s, jumps, gotoLine, a.active, a.variableSlots, false⟩ }

def moveGotosOut (b : Block) : Read Unit :=
  modifyAssembly fun a =>
    let level := a.slotLevel b.varCount
    { a with gotos := a.gotos.mapIdx fun i g =>
        if i < b.gotoCount then g
        else
          { g with closes := g.closes || (level < g.level && b.captured)
                   varCount := b.varCount
                   level := level } }

def undefinedGoto {α : Type} (g : Goto) : Read α :=
  if g.name = "break" then refuseFor ("break outside a loop at line " ++ toString g.line)
  else
    refuseFor ("no visible label '" ++ g.name ++ "' for <goto> at line " ++ toString g.line)

def closeBlock : Read Unit := do
  let a ← assembly
  match a.blocks with
  | [] => pure ()
  | b :: outer =>
    let level := a.slotLevel b.varCount
    closeVariables b.varCount
    let closed ← if b.isLoop then addLabel "break" 0 false else pure false
    if !closed && !outer.isEmpty && b.captured then emit_ (.close level)
    modifyAssembly fun a =>
      { a with free := level, labels := a.labels.take b.labelCount, blocks := outer }
    if outer.isEmpty then
      match (← assembly).gotos[b.gotoCount]? with
      | some g => undefinedGoto g
      | none => pure ()
    else moveGotosOut b

def markClosing : Read Unit :=
  modifyAssembly fun a =>
    { a with
      needsClose := true
      blocks := match a.blocks with
        | b :: rest => { b with captured := true, insideClosing := true } :: rest
        | [] => [] }

def blockCaptured : Read Bool :=
  return ((← assembly).blocks.head?.map Block.captured).getD false

/-! ### Functions -/

def openFunction (lineDefined : Nat) : Read Unit := do
  modify fun s => { s with current := .start lineDefined, outer := s.current :: s.outer }
  openBlock false

def closeFunction : Read Routine := do
  let level := (← assembly).variableSlots
  emit_ (.giveBack level (some 0) false)
  closeBlock
  let s ← get
  let routine := s.current.routine s.source
  match s.outer with
  | a :: outer => set { s with current := a, outer }
  | [] => pure ()
  return routine

def takeExtra (params : Nat) : Read Unit := do
  modifyAssembly fun a => { a with variadic := true }
  emit_ (.prepareExtra params)

def parameters : Nat → Nat → Read (Nat × Bool)
  | 0, count => return (count, false)
  | n + 1, count => do
    match ← token with
    | .name s =>
      advance
      let _ ← declare s
      if ← accept "," then parameters n (count + 1) else return (count + 1, false)
    | .mark "..." =>
      advance
      return (count, true)
    | _ => refuse "<name> or '...' expected"

/-! ### Operators -/

def unaryOf? : Token → Option UnaryOp
  | .word "not" => some .not
  | .mark "-" => some .negate
  | .mark "~" => some .bitNot
  | .mark "#" => some .length
  | _ => none

def infixOf? : Token → Option (Infix × Nat × Nat)
  | .mark "+" => some (.arithmetic .add, 10, 10)
  | .mark "-" => some (.arithmetic .sub, 10, 10)
  | .mark "*" => some (.arithmetic .mul, 11, 11)
  | .mark "%" => some (.arithmetic .mod, 11, 11)
  | .mark "^" => some (.arithmetic .pow, 14, 13)
  | .mark "/" => some (.arithmetic .div, 11, 11)
  | .mark "//" => some (.arithmetic .floorDiv, 11, 11)
  | .mark "&" => some (.arithmetic .bitAnd, 6, 6)
  | .mark "|" => some (.arithmetic .bitOr, 4, 4)
  | .mark "~" => some (.arithmetic .bitXor, 5, 5)
  | .mark "<<" => some (.arithmetic .shiftLeft, 7, 7)
  | .mark ">>" => some (.arithmetic .shiftRight, 7, 7)
  | .mark ".." => some (.concat, 9, 8)
  | .mark "==" => some (.equal true, 3, 3)
  | .mark "~=" => some (.equal false, 3, 3)
  | .mark "<" => some (.less, 3, 3)
  | .mark "<=" => some (.lessEqual, 3, 3)
  | .mark ">" => some (.greater, 3, 3)
  | .mark ">=" => some (.greaterEqual, 3, 3)
  | .word "and" => some (.both, 2, 2)
  | .word "or" => some (.either, 1, 1)
  | _ => none

def unaryStrength : Nat := 12

/-! ### Table constructors -/

structure Constructor where
  table : Nat
  last : Expr
  pending : Nat
  stored : Nat
  entries : Nat

def itemsAtOnce : Nat := 50

def emitItems (c : Constructor) (count : Option Nat) : Read Unit := do
  emit_ (.setItems c.table count c.stored)
  modifyAssembly fun a => { a with free := c.table + 1 }

def flushItem (c : Constructor) : Read Constructor := do
  match c.last.shape with
  | .void => return c
  | _ =>
    let _ ← placeNext c.last
    let c := { c with last := .of .void }
    if c.pending = itemsAtOnce then
      emitItems c (some c.pending)
      return { c with stored := c.stored + c.pending, pending := 0 }
    else return c

def flushRest (c : Constructor) : Read Constructor := do
  if c.pending = 0 then return c
  else if c.last.isOpen then
    setCount c.last none
    emitItems c none
    return { c with stored := c.stored + c.pending - 1 }
  else
    match c.last.shape with
    | .void => pure ()
    | _ => let _ ← placeNext c.last
    emitItems c (some c.pending)
    return { c with stored := c.stored + c.pending }

/-! ### Assignments -/

/-- A table or key of an earlier target that is assigned to by a later one is copied first. -/
def keepOperands (copy : Nat) (assigned : Expr) (target : Expr) : Expr × Bool :=
  match target.shape, assigned.shape with
  | .capturedField c k, .captured d =>
    if c = d then ({ target with shape := .field copy k }, true) else (target, false)
  | .item t n, .variable r _ =>
    if t = r then ({ target with shape := .item copy n }, true) else (target, false)
  | .field t k, .variable r _ =>
    if t = r then ({ target with shape := .field copy k }, true) else (target, false)
  | .index t key, .variable r _ =>
    ({ target with shape := .index (if t = r then copy else t) (if key = r then copy else key) },
      t = r || key = r)
  | _, _ => (target, false)

def keepTargets (targets : List Expr) (assigned : Expr) : Read (List Expr) := do
  let copy := (← assembly).free
  let kept := targets.map (keepOperands copy assigned)
  if kept.any Prod.snd then
    match assigned.shape with
    | .variable r _ => emit_ (.move copy r)
    | .captured c => emit_ (.getCaptured copy c)
    | _ => pure ()
    reserve 1
  return kept.map Prod.fst

/-! ### Grammar -/

mutual

def expression : Nat → Nat → Read Expr
  | 0, _ => throw .nestedTooDeep
  | n + 1, limit => do
    enter
    let e ← match unaryOf? (← token) with
      | some op => do
        let opLine ← line
        advance
        let e ← expression n unaryStrength
        applyUnary op e opLine
      | none => simple n
    let e ← operators n limit e
    leave
    return e

def operators : Nat → Nat → Expr → Read Expr
  | 0, _, _ => throw .nestedTooDeep
  | n + 1, limit, e => do
    match infixOf? (← token) with
    | some (op, left, right) =>
      if limit < left then
        let opLine ← line
        advance
        let e ← prepareLeft op e
        let f ← expression n right
        operators n limit (← applyInfix op e f opLine)
      else return e
    | none => return e

def simple : Nat → Read Expr
  | 0 => throw .nestedTooDeep
  | n + 1 => do
    match ← token with
    | .numeral (.integer i) _ =>
      advance
      return .of (.integer i)
    | .numeral (.float x) _ =>
      advance
      return .of (.float x)
    | .text bytes _ =>
      advance
      return .of (.text bytes)
    | .word "nil" =>
      advance
      return .of .nil
    | .word "true" =>
      advance
      return .of .true
    | .word "false" =>
      advance
      return .of .false
    | .mark "..." =>
      if !(← assembly).variadic then refuse "cannot use '...' outside a vararg function"
      let pc ← emit (.extra 0 (some 1))
      advance
      return .of (.extra pc)
    | .mark "\x7b" => constructor n
    | .word "function" =>
      advance
      functionBody n false (← line)
    | _ => suffixed n

def primary : Nat → Read Expr
  | 0 => throw .nestedTooDeep
  | n + 1 => do
    match ← token with
    | .name s =>
      advance
      variableNamed s
    | .mark "(" =>
      let opening ← line
      advance
      let e ← expression n 0
      expectClosing ")" "(" opening
      settleVariable e
    | _ => refuse "unexpected symbol"

def suffixed : Nat → Read Expr
  | 0 => throw .nestedTooDeep
  | n + 1 => do
    suffixes n (← primary n)

def suffixes : Nat → Expr → Read Expr
  | 0, _ => throw .nestedTooDeep
  | n + 1, e => do
    match ← token with
    | .mark "." => suffixes n (← fieldOf e)
    | .mark "[" =>
      let e ← placeUncaptured e
      let key ← bracketed n
      suffixes n (← indexed e key)
    | .mark ":" =>
      advance
      let s ← name
      suffixes n (← arguments n (← method e s))
    | .mark "(" => suffixes n (← arguments n (← placeNext e))
    | .mark "\x7b" => suffixes n (← arguments n (← placeNext e))
    | .text .. => suffixes n (← arguments n (← placeNext e))
    | _ => return e

def fieldOf (e : Expr) : Read Expr := do
  let e ← placeUncaptured e
  advance
  let s ← name
  indexed e (.of (.text s.toUTF8))

def bracketed : Nat → Read Expr
  | 0 => throw .nestedTooDeep
  | n + 1 => do
    advance
    let key ← settleValue (← expression n 0)
    expect "]"
    return key

def arguments : Nat → Expr → Read Expr
  | 0, _ => throw .nestedTooDeep
  | n + 1, f => do
    let callLine ← line
    let args ← match ← token with
      | .mark "(" => do
        advance
        let args ← if ← isAt ")" then pure (Expr.of .void) else do
          let (_, args) ← expressions n
          if args.isOpen then setCount args none
          pure args
        expectClosing ")" "(" callLine
        pure args
      | .mark "\x7b" => constructor n
      | .text bytes _ => do
        advance
        pure (Expr.of (.text bytes))
      | _ => refuse "function arguments expected"
    let base := match f.shape with
      | .slot r => r
      | _ => 0
    let count? ← if args.isOpen then pure none else do
      match args.shape with
      | .void => pure ()
      | _ => let _ ← placeNext args
      pure (some ((← assembly).free - (base + 1)))
    let pc ← emit (.call base count? (some 1))
    fixLine callLine
    modifyAssembly fun a => { a with free := base + 1 }
    return .of (.call pc)

def expressions : Nat → Read (Nat × Expr)
  | 0 => throw .nestedTooDeep
  | n + 1 => do
    moreExpressions n 1 (← expression n 0)

def moreExpressions : Nat → Nat → Expr → Read (Nat × Expr)
  | 0, _, _ => throw .nestedTooDeep
  | n + 1, count, e => do
    if ← accept "," then
      let _ ← placeNext e
      moreExpressions n (count + 1) (← expression n 0)
    else return (count, e)

def constructor : Nat → Read Expr
  | 0 => throw .nestedTooDeep
  | n + 1 => do
    let opening ← line
    let pc ← emit (.newTable 0 0 0)
    let table := (← assembly).free
    reserve 1
    expect "\x7b"
    let c ← fields n ⟨table, .of .void, 0, 0, 0⟩
    expectClosing "\x7d" "\x7b" opening
    let c ← flushRest c
    setInstruction pc (.newTable table c.stored c.entries)
    return .of (.slot table)

def fields : Nat → Constructor → Read Constructor
  | 0, _ => throw .nestedTooDeep
  | n + 1, c => do
    if ← isAt "\x7d" then return c
    let c ← flushItem c
    let c ← match ← token with
      | .name s => do
        match ← lookAhead with
        | .mark "=" => do
          let free := (← assembly).free
          advance
          entry n c free (.of (.text s.toUTF8))
        | _ => item n c
      | .mark "[" => do
        let free := (← assembly).free
        let key ← bracketed n
        entry n c free key
      | _ => item n c
    if ← accept "," then fields n c
    else if ← accept ";" then fields n c
    else return c

def item : Nat → Constructor → Read Constructor
  | 0, _ => throw .nestedTooDeep
  | n + 1, c => do
    let e ← expression n 0
    return { c with last := e, pending := c.pending + 1 }

def entry : Nat → Constructor → Nat → Expr → Read Constructor
  | 0, _, _, _ => throw .nestedTooDeep
  | n + 1, c, free, key => do
    expect "="
    let target ← indexed (.of (.slot c.table)) key
    store target (← expression n 0)
    modifyAssembly fun a => { a with free }
    return { c with entries := c.entries + 1 }

def functionBody : Nat → Bool → Nat → Read Expr
  | 0, _, _ => throw .nestedTooDeep
  | n + 1, isMethod, lineDefined => do
    openFunction lineDefined
    expect "("
    if isMethod then
      let _ ← declare "self"
      openVariables 1
    let (count, takesExtra) ← if ← isAt ")" then pure (0, false) else parameters n 0
    openVariables count
    let params := (← assembly).active
    modifyAssembly fun a => { a with params }
    if takesExtra then takeExtra params
    reserve params
    expect ")"
    statements n
    expectClosing "end" "function" lineDefined
    let closeLine := (← get).lastLine
    let routine ← closeFunction
    modify fun s => { s with lastLine := closeLine }
    let index := (← assembly).inner.size
    modifyAssembly fun a => { a with inner := a.inner.push routine }
    placeNext (.of (.result (← emit (.closure 0 index))))

def statements : Nat → Read Unit
  | 0 => throw .nestedTooDeep
  | n + 1 => do
    if ← endsBlock true then return ()
    else if ← isAt "return" then statement n
    else
      statement n
      statements n

def statement : Nat → Read Unit
  | 0 => throw .nestedTooDeep
  | n + 1 => do
    let start ← line
    enter
    match ← token with
    | .mark ";" => advance
    | .word "if" => ifStatement n start
    | .word "while" => whileStatement n start
    | .word "do" =>
      advance
      block n
      expectClosing "end" "do" start
    | .word "for" => forStatement n start
    | .word "repeat" => repeatStatement n start
    | .word "function" => functionStatement n start
    | .word "local" =>
      advance
      if ← accept "function" then localFunction n else localStatement n
    | .mark "::" =>
      advance
      let s ← name
      labelStatement n s start
    | .word "return" =>
      advance
      returnStatement n
    | .word "break" =>
      let at_ ← line
      advance
      addGoto "break" at_ [← jump]
    | .word "goto" =>
      advance
      gotoStatement
    | _ => expressionStatement n
    modifyAssembly fun a => { a with free := a.variableSlots }
    leave

def block : Nat → Read Unit
  | 0 => throw .nestedTooDeep
  | n + 1 => do
    openBlock false
    statements n
    closeBlock

def condition : Nat → Read (List Nat)
  | 0 => throw .nestedTooDeep
  | n + 1 => do
    let e ← expression n 0
    let e := match e.shape with
      | .nil => { e with shape := .false }
      | _ => e
    return (← goWhenTrue e).whenFalse

def gotoStatement : Read Unit := do
  let start ← line
  let s ← name
  let a ← assembly
  match a.labels.find? fun l => l.name = s with
  | none => addGoto s start [← jump]
  | some l =>
    let level := a.slotLevel l.varCount
    if level < a.variableSlots then emit_ (.close level)
    patchTo [← jump] l.pc

def labelStatement : Nat → String → Nat → Read Unit
  | 0, _, _ => throw .nestedTooDeep
  | n + 1, s, start => do
    expect "::"
    emptyStatements n
    match (← assembly).labels.find? fun l => l.name = s with
    | some l =>
      refuseFor ("label '" ++ s ++ "' already defined on line " ++ toString l.line)
    | none => pure ()
    let _ ← addLabel s start (← endsBlock false)

def emptyStatements : Nat → Read Unit
  | 0 => throw .nestedTooDeep
  | n + 1 => do
    let semicolon ← isAt ";"
    let label ← isAt "::"
    if semicolon || label then
      statement n
      emptyStatements n

def whileStatement : Nat → Nat → Read Unit
  | 0, _ => throw .nestedTooDeep
  | n + 1, start => do
    advance
    let again ← here
    let exits ← condition n
    openBlock true
    expect "do"
    block n
    patchTo [← jump] again
    expectClosing "end" "while" start
    closeBlock
    patchHere exits

def repeatStatement : Nat → Nat → Read Unit
  | 0, _ => throw .nestedTooDeep
  | n + 1, start => do
    let again ← here
    openBlock true
    openBlock false
    advance
    statements n
    expectClosing "until" "repeat" start
    let exits ← condition n
    let captured ← blockCaptured
    let outside := ((← assembly).blocks.head?.map Block.varCount).getD 0
    closeBlock
    let repeats ← if captured then do
        let exit ← jump
        patchHere exits
        emit_ (.close ((← assembly).slotLevel outside))
        let repeats ← jump
        patchHere [exit]
        pure [repeats]
      else pure exits
    patchTo repeats again
    closeBlock

def alternative : Nat → Read (List Nat)
  | 0 => throw .nestedTooDeep
  | n + 1 => do
    advance
    let e ← expression n 0
    expect "then"
    if ← isAt "break" then
      let start ← line
      let e ← goWhenFalse e
      advance
      openBlock false
      addGoto "break" start e.whenTrue
      semicolons n
      if ← endsBlock false then
        closeBlock
        return []
      else alternativeBody n [← jump]
    else
      let e ← goWhenTrue e
      openBlock false
      alternativeBody n e.whenFalse

def alternativeBody : Nat → List Nat → Read (List Nat)
  | 0, _ => throw .nestedTooDeep
  | n + 1, skips => do
    statements n
    closeBlock
    let isElse ← isAt "else"
    let isElseIf ← isAt "elseif"
    let ends ← if isElse || isElseIf then do pure [← jump] else pure []
    patchHere skips
    return ends

def semicolons : Nat → Read Unit
  | 0 => throw .nestedTooDeep
  | n + 1 => do
    if ← accept ";" then semicolons n

def ifStatement : Nat → Nat → Read Unit
  | 0, _ => throw .nestedTooDeep
  | n + 1, start => do
    let ends ← alternatives n (← alternative n)
    if ← accept "else" then block n
    expectClosing "end" "if" start
    patchHere ends

def alternatives : Nat → List Nat → Read (List Nat)
  | 0, _ => throw .nestedTooDeep
  | n + 1, ends => do
    if ← isAt "elseif" then alternatives n (ends ++ (← alternative n)) else return ends

def forStatement : Nat → Nat → Read Unit
  | 0, _ => throw .nestedTooDeep
  | n + 1, start => do
    openBlock true
    advance
    let s ← name
    match ← token with
    | .mark "=" => countLoop n s start
    | .mark "," => eachLoop n s
    | .word "in" => eachLoop n s
    | _ => refuse "'=' or 'in' expected"
    expectClosing "end" "for" start
    closeBlock

def countLoop : Nat → String → Nat → Read Unit
  | 0, _, _ => throw .nestedTooDeep
  | n + 1, s, start => do
    let base := (← assembly).free
    let _ ← declare "(for state)"
    let _ ← declare "(for state)"
    let _ ← declare "(for state)"
    let _ ← declare s
    expect "="
    let _ ← placeNext (← expression n 0)
    expect ","
    let _ ← placeNext (← expression n 0)
    if ← accept "," then
      let _ ← placeNext (← expression n 0)
    else
      emit_ (.loadInteger (← assembly).free 1)
      reserve 1
    openVariables 3
    expect "do"
    let prepare ← emit (.prepareCount base 0)
    loopBody n 1
    let loop ← here
    setInstruction prepare (.prepareCount base (loop + 1))
    emit_ (.stepCount base (prepare + 1))
    fixLine start

def eachLoop : Nat → String → Read Unit
  | 0, _ => throw .nestedTooDeep
  | n + 1, s => do
    let base := (← assembly).free
    let _ ← declare "(for state)"
    let _ ← declare "(for state)"
    let _ ← declare "(for state)"
    let _ ← declare "(for state)"
    let _ ← declare s
    let count ← moreNames n 1
    expect "in"
    let start ← line
    let (values, e) ← expressions n
    adjust 4 values e
    openVariables 4
    markClosing
    checkSlots 3
    expect "do"
    let prepare ← emit (.prepareEach base 0)
    loopBody n count
    setInstruction prepare (.prepareEach base (← here))
    emit_ (.callEach base count)
    fixLine start
    emit_ (.stepEach base (prepare + 1))
    fixLine start

def moreNames : Nat → Nat → Read Nat
  | 0, _ => throw .nestedTooDeep
  | n + 1, count => do
    if ← accept "," then
      let _ ← declare (← name)
      moreNames n (count + 1)
    else return count

def loopBody : Nat → Nat → Read Unit
  | 0, _ => throw .nestedTooDeep
  | n + 1, count => do
    openBlock false
    openVariables count
    reserve count
    block n
    closeBlock

def functionStatement : Nat → Nat → Read Unit
  | 0, _ => throw .nestedTooDeep
  | n + 1, start => do
    advance
    let target ← functionName n (← variableNamed (← name))
    let isMethod ← isAt ":"
    let target ← if isMethod then fieldOf target else pure target
    let f ← functionBody n isMethod start
    checkAssignable target
    store target f
    fixLine start

def functionName : Nat → Expr → Read Expr
  | 0, _ => throw .nestedTooDeep
  | n + 1, e => do
    if ← isAt "." then functionName n (← fieldOf e) else return e

def localFunction : Nat → Read Unit
  | 0 => throw .nestedTooDeep
  | n + 1 => do
    let index := (← assembly).active
    let _ ← declare (← name)
    openVariables 1
    let _ ← functionBody n false (← line)
    modifyAssembly fun a =>
      match a.declared[index]? with
      | some v =>
        { a with locals := a.locals.modify v.entry fun l => { l with start := a.code.size } }
      | none => a

def variableKind : Read VariableKind := do
  if ← accept "<" then
    let s ← name
    expect ">"
    if s = "const" then return .constant
    else if s = "close" then return .closing
    else refuseFor ("unknown attribute '" ++ s ++ "'")
  else return .plain

def localNames : Nat → Nat → Option Nat → Read (Nat × Option Nat)
  | 0, _, _ => throw .nestedTooDeep
  | n + 1, count, closing => do
    let index ← declare (← name)
    let kind ← variableKind
    modifyAssembly fun a =>
      { a with declared := a.declared.modify index fun v => { v with kind } }
    let closing ← match kind with
      | .closing =>
        match closing with
        | some _ => refuseFor "multiple to-be-closed variables in local list"
        | none => do pure (some ((← assembly).active + count))
      | _ => pure closing
    if ← accept "," then localNames n (count + 1) closing else return (count + 1, closing)

def localStatement : Nat → Read Unit
  | 0 => throw .nestedTooDeep
  | n + 1 => do
    let (count, closing) ← localNames n 0 none
    let (values, e) ← if ← accept "=" then expressions n else pure (0, Expr.of .void)
    let a ← assembly
    let last := a.declared.size - 1
    let isConstant := match a.declared[last]?.map Variable.kind with
      | some .constant => true
      | _ => false
    match if isConstant && count = values then constantOf? e else none with
    | some value =>
      modifyAssembly fun a =>
        { a with declared := a.declared.modify last fun v => { v with kind := .folded value } }
      openVariables (count - 1)
      modifyAssembly fun a => { a with active := a.active + 1 }
    | none =>
      adjust count values e
      openVariables count
    match closing with
    | some index =>
      markClosing
      emit_ (.markClosing ((← assembly).slotLevel index))
    | none => pure ()

def constantOf? (e : Expr) : Option Constant :=
  if e.hasJumps then none
  else
    match e.shape with
    | .nil => some .nil
    | .true => some (.boolean true)
    | .false => some (.boolean false)
    | .integer i => some (.integer i)
    | .float x => some (.float x)
    | .text bytes => some (.text bytes)
    | .folded _ value => some value
    | _ => none

def returnStatement : Nat → Read Unit
  | 0 => throw .nestedTooDeep
  | n + 1 => do
    let a ← assembly
    let first := a.variableSlots
    let ends ← endsBlock true
    let semicolon ← isAt ";"
    if ends || semicolon then emit_ (.giveBack first (some 0) false)
    else
      let (count, e) ← expressions n
      if e.isOpen then
        setCount e none
        let insideClosing := ((← assembly).blocks.head?.map Block.insideClosing).getD false
        match e.shape with
        | .call pc =>
          if count = 1 && !insideClosing then
            match ← instructionAt pc with
            | .call r args _ => setInstruction pc (.tailCall r args false)
            | _ => pure ()
        | _ => pure ()
        emit_ (.giveBack first none false)
      else if count = 1 then
        let (r, _) ← placeSomewhere e
        emit_ (.giveBack r (some 1) false)
      else
        let _ ← placeNext e
        emit_ (.giveBack first (some count) false)
    let _ ← accept ";"

def expressionStatement : Nat → Read Unit
  | 0 => throw .nestedTooDeep
  | n + 1 => do
    let e ← suffixed n
    let assigns ← isAt "="
    let more ← isAt ","
    if assigns || more then
      let _ ← assignment n [e]
    else
      match e.shape with
      | .call _ => setCount e (some 0)
      | _ => refuse "syntax error"

def assignment : Nat → List Expr → Read (List Expr)
  | 0, _ => throw .nestedTooDeep
  | n + 1, targets => do
    let target := targets.head?.getD (.of .void)
    if !target.isVariable then refuse "syntax error"
    checkAssignable target
    let fromSlot (targets : List Expr) : Read (List Expr) := do
      store (targets.head?.getD (.of .void)) (.of (.slot ((← assembly).free - 1)))
      return targets
    if ← accept "," then
      let next ← suffixed n
      let targets ← if next.isIndexed then pure targets else keepTargets targets next
      enter
      let targets ← assignment n (next :: targets)
      leave
      fromSlot targets.tail
    else
      expect "="
      let (values, e) ← expressions n
      if values = targets.length then
        store target (← setOne e)
        return targets
      else
        adjust targets.length values e
        fromSlot targets

end

def environmentCapture : CaptureDraft := ⟨⟨environmentName, true, 0⟩, true⟩

def script (bound : Nat) : Read Routine := do
  openBlock false
  takeExtra 0
  modifyAssembly fun a => { a with captures := #[environmentCapture] }
  advance
  statements bound
  match ← token with
  | .finish => pure ()
  | _ => expected "<eof>".toList
  closeFunction

end Read

def ReadState.start (source : Source) (text : List Char) (depth : Nat) : ReadState where
  source
  size := text.length
  input := ⟨text, 1⟩
  token := .finish
  ahead := none
  lastLine := 1
  current := .start 0
  outer := []
  depth

def Routine.read (source : Source) (text : ByteArray) (depth : Nat) :
    Except ReadError Routine :=
  let chars := Text.byteChars text
  ((Read.script (20 * (chars.length + 10))).run (.start source chars depth)).map Prod.fst

end BuildVariants.Script
