import BuildVariants.Script.Calling
import BuildVariants.Script.Reading

/-!
# Answers to builtins

What a builtin asks is answered by the machine: calls and protected calls, what coroutines do,
reading scripts, and declarations. A declaration that fails becomes a value that can be caught
like any other error.
-/

set_option autoImplicit false

namespace BuildVariants.Script

namespace Machine

variable {M T : Type}

/-! ### Coroutines -/

def canYield (m : Machine M) : Bool := m.thread ≠ 0 && !m.isFixed

def resume (m : Machine M) (id : Nat) (args : List Value) : Machine M :=
  let refuse (message : String) : Machine M := m.answer [.boolean false, .ofString message]
  match m.threads[id]?.map Thread.status with
  | some (.fresh f) =>
    if depthLimit ≤ m.depth then refuse "C stack overflow"
    else
      let depth := m.depth + 1
      let resumer := m.thread
      let m := (m.putAside .waiting).takeUp id
      let m := { m with
        depth := depth
        threads := m.threads.modify id fun t => { t with resumer }
        frames := [] }
      let m := (m.reach (2 + args.length)).putAll 1 (f :: args)
      { m with control := .enter 1 args.length .finished false }
  | some .suspended =>
    if depthLimit ≤ m.depth then refuse "C stack overflow"
    else
      let depth := m.depth + 1
      let resumer := m.thread
      let m := (m.putAside .waiting).takeUp id
      { m with
        depth := depth
        threads := m.threads.modify id fun t => { t with resumer }
        frames := m.frames.map fun f => { f with depth }
        control := .deliver args .answer }
  | some .finished => refuse "cannot resume dead coroutine"
  | some (.failed _) => refuse "cannot resume dead coroutine"
  | _ => refuse "cannot resume non-suspended coroutine"

def yield (m : Machine M) (values : List Value) : Machine M :=
  if m.canYield then m.leaveThread .suspended (.boolean true :: values)
  else
    m.raise (m.errorOf (.fault (.other
      (if m.thread = 0 then "attempt to yield from outside a coroutine"
        else "attempt to yield across a C-call boundary"))))

def endThread (m : Machine M) (id : Nat) : Machine M :=
  match m.threads[id]? with
  | some t =>
    let error? : Option Value := match t.status with
      | .failed e => some e
      | _ => none
    let depth := m.depth
    let resumer := m.thread
    let guard : Guard := ⟨none, 1, some error?⟩
    let frame : Frame :=
      { work := .builtin (fun values s => (.done values, s)) (some guard), slot := 0, top := 1
        pc := 0, extra := 0, destination := .ended, depth, fixed := true, replaced := false
        pending := none }
    let m := (m.putAside .waiting).takeUp id
    let m := ({ m with
      depth := depth
      threads := m.threads.modify id fun t => { t with resumer }
      frames := [frame] } : Machine M).closeCells 1
    { m with control := .closeNext }
  | none => m

def statusWord (m : Machine M) (id : Nat) : String :=
  if id = m.thread then "running"
  else
    match m.threads[id]?.map Thread.status with
    | some (.fresh _) => "suspended"
    | some .suspended => "suspended"
    | some .running => "running"
    | some .waiting => "normal"
    | _ => "dead"

/-! ### Reading -/

def read (m : Machine M) (source : Source) (text : ByteArray) (environment : Option Value) :
    Machine M :=
  match Routine.read source text m.depth with
  | .ok routine =>
    let environment := environment.getD (.table m.store.globals)
    let (cell, m) := m.onStore (Store.newCell (.alone environment))
    let (f, m) := m.onStore (Store.newClosure ⟨routine, #[cell]⟩)
    m.answer [f]
  | .error (.refused message) => m.answer [.nil, .text message]
  | .error .nestedTooDeep => m.answer [.nil, .ofString "C stack overflow"]

/-! ### Declarations -/

def raiseFailure (m : Machine M) (message : String) : Machine M :=
  let trace := m.trace 0
  let (failure, m) := m.onStore (Store.newHandle (.failure message.toUTF8 trace))
  m.raise failure

def declare [BuildModule M T] (m : Machine M) (typeName : String) (argument : Value) : Machine M :=
  match m.registry.declare typeName (m.locationOf? 1) m.store argument m.declared with
  | .ok declared => ({ m with declared } : Machine M).answer []
  | .error reason => m.raiseFailure reason

/-! ### Queries -/

def waiting (m : Machine M) (resume : List Value → Reply) : Machine M :=
  { m with frames := match m.frames with
      | f :: rest => { f with work := .builtin resume none } :: rest
      | [] => [] }

def respond [BuildModule M T] (m : Machine M) (q : Query) : Machine M :=
  match q with
  | .call f args => m.invoke f args .answer true
  | .protect f args handler =>
    (m.withGuard (some ⟨handler, m.freeSlot, none⟩)).invoke f args .guarded false
  | .yield values => m.yield values
  | .resume id args => m.resume id args
  | .endThread id => m.endThread id
  | .newThread f =>
    let id := m.threads.size
    ({ m with threads := m.threads.push ⟨.fresh f, #[], [], [], [], 0⟩ } : Machine M).answer
      [.thread id]
  | .running => m.answer [.thread m.thread, .boolean (m.thread = 0)]
  | .status id => m.answer [.ofString (m.statusWord id)]
  | .isYieldable none => m.answer [.boolean m.canYield]
  | .isYieldable (some id) =>
    m.answer [.boolean (if id = m.thread then m.canYield else
      id ≠ 0 && !((m.threads[id]?.bind fun t => t.frames.head?.map Frame.fixed).getD false))]
  | .read source text environment => m.read source text environment
  | .declare typeName argument => m.declare typeName argument
  | .refuse message => m.raiseFailure message
  | .exit code => { m with control := .halt (.exited code) }

def reply [BuildModule M T] (m : Machine M) (s : Step) : Machine M :=
  match s with
  | .done values =>
    match m.frames with
    | f :: _ => m.pop.deliver values f.destination
    | [] => m
  | .fail c => m.raise (m.errorOf c)
  | .ask q resume => (m.waiting resume).respond q

end Machine

end BuildVariants.Script
