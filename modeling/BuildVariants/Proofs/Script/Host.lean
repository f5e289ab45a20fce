import BuildVariants.Script.Loading

/-!
# What running leaves alone

A machine holds the registry and the declared modules on behalf of whoever loads the script.
Whatever an instruction, a call, an error or a coroutine does to the rest of the machine, these two
stay: only the answer to a declaration adds a module.
-/

set_option autoImplicit false

namespace BuildVariants.Script.Machine

variable {M T : Type}

def host (m : Machine M) : Registry M × List M := (m.registry, m.declared)

@[simp] theorem host_update (m : Machine M) (store : Store) (threads : Array Thread) (thread : Nat)
    (stack : Array Value) (frames : List Frame) (top : Nat) (opened : List (Nat × Nat))
    (closing : List Nat) (overflown : Bool) (pc depth : Nat) (control : Control) :
    host ⟨m.registry, m.declared, store, threads, thread, stack, frames, top, opened, closing,
      overflown, pc, depth, control⟩ = m.host := rfl

/-! ### Slots -/

@[simp] theorem host_onStore {α : Type} (m : Machine M) (f : Store → α × Store) :
    (m.onStore f).2.host = m.host := rfl

@[simp] theorem host_put (m : Machine M) (i : Nat) (v : Value) : (m.put i v).host = m.host := rfl

@[simp] theorem host_putAll (m : Machine M) (i : Nat) (values : List Value) :
    (m.putAll i values).host = m.host := by
  induction values generalizing m i with
  | nil => rfl
  | cons v rest ih => rw [putAll, ih, host_put]

@[simp] theorem host_clear (m : Machine M) (start count : Nat) :
    (m.clear start count).host = m.host := by
  rw [clear]
  induction count with
  | zero => rfl
  | succ n ih => rw [Nat.fold_succ, host_put, ih]

@[simp] theorem host_reach (m : Machine M) (size : Nat) : (m.reach size).host = m.host := by
  unfold reach
  split <;> simp

@[simp] theorem host_deliverTo (m : Machine M) (start : Nat) (wanted : Option Nat)
    (values : List Value) : (m.deliverTo start wanted values).host = m.host := by
  unfold deliverTo
  split <;> simp

/-! ### Raising errors -/

@[simp] theorem host_raise (m : Machine M) (error : Value) : (m.raise error).host = m.host := rfl

@[simp] theorem host_stop (m : Machine M) (message : String) : (m.stop message).host = m.host := rfl

@[simp] theorem host_stopFor (m : Machine M) (f : Fault) : (m.stopFor f).host = m.host := rfl

@[simp] theorem host_giveUp (m : Machine M) : m.giveUp.host = m.host := rfl

@[simp] theorem host_overflow (m : Machine M) : m.overflow.host = m.host := by
  unfold overflow
  split <;> simp

/-! ### Calls -/

@[simp] theorem host_pop (m : Machine M) : m.pop.host = m.host := by
  unfold pop
  split <;> simp

@[simp] theorem host_enterRoutine (m : Machine M) (slot args : Nat) (c : Closure)
    (destination : Destination) (fixed : Bool) :
    (m.enterRoutine slot args c destination fixed).host = m.host := by
  unfold enterRoutine
  simp only
  split <;> simp

@[simp] theorem host_enterBuiltin (m : Machine M) (slot args : Nat) (f : Builtin)
    (destination : Destination) (fixed : Bool) :
    (m.enterBuiltin slot args f destination fixed).host = m.host := by
  unfold enterBuiltin
  simp only
  split <;> simp

@[simp] theorem host_shiftIn (m : Machine M) (slot args : Nat) (h : Value) :
    (m.shiftIn slot args h).host = m.host := by
  simp [shiftIn]

@[simp] theorem host_enter (m : Machine M) (slot args : Nat) (destination : Destination)
    (fixed : Bool) : (m.enter slot args destination fixed).host = m.host := by
  unfold enter
  repeat' split
  all_goals simp

@[simp] theorem host_invokeAt (m : Machine M) (slot : Nat) (f : Value) (args : List Value)
    (destination : Destination) (fixed : Bool) :
    (m.invokeAt slot f args destination fixed).host = m.host := by
  unfold invokeAt
  simp only
  repeat' split
  all_goals simp

@[simp] theorem host_invoke (m : Machine M) (f : Value) (args : List Value)
    (destination : Destination) (fixed : Bool) :
    (m.invoke f args destination fixed).host = m.host :=
  host_invokeAt ..

@[simp] theorem host_replaceBy (m : Machine M) (f : Frame) (old : Routine) (slot args : Nat)
    (c : Closure) : (m.replaceBy f old slot args c).host = m.host := by
  unfold replaceBy
  simp only
  split <;> simp

@[simp] theorem host_replace (m : Machine M) (slot args : Nat) :
    (m.replace slot args).host = m.host := by
  unfold replace
  repeat' split
  all_goals simp

/-! ### Captured variables -/

@[simp] theorem host_cellOf (m : Machine M) (slot : Nat) : (m.cellOf slot).2.host = m.host := by
  unfold cellOf
  split <;> simp

@[simp] theorem host_closeCells (m : Machine M) (level : Nat) :
    (m.closeCells level).host = m.host := by
  unfold closeCells
  repeat' split
  all_goals simp

@[simp] theorem host_setCaptured (m : Machine M) (cell : Nat) (v : Value) :
    (m.setCaptured cell v).host = m.host := by
  unfold setCaptured
  repeat' split
  all_goals simp

/-! ### Coroutines and the end -/

@[simp] theorem host_putAside (m : Machine M) (status : Status) :
    (m.putAside status).host = m.host := rfl

@[simp] theorem host_takeUp (m : Machine M) (id : Nat) : (m.takeUp id).host = m.host := by
  unfold takeUp
  split <;> simp

@[simp] theorem host_leaveThread (m : Machine M) (status : Status) (values : List Value) :
    (m.leaveThread status values).host = m.host := by
  simp [leaveThread]

@[simp] theorem host_finish (m : Machine M) (e : Ending) : (m.finish e).host = m.host := by
  simp [finish]

@[simp] theorem host_finalizeNext (m : Machine M) (pending : List Nat) (e : Ending) :
    (m.finalizeNext pending e).host = m.host := by
  unfold finalizeNext
  repeat' split
  all_goals simp

/-! ### Results and errors -/

@[simp] theorem host_answer (m : Machine M) (values : List Value) :
    (m.answer values).host = m.host := by
  unfold answer
  split <;> simp

@[simp] theorem host_withGuard (m : Machine M) (guard : Option Guard) :
    (m.withGuard guard).host = m.host := rfl

@[simp] theorem host_deliver (m : Machine M) (values : List Value) (destination : Destination) :
    (m.deliver values destination).host = m.host := by
  unfold deliver
  simp only
  repeat' split
  all_goals simp

@[simp] theorem host_beginRaise (m : Machine M) (error : Value) :
    (m.beginRaise error).host = m.host := by
  unfold beginRaise
  split <;> simp

@[simp] theorem host_unwind (m : Machine M) (error : Value) : (m.unwind error).host = m.host := by
  unfold unwind
  repeat' split
  all_goals simp

@[simp] theorem host_closeNext (m : Machine M) : m.closeNext.host = m.host := by
  unfold closeNext
  repeat' split
  all_goals simp

/-! ### Answers to builtins -/

@[simp] theorem host_resume (m : Machine M) (id : Nat) (args : List Value) :
    (m.resume id args).host = m.host := by
  unfold resume
  simp only
  repeat' split
  all_goals simp

@[simp] theorem host_yield (m : Machine M) (values : List Value) :
    (m.yield values).host = m.host := by
  unfold yield
  split <;> simp

@[simp] theorem host_endThread (m : Machine M) (id : Nat) : (m.endThread id).host = m.host := by
  unfold endThread
  split <;> simp

@[simp] theorem host_read (m : Machine M) (source : Source) (text : ByteArray)
    (environment : Option Value) : (m.read source text environment).host = m.host := by
  unfold read
  split <;> simp

@[simp] theorem host_raiseFailure (m : Machine M) (message : String) :
    (m.raiseFailure message).host = m.host := rfl

@[simp] theorem host_waiting (m : Machine M) (resume : List Value → Reply) :
    (m.waiting resume).host = m.host := rfl

/-! ### Instructions -/

@[simp] theorem host_settle (m : Machine M) (slot : Nat) (o : Outcome) :
    (m.settle slot o).host = m.host := by
  unfold settle
  split <;> simp

@[simp] theorem host_settleTest (m : Machine M) (expected : Bool) (o : Outcome) :
    (m.settleTest expected o).host = m.host := by
  unfold settleTest
  repeat' split
  all_goals simp

@[simp] theorem host_getAt (m : Machine M) (slot : Nat) (v key : Value) :
    (m.getAt slot v key).host = m.host := by
  unfold getAt
  simp only
  split <;> simp

@[simp] theorem host_setAt (m : Machine M) (v key value : Value) :
    (m.setAt v key value).host = m.host := by
  unfold setAt
  simp only
  split <;> simp

@[simp] theorem host_newTable (m : Machine M) (slot items entries : Nat) :
    (m.newTable slot items entries).host = m.host := rfl

@[simp] theorem host_setItems (m : Machine M) (slot : Nat) (count : Option Nat) (done : Nat) :
    (m.setItems slot count done).host = m.host := by
  unfold setItems
  split <;> simp

@[simp] theorem host_concat (m : Machine M) (r : Routine) (base first fuel n : Nat) :
    (m.concat r base first fuel n).host = m.host := by
  induction fuel generalizing m n with
  | zero => rfl
  | succ fuel ih =>
    unfold concat
    simp only
    repeat' split
    all_goals simp [ih]

@[simp] theorem host_stopCounting (m : Machine M) (what : String) (v : Value) :
    (m.stopCounting what v).host = m.host := rfl

@[simp] theorem host_prepareCount (m : Machine M) (slot target : Nat) :
    (m.prepareCount slot target).host = m.host := by
  unfold prepareCount
  simp only
  repeat' split
  all_goals simp

@[simp] theorem host_stepCount (m : Machine M) (slot target : Nat) :
    (m.stepCount slot target).host = m.host := by
  unfold stepCount
  simp only
  repeat' split
  all_goals simp

@[simp] theorem host_markClosing (m : Machine M) (r : Routine) (base slot : Nat) :
    (m.markClosing r base slot).host = m.host := by
  unfold markClosing
  simp only
  repeat' split
  all_goals simp

theorem host_closeBefore {m next : Machine M} {level above : Nat} {pending : Option Nat}
    (h : m.closeBefore level above pending = some next) : next.host = m.host := by
  unfold closeBefore at h
  split at h
  · obtain rfl := Option.some.inj h
    simp
  · cases h

@[simp] theorem host_makeClosure (m : Machine M) (cells : Array Nat) (base slot : Nat)
    (inner : Routine) : (m.makeClosure cells base slot inner).host = m.host := by
  unfold makeClosure
  simp only [host_put, host_onStore]
  refine Array.foldl_induction (fun _ (acc : Array Nat × Machine M) => acc.2.host = m.host) rfl
    fun i acc kept => ?_
  split
  · simpa using kept
  · exact kept

@[simp] theorem host_prepareExtra (m : Machine M) (r : Routine) :
    (m.prepareExtra r).host = m.host := by
  unfold prepareExtra
  simp only
  repeat' split
  all_goals simp

@[simp] theorem host_loadExtra (m : Machine M) (slot : Nat) (count : Option Nat) :
    (m.loadExtra slot count).host = m.host := by
  unfold loadExtra
  simp only
  repeat' split
  all_goals simp

@[simp] theorem host_giveBack (m : Machine M) (base first : Nat) (count : Option Nat)
    (closes : Bool) : (m.giveBack base first count closes).host = m.host := by
  unfold giveBack
  split
  case h_2 => rfl
  simp only
  split
  case h_1 next closing =>
    split at closing
    · exact host_closeBefore closing
    · cases closing
  · split <;> simp

@[simp] theorem host_perform (m : Machine M) (r : Routine) (cells : Array Nat) (base : Nat)
    (i : Instruction) : (m.perform r cells base i).host = m.host := by
  cases i
  case close a =>
    cases closing : (m.closeCells (base + a)).closeBefore (base + a)
        (m.closeCells (base + a)).freeSlot none with
    | none => simp [perform, closing]
    | some next => simp [perform, closing, host_closeBefore closing]
  all_goals
    simp only [perform]
    repeat' split
    all_goals simp

@[simp] theorem host_execute (m : Machine M) : m.execute.host = m.host := by
  unfold execute
  repeat' split
  all_goals simp

end BuildVariants.Script.Machine
