import BuildVariants.Proofs.Script.Host
import Mathlib.Data.List.Induction

/-!
# Declarations of a run

A script declares modules by calling the functions of the registered types. What a machine has
declared is what the factories made of these calls, in the order of the calls. A call that fails
raises an error and adds nothing.
-/

set_option autoImplicit false

namespace BuildVariants.Script

variable {M T : Type}

structure Declaration where
  typeName : String
  location : Option String
  store : Store
  argument : Value
  caught : Bool

def located [BuildModule M T] (location : Option String) (m : M) : M :=
  location.elim m fun place => BuildModule.withLocation place m

def Declaration.made [BuildModule M T] (c : Declaration) (factory : Factory M) : Option M :=
  match factory c.store c.argument with
  | .ok m => if BuildModule.name m = "" then none else some (located c.location m)
  | .error _ => none

namespace Declaration

variable [BuildModule M T] {c : Declaration} {factory : Factory M}

theorem made_eq_some_iff {x : M} : c.made factory = some x ↔
    ∃ m, factory c.store c.argument = .ok m ∧ BuildModule.name m ≠ "" ∧ x = located c.location m := by
  unfold made
  cases factory c.store c.argument with
  | error reason => simp
  | ok m => by_cases unnamed : BuildModule.name m = "" <;> simp [unnamed, eq_comm (b := x)]

theorem made_eq_none_iff : c.made factory = none ↔
    (∃ reason, factory c.store c.argument = .error reason) ∨
      ∃ m, factory c.store c.argument = .ok m ∧ BuildModule.name m = "" := by
  unfold made
  cases factory c.store c.argument with
  | error reason => simp
  | ok m => by_cases unnamed : BuildModule.name m = "" <;> simp [unnamed]

end Declaration

namespace Registry

def ofList (registrations : List (String × Factory M)) : Registry M :=
  registrations.foldl (fun r entry => r.register entry.1 entry.2) empty

theorem lookup_filter_ne {α : Type} (entries : List (String × α)) (typeName other : String) :
    (entries.filter fun e => e.1 ≠ typeName).lookup other =
      if other = typeName then none else entries.lookup other := by
  induction entries with
  | nil => simp
  | cons e rest ih => grind

theorem factory?_register (r : Registry M) (typeName other : String) (factory : Factory M) :
    (r.register typeName factory).factory? other =
      if other = typeName then some factory else r.factory? other := by
  rw [factory?, register, List.lookup_append, lookup_filter_ne, factory?]
  by_cases same : other = typeName
  · simp [same]
  · rw [List.lookup_cons, if_neg same, beq_eq_false_iff_ne.mpr same]
    simp [same]

/-- A type is served by the factory that was registered last under its name. -/
theorem factory?_ofList (registrations : List (String × Factory M)) (typeName : String) :
    (ofList registrations).factory? typeName = registrations.reverse.lookup typeName := by
  induction registrations using List.reverseRecOn with
  | nil => rfl
  | append_singleton earlier last ih =>
    rw [ofList, List.foldl_append, ← ofList, List.foldl_cons, List.foldl_nil, factory?_register, ih,
      List.reverse_concat]
    grind

def made [BuildModule M T] (r : Registry M) (c : Declaration) : Option M :=
  (r.factory? c.typeName).bind c.made

variable [BuildModule M T] {r : Registry M} {c : Declaration} (declared : List M)

theorem declare_of_made {x : M} (h : r.made c = some x) :
    r.declare c.typeName c.location c.store c.argument declared = .ok (declared ++ [x]) := by
  obtain ⟨factory, served, fits⟩ := Option.bind_eq_some_iff.mp h
  obtain ⟨m, ran, named, rfl⟩ := Declaration.made_eq_some_iff.mp fits
  cases place : c.location <;> simp [declare, served, build, ran, named, located, Except.map]

theorem declare_of_not_made (h : r.made c = none) :
    ∃ reason, r.declare c.typeName c.location c.store c.argument declared = .error reason := by
  cases served : r.factory? c.typeName with
  | none => simp [declare, served]
  | some factory =>
    rw [made, served, Option.bind_some, Declaration.made_eq_none_iff] at h
    obtain ⟨reason, ran⟩ | ⟨m, ran, unnamed⟩ := h
    · simp [declare, served, build, ran, Except.map]
    · simp [declare, served, build, ran, unnamed, Except.map]

end Registry

namespace Machine

def asked? (m : Machine M) : Option (String × Value) :=
  match m.control with
  | .reply (.ask (.declare typeName argument) _) => some (typeName, argument)
  | _ => none

/-- Whether something catches an error that is raised now: a protected call, or whoever has resumed
the coroutine. -/
def catches (m : Machine M) : Bool := m.thread ≠ 0 || (guardedFrames m.frames).isSome

def declaration? (m : Machine M) : Option Declaration :=
  m.asked?.map fun (typeName, argument) =>
    { typeName, location := m.locationOf? 1, store := m.store, argument, caught := m.catches }

def declarations [BuildModule M T] : Nat → Machine M → List Declaration
  | 0, _ => []
  | n + 1, m => m.declaration?.toList ++ declarations n m.step

theorem control_of_asked {m : Machine M} {typeName : String} {argument : Value}
    (h : m.asked? = some (typeName, argument)) :
    ∃ resume, m.control = .reply (.ask (.declare typeName argument) resume) := by
  unfold asked? at h
  split at h
  case h_1 resume asks =>
    cases h
    exact ⟨resume, asks⟩
  case h_2 => cases h

theorem declaration?_eq_some_iff {m : Machine M} {c : Declaration} :
    m.declaration? = some c ↔ m.asked? = some (c.typeName, c.argument) ∧
      c.location = m.locationOf? 1 ∧ c.store = m.store ∧ c.caught = m.catches := by
  unfold declaration?
  rw [Option.map_eq_some_iff]
  constructor
  · rintro ⟨⟨typeName, argument⟩, asks, rfl⟩
    exact ⟨asks, rfl, rfl, rfl⟩
  · rintro ⟨asks, place, store, caught⟩
    refine ⟨(c.typeName, c.argument), asks, ?_⟩
    simp only [← place, ← store, ← caught]

theorem locationOf?_waiting (m : Machine M) (resume : List Value → Reply) :
    (m.waiting resume).locationOf? 1 = m.locationOf? 1 := by
  cases frames : m.frames <;> simp [waiting, locationOf?, routineAt?, pcOf, frames]

variable [BuildModule M T] {m : Machine M}

theorem host_respond (q : Query) (other : ∀ typeName argument, q ≠ .declare typeName argument) :
    (m.respond q).host = m.host := by
  cases q
  case declare typeName argument => exact absurd rfl (other typeName argument)
  case isYieldable thread => cases thread <;> simp [respond]
  all_goals simp [respond]

theorem enter_builtin {slot args : Nat} {f : Builtin} {begun : Step} {store : Store}
    (callee : m.get slot = .builtin f) (room : m.fits (slot + 1 + args) builtinSlots = true)
    (work : (f.work (m.getAll (slot + 1) args)).toReply m.store = (begun, store))
    (destination : Destination) (fixed : Bool) :
    ∃ frame : Frame, frame.work = .builtin (fun values s => (.done values, s)) none ∧
      frame.destination = destination ∧ m.enter slot args destination fixed =
        { m with store, frames := frame :: m.noted, pc := 0, control := .reply begun } := by
  let frame : Frame :=
    { work := .builtin (fun values s => (.done values, s)) none, slot, top := slot + 1 + args
      pc := 0, extra := args, destination, depth := m.depth, fixed := fixed || m.isFixed, replaced := false
      pending := none }
  refine ⟨frame, rfl, rfl, ?_⟩
  simp only [enter, callee, enterBuiltin, room, if_true, onStore, takeStore, work]
  rfl

/-- Every step but the answer to a declaration leaves the host's part alone. -/
theorem host_step (h : m.declaration? = none) : m.step.host = m.host := by
  have silent : m.asked? = none := by simpa [declaration?] using h
  unfold step
  split
  case h_4 s asks =>
    -- Only a reply that asks for a declaration is answered from the registry.
    cases s with
    | ask q resume =>
      rw [reply, host_respond, host_waiting]
      rintro typeName argument rfl
      simp [asked?, asks] at silent
    | done values =>
      simp only [reply]
      split <;> simp
    | fail c => simp [reply]
  all_goals simp

section Call

variable {c : Declaration}

theorem step_of_declaration (h : m.declaration? = some c) :
    ∃ resume, m.step =
      match m.registry.declare c.typeName c.location c.store c.argument m.declared with
      | .ok declared => ({ m.waiting resume with declared } : Machine M).answer []
      | .error reason => (m.waiting resume).raiseFailure reason := by
  obtain ⟨asks, place, store, _⟩ := declaration?_eq_some_iff.mp h
  obtain ⟨resume, control⟩ := control_of_asked asks
  refine ⟨resume, ?_⟩
  rw [place, store, ← m.locationOf?_waiting resume]
  simp only [step, control, reply, respond, declare]
  rfl

theorem registry_step (m : Machine M) : m.step.registry = m.registry := by
  cases h : m.declaration? with
  | none => exact congrArg Prod.fst (host_step h)
  | some c =>
    obtain ⟨resume, stepped⟩ := step_of_declaration h
    rw [stepped]
    split
    · rename_i declared _
      exact congrArg Prod.fst (host_answer ({ m.waiting resume with declared } : Machine M) [])
    · rfl

theorem declared_step_of_made {x : M} (h : m.declaration? = some c)
    (made : m.registry.made c = some x) : m.step.declared = m.declared ++ [x] := by
  obtain ⟨resume, stepped⟩ := step_of_declaration h
  rw [stepped, Registry.declare_of_made m.declared made]
  let added : Machine M := { m.waiting resume with declared := m.declared ++ [x] }
  exact congrArg Prod.snd (host_answer added [])

/-- A call that makes none raises an error and leaves what is declared as it is. -/
theorem step_of_not_made (h : m.declaration? = some c) (made : m.registry.made c = none) :
    ∃ resume reason, m.step = (m.waiting resume).raiseFailure reason := by
  obtain ⟨resume, stepped⟩ := step_of_declaration h
  obtain ⟨reason, refused⟩ := Registry.declare_of_not_made m.declared made
  rw [refused] at stepped
  exact ⟨resume, reason, stepped⟩

end Call

/-- What a step adds is what the factory makes of its call, if it answers one. -/
theorem declared_step (m : Machine M) :
    m.step.declared = m.declared ++ m.declaration?.toList.filterMap m.registry.made := by
  cases h : m.declaration? with
  | none =>
    have kept : m.step.declared = m.declared := congrArg Prod.snd (host_step h)
    simpa using kept
  | some c =>
    cases made : m.registry.made c with
    | none =>
      obtain ⟨resume, reason, stepped⟩ := step_of_not_made h made
      simp only [stepped, Option.toList_some, List.filterMap_cons, made, List.filterMap_nil,
        List.append_nil]
      rfl
    | some x => simpa [made] using declared_step_of_made h made

theorem step_of_halt {e : Ending} (h : m.control = .halt e) : m.step = m := by
  simp [step, h]

theorem run_of_halt {e : Ending} (n : Nat) (h : m.control = .halt e) : run n m = m := by
  cases n <;> simp [run, h]

theorem run_succ (n : Nat) (m : Machine M) : run (n + 1) m = run n m.step := by
  cases h : m.control
  case halt e => rw [step_of_halt h, run_of_halt _ h, run_of_halt _ h]
  all_goals simp [run, h]

theorem run_succ_eq_step (n : Nat) (m : Machine M) : run (n + 1) m = (run n m).step := by
  induction n generalizing m with
  | zero => exact run_succ 0 m
  | succ n ih => rw [run_succ, ih, run_succ]

theorem run_add (n k : Nat) (m : Machine M) : run (n + k) m = run k (run n m) := by
  induction n generalizing m with
  | zero => rw [Nat.zero_add, run]
  | succ n ih => rw [Nat.succ_add, run_succ, ih, run_succ]

theorem registry_run (n : Nat) (m : Machine M) : (run n m).registry = m.registry := by
  induction n generalizing m with
  | zero => rfl
  | succ n ih => rw [run_succ, ih, registry_step]

/-- At any time the declared modules are those of the successful calls so far, in order. -/
theorem declared_run (n : Nat) (m : Machine M) :
    (run n m).declared = m.declared ++ (declarations n m).filterMap m.registry.made := by
  induction n generalizing m with
  | zero => simp [run, declarations]
  | succ n ih =>
    rw [run_succ, ih, declared_step, registry_step, declarations, List.filterMap_append,
      List.append_assoc]

end Machine

end BuildVariants.Script
