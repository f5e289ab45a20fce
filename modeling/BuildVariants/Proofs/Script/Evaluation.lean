import BuildVariants.Declared.Decoding
import BuildVariants.Proofs.Script.Declarations

/-!
# What loading a script comes to

Seen from outside, a script is a sequence of calls of declaration functions. Loading it gives the
modules of the successful calls in their order. A failing call that nothing catches ends the script,
and then loading gives no module at all.
-/

set_option autoImplicit false

namespace BuildVariants.Script

variable {M T : Type}

def Frame.guard? (f : Frame) : Option Guard :=
  match f.work with
  | .builtin _ guard => guard
  | _ => none

namespace Machine

theorem guardedFrames_eq_none_iff (frames : List Frame) :
    guardedFrames frames = none ↔ ∀ f ∈ frames, f.guard? = none := by
  induction frames with
  | nil => simp [guardedFrames]
  | cons f rest ih =>
    unfold guardedFrames
    split
    case h_1 work => simp [Frame.guard?, work]
    case h_2 work =>
      have open_ : f.guard? = none := by
        unfold Frame.guard?
        split
        case h_1 resume guard own =>
          cases guard with
          | none => rfl
          | some g => exact absurd own (work resume g)
        case h_2 => rfl
      rw [ih, List.forall_mem_cons]
      exact ⟨fun h => ⟨open_, h⟩, And.right⟩

/-- Whether a failure would end the script without running anything more of it: no table waits for
a last call, and no function of the script shows texts. -/
def endsQuietly (m : Machine M) : Bool :=
  m.store.finalized.isEmpty && (m.store.metaEntry (.text .empty) "__tostring").isNil

/-- The script that a machine runs as the finite sequence of its calls of declaration functions.
There is none for a script that ends in another way than by coming to its end or by a failing call
that nothing catches. -/
def callSequence? [BuildModule M T] : Nat → Machine M → Option (List Declaration)
  | 0, _ => none
  | n + 1, m =>
    match m.declaration? with
    | some c =>
      if !c.caught && (m.registry.made c).isNone then
        if m.endsQuietly then some [c] else none
      else (callSequence? n m.step).map fun rest => c :: rest
    | none =>
      match m.control with
      | .halt .finished => some []
      | .halt _ => none
      | _ => callSequence? n m.step

/-! ### Failures that nothing catches -/

inductive Plain (s : Store) : Value → Prop
  | text (bytes : ByteArray) : Plain s (.text bytes)
  | failure (id : Nat) (message trace : ByteArray)
      (held : s.handles[id]? = some (.failure message trace)) : Plain s (.handle id)

structure Uncaught (m : Machine M) (error : Value) : Prop where
  main : m.thread = 0
  unguarded : ∀ f ∈ m.frames, f.guard? = none
  quiet : m.endsQuietly = true
  plain : Plain m.store error

/-- The way from a failing declaration to the end of the script. Its report can fail when too many
calls are nested, and then this is reported instead. -/
inductive Failing (m : Machine M) : Prop
  | raised (error : Value) (uncaught : m.Uncaught error) (control : m.control = .raise error)
  | reporting (error : Value) (slot : Nat) (uncaught : m.Uncaught error)
      (report : m.get slot = .builtin .report) (argument : m.get (slot + 1) = error)
      (control : m.control = .enter slot 1 .handled true)
  | reported (error : Value) (uncaught : m.Uncaught error) (frame : Frame) (below : List Frame)
      (frames : m.frames = frame :: below) (handled : frame.destination = .handled)
      (control : m.control = .reply (.done [error]))
  | unwinding (error : Value) (uncaught : m.Uncaught error) (control : m.control = .unwind error)
  | ending (error : Value) (control : m.control = .finalize [] (.failed error))
  | ended (error : Value) (control : m.control = .halt (.failed error))

/-- How many more steps such a machine takes at most. Each error in the report of another one is
raised one call deeper, or for the first time on a full stack. -/
def remaining (m : Machine M) : Nat :=
  match m.control with
  | .enter .. => 2 * (depthLimit + depthReserve - m.depth) + 5
  | .raise _ => 2 * (depthLimit + depthReserve - m.depth) + 4
  | .reply _ => 3
  | .unwind _ => 2
  | .finalize .. => 1
  | _ => 0

theorem exists_reach (m : Machine M) (size : Nat) :
    ∃ stack : Array Value, size ≤ stack.size ∧ m.reach size = { m with stack } := by
  unfold reach
  split
  case isTrue enough => exact ⟨m.stack, enough, rfl⟩
  case isFalse less => exact ⟨_, by simp; omega, rfl⟩

/-- Calling a function with one value puts both on the stack, unless too many calls are nested. -/
theorem invoke_cases (m : Machine M) (f v : Value) (destination : Destination) :
    (m.depth + 1 < depthLimit + depthReserve ∧
      ∃ stack : Array Value, stack.getD m.freeSlot .nil = f ∧ stack.getD (m.freeSlot + 1) .nil = v ∧
        m.invoke f [v] destination true =
          { m with
            stack, depth := m.depth + 1, control := .enter m.freeSlot 1 destination true }) ∨
    ∃ text : ByteArray,
      m.depth + 1 < depthLimit + depthReserve ∧ m.invoke f [v] destination true =
        { m with depth := m.depth + 1, control := .raise (.text text) } ∨
      m.invoke f [v] destination true =
        { m with depth := m.depth + 1, control := .unwind (.text text) } := by
  by_cases limit : m.depth + 1 = depthLimit
  · let deeper : Machine M := { m with depth := m.depth + 1 }
    refine Or.inr ⟨deeper.placeOf 0 ++ "C stack overflow".toUTF8, Or.inl ⟨by simp [limit, depthReserve], ?_⟩⟩
    simp only [invoke, invokeAt, limit, if_true]
    rfl
  by_cases beyond : depthLimit + depthReserve ≤ m.depth + 1
  · refine Or.inr ⟨"error in error handling".toUTF8, Or.inr ?_⟩
    simp only [invoke, invokeAt, limit, beyond, if_false, if_true]
    rfl
  obtain ⟨stack, enough, reached⟩ :=
    exists_reach ({ m with depth := m.depth + 1 } : Machine M) (m.freeSlot + 1 + 1)
  refine Or.inl ⟨by omega, (stack.setIfInBounds m.freeSlot f).setIfInBounds (m.freeSlot + 1) v, ?_, ?_, ?_⟩
  · have inside : m.freeSlot < stack.size := by omega
    simp [Array.getD_eq_getD_getElem?, inside]
  · have inside : m.freeSlot + 1 < stack.size := by omega
    simp [Array.getD_eq_getD_getElem?, inside]
  · simp only [invoke, invokeAt, limit, beyond, if_false, List.length_singleton, reached]
    rfl

theorem overflow_cases (m : Machine M) : ∃ text : ByteArray,
    m.overflow = { m with control := .unwind (.text text) } ∨
    m.overflow = { m with overflown := true, control := .raise (.text text) } := by
  by_cases again : m.overflown = true
  · exact ⟨_, Or.inl (if_pos again)⟩
  · exact ⟨_, Or.inr (if_neg again)⟩

theorem metaEntry_text {m : Machine M} (quiet : m.endsQuietly = true) (bytes : ByteArray) :
    m.store.metaEntry (.text bytes) "__tostring" = .nil := by
  have shown : (m.store.metaEntry (.text .empty) "__tostring").isNil = true := by
    rw [endsQuietly, Bool.and_eq_true] at quiet
    exact quiet.2
  have same : m.store.metaEntry (.text bytes) "__tostring" =
      m.store.metaEntry (.text .empty) "__tostring" := rfl
  rw [same]
  cases entry : m.store.metaEntry (.text .empty) "__tostring" <;> simp_all [Value.isNil]

/-- On the way of an error, the same one or another goes on. -/
theorem Uncaught.replaced {m m' : Machine M} {error other : Value} (uncaught : m.Uncaught error)
    (thread : m'.thread = m.thread) (store : m'.store = m.store)
    (unguarded : ∀ f ∈ m'.frames, f.guard? = none) (plain : Plain m.store other) :
    m'.Uncaught other where
  main := thread.trans uncaught.main
  unguarded := unguarded
  quiet := by
    have quiet := uncaught.quiet
    rwa [endsQuietly, ← store] at quiet
  plain := by rwa [store]

theorem Uncaught.report {m : Machine M} {error : Value} (uncaught : m.Uncaught error) :
    ∃ shown, Plain m.store shown ∧
      (Builtin.report.work [error]).toReply m.store = (.done [shown], m.store) := by
  cases uncaught.plain with
  | text bytes =>
    refine ⟨_, .text (Text.beforeNull bytes), ?_⟩
    simp only [Builtin.work, Builtin.uncaught, Native.arg, Nat.sub_self, List.getElem?_cons_zero,
      Option.getD_some, Native.shown, Native.toReply, bind, Native.bind, Native.look,
      metaEntry_text uncaught.quiet]
    rfl
  | failure id message trace held =>
    refine ⟨_, .failure id message trace held, ?_⟩
    simp only [Builtin.work, Builtin.uncaught, Native.arg, Nat.sub_self, List.getElem?_cons_zero,
      Option.getD_some, Native.toReply, bind, Native.bind, Native.look, held]
    rfl

theorem guards_noted {m : Machine M} (h : ∀ f ∈ m.frames, f.guard? = none) :
    ∀ f ∈ m.noted, f.guard? = none := by
  unfold noted
  split
  case h_1 f rest frames =>
    rw [frames, List.forall_mem_cons] at h
    exact List.forall_mem_cons.mpr h
  case h_2 => simp

theorem guards_waiting {m : Machine M} (resume : List Value → Reply)
    (h : ∀ f ∈ m.frames, f.guard? = none) : ∀ f ∈ (m.waiting resume).frames, f.guard? = none := by
  unfold waiting
  cases frames : m.frames with
  | nil => simp
  | cons f rest =>
    rw [frames, List.forall_mem_cons] at h
    exact List.forall_mem_cons.mpr ⟨rfl, h.2⟩

theorem guards_pop {m : Machine M} (h : ∀ f ∈ m.frames, f.guard? = none) :
    ∀ f ∈ m.pop.frames, f.guard? = none := by
  unfold pop
  split
  case h_1 f below rest frames =>
    rw [frames, List.forall_mem_cons] at h
    exact h.2
  case h_2 => simp

theorem Uncaught.handler? {m : Machine M} {error : Value} (uncaught : m.Uncaught error) :
    m.handler? = some (.builtin .report) := by
  simp only [Machine.handler?, uncaught.main, if_true]
  split
  case h_1 g rest guards =>
    exact absurd (guards.symm.trans (List.filterMap_eq_nil_iff.mpr uncaught.unguarded))
      (List.cons_ne_nil g rest)
  case h_2 => rfl

variable [BuildModule M T] {m : Machine M}

theorem step_raised {error : Value} (uncaught : m.Uncaught error)
    (control : m.control = .raise error) :
    m.step.Failing ∧ m.step.remaining < m.remaining := by
  have stepped : m.step = m.invoke (.builtin .report) [error] .handled true := by
    simp only [step, control, beginRaise, uncaught.handler?]
  have left : m.remaining = 2 * (depthLimit + depthReserve - m.depth) + 4 := by
    rw [remaining, control]
  rw [stepped, left]
  rcases m.invoke_cases (.builtin .report) error .handled with
    ⟨below, stack, report, argument, invoked⟩ | ⟨text, ⟨below, invoked⟩ | invoked⟩
  · rw [invoked]
    refine ⟨.reporting error m.freeSlot
      (uncaught.replaced rfl rfl uncaught.unguarded uncaught.plain) report argument rfl, ?_⟩
    simp only [remaining]
    omega
  · rw [invoked]
    refine ⟨.raised _ (uncaught.replaced rfl rfl uncaught.unguarded (.text text)) rfl, ?_⟩
    simp only [remaining]
    omega
  · rw [invoked]
    refine ⟨.unwinding _ (uncaught.replaced rfl rfl uncaught.unguarded (.text text)) rfl, ?_⟩
    simp only [remaining]
    omega

theorem step_reporting {error : Value} {slot : Nat} (uncaught : m.Uncaught error)
    (report : m.get slot = .builtin .report) (argument : m.get (slot + 1) = error)
    (control : m.control = .enter slot 1 .handled true) :
    m.step.Failing ∧ m.step.remaining < m.remaining := by
  have stepped : m.step = m.enter slot 1 .handled true := by simp only [step, control]
  have left : m.remaining = 2 * (depthLimit + depthReserve - m.depth) + 5 := by
    rw [remaining, control]
  obtain ⟨shown, shows, work⟩ := uncaught.report
  rw [stepped, left]
  by_cases room : m.fits (slot + 1 + 1) builtinSlots = true
  · have values : m.getAll (slot + 1) 1 = [error] := by simp [getAll, argument]
    obtain ⟨frame, open_, handled, entered⟩ :=
      enter_builtin report room (values ▸ work) .handled true
    have unguarded : ∀ f ∈ frame :: m.noted, f.guard? = none :=
      List.forall_mem_cons.mpr ⟨by simp [Frame.guard?, open_], guards_noted uncaught.unguarded⟩
    rw [entered]
    refine ⟨.reported shown (uncaught.replaced rfl rfl unguarded shows) frame m.noted rfl handled
      rfl, ?_⟩
    simp only [remaining]
    omega
  · -- Without room for the report, the overflow takes the place of the error.
    have full : m.enter slot 1 .handled true = m.overflow := by
      simp only [enter, report, enterBuiltin, room, Bool.false_eq_true, if_false]
    rw [full]
    obtain ⟨text, overflows | overflows⟩ := m.overflow_cases
    · rw [overflows]
      refine ⟨.unwinding _ (uncaught.replaced rfl rfl uncaught.unguarded (.text text)) rfl, ?_⟩
      simp only [remaining]
      omega
    · rw [overflows]
      refine ⟨.raised _ (uncaught.replaced rfl rfl uncaught.unguarded (.text text)) rfl, ?_⟩
      simp only [remaining]
      omega

theorem step_reported {error : Value} (uncaught : m.Uncaught error) {frame : Frame}
    {below : List Frame} (frames : m.frames = frame :: below) (handled : frame.destination = .handled)
    (control : m.control = .reply (.done [error])) :
    m.step.Failing ∧ m.step.remaining < m.remaining := by
  have stepped : m.step = { m.pop with control := .unwind error } := by
    simp only [step, control, reply, frames, handled]
    rfl
  have thread : m.pop.thread = m.thread := by
    rw [pop]
    split <;> rfl
  have store : m.pop.store = m.store := by
    rw [pop]
    split <;> rfl
  rw [stepped]
  exact ⟨.unwinding error
    (uncaught.replaced thread store (guards_pop uncaught.unguarded) uncaught.plain) rfl,
    by simp [remaining, control]⟩

theorem step_unwinding {error : Value} (uncaught : m.Uncaught error)
    (control : m.control = .unwind error) :
    m.step.Failing ∧ m.step.remaining < m.remaining := by
  have unguarded : guardedFrames m.frames = none :=
    (guardedFrames_eq_none_iff m.frames).mpr uncaught.unguarded
  have settled : m.store.finalized = [] := by
    have quiet := uncaught.quiet
    rw [endsQuietly, Bool.and_eq_true] at quiet
    exact List.isEmpty_iff.mp quiet.1
  have stepped : m.step = m.finish (.failed error) := by
    simp only [step, control, unwind, unguarded, uncaught.main, if_true]
  have next : m.step.control = .finalize [] (.failed error) := by
    simp only [stepped, finish, settled]
  exact ⟨.ending error next, by simp [remaining, control, next]⟩

theorem Failing.step (h : m.Failing) :
    m.step.Failing ∧ (m.step.remaining < m.remaining ∨ ∃ error, m.control = .halt (.failed error)) := by
  cases h with
  | raised error uncaught control => exact (step_raised uncaught control).imp_right .inl
  | reporting error slot uncaught report argument control =>
    exact (step_reporting uncaught report argument control).imp_right .inl
  | reported error uncaught frame below frames handled control =>
    exact (step_reported uncaught frames handled control).imp_right .inl
  | unwinding error uncaught control => exact (step_unwinding uncaught control).imp_right .inl
  | ending error control =>
    have next : m.step.control = .halt (.failed error) := by
      simp only [Machine.step, control, finalizeNext]
    exact ⟨.ended error next, .inl (by simp [remaining, control, next])⟩
  | ended error control =>
    rw [step_of_halt control]
    exact ⟨.ended error control, .inr ⟨error, control⟩⟩

/-- The way ends after so many steps at most. -/
theorem Failing.run (h : m.Failing) {n : Nat} (enough : m.remaining ≤ n) :
    ∃ error, (run n m).control = .halt (.failed error) := by
  induction n generalizing m with
  | zero =>
    obtain less | ended := h.step.2
    · omega
    · exact ended
  | succ n ih =>
    obtain ⟨failing, less | ⟨error, ended⟩⟩ := h.step
    · rw [run_succ]
      exact ih failing (by omega)
    · rw [run_of_halt _ ended]
      exact ⟨error, ended⟩

theorem Failing.declaration? (h : m.Failing) : m.declaration? = none := by
  cases h <;> simp [Machine.declaration?, asked?, *]

theorem Failing.declarations (h : m.Failing) (n : Nat) : declarations n m = [] := by
  induction n generalizing m with
  | zero => rfl
  | succ n ih =>
    rw [Machine.declarations, h.declaration?, ih h.step.1, Option.toList_none, List.nil_append]

/-- A failing call that nothing catches begins the way to the end of the script. -/
theorem failing_of_declaration {c : Declaration} (h : m.declaration? = some c)
    (open_ : c.caught = false) (made : m.registry.made c = none) (quiet : m.endsQuietly = true) :
    m.step.Failing := by
  obtain ⟨resume, reason, stepped⟩ := step_of_not_made h made
  obtain ⟨_, _, _, caught⟩ := declaration?_eq_some_iff.mp h
  have free : m.thread = 0 ∧ guardedFrames m.frames = none := by
    simpa [caught, catches] using open_
  have unguarded := guards_waiting resume ((guardedFrames_eq_none_iff m.frames).mp free.2)
  rw [stepped]
  refine .raised (.handle m.store.handles.size) ⟨free.1, unguarded, quiet, ?_⟩ rfl
  refine .failure _ reason.toUTF8 ((m.waiting resume).trace 0) ?_
  simp [raiseFailure, onStore, takeStore, Store.newHandle, waiting, raise]

/-! ### Runs -/

theorem declarations_of_halt {e : Ending} (n : Nat) (h : m.control = .halt e) :
    declarations n m = [] := by
  induction n with
  | zero => rfl
  | succ n ih =>
    have silent : m.declaration? = none := by simp [declaration?, asked?, h]
    rw [declarations, step_of_halt h, ih, silent, Option.toList_none, List.nil_append]

/-- The run of a script that is seen as a sequence of calls makes just these calls. It ends by
itself when no call has failed without being caught, and else with an error. -/
theorem run_of_callSequence {n : Nat} {calls : List Declaration}
    (h : callSequence? n m = some calls) :
    declarations n m = calls ∧
    ((∀ c ∈ calls, c.caught = false → (m.registry.made c).isSome) →
      (run n m).control = .halt .finished) ∧
    ((∃ c ∈ calls, c.caught = false ∧ m.registry.made c = none) →
      ∃ k error, (run k m).control = .halt (.failed error)) := by
  induction n generalizing m calls with
  | zero => cases h
  | succ n ih =>
    rw [callSequence?] at h
    rw [run_succ, declarations]
    cases asks : m.declaration? with
    | some c =>
      simp only [asks] at h
      split at h
      case isTrue fails =>
        simp only [Bool.and_eq_true, Bool.not_eq_true', Option.isNone_iff_eq_none] at fails
        split at h
        case isFalse => cases h
        case isTrue quiet =>
          obtain rfl := Option.some.inj h
          -- The sequence ends with this call, and so does what the run declares.
          have failing := failing_of_declaration asks fails.1 fails.2 quiet
          refine ⟨by rw [failing.declarations]; rfl, fun fine => ?_, fun _ => ?_⟩
          · simpa [fails.2] using fine c (by simp) fails.1
          · exact ⟨m.step.remaining + 1, by rw [run_succ]; exact failing.run (Nat.le_refl _)⟩
      case isFalse goes =>
        obtain ⟨rest, later, rfl⟩ := Option.map_eq_some_iff.mp h
        obtain ⟨same, ends, fails⟩ := ih later
        rw [registry_step] at ends fails
        refine ⟨by rw [same]; rfl, fun fine => ends fun d hd => fine d (by simp [hd]), ?_⟩
        rintro ⟨d, hd, open_, unmade⟩
        rcases List.mem_cons.mp hd with rfl | hd
        · simp [open_, unmade] at goes
        · obtain ⟨k, ended⟩ := fails ⟨d, hd, open_, unmade⟩
          exact ⟨k + 1, by rwa [run_succ]⟩
    | none =>
      simp only [asks] at h
      split at h
      case h_1 ended =>
        obtain rfl := Option.some.inj h
        rw [step_of_halt ended, run_of_halt n ended, declarations_of_halt n ended]
        exact ⟨rfl, fun _ => ended, by simp⟩
      case h_2 => cases h
      case h_3 =>
        obtain ⟨same, ends, fails⟩ := ih h
        rw [registry_step] at ends fails
        refine ⟨same, ends, fun failing => ?_⟩
        obtain ⟨k, ended⟩ := fails failing
        exact ⟨k + 1, by rwa [run_succ]⟩

theorem loaded?_run_of_le {n later : Nat} {loaded : Loaded M}
    (h : (run n m).loaded? = some loaded) (le : n ≤ later) : (run later m).loaded? = some loaded := by
  obtain ⟨k, rfl⟩ := Nat.exists_eq_add_of_le le
  have ended : ∃ e, (run n m).control = .halt e := by
    unfold loaded? at h
    split at h
    case h_4 => cases h
    all_goals exact ⟨_, ‹_›⟩
  obtain ⟨e, ended⟩ := ended
  rwa [run_add, run_of_halt k ended]

theorem answer_not_raised (m : Machine M) (values : List Value) (error : Value) :
    (m.answer values).control ≠ .raise error := by
  unfold answer
  split <;> simp

end Machine

/-! ### Loading -/

/-- What a call of a declaration function comes to with the factory of its type. -/
inductive Answered [BuildModule M T] (factory : Factory M) (c : Declaration)
    (m next : Machine M) : Prop
  | failed (reason : (∃ reason, factory c.store c.argument = .error reason) ∨
        ∃ x, factory c.store c.argument = .ok x ∧ BuildModule.name x = "")
      (raised : ∃ failure, next.control = .raise (.handle failure))
      (kept : next.declared = m.declared)
  | declared (x : M) (made : factory c.store c.argument = .ok x) (named : BuildModule.name x ≠ "")
      (added : next.declared = m.declared ++ [located c.location x])
      (fine : ∀ error, next.control ≠ .raise error)

def served [BuildModule M T] (registrations : List (String × Factory M)) (c : Declaration) :
    Option M :=
  (registrations.reverse.lookup c.typeName).bind c.made

section Load

variable [BuildModule M T] (registrations : List (String × Factory M))

theorem made_ofList : (Registry.ofList registrations).made = served registrations := by
  funext c
  rw [Registry.made, Registry.factory?_ofList, served]

variable {registrations}

theorem name_of_served
    (keeps : ∀ place (x : M), BuildModule.name (BuildModule.withLocation place x) = BuildModule.name x)
    {c : Declaration} {x : M} (h : served registrations c = some x) : BuildModule.name x ≠ "" := by
  obtain ⟨factory, _, made⟩ := Option.bind_eq_some_iff.mp h
  obtain ⟨m, _, named, rfl⟩ := Declaration.made_eq_some_iff.mp made
  cases place : c.location with
  | none => simpa [located] using named
  | some place => simpa [located, keeps] using named

theorem answered_of_factory {m : Machine M} {c : Declaration} {factory : Factory M}
    (asks : m.declaration? = some c) (serves : m.registry.factory? c.typeName = some factory) :
    Answered factory c m m.step := by
  have made : m.registry.made c = c.made factory := by rw [Registry.made, serves, Option.bind_some]
  cases outcome : c.made factory with
  | none =>
    obtain ⟨resume, reason, stepped⟩ := Machine.step_of_not_made asks (made.trans outcome)
    rw [stepped]
    exact .failed (Declaration.made_eq_none_iff.mp outcome) ⟨_, rfl⟩ rfl
  | some y =>
    obtain ⟨x, ran, named, rfl⟩ := Declaration.made_eq_some_iff.mp outcome
    refine .declared x ran named (Machine.declared_step_of_made asks (made.trans outcome)) ?_
    obtain ⟨resume, stepped⟩ := Machine.step_of_declaration asks
    rw [stepped, Registry.declare_of_made m.declared (made.trans outcome)]
    exact Machine.answer_not_raised _ []

def Loads (world : World) (registry : Registry M) (source : Source) (text : ByteArray)
    (loaded : Loaded M) : Prop :=
  ∃ steps, load world registry steps source text = some loaded

variable {world : World} {registry : Registry M} {source : Source} {text : ByteArray}

theorem load_of_unread (world : World) (registry : Registry M)
    (h : nullPosition? source.name ≠ none ∨ ∀ routine, Routine.read source text 0 ≠ .ok routine) :
    ∃ loaded e, loaded.modules = .error e ∧
      ∀ steps, load world registry steps source text = some loaded := by
  unfold load
  split
  case h_1 => exact ⟨_, _, rfl, fun _ => rfl⟩
  case h_2 named =>
    split
    case h_1 routine read => exact (h.resolve_left (fun bad => bad named) routine read).elim
    case h_2 => exact ⟨_, _, rfl, fun _ => rfl⟩
    case h_3 => exact ⟨_, _, rfl, fun _ => rfl⟩

theorem load_of_read {routine : Routine} (named : nullPosition? source.name = none)
    (read : Routine.read source text 0 = .ok routine) (steps : Nat) :
    load world registry steps source text =
      ((Machine.start world registry routine).run steps).loaded? := by
  simp only [load, named, read]

theorem load_of_le {steps later : Nat} {loaded : Loaded M}
    (h : load world registry steps source text = some loaded) (le : steps ≤ later) :
    load world registry later source text = some loaded := by
  by_cases unread : nullPosition? source.name ≠ none ∨
      ∀ routine, Routine.read source text 0 ≠ .ok routine
  · obtain ⟨other, _, _, all⟩ := load_of_unread world registry unread
    rwa [all] at h ⊢
  · have reads : nullPosition? source.name = none ∧
        ∃ routine, Routine.read source text 0 = .ok routine := by simpa using unread
    obtain ⟨named, routine, read⟩ := reads
    rw [load_of_read named read] at h ⊢
    exact Machine.loaded?_run_of_le h le

/-- More steps change nothing about a script that has ended. -/
theorem Loads.unique {loaded other : Loaded M} (h : Loads world registry source text loaded)
    (h' : Loads world registry source text other) : other = loaded := by
  obtain ⟨steps, ran⟩ := h
  obtain ⟨steps', ran'⟩ := h'
  have here := load_of_le ran (Nat.le_max_left steps steps')
  have there := load_of_le ran' (Nat.le_max_right steps steps')
  exact Option.some.inj (there.symm.trans here)

variable (registrations)

end Load

def suffixedFactory (suffix : String) : Factory DeclaredModule := fun s v =>
  (DeclaredModule.factory s v).map fun m => { m with name := m.name ++ suffix }

def fixedFactory (name : String) : Factory DeclaredModule := fun _ _ => .ok { name }

def failingFactory (reason : String) : Factory DeclaredModule := fun _ _ => .error reason

def mixedTypes : List (String × Factory DeclaredModule) :=
  [("alpha", fixedFactory "old"), ("beta", failingFactory "no"), ("gamma", suffixedFactory "!"),
    ("alpha", DeclaredModule.factory)]

def mixedSource : Source := ⟨.file, "mixed.lua".toUTF8⟩

def mixedScript : ByteArray :=
  ("alpha\x7bname='A'\x7d pcall(beta,\x7bname='B'\x7d)\n"
    ++ "gamma\x7bname='C'\x7d pcall(alpha,\x7bname=''\x7d) pcall(gamma,\x7bname='D'\x7d)").toUTF8

def stoppedScript : ByteArray :=
  "alpha\x7bname='A'\x7d\nbeta\x7bname='B'\x7d\nalpha\x7bname='C'\x7d".toUTF8

def mixedCalls? (script : ByteArray) :
    Option (List (String × Option String × Bool) × Bool × List DeclaredModule) :=
  (Routine.read mixedSource script 0).toOption.bind fun routine =>
    let start := Machine.start .sealed (Registry.ofList mixedTypes) routine
    (start.callSequence? 10000).map fun calls =>
      (calls.map fun c => (c.typeName, c.location, c.caught),
        calls.any fun c => !c.caught && (served mixedTypes c).isNone,
        calls.filterMap (served mixedTypes))

theorem exists_of_mixedCalls {script : ByteArray} {seen : List (String × Option String × Bool)}
    {stops : Bool} {modules : List DeclaredModule}
    (h : mixedCalls? script = some (seen, stops, modules)) :
    ∃ routine calls, Routine.read mixedSource script 0 = .ok routine ∧
      (Machine.start .sealed (Registry.ofList mixedTypes) routine).callSequence? 10000 = some calls ∧
      (calls.any fun c => !c.caught && (served mixedTypes c).isNone) = stops ∧
      calls.filterMap (served mixedTypes) = modules := by
  unfold mixedCalls? at h
  cases read : Routine.read mixedSource script 0 with
  | error e => simp [read, Except.toOption] at h
  | ok routine =>
    simp only [read, Except.toOption, Option.bind_some, Option.map_eq_some_iff, Prod.mk.injEq] at h
    obtain ⟨calls, sequence, _, stops, modules⟩ := h
    exact ⟨routine, calls, rfl, sequence, stops, modules⟩

theorem mixedCalls_mixed : mixedCalls? mixedScript = some (
    [("alpha", some "mixed.lua:1", false), ("beta", none, true), ("gamma", some "mixed.lua:2", false),
      ("alpha", none, true), ("gamma", none, true)],
    false,
    [{ name := "A", location := some "mixed.lua:1" }, { name := "C!", location := some "mixed.lua:2" },
      { name := "D!" }]) := by
  decide +kernel

theorem mixedCalls_stopped : mixedCalls? stoppedScript = some (
    [("alpha", some "mixed.lua:1", false), ("beta", some "mixed.lua:2", false)], true,
    [{ name := "A", location := some "mixed.lua:1" }]) := by
  decide +kernel

end BuildVariants.Script
