import BuildVariants.Proofs.Declared.Decoding
import BuildVariants.Proofs.Script.Evaluation

/-!
# Accepted declarations

A running script declares a module by calling the function of the module type. The call is accepted
exactly when its argument is well formed, and then the module has the given values and the place of
the call. A call that an instruction makes is placed at the line of that instruction.
-/

set_option autoImplicit false

namespace BuildVariants

namespace Script

def Value.builtin? : Value → Option Builtin
  | .builtin f => some f
  | _ => none

/-- A call that an instruction makes and waits for: what is called with which values, the slot of
the function and the place of the instruction. -/
structure DirectCall where
  callee : Value
  args : List Value
  slot : Nat
  place : String

namespace Machine

variable {M T : Type}

def directCall? (m : Machine M) : Option DirectCall :=
  match m.control, m.frames with
  | .run, { work := .routine r _, slot, .. } :: _ =>
    match r.code[m.pc]? with
    | some (.call a count _) =>
      let callee := slot + 1 + a
      some
        { callee := m.get callee
          args := m.getAll (callee + 1) (count.getD (m.top - (callee + 1)))
          slot := callee
          place := r.source.location (r.lineAt m.pc) }
    | _ => none
  | _, _ => none

variable [BuildModule M T] {m : Machine M}

/-- A direct call of a declaration function asks for the declaration of its first argument at the
place of the call. -/
theorem step_directCall {c : DirectCall} {typeName : String} (h : m.directCall? = some c)
    (callee : c.callee = .builtin (.declare typeName))
    (room : m.fits (c.slot + 1 + c.args.length) builtinSlots = true) :
    m.step.asked? = some (typeName, c.args.head?.getD .nil) ∧ m.step.locationOf? 1 = some c.place ∧
      m.step.store = m.store ∧ m.step.host = m.host := by
  unfold directCall? at h
  split at h
  case h_2 => cases h
  case h_1 r cells slot _ _ _ _ _ _ _ _ rest control frames =>
    split at h
    case h_2 => cases h
    case h_1 a count results code =>
      obtain rfl := Option.some.inj h
      simp only [getAll, List.length_map, List.length_range] at room
      have stepped : m.step = ({ m with pc := m.pc + 1 } : Machine M).enter (slot + 1 + a)
          (count.getD (m.top - (slot + 1 + a + 1))) (.slots (slot + 1 + a) results) false := by
        simp only [step, control, execute, frames, code, perform]
      have work (args : List Value) : ((Builtin.declare typeName).work args).toReply m.store =
          (.ask (.declare typeName (args.head?.getD .nil)) fun values s => (.done values, s),
            m.store) := by
        cases args <;> rfl
      obtain ⟨frame, _, _, entered⟩ := enter_builtin (m := { m with pc := m.pc + 1 }) callee room
        (work _) (.slots (slot + 1 + a) results) false
      rw [stepped, entered]
      refine ⟨rfl, ?_, rfl, rfl⟩
      simp [locationOf?, routineAt?, pcOf, noted, frames]

end Machine

end Script

namespace DeclaredModule

open Script

/-- What a call of the declaration function comes to: it is accepted exactly when its argument is
well formed and does not hold itself. -/
structure Judged (before after : Machine DeclaredModule) (argument : Value)
    (place : Option String) : Prop where
  accepted : WellFormed before.store argument → ¬ HoldsItself before.store argument →
    ∃ m, Describes before.store argument m ∧ m.name ≠ "" ∧ m.location = place ∧
      after.declared = before.declared ++ [m] ∧ ∀ error, after.control ≠ .raise error
  refused : ¬ (WellFormed before.store argument ∧ ¬ HoldsItself before.store argument) →
    after.declared = before.declared ∧ ∃ failure, after.control = .raise (.handle failure)

theorem describes_located {s : Store} {v : Value} {m : DeclaredModule} (h : Describes s v m)
    (place : Option String) : Describes s v (located place m) := by
  cases place <;> exact h

theorem factory_eq_ok_iff {s : Store} {v : Value} {m : DeclaredModule} :
    factory s v = .ok m ↔ decode (s.datum depth [] v) = .ok m :=
  mapError_eq_ok_iff

section Judged

variable {m : Machine DeclaredModule}

theorem judged_of_asked {argument : Value}
    (registered : m.registry.factory? moduleType = some factory)
    (asks : m.asked? = some (moduleType, argument)) (distinct : KeysDistinct m.store argument) :
    Judged m m.step argument (m.locationOf? 1) := by
  let c : Declaration :=
    { typeName := moduleType, location := m.locationOf? 1
      store := m.store, argument, caught := m.catches }
  have call : m.declaration? = some c :=
    Machine.declaration?_eq_some_iff.mpr ⟨asks, rfl, rfl, rfl⟩
  have answered : Answered factory c m m.step := answered_of_factory call registered
  constructor
  · intro wf apart
    obtain ⟨x, decoded, named⟩ := decode_of_wellFormed distinct wf apart
    cases answered with
    | failed reason raised kept =>
      rcases reason with ⟨reason, failed⟩ | ⟨y, made, unnamed⟩
      · cases failed.symm.trans (factory_eq_ok_iff.mpr decoded)
      · cases made.symm.trans (factory_eq_ok_iff.mpr decoded)
        exact absurd unnamed named
    | declared y made _ added fine =>
      cases made.symm.trans (factory_eq_ok_iff.mpr decoded)
      obtain ⟨_, _, describes, nowhere⟩ := wellFormed_of_decode decoded named
      refine ⟨located c.location x, describes_located describes _, ?_, ?_, added, fine⟩
      · cases place : c.location <;> exact named
      · cases place : c.location with
        | none => exact nowhere.trans place.symm
        | some place' => exact place.symm
  · intro ill
    cases answered with
    | failed _ raised kept => exact ⟨kept, raised⟩
    | declared x made named _ _ =>
      obtain ⟨wf, apart, _⟩ := wellFormed_of_decode (factory_eq_ok_iff.mp made) named
      exact absurd ⟨wf, apart⟩ ill

end Judged

def firstState? (p : Machine DeclaredModule → Bool) : Nat → Machine DeclaredModule →
    Option (Machine DeclaredModule)
  | 0, _ => none
  | n + 1, m => if p m then some m else firstState? p n m.step

def reached? (p : Machine DeclaredModule → Bool) (script : ByteArray) :
    Option (Machine DeclaredModule) :=
  (Routine.read ⟨.file, "modules.lua".toUTF8⟩ script 0).toOption.bind fun routine =>
    firstState? p 10000 (Machine.start .sealed moduleTypes routine)

theorem of_firstState? {p : Machine DeclaredModule → Bool} {n : Nat}
    {start m : Machine DeclaredModule} (h : firstState? p n start = some m) : p m = true ∧ m.registry = start.registry := by
  induction n generalizing start with
  | zero => cases h
  | succ n ih =>
    rw [firstState?] at h
    split at h
    case isTrue holds =>
      cases h
      exact ⟨holds, rfl⟩
    case isFalse =>
      obtain ⟨holds, same⟩ := ih h
      exact ⟨holds, same.trans start.registry_step⟩

theorem of_reached? {p : Machine DeclaredModule → Bool} {script : ByteArray}
    {m : Machine DeclaredModule} (h : reached? p script = some m) :
    p m = true ∧ m.registry.factory? moduleType = some factory := by
  obtain ⟨routine, _, found⟩ := Option.bind_eq_some_iff.mp h
  obtain ⟨holds, same⟩ := of_firstState? found
  rw [same]
  exact ⟨holds, rfl⟩

def declaresDirectly (x : DeclaredModule) (m : Machine DeclaredModule) : Bool :=
  m.directCall?.any fun c =>
    c.callee.builtin? = some (.declare moduleType) ∧
      m.fits (c.slot + 1 + c.args.length) Machine.builtinSlots ∧
      KeysDistinct m.store (c.args.head?.getD .nil) ∧ WellFormed m.store (c.args.head?.getD .nil) ∧
      ¬ HoldsItself m.store (c.args.head?.getD .nil) ∧ c.place = "modules.lua:2" ∧
      m.step.step.declared = m.declared ++ [x]

def faithfulScript : ByteArray :=
  ("local t = \x7bname='A', deps=\x7b'B','C'\x7d, incoming='', "
    ++ "post_transition_deps=\x7b'D:x'\x7d\x7d\ntransition_module(t)").toUTF8

def faithfulModule : DeclaredModule where
  name := "A"
  deps := ["B", "C"]
  incoming := some ""
  postTransitionDeps := [⟨"D", some "x"⟩]
  location := some "modules.lua:2"

theorem reached_faithful : (reached? (declaresDirectly faithfulModule) faithfulScript).isSome := by
  decide +kernel

def asksCircular (m : Machine DeclaredModule) : Bool :=
  m.asked?.any fun asked =>
    asked.1 = moduleType ∧ KeysDistinct m.store asked.2 ∧ WellFormed m.store asked.2 ∧
      HoldsItself m.store asked.2

def circularScript : ByteArray :=
  "local t = \x7bname='A'\x7d t.deps = t transition_module(t)".toUTF8

theorem reached_circular : (reached? asksCircular circularScript).isSome := by
  decide +kernel

end DeclaredModule

end BuildVariants
