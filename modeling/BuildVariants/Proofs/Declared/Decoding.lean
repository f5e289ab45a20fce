import BuildVariants.Declared.Decoding
import BuildVariants.Script.Answering
import BuildVariants.Proofs.Declared.WellFormed
import BuildVariants.Proofs.Failure
import BuildVariants.Proofs.Text.Lossy

/-!
# Decoding well-formed declarations

Decoding sees the datum of a value and not the value. It accepts exactly the well-formed tables, up
to one that holds itself, and the module that it gives has exactly the values of the table.
-/

set_option autoImplicit false

namespace BuildVariants

namespace DeclaredModule

open Script

/-! ### Data of values -/

section Datum

variable (s : Store) (depth : Nat) (path : List Nat)

theorem datum_table {id : Nat} (outside : id ∉ path) : s.datum (depth + 1) path (.table id) =
    .table ((s.table id).entries.map fun e =>
      (s.datum depth (id :: path) e.1, s.datum depth (id :: path) e.2)) (s.table id).length := by
  conv_lhs => unfold Store.datum
  simp [outside]

theorem datum_handle (id : Nat) : s.datum depth path (.handle id) = .failure ∨
    s.datum depth path (.handle id) = .userdata := by
  unfold Store.datum
  split <;> simp

theorem datum_table_zero {id : Nat} (outside : id ∉ path) :
    s.datum 0 path (.table id) = .table [] (s.table id).length := by
  unfold Store.datum
  simp [outside]

theorem datum_table_recursive {id : Nat} (inside : id ∈ path) :
    s.datum depth path (.table id) = .recursive := by
  unfold Store.datum
  simp [inside]

theorem datum_nil_iff {v : Value} : s.datum depth path v = .nil ↔ v = .nil := by
  cases v
  case table id =>
    by_cases inside : id ∈ path
    · simp [datum_table_recursive s depth path inside]
    · cases depth <;> simp [datum_table_zero s path inside, datum_table s _ path inside]
  case handle id =>
    rcases datum_handle s depth path id with same | same <;> simp [same]
  all_goals simp [Store.datum]

theorem decodeText_datum {v : Value} {t : String} :
    decodeText (s.datum depth path v) = .ok t ↔ v.string? = some t := by
  cases v
  case text bytes =>
    simp only [Store.datum, decodeText, Value.string?]
    cases Text.decode? bytes <;> simp
  case table id =>
    unfold Store.datum
    split
    · simp [decodeText, Value.string?]
    · cases depth <;> simp [decodeText, Value.string?]
  case handle id =>
    rcases datum_handle s depth path id with same | same <;> simp [same, decodeText, Value.string?]
  all_goals simp [Store.datum, decodeText, Value.string?]

theorem datum_isRecursive_iff {v : Value} :
    (s.datum depth path v).isRecursive = true ↔ ∃ id ∈ path, v.table? = some id := by
  cases v
  case table id =>
    unfold Store.datum
    split
    case isTrue inside => simpa [Datum.isRecursive, Value.table?] using inside
    case isFalse outside =>
      cases depth <;> simpa [Datum.isRecursive, Value.table?] using outside
  case handle id =>
    rcases datum_handle s depth path id with same | same <;>
      simp [same, Datum.isRecursive, Value.table?]
  all_goals simp [Store.datum, Datum.isRecursive, Value.table?]

theorem at?_datum (t : Table) (n : Nat) :
    Datum.at? (t.entries.map fun e => (s.datum depth path e.1, s.datum depth path e.2)) (.ofNat n) =
      (t.item? n).map (s.datum depth path) := by
  rw [Datum.at?, Table.item?, List.find?_map, Option.map_map, Option.map_map]
  refine congrArg (Option.map (s.datum depth path ∘ Prod.snd))
    (congrArg (fun p => t.entries.find? p) (funext fun e => ?_))
  obtain ⟨key, v⟩ := e
  rw [Function.comp_apply]
  cases key
  case table id =>
    by_cases inside : id ∈ path
    · simp only [datum_table_recursive s depth path inside]
    · cases depth with
      | zero => simp only [datum_table_zero s path inside]
      | succ depth => simp only [datum_table s depth path inside]
  case handle id =>
    rcases datum_handle s depth path id with same | same <;> simp only [same]
  all_goals simp only [Store.datum]

theorem decodeEnding_item {α : Type} {item : Datum → Except DecodeError α}
    {parse : String → Option α}
    (reads : ∀ v x, item (s.datum depth path v) = .ok x ↔ v.string?.bind parse = some x)
    (v : Option Value) (x : α) :
    decodeEnding item ((v.map (s.datum depth path)).getD .nil) = .ok x ↔
      (v.bind Value.string?).bind parse = some x := by
  cases v with
  | none =>
    have missing := reads .nil x
    simp only [Store.datum, Value.string?] at missing
    simpa [decodeEnding, Datum.isRecursive] using missing
  | some v =>
    rw [Option.map_some, Option.getD_some, Option.bind_some, decodeEnding, ← reads]
    split
    case isFalse => rfl
    case isTrue recursive =>
      obtain ⟨id, _, isTable⟩ := (datum_isRecursive_iff s depth path).mp recursive
      have noText : v.string? = none := by cases v <;> simp_all [Value.table?, Value.string?]
      simp [reads, noText]

theorem decodeList_datum {α : Type} {item : Datum → Except DecodeError α}
    {parse : String → Option α}
    (reads : ∀ path v x, item (s.datum depth path v) = .ok x ↔ v.string?.bind parse = some x)
    {v : Value} {xs : List α} :
    decodeList item (s.datum (depth + 1) path v) = .ok xs ↔
      ReadsItems s v parse xs ∧ ∀ l ∈ v.table?, l ∉ path := by
  cases v
  case table l =>
    by_cases inside : l ∈ path
    · simp [datum_table_recursive s (depth + 1) path inside, decodeList, Value.table?, inside]
    · rw [datum_table s depth path inside, decodeList, mapM_eq_ok_iff, Datum.items,
        List.forall₂_map_left_iff, List.forall₂_iff_get]
      simp only [at?_datum, decodeEnding_item s depth (l :: path) (reads (l :: path))]
      simp [ReadsItems, Value.table?, inside, eq_comm]
      exact fun size => ⟨fun h i hi => h i (size ▸ hi) hi, fun h i _ hi => h i hi⟩
  case handle id =>
    rcases datum_handle s (depth + 1) path id with same | same <;>
      simp [same, decodeList, Value.table?, ReadsItems]
  all_goals simp [Store.datum, decodeList, Value.table?, ReadsItems]

theorem decodeVariationRef_datum {v : Value} {ref : VariationRef} :
    decodeVariationRef (s.datum depth path v) = .ok ref ↔
      v.string?.bind (fun t => (VariationRef.parse t).toOption) = some ref := by
  simp only [decodeVariationRef, bind_eq_ok_iff, decodeText_datum, mapError_eq_ok_iff,
    Option.bind_eq_some_iff, toOption_eq_some_iff]

theorem decodeReverseRef_datum {v : Value} {ref : ReverseRef} :
    decodeReverseRef (s.datum depth path v) = .ok ref ↔
      v.string?.bind (fun t => (ReverseRef.parse t).toOption) = some ref := by
  simp only [decodeReverseRef, bind_eq_ok_iff, decodeText_datum, mapError_eq_ok_iff,
    Option.bind_eq_some_iff, toOption_eq_some_iff]

end Datum

/-! ### Properties -/

def decodeSetting (d : Datum) : Shape → Except DecodeError Setting
  | .text => (decodeText d).map fun t => .text (some t)
  | .names => (decodeList decodeText d).map .names
  | .variationRefs => (decodeList decodeVariationRef d).map .variationRefs
  | .reverseRefs => (decodeList decodeReverseRef d).map .reverseRefs

/-- A value is decoded as what it says, unless it leads back to where it was found. -/
theorem decodeSetting_datum {s : Store} {depth : Nat} {path : List Nat} {v : Value} {shape : Shape}
    {x : Setting} : decodeSetting (s.datum (depth + 1) path v) shape = .ok x ↔
      x.shape = shape ∧ Reads s v x ∧ ∀ l ∈ v.table?, l ∉ path := by
  have names (ts : List String) : decodeList decodeText (s.datum (depth + 1) path v) = .ok ts ↔
      ReadsItems s v some ts ∧ ∀ l ∈ v.table?, l ∉ path :=
    decodeList_datum s depth path fun path w t => by simp [decodeText_datum]
  have variations (refs : List VariationRef) :
      decodeList decodeVariationRef (s.datum (depth + 1) path v) = .ok refs ↔
        ReadsItems s v (fun t => (VariationRef.parse t).toOption) refs ∧ ∀ l ∈ v.table?, l ∉ path :=
    decodeList_datum s depth path fun path w ref => decodeVariationRef_datum s depth path
  have reverses (refs : List ReverseRef) :
      decodeList decodeReverseRef (s.datum (depth + 1) path v) = .ok refs ↔
        ReadsItems s v (fun t => (ReverseRef.parse t).toOption) refs ∧ ∀ l ∈ v.table?, l ∉ path :=
    decodeList_datum s depth path fun path w ref => decodeReverseRef_datum s depth path
  have noTable (t : String) (h : v.string? = some t) : ∀ l ∈ v.table?, l ∉ path := by
    cases v <;> simp_all [Value.string?, Value.table?]
  cases shape <;> cases x <;>
    simp [decodeSetting, map_eq_ok_iff, decodeText_datum, names, variations, reverses, Reads,
      Setting.shape]
  case text.text t =>
    cases t with
    | none => simp
    | some t => simpa using noTable t

theorem exists_readsItems_iff {α : Type} {s : Store} {v : Value} {parse : String → Option α} :
    (∃ xs, ReadsItems s v parse xs) ↔ ∃ l ∈ v.table?, ∀ i < (s.table l).length,
      ∃ t ∈ ((s.table l).item? (i + 1)).bind Value.string?, (parse t).isSome = true := by
  constructor
  · rintro ⟨xs, l, isTable, size, items⟩
    refine ⟨l, isTable, fun i hi => ?_⟩
    obtain ⟨t, text, parsed⟩ := Option.bind_eq_some_iff.mp (items i (size ▸ hi))
    exact ⟨t, text, by simp [parsed]⟩
  · rintro ⟨l, isTable, fits⟩
    have parsed (i : Fin (s.table l).length) :
        ∃ x, (((s.table l).item? (i + 1)).bind Value.string?).bind parse = some x := by
      obtain ⟨t, text, accepted⟩ := fits i i.isLt
      obtain ⟨x, parsed⟩ := Option.isSome_iff_exists.mp accepted
      exact ⟨x, by rw [Option.mem_def.mp text, Option.bind_some, parsed]⟩
    choose items found using parsed
    refine ⟨List.ofFn items, l, isTable, List.length_ofFn, fun i hi => ?_⟩
    rw [List.getElem_ofFn]
    exact found ⟨i, List.length_ofFn (f := items) ▸ hi⟩

theorem fits_iff {s : Store} {v : Value} {shape : Shape} :
    Fits s v shape ↔ ∃ x : Setting, x.shape = shape ∧ Reads s v x := by
  have names : (∃ ts, ReadsItems s v some ts) ↔ Fits s v .names := exists_readsItems_iff
  have variations : (∃ refs, ReadsItems s v (fun t => (VariationRef.parse t).toOption) refs) ↔
      Fits s v .variationRefs := exists_readsItems_iff
  have reverses : (∃ refs, ReadsItems s v (fun t => (ReverseRef.parse t).toOption) refs) ↔
      Fits s v .reverseRefs := exists_readsItems_iff
  constructor
  · intro fits
    cases shape with
    | text => exact ⟨.text v.string?, rfl, fits, rfl⟩
    | names =>
      obtain ⟨ts, reads⟩ := names.mpr fits
      exact ⟨.names ts, rfl, reads⟩
    | variationRefs =>
      obtain ⟨refs, reads⟩ := variations.mpr fits
      exact ⟨.variationRefs refs, rfl, reads⟩
    | reverseRefs =>
      obtain ⟨refs, reads⟩ := reverses.mpr fits
      exact ⟨.reverseRefs refs, rfl, reads⟩
  · rintro ⟨x, rfl, reads⟩
    cases x with
    | text t =>
      obtain ⟨given, rfl⟩ := reads
      exact given
    | names ts => exact names.mp ⟨ts, reads⟩
    | variationRefs refs => exact variations.mp ⟨refs, reads⟩
    | reverseRefs refs => exact reverses.mp ⟨refs, reads⟩

theorem ascii_of_property {p : String} {shape : Shape} (h : (p, shape) ∈ shapes) :
    ∀ c ∈ p.toList, Text.IsAscii c := by
  have all : (shapes.all fun q => q.1.toList.all fun c => c.toNat < 0x80) = true := by decide
  intro c hc
  have small : decide (c.toNat < 0x80) = true :=
    List.all_eq_true.mp (List.all_eq_true.mp all _ h) c hc
  exact (of_decide_eq_true small : c.toNat < 0x80)

theorem propertyOf_datum {s : Store} {depth : Nat} {path : List Nat} {key : Value} {p : String}
    {shape : Shape} (h : (p, shape) ∈ shapes) :
    propertyOf (s.datum depth path key) = .ok p ↔ key.string? = some p := by
  have ascii := ascii_of_property h
  cases key
  case text bytes =>
    simp only [Store.datum, propertyOf, Value.string?, Text.decode?_eq_some_iff, Except.ok.injEq]
    constructor
    · exact Text.eq_toUTF8_of_decodeLossy ascii
    · rintro rfl
      exact Text.decodeLossy_toUTF8 ascii
  case table id =>
    by_cases inside : id ∈ path
    · simp [datum_table_recursive s depth path inside, propertyOf, Value.string?]
    · cases depth <;>
        simp [datum_table_zero s path inside, datum_table s _ path inside, propertyOf,
          Value.string?]
  case handle id =>
    rcases datum_handle s depth path id with same | same <;> simp [same, propertyOf, Value.string?]
  all_goals simp [Store.datum, propertyOf, Value.string?]

theorem decodeOption_of_ne_nil {d : Datum} (given : d ≠ .nil) :
    decodeOption d = (decodeText d).map some := by
  cases d <;> first | rfl | exact absurd rfl given

theorem withProperty_of_setting {m : DeclaredModule} {p : String} {shape : Shape} {d : Datum}
    {x : Setting} (h : (p, shape) ∈ shapes) (given : d ≠ .nil)
    (decoded : decodeSetting d shape = .ok x) :
    ∃ next, m.withProperty p d = .ok next ∧ next.mutated = m.mutated ∧ next.location = m.location ∧
      next.settings = m.settings.map fun q => if q.1 = p then (p, x) else q := by
  simp only [shapes, List.mem_cons, Prod.mk.injEq, List.not_mem_nil, or_false] at h
  rcases h with ⟨rfl, rfl⟩ | ⟨rfl, rfl⟩ | ⟨rfl, rfl⟩ | ⟨rfl, rfl⟩ | ⟨rfl, rfl⟩ | ⟨rfl, rfl⟩ |
    ⟨rfl, rfl⟩ | ⟨rfl, rfl⟩ | ⟨rfl, rfl⟩ | ⟨rfl, rfl⟩ | ⟨rfl, rfl⟩ | ⟨rfl, rfl⟩ <;>
  · obtain ⟨v, found, rfl⟩ := map_eq_ok_iff.mp decoded
    simp [withProperty, decodeOption_of_ne_nil given, found, Except.map, settings]

theorem setting_of_withProperty {m next : DeclaredModule} {p : String} {d : Datum}
    (given : d ≠ .nil) (h : m.withProperty p d = .ok next) :
    ∃ shape x, (p, shape) ∈ shapes ∧ decodeSetting d shape = .ok x := by
  unfold withProperty at h
  rw [decodeOption_of_ne_nil given] at h
  split at h
  case h_13 => cases h
  all_goals
    obtain ⟨v, found, _⟩ := map_eq_ok_iff.mp h
    first
    | exact ⟨.text, .text (some v), by decide, by rw [decodeSetting, found]; rfl⟩
    | obtain ⟨t, read, _⟩ := map_eq_ok_iff.mp found
      exact ⟨.text, .text (some t), by decide, by rw [decodeSetting, read]; rfl⟩
    | exact ⟨.names, .names v, by decide, by rw [decodeSetting, found]; rfl⟩
    | exact ⟨.variationRefs, .variationRefs v, by decide, by rw [decodeSetting, found]; rfl⟩
    | exact ⟨.reverseRefs, .reverseRefs v, by decide, by rw [decodeSetting, found]; rfl⟩

/-! ### Tables of properties -/

def EntryFits (s : Store) (e : Value × Value) : Prop :=
  ∃ p ∈ e.1.string?, ∃ q ∈ shapes, q.1 = p ∧ Fits s e.2 q.2

def entryData (s : Store) (id : Nat) (entries : List (Value × Value)) : List (Datum × Datum) :=
  entries.map fun e => (s.datum 1 [id] e.1, s.datum 1 [id] e.2)

section Entries

variable {s : Store} {id : Nat}

theorem withEntries_cons_eq_ok_iff {m next : DeclaredModule} {e : Value × Value}
    {rest : List (Value × Value)} (given : e.2 ≠ .nil) :
    withEntries m (entryData s id (e :: rest)) = .ok next ↔
      e.2.table? ≠ some id ∧ ∃ p mid, e.1.string? = some p ∧
        m.withProperty p (s.datum 1 [id] e.2) = .ok mid ∧
        withEntries mid (entryData s id rest) = .ok next := by
  have given' : s.datum 1 [id] e.2 ≠ .nil := fun empty => given ((datum_nil_iff s 1 [id]).mp empty)
  have keyTable : (s.datum 1 [id] e.1).isRecursive = true → e.1.string? = none := by
    rw [datum_isRecursive_iff]
    rintro ⟨l, _, isTable⟩
    cases key : e.1 <;> simp_all [Value.table?, Value.string?]
  have valueTable : (s.datum 1 [id] e.2).isRecursive = true ↔ e.2.table? = some id := by
    simp [datum_isRecursive_iff]
  rw [entryData, List.map_cons, withEntries, ← entryData]
  by_cases recursive : ((s.datum 1 [id] e.1).isRecursive || (s.datum 1 [id] e.2).isRecursive) = true
  · rw [if_pos recursive]
    constructor
    · intro thrown
      cases thrown
    · rintro ⟨apart, p, mid, key, _⟩
      -- A key that leads back to the table is no text, so it names no property either.
      rcases (Bool.or_eq_true _ _).mp recursive with inKey | inValue
      · rw [keyTable inKey] at key
        cases key
      · exact absurd (valueTable.mp inValue) apart
  · rw [if_neg recursive]
    simp only [Bool.or_eq_true, not_or, valueTable] at recursive
    constructor
    · intro decoded
      obtain ⟨p, named, decoded⟩ := bind_eq_ok_iff.mp decoded
      obtain ⟨mid, first, decoded⟩ := bind_eq_ok_iff.mp decoded
      obtain ⟨shape, x, known, _⟩ := setting_of_withProperty given' first
      exact ⟨recursive.2, p, mid, (propertyOf_datum known).mp named, first, decoded⟩
    · rintro ⟨_, p, mid, key, first, decoded⟩
      obtain ⟨shape, x, known, _⟩ := setting_of_withProperty given' first
      refine bind_eq_ok_iff.mpr ⟨p, (propertyOf_datum known).mpr key, ?_⟩
      exact bind_eq_ok_iff.mpr ⟨mid, first, decoded⟩

/-- Decoding the entries succeeds if all of them fit. -/
theorem withEntries_of_fits {m : DeclaredModule} {entries : List (Value × Value)}
    (given : ∀ e ∈ entries, e.2 ≠ .nil) (fits : ∀ e ∈ entries, EntryFits s e)
    (apart : ∀ e ∈ entries, e.2.table? ≠ some id) :
    ∃ next, withEntries m (entryData s id entries) = .ok next := by
  induction entries generalizing m with
  | nil => exact ⟨m, rfl⟩
  | cons e rest ih =>
    rw [List.forall_mem_cons] at given fits apart
    obtain ⟨p, key, q, known, rfl, fit⟩ := fits.1
    obtain ⟨x, shape, reads⟩ := fits_iff.mp fit
    have decoded : decodeSetting (s.datum 1 [id] e.2) q.2 = .ok x :=
      decodeSetting_datum.mpr ⟨shape, reads, fun l isTable inside => apart.1 (by
        rw [List.mem_singleton.mp inside] at isTable; exact isTable)⟩
    obtain ⟨mid, first, _⟩ := withProperty_of_setting (m := m) known
      (fun empty => given.1 ((datum_nil_iff s 1 [id]).mp empty)) decoded
    obtain ⟨next, later⟩ := ih given.2 fits.2 apart.2 (m := mid)
    exact ⟨next, (withEntries_cons_eq_ok_iff given.1).mpr ⟨apart.1, q.1, mid, key, first, later⟩⟩

/-- What decoding the entries comes to: all of them fit, and every setting is that of an entry, or
what it was when there is none. -/
theorem settings_of_withEntries {m next : DeclaredModule} {entries : List (Value × Value)}
    (given : ∀ e ∈ entries, e.2 ≠ .nil) (h : withEntries m (entryData s id entries) = .ok next) :
    (∀ e ∈ entries, EntryFits s e ∧ e.2.table? ≠ some id) ∧ next.mutated = m.mutated ∧
      next.location = m.location ∧ ∀ p x, (p, x) ∈ next.settings →
        (∃ e ∈ entries, e.1.string? = some p ∧ Reads s e.2 x) ∨
        (∀ e ∈ entries, e.1.string? ≠ some p) ∧ (p, x) ∈ m.settings := by
  induction entries generalizing m with
  | nil =>
    cases h
    exact ⟨by simp, rfl, rfl, fun p x hx => Or.inr ⟨by simp, hx⟩⟩
  | cons e rest ih =>
    rw [List.forall_mem_cons] at given
    obtain ⟨apart, p, mid, key, first, later⟩ := (withEntries_cons_eq_ok_iff given.1).mp h
    have given' : s.datum 1 [id] e.2 ≠ .nil :=
      fun empty => given.1 ((datum_nil_iff s 1 [id]).mp empty)
    obtain ⟨shape, x, known, decoded⟩ := setting_of_withProperty given' first
    obtain ⟨mid', first', mutated, location, changed⟩ :=
      withProperty_of_setting (m := m) known given' decoded
    obtain rfl : mid = mid' := Except.ok.inj (first.symm.trans first')
    obtain ⟨fits, mutated', location', settings⟩ := ih given.2 later
    obtain ⟨hasShape, reads, _⟩ := decodeSetting_datum.mp decoded
    have fit : EntryFits s e := ⟨p, key, (p, shape), known, rfl, fits_iff.mpr ⟨x, hasShape, reads⟩⟩
    refine ⟨List.forall_mem_cons.mpr ⟨⟨fit, apart⟩, fits⟩, mutated'.trans mutated,
      location'.trans location, fun q y hy => ?_⟩
    rcases settings q y hy with ⟨e', he', own, said⟩ | ⟨absent, old⟩
    · exact Or.inl ⟨e', List.mem_cons_of_mem _ he', own, said⟩
    · -- No later entry is about `q`, so its setting is that of `e` or the one from before.
      rw [changed, List.mem_map] at old
      obtain ⟨⟨q', y'⟩, hy', same⟩ := old
      split at same
      case isTrue =>
        cases same
        exact Or.inl ⟨e, by simp, key, reads⟩
      case isFalse other =>
        cases same
        refine Or.inr ⟨List.forall_mem_cons.mpr ⟨fun own => other ?_, absent⟩, hy'⟩
        exact Option.some.inj (own.symm.trans key)

end Entries

/-! ### Declarations -/

theorem entries_ne_nil {t : Table} {e : Value × Value} (h : e ∈ t.entries) : e.2 ≠ .nil := by
  rw [Table.entries, List.mem_append, List.mem_filterMap, List.mem_filterMap] at h
  rcases h with ⟨i, _, found⟩ | ⟨node, _, found⟩
  · simp only at found
    split at found
    case isTrue => cases found
    case isFalse present =>
      cases found
      exact fun empty => present (congrArg Value.isNil empty)
  · split at found
    case isTrue => cases found
    case isFalse present =>
      cases found
      exact fun empty => present (congrArg Value.isNil empty)

theorem eq_of_key {s : Store} {v : Value} (distinct : KeysDistinct s v) {id : Nat}
    (isTable : v.table? = some id) {e e' : Value × Value} (he : e ∈ (s.table id).entries)
    (he' : e' ∈ (s.table id).entries) {p : String} (key : e.1.string? = some p)
    (key' : e'.1.string? = some p) : e = e' := by
  by_contra other
  have apart := List.pairwise_filterMap.mp (distinct id isTable)
  have symm : Std.Symm fun a b : Value × Value =>
      ∀ p, a.1.string? = some p → ∀ q, b.1.string? = some q → p ≠ q :=
    ⟨fun a b h p hp q hq same => h q hq p hp same.symm⟩
  exact apart.forall he he' other p key p key' rfl

section Decode

variable {s : Store} {v : Value} {m : DeclaredModule}

theorem decode_datum_eq_ok_iff : decode (s.datum depth [] v) = .ok m ↔
    ∃ id ∈ v.table?, withEntries {} (entryData s id (s.table id).entries) = .ok m := by
  cases v
  case table id =>
    rw [depth, datum_table s 1 [] List.not_mem_nil]
    simp [decode, Value.table?, entryData]
  case handle id =>
    rcases datum_handle s depth [] id with same | same <;>
      simp [same, decode, Value.table?]
  all_goals simp [Store.datum, decode, Value.table?]

theorem mem_settings_default {p : String} {x : Setting}
    (h : (p, x) ∈ ({} : DeclaredModule).settings) :
    p = "name" ∧ x = .text (some "") ∨ p ≠ "name" ∧ x = .unset x.shape := by
  have all : ∀ q ∈ ({} : DeclaredModule).settings,
      q.1 = "name" ∧ q.2 = .text (some "") ∨ q.1 ≠ "name" ∧ q.2 = .unset q.2.shape := by decide
  exact all _ h

theorem wellFormed_of_decode (h : decode (s.datum depth [] v) = .ok m)
    (named : m.name ≠ "") :
    WellFormed s v ∧ ¬ HoldsItself s v ∧ Describes s v m ∧ m.location = none := by
  obtain ⟨id, isTable, decoded⟩ := decode_datum_eq_ok_iff.mp h
  obtain ⟨fits, mutated, location, settings⟩ :=
    settings_of_withEntries (fun e he => entries_ne_nil he) decoded
  have name : ∃ e ∈ (s.table id).entries,
      e.1.string? = some "name" ∧ e.2.string? = some m.name := by
    rcases settings "name" (.text (some m.name)) (by simp [DeclaredModule.settings]) with
      ⟨e, he, key, reads⟩ | ⟨_, default⟩
    · exact ⟨e, he, key, reads.2⟩
    · rcases mem_settings_default default with ⟨_, empty⟩ | ⟨other, _⟩
      · exact absurd (Option.some.inj (Setting.text.inj empty)) named
      · exact absurd rfl other
  refine ⟨⟨id, isTable, fun e he => (fits e he).1, ?_⟩, ?_,
    ⟨mutated, id, isTable, fun p x hx => ?_⟩, location⟩
  · obtain ⟨e, he, key, given⟩ := name
    exact ⟨e, he, key, by simp [given, named]⟩
  · rintro ⟨id', isTable', e, he, same⟩
    obtain rfl : id = id' := Option.some.inj (isTable.symm.trans isTable')
    exact (fits e he).2 same
  · rcases settings p x hx with given | ⟨absent, default⟩
    · exact Or.inl given
    · rcases mem_settings_default default with ⟨rfl, _⟩ | ⟨_, unset⟩
      · obtain ⟨e, he, key, _⟩ := name
        exact absurd key (absent e he)
      · exact Or.inr ⟨absent, unset⟩

theorem decode_of_wellFormed (distinct : KeysDistinct s v) (wf : WellFormed s v)
    (apart : ¬ HoldsItself s v) :
    ∃ m, decode (s.datum depth [] v) = .ok m ∧ m.name ≠ "" := by
  obtain ⟨id, isTable, fits, e, he, key, filled⟩ := wf
  have others : ∀ e ∈ (s.table id).entries, e.2.table? ≠ some id :=
    fun e he same => apart ⟨id, isTable, e, he, same⟩
  obtain ⟨m, decoded⟩ :=
    withEntries_of_fits (m := {}) (fun e he => entries_ne_nil he) fits others
  refine ⟨m, decode_datum_eq_ok_iff.mpr ⟨id, isTable, decoded⟩, ?_⟩
  obtain ⟨_, _, _, settings⟩ := settings_of_withEntries (fun e he => entries_ne_nil he) decoded
  rcases settings "name" (.text (some m.name)) (by simp [DeclaredModule.settings]) with
    ⟨e', he', key', reads⟩ | ⟨absent, _⟩
  · obtain rfl := eq_of_key distinct isTable he he' key key'
    rintro empty
    exact filled (reads.2.trans (congrArg some empty))
  · exact absurd key (absent e he)

end Decode

end DeclaredModule

end BuildVariants
