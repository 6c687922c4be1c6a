import Quotation.Data.ToValue
import Quotation.Proofs.Number.Widening
import Mathlib.Data.List.Forall2
/-!
# What data becomes

Serialization keeps the shape of the data or fails on the first offence. `HasShape` says which
value data has, one rule for each shape, and `Data.offences` lists what no value can hold in
the order in which it is handed over. The two are complementary as long as every map is handed
over entry by entry (`toValue_of_isByEntry`).
-/

namespace Quotation

/-! ## Maps entry by entry -/

namespace Data

mutual
/-- Whether each map in the data, and in its keys, is handed over entry by entry. -/
def isByEntry : Data → Bool
  | some d => d.isByEntry
  | newtypeStruct d => d.isByEntry
  | newtypeVariant _ d => d.isByEntry
  | sequence items => allByEntry items
  | tuple items => allByEntry items
  | tupleStruct items => allByEntry items
  | tupleVariant _ items => allByEntry items
  | map calls => callsByEntry calls
  | struct fields => fieldsByEntry fields
  | structVariant _ fields => fieldsByEntry fields
  | bool _ => true
  | signed _ => true
  | unsigned _ => true
  | wide _ => true
  | single _ => true
  | double _ => true
  | char _ => true
  | text _ => true
  | bytes _ => true
  | none => true
  | unit => true
  | unitStruct => true
  | unitVariant _ => true
  | failure _ => true

def allByEntry : List Data → Bool
  | [] => true
  | d :: ds => d.isByEntry && allByEntry ds

def fieldsByEntry : List (String × Data) → Bool
  | [] => true
  | f :: fs => f.2.isByEntry && fieldsByEntry fs

/-- Whether each key is followed by its value, and each value follows its key. -/
def callsByEntry : List (MapCall Data) → Bool
  | [] => true
  | .key k :: .value v :: calls => k.isByEntry && v.isByEntry && callsByEntry calls
  | _ => false
end

/-! ## Offences -/

/-- Whether the data is a string that is not empty, or an integer. -/
def isName : Data → Bool
  | signed _ => true
  | unsigned _ => true
  | char _ => true
  | text s => s != ""
  | unitVariant name => name != ""
  | some d => d.isName
  | newtypeStruct d => d.isName
  | _ => false

mutual
/-- What no value can hold, in the order in which it is handed over. -/
def offences : Data → List DataError
  | unsigned n => if n.toNat < 2 ^ 63 then [] else [.tooLarge n]
  | wide isSigned => [.wideInteger isSigned]
  | single bits => if Single.isFinite bits then [] else [.notFinite (.ofSingle bits)]
  | double d => if d.isFinite then [] else [.notFinite d]
  | failure message => [.custom message]
  | some d => d.offences
  | newtypeStruct d => d.offences
  | newtypeVariant _ d => d.offences
  | sequence items => itemOffences items
  | tuple items => itemOffences items
  | tupleStruct items => itemOffences items
  | tupleVariant _ items => itemOffences items
  | map calls => callOffences calls
  | struct fields => fieldOffences fields
  | structVariant _ fields => fieldOffences fields
  | bool _ => []
  | signed _ => []
  | char _ => []
  | text _ => []
  | bytes _ => []
  | none => []
  | unit => []
  | unitStruct => []
  | unitVariant _ => []

def itemOffences : List Data → List DataError
  | [] => []
  | d :: ds => d.offences ++ itemOffences ds

def fieldOffences : List (String × Data) → List DataError
  | [] => []
  | f :: fs => f.2.offences ++ fieldOffences fs

/-- A key offends by what it holds, then by not being a name. -/
def callOffences : List (MapCall Data) → List DataError
  | [] => []
  | .key k :: calls => k.offences ++ (if k.isName then [] else [.keyMustBeAName]) ++ callOffences calls
  | .value v :: calls => v.offences ++ callOffences calls
end

end Data

/-! ## Shapes -/

/-- The name that a value gives an entry as its key. -/
inductive Names : Value → String → Prop where
  | string {s : String} (h : s ≠ "") : Names (.ofString s) s
  | int (n : Int64) : Names (.ofInt n) (toString n.toInt)

mutual
/-- The value that data has. -/
inductive HasShape : Data → Value → Prop where
  | bool (b : Bool) : HasShape (.bool b) (.ofBool b)
  | signed (n : Int64) : HasShape (.signed n) (.ofInt n)
  | unsigned {n : UInt64} {i : Int64} (h : i.toInt = (n.toNat : Int)) : HasShape (.unsigned n) (.ofInt i)
  | single {bits : UInt32} {d : Double} (hfinite : d.isFinite = true) (hsign : d.isNegative = Single.isNegative bits)
    (hvalue : d.units = Single.units bits * 2 ^ 925) : HasShape (.single bits) (.ofNumber (.float d))
  | double {d : Double} (hfinite : d.isFinite = true) : HasShape (.double d) (.ofNumber (.float d))
  | char (c : Char) : HasShape (.char c) (.ofString (String.singleton c))
  | text (s : String) : HasShape (.text s) (.ofString s)
  | bytes {bs : List UInt8} {is : List Int64} (h : List.Forall₂ (fun i b => i.toInt = (b.toNat : Int)) is bs) :
    HasShape (.bytes bs) (.list (is.map fun i => .unnamed (.ofInt i)))
  | none : HasShape .none .null
  | some {d : Data} {v : Value} (h : HasShape d v) : HasShape (.some d) v
  | unit : HasShape .unit .null
  | unitStruct : HasShape .unitStruct .null
  | unitVariant (name : String) : HasShape (.unitVariant name) (.ofString name)
  | newtypeStruct {d : Data} {v : Value} (h : HasShape d v) : HasShape (.newtypeStruct d) v
  | newtypeVariant {d : Data} {v : Value} (name : String) (h : HasShape d v) :
    HasShape (.newtypeVariant name d) (.list [.named name v])
  | sequence {items : List Data} {es : List (Arg Value)} (h : ItemsHaveShape items es) :
    HasShape (.sequence items) (.list es)
  | tuple {items : List Data} {es : List (Arg Value)} (h : ItemsHaveShape items es) : HasShape (.tuple items) (.list es)
  | tupleStruct {items : List Data} {es : List (Arg Value)} (h : ItemsHaveShape items es) :
    HasShape (.tupleStruct items) (.list es)
  | tupleVariant {items : List Data} {es : List (Arg Value)} (name : String) (h : ItemsHaveShape items es) :
    HasShape (.tupleVariant name items) (.list [.named name (.list es)])
  | map {calls : List (MapCall Data)} {es : List (Arg Value)} (h : EntriesHaveShape calls es) :
    HasShape (.map calls) (.list es)
  | struct {fields : List (String × Data)} {es : List (Arg Value)} (h : FieldsHaveShape fields es) :
    HasShape (.struct fields) (.list es)
  | structVariant {fields : List (String × Data)} {es : List (Arg Value)} (name : String)
    (h : FieldsHaveShape fields es) :
    HasShape (.structVariant name fields) (.list [.named name (.list es)])

/-- The entries of items, which have no names. -/
inductive ItemsHaveShape : List Data → List (Arg Value) → Prop where
  | nil : ItemsHaveShape [] []
  | cons {d : Data} {ds : List Data} {v : Value} {es : List (Arg Value)} (h : HasShape d v)
    (hrest : ItemsHaveShape ds es) :
    ItemsHaveShape (d :: ds) (.unnamed v :: es)

/-- The entries of fields, which are named after them. -/
inductive FieldsHaveShape : List (String × Data) → List (Arg Value) → Prop where
  | nil : FieldsHaveShape [] []
  | cons {name : String} {d : Data} {fs : List (String × Data)} {v : Value} {es : List (Arg Value)} (h : HasShape d v)
    (hrest : FieldsHaveShape fs es) : FieldsHaveShape ((name, d) :: fs) (.named name v :: es)

/-- The entries of a map, each named by the value of its key. -/
inductive EntriesHaveShape : List (MapCall Data) → List (Arg Value) → Prop where
  | nil : EntriesHaveShape [] []
  | cons {k d : Data} {calls : List (MapCall Data)} {key v : Value} {name : String} {es : List (Arg Value)}
    (hkey : HasShape k key) (hname : Names key name) (h : HasShape d v) (hrest : EntriesHaveShape calls es) :
    EntriesHaveShape (.key k :: .value d :: calls) (.named name v :: es)
end

/-! ## Names of entries -/

theorem Number.display_int (n : Int64) : (Number.int n).display = toString n.toInt := by
  rw [Number.display, Number.text, Layout.integer, Layout.digits]
  generalize n.toInt = i
  cases i with
  | ofNat m => rfl
  | negSucc m =>
    rw [if_pos (Int.negSucc_lt_zero m), Int.natAbs_negSucc, String.ofList_cons]
    rfl

theorem MapBuilder.keyName_of_names {v : Value} {name : String} (h : Names v name) :
    MapBuilder.keyName v = .ok name := by
  cases h with
  | string h => simp [MapBuilder.keyName, Value.ofString, h]
  | int n => simp [MapBuilder.keyName, Value.ofInt, Value.ofNumber, Number.display_int]

/-- A key whose value is no name is reported as that, whatever it is. -/
theorem MapBuilder.keyName_eq_error {v : Value} (h : ∀ name, ¬ Names v name) :
    MapBuilder.keyName v = .error .keyMustBeAName := by
  unfold MapBuilder.keyName
  split
  · rename_i s
    have hs : s = "" := by
      by_contra hs
      exact h s (.string hs)
    simp [hs]
  · rename_i n
    exact absurd (Names.int n) (h _)
  · rfl

theorem names_ofString_iff {s : String} : (∃ name, Names (.ofString s) name) ↔ s ≠ "" :=
  ⟨fun ⟨_, h⟩ => by cases h; assumption, fun h => ⟨s, .string h⟩⟩

/-- Data is a name when its value is one. -/
theorem HasShape.isName_iff {d : Data} {v : Value} (h : HasShape d v) : d.isName = true ↔ ∃ name, Names v name := by
  fun_induction Data.isName d generalizing v with
  | case1 n =>
    cases h
    exact ⟨fun _ => ⟨_, .int n⟩, fun _ => rfl⟩
  | case2 n =>
    cases h with
    | @unsigned _ i _ => exact ⟨fun _ => ⟨_, .int i⟩, fun _ => rfl⟩
  | case3 c =>
    cases h
    exact ⟨fun _ => names_ofString_iff.2 (by simp), fun _ => rfl⟩
  | case4 s =>
    cases h
    rw [bne_iff_ne, names_ofString_iff]
  | case5 name =>
    cases h
    rw [bne_iff_ne, names_ofString_iff]
  | case6 d ih =>
    cases h with
    | some h => exact ih h
  | case7 d ih =>
    cases h with
    | newtypeStruct h => exact ih h
  | case8 d hsigned hunsigned hchar htext hvariant hsome hnewtype =>
    refine ⟨(absurd · Bool.false_ne_true), fun ⟨name, hname⟩ => ?_⟩
    cases hname with
    | string _ => cases h with
      | char c => exact (hchar c rfl).elim
      | text _ => exact (htext _ rfl).elim
      | unitVariant name => exact (hvariant name rfl).elim
      | some _ => exact (hsome _ rfl).elim
      | newtypeStruct _ => exact (hnewtype _ rfl).elim
    | int n => cases h with
      | signed n => exact (hsigned n rfl).elim
      | unsigned _ => exact (hunsigned _ rfl).elim
      | some _ => exact (hsome _ rfl).elim
      | newtypeStruct _ => exact (hnewtype _ rfl).elim

/-! ## Outcomes -/

/-- A result with the shape and no offences, or the first of the offences. -/
inductive Outcome {α : Type} (shape : α → Prop) : Except DataError α → List DataError → Prop where
  | ok {a : α} (h : shape a) : Outcome shape (.ok a) []
  | error (e : DataError) (es : List DataError) : Outcome shape (.error e) (e :: es)

namespace Outcome

variable {α β : Type} {P : α → Prop} {Q : β → Prop} {r : Except DataError α} {es es' : List DataError}

/-- What comes later offends later. -/
theorem bind {f : α → Except DataError β} (h : Outcome P r es) (hf : ∀ a, P a → Outcome Q (f a) es') :
    Outcome Q (r >>= f) (es ++ es') := by
  cases h with
  | ok h => exact hf _ h
  | error e es => exact .error e (es ++ es')

theorem map {f : α → β} (h : Outcome P r es) (hf : ∀ a, P a → Q (f a)) : Outcome Q (do return f (← r)) es := by
  cases h with
  | ok h => exact .ok (hf _ h)
  | error e es => exact .error e es

theorem mono {Q : α → Prop} (h : Outcome P r es) (hPQ : ∀ a, P a → Q a) : Outcome Q r es := by
  cases h with
  | ok h => exact .ok (hPQ _ h)
  | error e es => exact .error e es

theorem error_iff (h : Outcome P r es) (e : DataError) : r = .error e ↔ es.head? = some e := by
  cases h with
  | ok h => simp
  | error e es => simp

theorem exists_ok (h : Outcome P r es) (hes : es = []) : ∃ a, r = .ok a ∧ P a := by
  cases h with
  | ok h => exact ⟨_, rfl, h⟩
  | error e es => cases hes

end Outcome

/-! ## Numbers -/

theorem outcome_ofNatural (n : UInt64) :
    Outcome (HasShape (.unsigned n)) (Data.ofNatural n) (Data.offences (.unsigned n)) := by
  rw [Data.ofNatural, Number.ofInt?, Data.offences]
  by_cases h : n.toNat < 2 ^ 63
  · have hmin : Int64.minValue.toInt ≤ n.toNat := Int.le_trans (by decide) (Int.natCast_nonneg _)
    have hmax : (n.toNat : Int) ≤ Int64.maxValue.toInt := by
      show (n.toNat : Int) ≤ 2 ^ 63 - 1
      omega
    rw [if_pos ⟨hmin, hmax⟩, if_pos h]
    exact .ok (.unsigned (Int64.toInt_ofInt_of_le (by omega) (by omega)))
  · have hmax : ¬ (n.toNat : Int) ≤ Int64.maxValue.toInt := by
      show ¬ (n.toNat : Int) ≤ 2 ^ 63 - 1
      omega
    rw [if_neg (fun h => hmax h.2), if_neg h]
    exact .error _ _

theorem outcome_ofDouble {shape : Value → Prop} {d : Double} (h : d.isFinite = true → shape (.ofNumber (.float d))) :
    Outcome shape (Data.ofDouble d) (if d.isFinite then [] else [.notFinite d]) := by
  rw [Data.ofDouble, Number.ofDouble?]
  cases hfinite : d.isFinite with
  | true => exact .ok (h hfinite)
  | false => exact .error _ _

theorem hasShape_bytes (bs : List UInt8) :
    HasShape (.bytes bs) (Data.unnamed (bs.map fun b => .ofInt b.toNat.toInt64)) := by
  have hbytes : List.Forall₂ (fun (i : Int64) (b : UInt8) => i.toInt = (b.toNat : Int))
      (bs.map fun b => b.toNat.toInt64) bs := by
    rw [List.forall₂_map_left_iff, List.forall₂_same]
    intro b _
    have hb := b.toNat_lt
    exact Int64.toInt_ofNat_of_lt (by omega)
  simpa [Data.unnamed, Function.comp_def] using HasShape.bytes hbytes

/-! ## Entries of maps -/

theorem outcome_keyName {k : Data} {key : Value} (h : HasShape k key) :
    Outcome (Names key) (MapBuilder.keyName key) (if k.isName then [] else [.keyMustBeAName]) := by
  by_cases hname : k.isName = true
  · obtain ⟨name, hkey⟩ := h.isName_iff.1 hname
    rw [MapBuilder.keyName_of_names hkey, if_pos hname]
    exact .ok hkey
  · rw [MapBuilder.keyName_eq_error fun name hkey => hname (h.isName_iff.2 ⟨name, hkey⟩), if_neg hname]
    exact .error _ _

/-- A key with its value adds one entry to a map that waits for a key. -/
theorem toEntries_entry (es : List (Arg Value)) (k d : Data) (calls : List (MapCall Data)) :
    Data.toEntries ⟨es, none⟩ (.key k :: .value d :: calls) =
      (k.toValue >>= MapBuilder.keyName) >>= fun name => d.toValue >>= fun v =>
        Data.toEntries ⟨es ++ [.named name v], none⟩ calls := by
  rw [Data.toEntries, MapBuilder.takeKey]
  show _ = (k.toValue.bind MapBuilder.keyName).bind _
  cases k.toValue.bind MapBuilder.keyName with
  | error e => rfl
  | ok name =>
    show Data.toEntries ⟨es, some name⟩ _ = d.toValue.bind _
    rw [Data.toEntries, MapBuilder.takeValue]
    cases d.toValue <;> rfl

/-! ## Data -/

mutual
/-- Data entry by entry becomes a value of its shape, or fails on its first offence. -/
theorem outcome_toValue : ∀ d : Data, d.isByEntry = true → Outcome (HasShape d) d.toValue d.offences
  | .bool b, _ => .ok (.bool b)
  | .signed n, _ => .ok (.signed n)
  | .unsigned n, _ => outcome_ofNatural n
  | .wide _, _ => .error _ _
  | .single bits, _ => by
    rw [Data.toValue, Data.offences, ← Double.isFinite_ofSingle]
    refine outcome_ofDouble fun hfinite => ?_
    obtain ⟨hsign, -, hvalue⟩ := Double.ofSingle_of_isFinite (Double.isFinite_ofSingle bits ▸ hfinite)
    exact .single hfinite hsign hvalue
  | .double d, _ => outcome_ofDouble .double
  | .char c, _ => .ok (.char c)
  | .text s, _ => .ok (.text s)
  | .bytes bs, _ => .ok (hasShape_bytes bs)
  | .none, _ => .ok .none
  | .some d, h => (outcome_toValue d h).mono fun _ => .some
  | .unit, _ => .ok .unit
  | .unitStruct, _ => .ok .unitStruct
  | .unitVariant name, _ => .ok (.unitVariant name)
  | .newtypeStruct d, h => (outcome_toValue d h).mono fun _ => .newtypeStruct
  | .newtypeVariant name d, h => (outcome_toValue d h).map fun _ => .newtypeVariant name
  | .sequence items, h => (outcome_toValues items h).map fun _ => .sequence
  | .tuple items, h => (outcome_toValues items h).map fun _ => .tuple
  | .tupleStruct items, h => (outcome_toValues items h).map fun _ => .tupleStruct
  | .tupleVariant name items, h => (outcome_toValues items h).map fun _ => .tupleVariant name
  | .map calls, h => (outcome_toEntries calls h []).map fun _ ⟨_, hes, h⟩ => hes ▸ .map h
  | .struct fields, h => (outcome_toFields fields h).map fun _ => .struct
  | .structVariant name fields, h => (outcome_toFields fields h).map fun _ => .structVariant name
  | .failure _, _ => .error _ _

theorem outcome_toValues : ∀ ds : List Data, Data.allByEntry ds = true →
    Outcome (fun vs => ItemsHaveShape ds (vs.map .unnamed)) (Data.toValues ds) (Data.itemOffences ds)
  | [], _ => .ok .nil
  | d :: ds, h => by
    obtain ⟨hd, hds⟩ := Bool.and_eq_true_iff.1 h
    exact (outcome_toValue d hd).bind fun _ hv => (outcome_toValues ds hds).map fun _ hvs => .cons hv hvs

theorem outcome_toFields : ∀ fs : List (String × Data), Data.fieldsByEntry fs = true →
    Outcome (FieldsHaveShape fs) (Data.toFields fs) (Data.fieldOffences fs)
  | [], _ => .ok .nil
  | (name, d) :: fs, h => by
    obtain ⟨hd, hfs⟩ := Bool.and_eq_true_iff.1 h
    exact (outcome_toValue d hd).bind fun _ hv => (outcome_toFields fs hfs).map fun _ hes => .cons hv hes

/-- The entries follow those that the map had. -/
theorem outcome_toEntries : ∀ calls : List (MapCall Data), Data.callsByEntry calls = true → ∀ es,
    Outcome (fun out => ∃ es', out = es ++ es' ∧ EntriesHaveShape calls es')
      (Data.toEntries ⟨es, none⟩ calls) (Data.callOffences calls)
  | [], _, es => .ok ⟨[], (List.append_nil es).symm, .nil⟩
  | .key k :: .value d :: calls, h, es => by
    obtain ⟨hkd, hcalls⟩ := Bool.and_eq_true_iff.1 h
    obtain ⟨hk, hd⟩ := Bool.and_eq_true_iff.1 hkd
    have hname : Outcome (fun name => ∃ key, HasShape k key ∧ Names key name) (k.toValue >>= MapBuilder.keyName)
        (k.offences ++ if k.isName then [] else [.keyMustBeAName]) :=
      (outcome_toValue k hk).bind fun key hkey => (outcome_keyName hkey).mono fun _ hname => ⟨key, hkey, hname⟩
    rw [toEntries_entry, Data.callOffences, Data.callOffences]
    refine hname.bind fun name ⟨key, hkey, hname⟩ => (outcome_toValue d hd).bind fun v hv => ?_
    refine (outcome_toEntries calls hcalls _).mono fun out ⟨es', hout, hes'⟩ => ⟨.named name v :: es', ?_, ?_⟩
    · rw [hout, List.append_assoc, List.singleton_append]
    · exact .cons hkey hname hv hes'
end

/-- Serialization fails exactly on the first offence, and without offences the value has the
shape of the data. -/
theorem toValue_of_isByEntry {d : Data} (h : d.isByEntry = true) :
    (∀ e, d.toValue = .error e ↔ d.offences.head? = some e) ∧
      (d.offences = [] → ∃ v, d.toValue = .ok v ∧ HasShape d v) :=
  ⟨(outcome_toValue d h).error_iff, (outcome_toValue d h).exists_ok⟩

theorem toValue_of_isByEntry_nested :
    Data.isByEntry (.ofEntries [(.some (.signed (-7)), .ofEntries [(.text "a", .single 1), (.text "", .wide true)]),
        (.bool true, .failure "no")]) = true ∧
      Data.toValue (.ofEntries [(.some (.signed (-7)), .ofEntries [(.text "a", .single 1), (.text "", .wide true)]),
        (.bool true, .failure "no")]) = .error .keyMustBeAName :=
  ⟨rfl, ((toValue_of_isByEntry rfl).1 .keyMustBeAName).2 rfl⟩

end Quotation
