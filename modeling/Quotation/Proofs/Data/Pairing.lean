import Quotation.Proofs.Data.Serialization
import Mathlib.Data.List.Induction
/-!
# Maps call by call

A map may be handed over in any order of keys and values. As long as no call fails, the calls fall
into blocks of some keys and one value, and the latest key of a block names the value
(`map_pairs_latest_key`); so no key names two values. A value without a key fails whatever it is, and
no failure changes the entries.
-/

namespace Quotation

/-! ## Calls -/

/-- The key gives an entry this name. -/
def Data.NamesEntry (k : Data) (name : String) : Prop := ∃ key, k.toValue = .ok key ∧ Names key name

/-- The calls for one entry: keys that are replaced, the key that names the entry, and its value. -/
structure EntryCalls where
  replaced : List Data
  key : Data
  value : Data

def EntryCalls.calls (e : EntryCalls) : List (MapCall Data) := e.replaced.map .key ++ [.key e.key, .value e.value]

/-- The entry that the calls give. -/
def EntryCalls.Gives (e : EntryCalls) (entry : Arg Value) : Prop :=
  ∃ name v, e.key.NamesEntry name ∧ e.value.toValue = .ok v ∧ entry = .named name v

namespace MapBuilder

/-- What a call does to the map, and how it ends. -/
def take (b : MapBuilder) : MapCall Data → MapBuilder × Except DataError Unit
  | .key k => b.takeKey k.toValue
  | .value v => b.takeValue v.toValue

/-- The map after all calls, those that fail included. -/
def takeAll (b : MapBuilder) (calls : List (MapCall Data)) : MapBuilder := calls.foldl (fun b c => (b.take c).1) b

/-- None of the calls fails. -/
def Succeeds (b : MapBuilder) : List (MapCall Data) → Prop
  | [] => True
  | c :: calls => (b.take c).2 = .ok () ∧ (b.take c).1.Succeeds calls

variable {b : MapBuilder} {calls : List (MapCall Data)}

theorem takeAll_cons (b : MapBuilder) (c : MapCall Data) (calls : List (MapCall Data)) :
    b.takeAll (c :: calls) = (b.take c).1.takeAll calls := rfl

theorem takeAll_append (b : MapBuilder) (calls more : List (MapCall Data)) :
    b.takeAll (calls ++ more) = (b.takeAll calls).takeAll more := List.foldl_append

theorem takeAll_concat (b : MapBuilder) (calls : List (MapCall Data)) (c : MapCall Data) :
    b.takeAll (calls ++ [c]) = ((b.takeAll calls).take c).1 := by
  rw [takeAll_append]
  rfl

theorem succeeds_cons {c : MapCall Data} :
    b.Succeeds (c :: calls) ↔ (b.take c).2 = .ok () ∧ (b.take c).1.Succeeds calls := Iff.rfl

theorem succeeds_append {more : List (MapCall Data)} :
    b.Succeeds (calls ++ more) ↔ b.Succeeds calls ∧ (b.takeAll calls).Succeeds more := by
  induction calls generalizing b with
  | nil => exact (iff_of_eq (true_and _)).symm
  | cons c calls ih => exact (and_congr_right fun _ => ih).trans and_assoc.symm

theorem succeeds_concat {c : MapCall Data} :
    b.Succeeds (calls ++ [c]) ↔ b.Succeeds calls ∧ ((b.takeAll calls).take c).2 = .ok () := by
  rw [succeeds_append]
  exact and_congr_right fun _ => iff_of_eq (and_true _)

/-! ## One call -/

theorem keyName_eq_ok_iff {v : Value} {name : String} : keyName v = .ok name ↔ Names v name := by
  refine ⟨fun h => ?_, keyName_of_names⟩
  by_contra hname
  by_cases hnone : ∃ other, Names v other
  · obtain ⟨other, hother⟩ := hnone
    rw [keyName_of_names hother] at h
    cases h
    exact hname hother
  · rw [keyName_eq_error (not_exists.1 hnone)] at h
    cases h

theorem bind_keyName_eq_ok_iff {k : Data} {name : String} :
    k.toValue.bind keyName = .ok name ↔ k.NamesEntry name := by
  unfold Data.NamesEntry
  cases k.toValue with
  | ok key => simp [Except.bind, keyName_eq_ok_iff]
  | error e => simp [Except.bind]

/-- A key that gives a name waits for a value, in the place of the one that waited before. -/
theorem take_key {k : Data} {name : String} (h : k.NamesEntry name) (b : MapBuilder) :
    b.take (.key k) = (⟨b.entries, some name⟩, .ok ()) := by
  rw [take, takeKey, bind_keyName_eq_ok_iff.2 h]

/-- Any other key fails, and the map stays as it is. -/
theorem take_key_of_not_names {k : Data} (h : ∀ name, ¬ k.NamesEntry name) (b : MapBuilder) :
    ∃ e, b.take (.key k) = (b, .error e) := by
  rw [take, takeKey]
  cases hname : k.toValue.bind keyName with
  | ok name => exact absurd (bind_keyName_eq_ok_iff.1 hname) (h name)
  | error e => exact ⟨e, rfl⟩

theorem take_value_of_none {b : MapBuilder} (h : b.pending = none) (v : Data) :
    b.take (.value v) = (b, .error .valueBeforeKey) := by
  rw [take, takeValue, h]

/-- The name that waits is used up, also by a value that fails. -/
theorem take_value_of_some {b : MapBuilder} {name : String} (h : b.pending = some name) (v : Data) :
    b.take (.value v) = match v.toValue with
      | .ok w => (⟨b.entries ++ [.named name w], none⟩, .ok ())
      | .error e => (⟨b.entries, none⟩, .error e) := by
  cases hv : v.toValue <;> rw [take, takeValue, h, hv]

theorem pending_take_value (b : MapBuilder) (v : Data) : (b.take (.value v)).1.pending = none := by
  cases h : b.pending with
  | none => rw [take_value_of_none h, h]
  | some name =>
    rw [take_value_of_some h]
    cases v.toValue <;> rfl

/-- A call that fails leaves the entries as they are. -/
theorem entries_of_take_error {c : MapCall Data} {e : DataError} (h : (b.take c).2 = .error e) :
    (b.take c).1.entries = b.entries := by
  cases c with
  | key k =>
    by_cases hk : ∃ name, k.NamesEntry name
    · obtain ⟨name, hname⟩ := hk
      rw [take_key hname]
    · obtain ⟨_, htake⟩ := take_key_of_not_names (not_exists.1 hk) b
      rw [htake]
  | value v =>
    cases hp : b.pending with
    | none => rw [take_value_of_none hp]
    | some name =>
      rw [take_value_of_some hp] at h ⊢
      cases hv : v.toValue with
      | ok w =>
        rw [hv] at h
        cases h
      | error e => rfl

/-! ## Calls of which none fails -/

/-- The calls are blocks of calls that give these entries, and then keys that wait for a value. All
keys give names. -/
structure PairedAs (calls : List (MapCall Data)) (blocks : List EntryCalls) (waiting : List Data)
    (es : List (Arg Value)) : Prop where
  calls_eq : calls = blocks.flatMap EntryCalls.calls ++ waiting.map .key
  entries : List.Forall₂ EntryCalls.Gives blocks es
  replaced : ∀ b ∈ blocks, ∀ k ∈ b.replaced, ∃ name, k.NamesEntry name
  waiting : ∀ k ∈ waiting, ∃ name, k.NamesEntry name

/-- The calls fall into blocks, as each value that is taken has a key before it: the last one of those
that wait. -/
theorem exists_pairedAs (h : MapBuilder.empty.Succeeds calls) :
    ∃ blocks waiting, PairedAs calls blocks waiting (MapBuilder.empty.takeAll calls).entries ∧
      ∀ name, (MapBuilder.empty.takeAll calls).pending = some name →
        ∃ k, waiting.getLast? = some k ∧ k.NamesEntry name := by
  induction calls using List.reverseRecOn with
  | nil => exact ⟨[], [], ⟨rfl, .nil, by simp, by simp⟩, nofun⟩
  | append_singleton calls c ih =>
    rw [succeeds_concat] at h
    obtain ⟨blocks, waiting, ⟨hcalls, hentries, hreplaced, hwaiting⟩, hpending⟩ := ih h.1
    rw [takeAll_concat]
    generalize MapBuilder.empty.takeAll calls = b at h hentries hpending
    cases c with
    | key k =>
      by_cases hk : ∃ name, k.NamesEntry name
      · obtain ⟨name, hname⟩ := hk
        rw [take_key hname]
        refine ⟨blocks, waiting ++ [k], ⟨by simp [hcalls], hentries, hreplaced, ?_⟩, ?_⟩
        · simpa [or_imp, forall_and] using ⟨hwaiting, name, hname⟩
        · rintro _ ⟨⟩
          exact ⟨k, by simp, hname⟩
      · obtain ⟨e, htake⟩ := take_key_of_not_names (not_exists.1 hk) b
        rw [htake] at h
        cases h.2
    | value v =>
      cases hp : b.pending with
      | none =>
        rw [take_value_of_none hp] at h
        cases h.2
      | some name =>
        rw [take_value_of_some hp] at h ⊢
        cases hv : v.toValue with
        | error e =>
          rw [hv] at h
          cases h.2
        | ok w =>
          obtain ⟨k, hk, hname⟩ := hpending name hp
          obtain ⟨replaced, rfl⟩ := List.getLast?_eq_some_iff.1 hk
          obtain ⟨hkeys, -⟩ := List.forall_mem_append.1 hwaiting
          refine ⟨blocks ++ [⟨replaced, k, v⟩], [], ⟨by simp [hcalls, EntryCalls.calls], ?_, ?_, by simp⟩, nofun⟩
          · exact List.rel_append hentries (.cons ⟨name, w, hname, hv, rfl⟩ .nil)
          · simpa [or_imp, forall_and] using ⟨hreplaced, hkeys⟩

theorem succeeds_keys {keys : List Data} (h : ∀ k ∈ keys, ∃ name, k.NamesEntry name) (b : MapBuilder) :
    b.Succeeds (keys.map .key) ∧ (b.takeAll (keys.map .key)).entries = b.entries := by
  induction keys generalizing b with
  | nil => exact ⟨trivial, rfl⟩
  | cons k keys ih =>
    obtain ⟨⟨name, hname⟩, hkeys⟩ := List.forall_mem_cons.1 h
    rw [List.map_cons, succeeds_cons, takeAll_cons, take_key hname]
    obtain ⟨hok, hentries⟩ := ih hkeys ⟨b.entries, some name⟩
    exact ⟨⟨rfl, hok⟩, hentries⟩

/-- A block of calls adds the entry that it gives. -/
theorem succeeds_block {e : EntryCalls} {entry : Arg Value} (hkeys : ∀ k ∈ e.replaced, ∃ name, k.NamesEntry name)
    (h : e.Gives entry) (b : MapBuilder) :
    b.Succeeds e.calls ∧ (b.takeAll e.calls).entries = b.entries ++ [entry] := by
  obtain ⟨name, v, hname, hv, rfl⟩ := h
  obtain ⟨hok, hentries⟩ := succeeds_keys hkeys b
  rw [EntryCalls.calls, succeeds_append, takeAll_append, succeeds_cons, takeAll_cons, take_key hname, hentries,
    succeeds_cons, takeAll_cons, take_value_of_some rfl, hv]
  exact ⟨⟨hok, rfl, rfl, trivial⟩, rfl⟩

theorem succeeds_blocks {blocks : List EntryCalls} {es : List (Arg Value)} (h : List.Forall₂ EntryCalls.Gives blocks es)
    (hkeys : ∀ e ∈ blocks, ∀ k ∈ e.replaced, ∃ name, k.NamesEntry name) (b : MapBuilder) :
    b.Succeeds (blocks.flatMap EntryCalls.calls) ∧
      (b.takeAll (blocks.flatMap EntryCalls.calls)).entries = b.entries ++ es := by
  induction h generalizing b with
  | nil => exact ⟨trivial, (List.append_nil _).symm⟩
  | @cons e entry blocks es he _ ih =>
    obtain ⟨hkeys, hrest⟩ := List.forall_mem_cons.1 hkeys
    obtain ⟨hok, hentries⟩ := succeeds_block hkeys he b
    obtain ⟨hoks, hall⟩ := ih hrest (b.takeAll e.calls)
    rw [List.flatMap_cons, succeeds_append, takeAll_append, hall, hentries, List.append_assoc, List.singleton_append]
    exact ⟨⟨hok, hoks⟩, rfl⟩

/-- No call fails exactly if the calls fall into blocks. -/
theorem succeeds_iff_pairedAs {es : List (Arg Value)} :
    MapBuilder.empty.Succeeds calls ∧ (MapBuilder.empty.takeAll calls).entries = es ↔
      ∃ blocks waiting, PairedAs calls blocks waiting es := by
  constructor
  · rintro ⟨hok, rfl⟩
    obtain ⟨blocks, waiting, hpaired, -⟩ := exists_pairedAs hok
    exact ⟨blocks, waiting, hpaired⟩
  · rintro ⟨blocks, waiting, rfl, hgives, hreplaced, hwaiting⟩
    obtain ⟨hoks, hentries⟩ := succeeds_blocks hgives hreplaced .empty
    obtain ⟨hok, hsame⟩ := succeeds_keys hwaiting (MapBuilder.empty.takeAll (blocks.flatMap EntryCalls.calls))
    rw [succeeds_append, takeAll_append, hsame, hentries]
    exact ⟨⟨hoks, hok⟩, rfl⟩

/-! ## Calls of which some may fail -/

/-- Since the last value no key has given a name. -/
def NoKeySince (calls : List (MapCall Data)) : Prop :=
  ∃ (before : List (MapCall Data)) (keys : List Data), calls = before ++ keys.map .key ∧
    (∀ c, before.getLast? = some c → ∃ v, c = .value v) ∧ ∀ k ∈ keys, ∀ name, ¬ k.NamesEntry name

theorem takeAll_keys_of_not_names {keys : List Data} (h : ∀ k ∈ keys, ∀ name, ¬ k.NamesEntry name)
    (b : MapBuilder) : b.takeAll (keys.map .key) = b := by
  induction keys with
  | nil => rfl
  | cons k keys ih =>
    obtain ⟨e, htake⟩ := take_key_of_not_names (h k List.mem_cons_self) b
    rw [List.map_cons, takeAll_cons, htake]
    exact ih fun k' hk' => h k' (List.mem_cons_of_mem _ hk')

theorem pending_of_noKeySince (h : NoKeySince calls) : (MapBuilder.empty.takeAll calls).pending = none := by
  obtain ⟨before, keys, rfl, hlast, hkeys⟩ := h
  rw [takeAll_append, takeAll_keys_of_not_names hkeys]
  induction before using List.reverseRecOn with
  | nil => rfl
  | append_singleton before c =>
    obtain ⟨v, rfl⟩ := hlast c List.getLast?_concat
    rw [takeAll_concat]
    exact pending_take_value _ v

theorem toEntries_cons (b : MapBuilder) (c : MapCall Data) (calls : List (MapCall Data)) :
    Data.toEntries b (c :: calls) = (b.take c).2.bind fun _ => Data.toEntries (b.take c).1 calls := by
  cases c with
  | key k =>
    rw [Data.toEntries, take]
    obtain ⟨_, _ | _⟩ := b.takeKey k.toValue <;> rfl
  | value v =>
    rw [Data.toEntries, take]
    obtain ⟨_, _ | _⟩ := b.takeValue v.toValue <;> rfl

/-- A map has a value when no call fails, and its entries are then those that the calls left. -/
theorem toEntries_eq_ok_iff {es : List (Arg Value)} :
    Data.toEntries b calls = .ok es ↔ b.Succeeds calls ∧ (b.takeAll calls).entries = es := by
  induction calls generalizing b with
  | nil => simp [Data.toEntries, Succeeds, takeAll, eq_comm]
  | cons c calls ih =>
    rw [toEntries_cons, succeeds_cons, takeAll_cons]
    cases (b.take c).2 with
    | error e => simp [Except.bind]
    | ok u => simpa [Except.bind] using ih

/-- In any order of keys and values: if no call has failed, the entries are those of the values so far, each under
the name of the latest key since the value before, and none has failed if all keys give names and all values have
such a key. A value with no key since the last value fails with one message for all values, a call that fails leaves
the entries as they are, and the value of the map has the entries that its calls left. -/
theorem map_pairs_latest_key (calls : List (MapCall Data)) :
    (∀ es, MapBuilder.empty.Succeeds calls ∧ (MapBuilder.empty.takeAll calls).entries = es ↔
      ∃ blocks waiting, PairedAs calls blocks waiting es) ∧
    (NoKeySince calls → ∃ e : DataError, e.kind = .message ∧ ∀ v,
      (MapBuilder.empty.takeAll calls).take (.value v) = (MapBuilder.empty.takeAll calls, .error e)) ∧
    (∀ c e, ((MapBuilder.empty.takeAll calls).take c).2 = .error e →
      ((MapBuilder.empty.takeAll calls).take c).1.entries = (MapBuilder.empty.takeAll calls).entries) ∧
    ∀ es, (Data.map calls).toValue = .ok (.list es) ↔
      MapBuilder.empty.Succeeds calls ∧ (MapBuilder.empty.takeAll calls).entries = es := by
  refine ⟨fun es => succeeds_iff_pairedAs, fun h => ?_, fun c e => entries_of_take_error, fun es => ?_⟩
  · exact ⟨.valueBeforeKey, rfl, take_value_of_none (pending_of_noKeySince h)⟩
  · rw [← toEntries_eq_ok_iff, Data.toValue]
    cases Data.toEntries MapBuilder.empty calls <;> simp [pure, Except.pure, bind, Except.bind]

/-- The second of two keys names the value, and a key without a value is no entry. -/
example : Data.toValue (.map [.key (.text "a"), .key (.signed (-2)), .value (.bool true), .key (.text "b")]) =
    .ok (.list [.named "-2" (.ofBool true)]) := rfl

end MapBuilder

end Quotation
