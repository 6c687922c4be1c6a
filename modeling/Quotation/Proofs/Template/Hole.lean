import Quotation.Template.Expansion
import Quotation.Proofs.Run.Outcome
/-!
# Filling one hole

What a marker makes of the value its source evaluates to, and how it fails. A
failure of the source itself is only ever the reason of the marker's own failure.
Every lemma is about one kind of marker and says all that can happen there, so
nothing later looks into the expansion of a single marker again.
-/

namespace Quotation

/-! ## What values stand for -/

namespace Value

/-- The arguments that a value stands for in a splice: one for each entry of a list,
whose empty names are no names, the arguments of an argument list as they are, and
none for `NULL`. -/
inductive SplicesTo : Value → List (Arg Node) → Prop
  | null : SplicesTo (.scalar .null) []
  | list {entries args} (values : entries.map (·.value.toNode?) = args.map (some ·.value))
      (names : args.map (·.name) = entries.map fun e => if e.name = some "" then none else e.name) :
      SplicesTo (.list entries) args
  | pairlist {args} : SplicesTo (.lang (.pairlist args)) args

/-- The name that a value gives to an argument: a text or a symbol, not empty. -/
inductive NamesArg : Value → String → Prop
  | string {name} : name ≠ "" → NamesArg (.scalar (.string name)) name
  | symbol {name} : name ≠ "" → NamesArg (.lang (.symbol name)) name

/-- The entry of a list is the first one without a node. -/
def FirstUnliftable (entries : List (Arg Value)) (j : Nat) (v : Value) : Prop :=
  entries[j]?.map (·.value) = some v ∧ v.toNode? = none ∧
    ∀ k < j, ∀ e, entries[k]? = some e → e.value.toNode? ≠ none

end Value

namespace Expand

open Run

variable {ev : Evaluator} {env : FrameId} {options : ExpandOptions} {source : Node} {path : Path}
  {s s' : State}

/-! ## Single markers -/

theorem ends_unquote {r : Except Error Node} : (unquote ev env source path).Ends s r s' ↔
    (∃ v, (ev source env).Ends (s.logging (.unquoting source path)) (.ok v) s' ∧
      r = match v.toNode? with
        | some n => .ok n
        | none => .error (.atPath (.unquote (.value v.type)) path)) ∨
    ∃ e, (ev source env).Ends (s.logging (.unquoting source path)) (.error e) s' ∧
      r = .error (.causedBy (.unquote .failed) path e) := by
  unfold unquote
  rw [ends_record_bind, ends_explain_bind]
  refine or_congr_left ⟨?_, ?_⟩
  · rintro ⟨v, t, hv, h⟩
    cases hn : v.toNode? <;> simp only [hn, ends_pure, ends_failAt] at h <;> obtain ⟨rfl, rfl⟩ := h <;>
      exact ⟨v, hv, by rw [hn]⟩
  · rintro ⟨v, hv, rfl⟩
    refine ⟨v, s', hv, ?_⟩
    cases hn : v.toNode? <;> simp

theorem ends_unquote_ok {n : Node} : (unquote ev env source path).Ends s (.ok n) s' ↔
    ∃ v, (ev source env).Ends (s.logging (.unquoting source path)) (.ok v) s' ∧ v.toNode? = some n := by
  rw [ends_unquote]
  constructor
  · rintro (⟨v, hv, hn⟩ | ⟨_, _, hbad⟩)
    · cases h : v.toNode? <;> rw [h] at hn <;> cases hn
      exact ⟨v, hv, h⟩
    · cases hbad
  · rintro ⟨v, hv, hn⟩
    exact .inl ⟨v, hv, by rw [hn]⟩

/-! ## Splices -/

theorem firstUnliftable_cons {e : Arg Value} {entries : List (Arg Value)} {k : Nat} {n : Node} {v : Value}
    (hn : e.value.toNode? = some n) (h : Value.FirstUnliftable entries k v) :
    Value.FirstUnliftable (e :: entries) (k + 1) v := by
  refine ⟨h.1, h.2.1, fun i hi e' he' => ?_⟩
  cases i with
  | zero =>
    cases he'
    simp [hn]
  | succ i => exact h.2.2 i (by omega) e' he'

theorem splicesTo_cons {e : Arg Value} {entries : List (Arg Value)} {n : Node} {as : List (Arg Node)}
    (hn : e.value.toNode? = some n) (h : (Value.list entries).SplicesTo as) :
    (Value.list (e :: entries)).SplicesTo (⟨e.name.filter (!·.isEmpty), n⟩ :: as) := by
  cases h with
  | list values names =>
    refine .list (by simp [hn, values]) ?_
    simp only [List.map_cons, names, List.cons.injEq, and_true]
    rcases e.name with _ | name
    · rfl
    · by_cases hname : name = "" <;> simp [Option.filter, hname]

/-- The entries of a list are tried in order, up to the first one without a node. -/
theorem ends_spliceEntries {j : Nat} {entries : List (Arg Value)} {r : Except Error (List (Arg Node))}
    (h : (spliceEntries path j entries).Ends s r s') :
    s' = s ∧ ((∃ as, r = .ok as ∧ (Value.list entries).SplicesTo as) ∨
      ∃ k v, Value.FirstUnliftable entries k v ∧
        r = .error (.atPath (.splice (.value v.type)) (path ++ [.arg (j + k)]))) := by
  induction entries generalizing j r s' with
  | nil =>
    simp only [spliceEntries, ends_pure] at h
    exact ⟨h.2, .inl ⟨[], h.1, .list rfl rfl⟩⟩
  | cons e es ih =>
    unfold spliceEntries at h
    cases hn : e.value.toNode? with
    | none =>
      simp only [hn, ends_failAt] at h
      exact ⟨h.2, .inr ⟨0, e.value, ⟨rfl, hn, by omega⟩, h.1⟩⟩
    | some n =>
      simp only [hn, ends_bind, ends_pure] at h
      rcases h with ⟨as, t, has, rfl, rfl⟩ | ⟨err, herr, rfl⟩
      · obtain ⟨hs, ⟨_, hok, hto⟩ | ⟨_, _, _, hbad⟩⟩ := ih has
        · cases hok
          exact ⟨hs, .inl ⟨_, rfl, splicesTo_cons hn hto⟩⟩
        · cases hbad
      · obtain ⟨hs, ⟨_, hok, _⟩ | ⟨k, v, hk, hbad⟩⟩ := ih herr
        · cases hok
        · refine ⟨hs, .inr ⟨k + 1, v, firstUnliftable_cons hn hk, ?_⟩⟩
          rw [hbad, Nat.add_right_comm, Nat.add_assoc]

/-- What a value gives in a splice: arguments, a failure at the first entry that has
no node, or a failure at the splice itself. -/
theorem ends_splicedArgs {v : Value} {r : Except Error (List (Arg Node))}
    (h : (splicedArgs options path v).Ends s r s') :
    s' = s ∧ ((∃ as, r = .ok as ∧ v.SplicesTo as) ∨
      (∃ entries k u, v = .list entries ∧ Value.FirstUnliftable entries k u ∧
        r = .error (.atPath (.splice (.value u.type)) (path ++ [.arg k]))) ∨
      (∀ entries, v ≠ .list entries) ∧ r = .error (.atPath (.splice (.value v.type)) path)) := by
  unfold splicedArgs at h
  split at h
  · split at h
    · rw [ends_pure] at h
      exact ⟨h.2, .inl ⟨[], h.1, .null⟩⟩
    · rw [ends_failAt] at h
      exact ⟨h.2, .inr (.inr ⟨nofun, h.1⟩)⟩
  · rename_i entries
    obtain ⟨hs, hok | ⟨k, u, hk, hbad⟩⟩ := ends_spliceEntries h
    · exact ⟨hs, .inl hok⟩
    · exact ⟨hs, .inr (.inl ⟨entries, k, u, rfl, hk, by simpa using hbad⟩)⟩
  · rw [ends_pure] at h
    exact ⟨h.2, .inl ⟨_, h.1, .pairlist⟩⟩
  · rename_i hnull hlist hpairlist
    rw [ends_failAt] at h
    exact ⟨h.2, .inr (.inr ⟨hlist, h.1⟩)⟩

theorem ends_splice {r : Except Error (List (Arg Node))} : (splice ev env options source path).Ends s r s' ↔
    (∃ v t, (ev source env).Ends (s.logging (.splicing source path)) (.ok v) t ∧
      (splicedArgs options path v).Ends t r s') ∨
    ∃ e, (ev source env).Ends (s.logging (.splicing source path)) (.error e) s' ∧
      r = .error (.causedBy (.splice .failed) path e) := by
  unfold splice
  rw [ends_record_bind, ends_explain_bind]

theorem splicesTo_of_ends_splice {as : List (Arg Node)}
    (h : (splice ev env options source path).Ends s (.ok as) s') :
    ∃ v, (ev source env).Ends (s.logging (.splicing source path)) (.ok v) s' ∧ v.SplicesTo as := by
  obtain ⟨v, t, hv, has⟩ | ⟨_, _, hbad⟩ := ends_splice.1 h
  · obtain ⟨rfl, ⟨_, hok, hto⟩ | ⟨_, _, _, _, _, hbad⟩ | ⟨_, hbad⟩⟩ := ends_splicedArgs has
    · cases hok
      exact ⟨v, hv, hto⟩
    · cases hbad
    · cases hbad
  · cases hbad

/-! ## Names of definitions -/

theorem nameOf_eq_ok_iff {v : Value} {name : String} : nameOf v = .ok name ↔ v.NamesArg name := by
  constructor
  · intro h
    unfold nameOf at h
    split at h
    · split at h <;> cases h
      exact .string (by simp_all)
    · split at h <;> cases h
      exact .symbol (by simp_all)
    · cases h
  · rintro (h | h) <;> simp [nameOf, h]

theorem ends_definitionName {r : Except Error String} : (definitionName ev env source path).Ends s r s' ↔
    (∃ v, (ev source env).Ends s (.ok v) s' ∧
      r = (nameOf v).mapError fun what => .atPath (.definitionName what) path) ∨
    ∃ e, (ev source env).Ends s (.error e) s' ∧
      r = .error (.causedBy (.definitionName .failed) path e) := by
  unfold definitionName
  rw [ends_explain_bind]
  refine or_congr_left ⟨?_, ?_⟩
  · rintro ⟨v, t, hv, h⟩
    cases hn : nameOf v <;> simp only [hn, ends_pure, ends_failAt] at h <;> obtain ⟨rfl, rfl⟩ := h <;>
      exact ⟨v, hv, by rw [hn]; rfl⟩
  · rintro ⟨v, hv, rfl⟩
    refine ⟨v, s', hv, ?_⟩
    cases nameOf v with
    | ok name => exact ends_pure.2 ⟨rfl, rfl⟩
    | error what => exact ends_failAt.2 ⟨rfl, rfl⟩

theorem ends_definitionName_ok {name : String} : (definitionName ev env source path).Ends s (.ok name) s' ↔
    ∃ v, (ev source env).Ends s (.ok v) s' ∧ v.NamesArg name := by
  rw [ends_definitionName]
  constructor
  · rintro (⟨v, hv, hname⟩ | ⟨_, _, hbad⟩)
    · cases h : nameOf v <;> rw [h] at hname <;> cases hname
      exact ⟨v, hv, nameOf_eq_ok_iff.1 h⟩
    · cases hbad
  · rintro ⟨v, hv, hname⟩
    exact .inl ⟨v, hv, by rw [nameOf_eq_ok_iff.2 hname]; rfl⟩

end Expand

end Quotation
