import Quotation.Proofs.Data.Pairing
import Quotation.Proofs.Eval.Forwarding
import Quotation.Proofs.Template.Joining
import Quotation.Proofs.Template.Sources
import Quotation.Proofs.Text.Conventions
/-!
# Data spliced into calls

Sequences, tuples, maps and structures become lists, and a splice makes one argument of each entry of a
list. On the way from data to call the elements keep their order and their names, and data that is no
list arrives as a constant. So a call that is built of such data has its elements for arguments, or
fails on the first of them that is a list itself (`splicing_data_gives_elements`).
-/

namespace Quotation

/-! ## Elements -/

/-- The data is a sequence, tuple, map or structure, all fields of which have names. What is optional
or wrapped is what it holds. -/
def Data.IsRecord : Data → Prop
  | .sequence _ | .tuple _ | .tupleStruct _ | .map _ => True
  | .struct fields => ∀ f ∈ fields, f.1 ≠ ""
  | .some d | .newtypeStruct d => d.IsRecord
  | _ => False

/-- The element that a block of calls gives a map. -/
def EntryCalls.HoldsElement (b : EntryCalls) (e : Arg Data) : Prop :=
  ∃ name, b.key.NamesEntry name ∧ e = .named name b.value

/-- The elements that data holds, with the names they go under. A map has one for each block of its
calls. -/
inductive Data.HasElements : Data → List (Arg Data) → Prop where
  | sequence (items : List Data) : HasElements (.sequence items) (items.map .unnamed)
  | tuple (items : List Data) : HasElements (.tuple items) (items.map .unnamed)
  | tupleStruct (items : List Data) : HasElements (.tupleStruct items) (items.map .unnamed)
  | map {blocks : List EntryCalls} {elements : List (Arg Data)} (waiting : List Data)
    (h : List.Forall₂ EntryCalls.HoldsElement blocks elements) :
    HasElements (.map (blocks.flatMap EntryCalls.calls ++ waiting.map .key)) elements
  | struct (fields : List (String × Data)) : HasElements (.struct fields) (fields.map fun f => .named f.1 f.2)
  | some {d : Data} {elements : List (Arg Data)} (h : HasElements d elements) : HasElements (.some d) elements
  | newtypeStruct {d : Data} {elements : List (Arg Data)} (h : HasElements d elements) :
    HasElements (.newtypeStruct d) elements

/-- The value of the data is a list. -/
def Data.GivesList (d : Data) : Prop := ∃ entries, d.toValue = .ok (.list entries)

/-- The element with this index is the first one whose value is a list. -/
inductive FirstList : List (Arg Data) → Nat → Prop where
  | here {e : Arg Data} (es : List (Arg Data)) (h : e.value.GivesList) : FirstList (e :: es) 0
  | behind {e : Arg Data} {es : List (Arg Data)} {j : Nat} (h : ¬ e.value.GivesList) (hes : FirstList es j) :
    FirstList (e :: es) (j + 1)

/-- The entry of a list that an element becomes. -/
def BecomesEntry (e : Arg Data) (entry : Arg Value) : Prop :=
  entry.name = e.name ∧ e.value.toValue = .ok entry.value

/-- The argument of a call that an element becomes. -/
def BecomesArg (e : Arg Data) (a : Arg Node) : Prop :=
  a.name = e.name ∧ ∃ c, e.value.toValue = .ok (.scalar c) ∧ a.value = .const c

/-! ## From elements to entries -/

/-- What is not a list becomes a constant. -/
theorem Data.scalar_or_list {v : Value} : ∀ {d : Data}, d.toValue = .ok v →
    (∃ c, v = .scalar c) ∨ ∃ entries, v = .list entries
  | .some d, h => scalar_or_list (d := d) h
  | .newtypeStruct d, h => scalar_or_list (d := d) h
  | .bool _, h | .signed _, h | .char _, h | .text _, h | .none, h | .unit, h | .unitStruct, h | .unitVariant _, h => by
    cases h
    exact .inl ⟨_, rfl⟩
  | .unsigned n, h => by
    rw [Data.toValue, Data.ofNatural] at h
    split at h <;> cases h
    exact .inl ⟨_, rfl⟩
  | .single _, h | .double _, h => by
    rw [Data.toValue, Data.ofDouble] at h
    split at h <;> cases h
    exact .inl ⟨_, rfl⟩
  | .bytes _, h => by
    cases h
    exact .inr ⟨_, rfl⟩
  | .newtypeVariant _ _, h | .sequence _, h | .tuple _, h | .tupleStruct _, h | .tupleVariant _ _, h | .map _, h
  | .struct _, h | .structVariant _ _, h => by
    obtain ⟨_, -, ⟨⟩⟩ := bind_eq_ok_iff.1 h
    exact .inr ⟨_, rfl⟩
  | .wide _, h | .failure _, h => nomatch h

theorem forall₂_of_toValues_eq_ok {ds : List Data} {vs : List Value} (h : Data.toValues ds = .ok vs) :
    List.Forall₂ BecomesEntry (ds.map .unnamed) (vs.map .unnamed) := by
  induction ds generalizing vs with
  | nil =>
    cases h
    exact .nil
  | cons d ds ih =>
    obtain ⟨v, hv, hrest⟩ := bind_eq_ok_iff.1 h
    obtain ⟨vs, hvs, ⟨⟩⟩ := bind_eq_ok_iff.1 hrest
    exact .cons ⟨rfl, hv⟩ (ih hvs)

theorem forall₂_of_toFields_eq_ok {fields : List (String × Data)} {es : List (Arg Value)}
    (h : Data.toFields fields = .ok es) :
    List.Forall₂ BecomesEntry (fields.map fun f => .named f.1 f.2) es := by
  induction fields generalizing es with
  | nil =>
    cases h
    exact .nil
  | cons f fields ih =>
    obtain ⟨v, hv, hrest⟩ := bind_eq_ok_iff.1 h
    obtain ⟨es, hes, ⟨⟩⟩ := bind_eq_ok_iff.1 hrest
    exact .cons ⟨rfl, hv⟩ (ih hes)

theorem Names.ne_empty {v : Value} {name : String} (h : Names v name) : name ≠ "" := by
  cases h with
  | string h => exact h
  | int n =>
    intro hempty
    rw [← Number.display_int, Number.display, Number.text, String.ofList_eq_empty_iff] at hempty
    rcases Int.lt_or_le n.toInt 0 with hn | hn
    · rw [writesIntegers.negative _ hn] at hempty
      cases hempty
    · rw [writesIntegers.nonneg _ hn] at hempty
      exact writesNaturals.ne_nil _ hempty

/-- Blocks of calls that give these entries have elements that become them. -/
theorem exists_elements_of_gives {blocks : List EntryCalls} {es : List (Arg Value)}
    (h : List.Forall₂ EntryCalls.Gives blocks es) :
    ∃ elements, List.Forall₂ EntryCalls.HoldsElement blocks elements ∧ List.Forall₂ BecomesEntry elements es ∧
      ∀ e ∈ elements, e.name ≠ some "" := by
  induction h with
  | nil => exact ⟨[], .nil, .nil, List.forall_mem_nil _⟩
  | @cons b entry blocks es hb _ ih =>
    obtain ⟨name, v, hname, hv, rfl⟩ := hb
    obtain ⟨elements, hblocks, hes, hnames⟩ := ih
    refine ⟨.named name b.value :: elements, .cons ⟨name, hname, rfl⟩ hblocks, .cons ⟨rfl, hv⟩ hes, ?_⟩
    obtain ⟨key, -, hkey⟩ := hname
    exact List.forall_mem_cons.2 ⟨fun h => hkey.ne_empty (Option.some.inj h), hnames⟩

/-- Items become entries, and neither have names. -/
theorem exists_entries_of_items {items : List Data} {v : Value}
    (h : (do return Data.unnamed (← Data.toValues items)) = .ok v) :
    ∃ entries, v = .list entries ∧ List.Forall₂ BecomesEntry (items.map .unnamed) entries ∧
      ∀ e ∈ items.map Arg.unnamed, e.name ≠ some "" := by
  obtain ⟨vs, hvs, ⟨⟩⟩ := bind_eq_ok_iff.1 h
  exact ⟨_, rfl, forall₂_of_toValues_eq_ok hvs, by simp [Arg.unnamed]⟩

/-- The value of a record is the list of what its elements become, none of which has an empty name. -/
theorem exists_elements {v : Value} : ∀ {d : Data}, d.IsRecord → d.toValue = .ok v →
    ∃ elements entries, d.HasElements elements ∧ v = .list entries ∧ List.Forall₂ BecomesEntry elements entries ∧
      ∀ e ∈ elements, e.name ≠ some ""
  | .some d, hd, hv =>
    have ⟨elements, entries, helements, hrest⟩ := exists_elements (d := d) hd hv
    ⟨elements, entries, .some helements, hrest⟩
  | .newtypeStruct d, hd, hv =>
    have ⟨elements, entries, helements, hrest⟩ := exists_elements (d := d) hd hv
    ⟨elements, entries, .newtypeStruct helements, hrest⟩
  | .sequence items, _, hv =>
    have ⟨entries, hentries⟩ := exists_entries_of_items hv
    ⟨_, entries, .sequence items, hentries⟩
  | .tuple items, _, hv =>
    have ⟨entries, hentries⟩ := exists_entries_of_items hv
    ⟨_, entries, .tuple items, hentries⟩
  | .tupleStruct items, _, hv =>
    have ⟨entries, hentries⟩ := exists_entries_of_items hv
    ⟨_, entries, .tupleStruct items, hentries⟩
  | .map calls, _, hv => by
    obtain ⟨es, hes, ⟨⟩⟩ := bind_eq_ok_iff.1 hv
    obtain ⟨hok, rfl⟩ := MapBuilder.toEntries_eq_ok_iff.1 hes
    obtain ⟨blocks, waiting, ⟨rfl, hgives, -, -⟩⟩ := MapBuilder.succeeds_iff_pairedAs.1 ⟨hok, rfl⟩
    obtain ⟨elements, hblocks, hrest⟩ := exists_elements_of_gives hgives
    exact ⟨elements, _, .map waiting hblocks, rfl, hrest⟩
  | .struct fields, hd, hv => by
    obtain ⟨es, hes, ⟨⟩⟩ := bind_eq_ok_iff.1 hv
    refine ⟨_, _, .struct fields, rfl, forall₂_of_toFields_eq_ok hes, ?_⟩
    exact List.forall_mem_map.2 fun f hf h => hd f hf (Option.some.inj h)

/-! ## From entries to arguments -/

/-- An element is no list and its entry has a constant for its node, or it is one and the entry has no
node. -/
theorem BecomesEntry.constant_or_list {e : Arg Data} {entry : Arg Value} (h : BecomesEntry e entry) :
    (¬ e.value.GivesList ∧ ∃ c, e.value.toValue = .ok (.scalar c) ∧ entry.value.toNode? = some (.const c)) ∨
      e.value.GivesList ∧ entry.value.toNode? = none ∧ entry.value.type = .list := by
  obtain ⟨c, hc⟩ | ⟨entries, hentries⟩ := Data.scalar_or_list h.2
  · refine .inl ⟨?_, c, hc ▸ h.2, by rw [hc]; rfl⟩
    rintro ⟨entries, hlist⟩
    rw [h.2, hc] at hlist
    cases hlist
  · exact .inr ⟨⟨entries, hentries ▸ h.2⟩, by rw [hentries]; exact ⟨rfl, rfl⟩⟩

variable {elements : List (Arg Data)} {entries : List (Arg Value)}

theorem forall₂_becomesArg (h : List.Forall₂ BecomesEntry elements entries)
    (hnames : ∀ e ∈ elements, e.name ≠ some "") {args : List (Arg Node)} (hargs : (Value.list entries).SplicesTo args) :
    List.Forall₂ BecomesArg elements args := by
  rcases hargs with _ | ⟨hvalues, hargNames⟩
  induction h generalizing args with
  | nil =>
    rw [List.map_eq_nil_iff.1 hvalues.symm]
    exact .nil
  | @cons e entry elements entries he hrest ih =>
    cases args with
    | nil => cases hvalues
    | cons a args =>
      simp only [List.map_cons, List.cons.injEq] at hvalues hargNames
      obtain ⟨hname, hnames⟩ := List.forall_mem_cons.1 hnames
      refine .cons ⟨?_, ?_⟩ (ih hnames hvalues.2 hargNames.2)
      · rw [hargNames.1, he.1, if_neg hname]
      · obtain ⟨-, c, hc, hnode⟩ | ⟨-, hnone, -⟩ := he.constant_or_list
        · rw [hnode] at hvalues
          exact ⟨c, hc, (Option.some.inj hvalues.1).symm⟩
        · rw [hnone] at hvalues
          cases hvalues.1

theorem firstList_of_firstUnliftable (h : List.Forall₂ BecomesEntry elements entries) {j : Nat} {u : Value}
    (hu : Value.FirstUnliftable entries j u) : FirstList elements j ∧ u.type = .list := by
  obtain ⟨hj, hnone, hbefore⟩ := hu
  induction h generalizing j with
  | nil => cases hj
  | @cons e entry elements entries he hrest ih =>
    cases j with
    | zero =>
      cases hj
      obtain ⟨-, c, -, hnode⟩ | ⟨hlist, -, htype⟩ := he.constant_or_list
      · rw [hnode] at hnone
        cases hnone
      · exact ⟨.here elements hlist, htype⟩
    | succ j =>
      obtain ⟨hfirst, htype⟩ := ih hj fun k hk => hbefore (k + 1) (Nat.succ_lt_succ hk)
      obtain ⟨hlist, -⟩ | ⟨-, hnode, -⟩ := he.constant_or_list
      · exact ⟨.behind hlist hfirst, htype⟩
      · exact absurd hnode (hbefore 0 j.succ_pos entry rfl)

theorem not_givesList_of_becomesArg {args : List (Arg Node)} (h : List.Forall₂ BecomesArg elements args) :
    ∀ e ∈ elements, ¬ e.value.GivesList := by
  induction h with
  | nil => exact List.forall_mem_nil _
  | cons he _ ih =>
    refine List.forall_mem_cons.2 ⟨?_, ih⟩
    rintro ⟨entries, hlist⟩
    obtain ⟨-, c, hc, -⟩ := he
    rw [hc] at hlist
    cases hlist

theorem FirstList.exists_givesList {j : Nat} (h : FirstList elements j) : ∃ e ∈ elements, e.value.GivesList := by
  induction h with
  | here es h => exact ⟨_, List.mem_cons_self, h⟩
  | behind _ _ ih =>
    obtain ⟨e, he, hlist⟩ := ih
    exact ⟨e, List.mem_cons_of_mem _ he, hlist⟩

/-! ## Calls -/

open Run

variable {env : FrameId} {s t : State} {c : Callee} {head : Node}

/-- A call with one splice fails as its splice does, or has the arguments of that. -/
theorem ends_buildCall_splice {ev : Evaluator} {source : Node} (hc : c.head = .ok head) (hhead : head.isHead = true)
    {r : Except Error (List (Arg Node))}
    (h : (Expand.splice ev env { maxDepth := 127 } source [.arg 0]).Ends (s.logging (.building head)) r t) :
    (buildCall ev env {} c [.splice source]).Ends s (r.map (.call head)) t := by
  have hdeeper := @buildCall_deeper ev env { maxDepth := 127 } c head hc hhead [.splice source]
  change buildCall ev env {} c [.splice source] = _ at hdeeper
  rw [hdeeper, ends_record_bind]
  cases r with
  | error e => exact ends_bind.2 (.inr ⟨e, ends_bind.2 (.inr ⟨e, h, rfl⟩), rfl⟩)
  | ok as =>
    have hargs : (expandArgs ev env { maxDepth := 127 } [.splice source]).Ends (s.logging (.building head))
        (.ok (as ++ [])) t :=
      ends_bind_ok.2 ⟨as, t, h, ends_bind_ok.2 ⟨[], t, ends_pure.2 ⟨rfl, rfl⟩, ends_pure.2 ⟨rfl, rfl⟩⟩⟩
    rw [List.append_nil] at hargs
    exact ends_bind_ok.2 ⟨as, t, hargs, ends_pure.2 ⟨rfl, rfl⟩⟩

/-- What the entries of a list give, if they are what elements became. -/
theorem ends_splicedArgs_of_becomesEntry (h : List.Forall₂ BecomesEntry elements entries)
    (hnames : ∀ e ∈ elements, e.name ≠ some "") (options : ExpandOptions) (path : Path) (s : State) :
    (∃ args, List.Forall₂ BecomesArg elements args ∧
        (Expand.splicedArgs options path (.list entries)).Ends s (.ok args) s) ∨
      ∃ j, FirstList elements j ∧ (Expand.splicedArgs options path (.list entries)).Ends s
        (.error (.atPath (.splice (.value .list)) (path ++ [.arg j]))) s := by
  obtain ⟨r, hr⟩ : ∃ r, (Expand.splicedArgs options path (.list entries)).Ends s r s := still_splicedArgs path _ s
  obtain ⟨-, ⟨args, rfl, hargs⟩ | ⟨_, j, u, hlist, hu, rfl⟩ | ⟨hlist, -⟩⟩ := Expand.ends_splicedArgs hr
  · exact .inl ⟨args, forall₂_becomesArg h hnames hargs, hr⟩
  · cases hlist
    obtain ⟨hfirst, htype⟩ := firstList_of_firstUnliftable h hu
    exact .inr ⟨j, hfirst, htype ▸ hr⟩
  · exact absurd rfl (hlist entries)

/-- A call that splices a variable is built of the elements of the data whose value the variable holds: if none of
them is a list, it has one argument for each, in order, a constant under the name of the element; otherwise it is not
built, for the first one that is a list. -/
theorem splicing_data_gives_elements {n : Nat} (hc : c.head = .ok head) (hhead : head.isHead = true) {x : String}
    (hx : x ≠ "") {d : Data} (hd : d.IsRecord) {v : Value} (hv : d.toValue = .ok v)
    (hbound : s.store.get? env x = some (.value v)) :
    ∃ elements r t, d.HasElements elements ∧ (buildCall (eval (n + 1)) env {} c [.splice (.symbol x)]).Ends s r t ∧
      ((∃ call, r = .ok call) ↔ ∀ e ∈ elements, ¬ e.value.GivesList) ∧
      (∀ call, r = .ok call → ∃ args, call = .call head args ∧ List.Forall₂ BecomesArg elements args) ∧
      ((∃ e ∈ elements, e.value.GivesList) → ∃ j, FirstList elements j ∧
        r = .error (.atPath (.splice (.value .list)) [.arg 0, .arg j])) := by
  obtain ⟨elements, entries, helements, rfl, hentries, hnames⟩ := exists_elements hd hv
  let t := (s.logging (.building head)).logging (.splicing (.symbol x) [.arg 0])
  have hvalue : (eval (n + 1) (.symbol x) env).Ends t (.ok (.list entries)) t :=
    ends_eval_of_value (by simpa using hx) (show t.store.get? env x = _ from hbound) n
  have hsplice {r : Except Error (List (Arg Node))}
      (hr : (Expand.splicedArgs { maxDepth := 127 } [.arg 0] (.list entries)).Ends t r t) :
      (buildCall (eval (n + 1)) env {} c [.splice (.symbol x)]).Ends s (r.map (.call head)) t :=
    ends_buildCall_splice hc hhead (Expand.ends_splice.2 (.inl ⟨_, t, hvalue, hr⟩))
  obtain ⟨args, hargs, hr⟩ | ⟨j, hfirst, hr⟩ :=
    ends_splicedArgs_of_becomesEntry hentries hnames { maxDepth := 127 } [.arg 0] t
  · have hnone := not_givesList_of_becomesArg hargs
    refine ⟨elements, _, t, helements, hsplice hr, iff_of_true ⟨_, rfl⟩ hnone, ?_, ?_⟩
    · rintro _ ⟨⟩
      exact ⟨args, rfl, hargs⟩
    · rintro ⟨e, he, hlist⟩
      exact absurd hlist (hnone e he)
  · obtain ⟨e, he, hlist⟩ := hfirst.exists_givesList
    refine ⟨elements, _, t, helements, hsplice hr, iff_of_false nofun fun h => h e he hlist, nofun, ?_⟩
    exact fun _ => ⟨j, hfirst, rfl⟩

/-- Of a structure with a sequence and then a variant that holds data, the sequence is reported. -/
theorem splicing_data_gives_elements_nested :
    let d : Data := .struct [("n", .some (.signed 1)), ("flags", .sequence [.bool true]),
      ("v", .newtypeVariant "a" .unit)]
    let v : Value := .list [.named "n" (.ofInt 1), .named "flags" (.list [.unnamed (.ofBool true)]),
      .named "v" (.list [.named "a" .null])]
    d.IsRecord ∧ d.toValue = .ok v ∧
      ∃ t, (buildCall (eval 1) 0 {} (.name "f") [.splice (.symbol "x")]).Ends (State.ofBindings [("x", .value v)])
        (.error (.atPath (.splice (.value .list)) [.arg 0, .arg 1])) t := by
  intro d v
  have hd : d.IsRecord := by simp [d, Data.IsRecord]
  have hbound : (State.ofBindings [("x", .value v)]).store.get? 0 "x" = some (.value v) := rfl
  obtain ⟨elements, r, t, helements, hr, -, -, hfirst⟩ := splicing_data_gives_elements (n := 0) (c := .name "f")
    rfl rfl (by decide : "x" ≠ "") hd rfl hbound
  refine ⟨hd, rfl, t, ?_⟩
  subst d
  cases helements
  obtain ⟨j, hj, rfl⟩ := hfirst ⟨_, .tail _ (.head _), _, rfl⟩
  cases hj with
  | here _ h =>
    obtain ⟨_, hn⟩ := h
    cases hn
  | behind _ h => cases h with
    | here _ _ => exact hr
    | behind h _ => exact absurd ⟨_, rfl⟩ h

end Quotation
