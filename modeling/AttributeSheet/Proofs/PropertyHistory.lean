/-
  AttributeSheet.Proofs.PropertyHistory — the properties of a declaration, told by its history.

  What is asked of a declaration comes to acts on its names (`Change.acts`), and these
  tell what the declaration holds. A call that writes is looked at before it does
  anything, so if it is refused it comes to no act.

  Removing is not like that. The names are come to one by one and nothing is looked at
  before: where a member is met that no map can hold, or where the names that are gone
  over are those of the declaration itself, the call fails with some of the names already
  gone (`run_remove`, `removal_fails_half_done`). Which names these are, and for which removals it fails
  at all, is told by what is handed in and by the names that are there (`Names.reached`,
  `Names.refusal?`).
-/
import AttributeSheet.Proofs.MapHistory
import AttributeSheet.Proofs.SelectorTexts

namespace AttributeSheet

def Foreign.name? : Foreign → Option String
  | text s => some s
  | null | boolean | integer | decimal | array _ | object _ | selector => none

namespace Declaration

open OrderedMap (Act)

variable {d : Declaration} {c : Change} {m : Misuse}

/-! ## Removing -/

def without (d : Declaration) (names : List String) : Declaration :=
  { d with properties := ⟨d.properties.entries.filter fun p => p.1 ∉ names⟩ }

theorem without_nil (d : Declaration) : d.without [] = d := by simp [without]

theorem without_without (d : Declaration) (names more : List String) :
    (d.without names).without more = d.without (names ++ more) := by
  simp [without, List.filter_filter, List.mem_append, not_or, Bool.and_comm]

theorem without_singleton (d : Declaration) (name : String) :
    d.without [name] = { d with properties := d.properties.erase name } := by
  simp [without, OrderedMap.erase]

theorem keys_without (d : Declaration) (names : List String) :
    (d.without names).properties.keys = d.properties.keys.filter (· ∉ names) := by
  show (d.properties.entries.filter fun p => p.1 ∉ names).map (·.1) = (d.properties.entries.map (·.1)).filter (· ∉ names)
  rw [List.filter_map]
  rfl

theorem without_eq_self_iff {names : List String} :
    d.without names = d ↔ ∀ name ∈ names, name ∉ d.properties.keys := by
  constructor
  · intro h name hname hkey
    have hkeys := keys_without d names
    rw [h] at hkeys
    rw [hkeys, List.mem_filter] at hkey
    simp [hname] at hkey
  · intro h
    have hall : (d.properties.entries.filter fun p => p.1 ∉ names) = d.properties.entries := by
      refine List.filter_eq_self.mpr fun p hp => ?_
      simpa using fun hname => h p.1 hname (List.mem_map_of_mem hp)
    rw [without, hall]

theorem run_pop_text (name : String) (d : Declaration) : (pop (.text name)).run.run d = (.ok (), d.without [name]) := by
  rw [without_singleton]
  rfl

theorem run_pop_hashable {v : Foreign} (h : v.isHashable = true) (d : Declaration) :
    (pop v).run.run d = (.ok (), d.without v.name?.toList) := by
  cases v with
  | text s => exact run_pop_text s d
  | array items => cases h
  | object keys => cases h
  | null | boolean | integer | decimal | selector =>
    rw [Foreign.name?, Option.toList_none, without_nil]
    rfl

/-- What no map can hold is looked up only where there is something to look through. -/
theorem run_pop_unhashable {v : Foreign} (h : v.isHashable = false) (d : Declaration) :
    (pop v).run.run d = (if d.properties.keys = [] then .ok () else .error (.unhashable v.kindName), d) := by
  obtain ⟨x, ⟨entries⟩⟩ := d
  cases v with
  | array items | object keys => cases entries <;> rfl
  | null | boolean | integer | decimal | selector | text => cases h

/-- The names that stand before the first member that no map can hold. -/
def namesBefore (members : List Foreign) : List String := (members.takeWhile Foreign.isHashable).filterMap Foreign.name?

/-- The names that are gone after a removal, whether it comes off or fails. -/
def Names.reached (d : Declaration) : Names → List String
  | .own => d.properties.keys.take 1
  | .value (.text name) => [name]
  | .value v => namesBefore (v.members?.getD [])

/-- A member that no map can hold, if there are properties left when it is come to. -/
def memberRefusal? (d : Declaration) (members : List Foreign) : Option Misuse :=
  if (d.without (namesBefore members)).properties.keys = [] then none
  else (members.find? fun v => !v.isHashable).map fun v => .unhashable v.kindName

def Names.refusal? (d : Declaration) : Names → Option Misuse
  | .own => if d.properties.keys = [] then none else some .sizeChanged
  | .value (.text _) => none
  | .value v =>
    match v.members? with
    | some members => memberRefusal? d members
    | none => some (.notIterable v.kindName)

def answered : Option Misuse → Except Misuse Unit
  | none => .ok ()
  | some m => .error m

/-- Where no property is left, nothing more can fail or be taken out. -/
theorem run_pops_nothing (members : List Foreign) (h : d.properties.keys = []) :
    (members.forM pop).run.run d = (.ok (), d) := by
  have hgone : ∀ names, d.without names = d := fun names =>
    without_eq_self_iff.mpr fun name _ hkey => by rw [h] at hkey; cases hkey
  induction members with
  | nil => rfl
  | cons v members ih =>
    have hpop : (pop v).run.run d = (.ok (), d) := by
      cases hv : v.isHashable with
      | true => rw [run_pop_hashable hv, hgone]
      | false => rw [run_pop_unhashable hv, if_pos h]
    exact (Attempt.run_bind_ok hpop fun _ => members.forM pop).trans ih

theorem run_pops (members : List Foreign) (d : Declaration) :
    (members.forM pop).run.run d = (answered (memberRefusal? d members), d.without (namesBefore members)) := by
  induction members generalizing d with
  | nil =>
    have hnothing : memberRefusal? d [] = none := ite_self none
    rw [hnothing, namesBefore, List.takeWhile_nil, List.filterMap_nil, without_nil]
    rfl
  | cons v members ih =>
    cases hv : v.isHashable with
    | true =>
      have hnames : namesBefore (v :: members) = v.name?.toList ++ namesBefore members := by
        cases hname : v.name? <;> simp [namesBefore, hv, hname]
      have hrefusal : memberRefusal? d (v :: members) = memberRefusal? (d.without v.name?.toList) members := by
        rw [memberRefusal?, memberRefusal?, without_without, hnames, List.find?_cons_of_neg (by simp [hv])]
      rw [hrefusal, hnames, ← without_without]
      exact (Attempt.run_bind_ok (run_pop_hashable hv d) fun _ => members.forM pop).trans (ih _)
    | false =>
      have hnames : namesBefore (v :: members) = [] := by simp [namesBefore, hv]
      have hpop := run_pop_unhashable hv d
      by_cases hempty : d.properties.keys = []
      · rw [memberRefusal?, hnames, without_nil, if_pos hempty]
        rw [if_pos hempty] at hpop
        exact (Attempt.run_bind_ok hpop fun _ => members.forM pop).trans (run_pops_nothing members hempty)
      · rw [memberRefusal?, hnames, without_nil, if_neg hempty, List.find?_cons_of_pos (by simp [hv])]
        rw [if_neg hempty] at hpop
        exact Attempt.run_bind_error hpop fun _ => members.forM pop

theorem run_checkSize (size : Nat) (d : Declaration) :
    (checkSize size).run.run d = (if d.properties.keys.length = size then .ok () else .error .sizeChanged, d) := by
  rw [checkSize, Attempt.run_bind_ok (Attempt.run_get d)]
  by_cases h : d.properties.keys.length = size
  · rw [if_neg (not_not.mpr h), if_pos h]
    rfl
  · rw [if_pos h, if_neg h]
    rfl

/-- The names of the declaration itself cannot be gone over: the first is gone, and then
    there is one less. -/
theorem run_removeOwn (d : Declaration) :
    (remove .own).run.run d = (answered (Names.own.refusal? d), d.without (Names.own.reached d)) := by
  rw [remove, forOwnNames, Attempt.run_bind_ok (Attempt.run_get d), Names.refusal?, Names.reached]
  cases hkeys : d.properties.keys with
  | nil =>
    rw [List.take_nil, without_nil, if_pos rfl]
    refine (run_checkSize 0 d).trans ?_
    rw [hkeys]
    rfl
  | cons first rest =>
    have hfits : (checkSize (first :: rest).length).run.run d = (.ok (), d) := by
      rw [run_checkSize, if_pos (by rw [hkeys])]
    have hless : (d.without [first]).properties.keys.length ≠ (first :: rest).length := by
      rw [keys_without, hkeys, List.filter_cons_of_neg (by simp)]
      exact Nat.ne_of_lt (Nat.lt_succ_of_le (List.length_filter_le _ rest))
    have hfails : (checkSize (first :: rest).length).run.run (d.without [first]) =
        (.error .sizeChanged, d.without [first]) := by
      rw [run_checkSize, if_neg hless]
    have hpop : (do checkSize (first :: rest).length; pop (.text first) : Attempt Declaration Unit).run.run d =
        (.ok (), d.without [first]) := (Attempt.run_bind_ok hfits _).trans (run_pop_text first d)
    rw [if_neg (List.cons_ne_nil first rest), List.take_succ_cons, List.take_zero]
    cases rest with
    | nil =>
      -- All names have been gone over, and the last look finds one less.
      exact (Attempt.run_bind_ok (Attempt.run_bind_ok hpop fun _ => pure ()) _).trans hfails
    | cons second rest =>
      have hsecond : (do checkSize (first :: second :: rest).length; pop (.text second) :
          Attempt Declaration Unit).run.run (d.without [first]) = (.error .sizeChanged, d.without [first]) :=
        Attempt.run_bind_error hfails _
      exact Attempt.run_bind_error ((Attempt.run_bind_ok hpop _).trans (Attempt.run_bind_error hsecond _)) _

/-- Every removal, whether it comes off or fails, takes out the names that it has come to. -/
theorem run_remove (names : Names) (d : Declaration) :
    (remove names).run.run d = (answered (names.refusal? d), d.without (names.reached d)) := by
  have hmembers : ∀ {v : Foreign} {members : List Foreign}, v.members? = some members → (∀ s, v ≠ .text s) →
      (remove (.value v)).run.run d =
        (answered ((Names.value v).refusal? d), d.without ((Names.value v).reached d)) := by
    intro v members h hv
    cases v with
    | text s => exact absurd rfl (hv s)
    | array items | object keys =>
      obtain rfl := Option.some.inj h
      exact run_pops _ d
    | null | boolean | integer | decimal | selector => cases h
  cases names with
  | own => exact run_removeOwn d
  | value v =>
    cases v with
    | text name => exact run_pop_text name d
    | array items => exact hmembers rfl nofun
    | object keys => exact hmembers rfl nofun
    | null | boolean | integer | decimal | selector =>
      have hkept : d.without (namesBefore []) = d := without_nil d
      exact congrArg (Prod.mk _) hkept.symm

/-! ## Changes -/

def Change.acts (d : Declaration) : Change → List (Act String)
  | .add name (some value) => [.write name value]
  | .addMap m none => m.entries.map .ofPair
  | .remove names => (names.reached d).map .remove
  | .removeAll => [.clear]
  | .add _ none | .addMap _ (some _) | .selectorText _ => []

def Change.refusal? (d : Declaration) : Change → Option Misuse
  | .add name none => some (.noValue name)
  | .addMap _ (some _) => some .mapWithValue
  | .remove names => names.refusal? d
  | .selectorText s => if Text.allBlank s then some .blankSelector else none
  | .add _ (some _) | .addMap _ none | .removeAll => none

theorem foldl_insert (l : List (String × String)) (d : Declaration) :
    l.foldl (fun (d : Declaration) p => { d with properties := d.properties.insert p.1 p.2 }) d =
      { d with properties := l.foldl (fun k p => k.insert p.1 p.2) d.properties } := by
  induction l generalizing d with
  | nil => rfl
  | cons p l ih => rw [List.foldl_cons, ih, List.foldl_cons]

theorem run_addMap (entries : OrderedMap String) (d : Declaration) :
    (addMap entries none).run.run d = (.ok (), { d with properties := d.properties.insertAll entries.entries }) := by
  have hadd : ∀ p ∈ entries.entries, ∀ e : Declaration,
      (add p.1 (some p.2)).run.run e = (.ok (), { e with properties := e.properties.insert p.1 p.2 }) := fun _ _ _ => rfl
  rw [addMap, Attempt.run_forM_ok hadd, foldl_insert]
  rfl

theorem foldl_remove (names : List String) (d : Declaration) :
    (names.map Act.remove).foldl OrderedMap.act d.properties = (d.without names).properties := by
  induction names generalizing d with
  | nil => rw [without_nil]; rfl
  | cons name names ih =>
    rw [← List.singleton_append, ← without_without, ← ih, without_singleton]
    rfl

/-- What a change comes to: its refusal, and its acts. Only a text for the selector
    touches the selector. -/
theorem run_change (c : Change) (d : Declaration) :
    ∃ x, c.attempt.run.run d = (answered (c.refusal? d), ⟨x, (c.acts d).foldl OrderedMap.act d.properties⟩) ∧
      ((∀ s, c ≠ .selectorText s) → x = d.selector) := by
  cases c with
  | add name value => cases value <;> exact ⟨d.selector, rfl, fun _ => rfl⟩
  | addMap entries value =>
    cases value with
    | some value => exact ⟨d.selector, rfl, fun _ => rfl⟩
    | none =>
      refine ⟨d.selector, (run_addMap entries d).trans ?_, fun _ => rfl⟩
      rw [Change.acts, List.foldl_map]
      rfl
  | remove names =>
    refine ⟨d.selector, (run_remove names d).trans ?_, fun _ => rfl⟩
    rw [Change.acts, foldl_remove]
    rfl
  | removeAll => exact ⟨d.selector, rfl, fun _ => rfl⟩
  | selectorText s =>
    cases hblank : Text.allBlank s with
    | true =>
      refine ⟨d.selector, (run_setSelectorText_blank hblank d).trans ?_, fun _ => rfl⟩
      rw [Change.refusal?, if_pos hblank]
      rfl
    | false =>
      obtain ⟨x, hx⟩ : ∃ x, d.selector.withText? s = .ok x := ⟨_, Selector.withText?_of_text hblank d.selector⟩
      refine ⟨x, (run_setSelectorText_ok hx).trans ?_, fun hc => absurd rfl (hc s)⟩
      rw [Change.refusal?, if_neg (by simp [hblank])]
      rfl

theorem change?_eq_error_iff : d.change? c = .error m ↔ c.refusal? d = some m := by
  obtain ⟨x, hrun, -⟩ := run_change c d
  rw [change?, Attempt.result?, hrun]
  cases c.refusal? d <;> simp [answered]

theorem changed_properties (d : Declaration) (c : Change) :
    (d.changed c).properties = (c.acts d).foldl OrderedMap.act d.properties := by
  obtain ⟨x, hrun, -⟩ := run_change c d
  rw [changed, Attempt.left_of_run hrun]

theorem changed_selector (hc : ∀ s, c ≠ .selectorText s) : (d.changed c).selector = d.selector := by
  obtain ⟨x, hrun, hx⟩ := run_change c d
  rw [changed, Attempt.left_of_run hrun]
  exact hx hc

theorem changed_remove (names : Names) (d : Declaration) : d.changed (.remove names) = d.without (names.reached d) :=
  Attempt.left_of_run (run_remove names d)

theorem allOrNothing_of_not_remove (hc : ∀ names, c ≠ .remove names) : c.attempt.AllOrNothing := by
  cases c with
  | add name value => exact allOrNothing_add name value
  | addMap entries value =>
    refine Attempt.allOrNothing_of_cases fun d => ?_
    cases value with
    | none => exact Or.inl ⟨_, _, run_addMap entries d⟩
    | some value => exact Or.inr ⟨_, rfl⟩
  | remove names => exact absurd rfl (hc names)
  | removeAll => exact Attempt.allOrNothing_of_cases fun _ => Or.inl ⟨_, _, rfl⟩
  | selectorText s => exact allOrNothing_setSelectorText s

theorem run_remove_texts (names : List String) (d : Declaration) :
    (remove (.value (.array (names.map .text)))).run.run d = (.ok (), d.without names) := by
  have hreached : ((Names.value (.array (names.map .text))).reached d) = names := by
    show (((names.map Foreign.text).takeWhile Foreign.isHashable).filterMap Foreign.name?) = names
    rw [List.takeWhile_eq_self_iff.mpr (by simp [Foreign.isHashable])]
    simp [List.filterMap_map, Function.comp_def, Foreign.name?]
  have hrefusal : (Names.value (.array (names.map .text))).refusal? d = none := by
    show memberRefusal? d (names.map .text) = none
    rw [memberRefusal?, List.find?_eq_none.mpr (by simp [Foreign.isHashable])]
    exact ite_self none
  rw [run_remove, hreached, hrefusal]
  rfl

/-! ## Histories -/

def history (d : Declaration) : List Change → List (Act String)
  | [] => []
  | c :: cs => c.acts d ++ (d.changed c).history cs

theorem foldl_changed_properties (cs : List Change) (d : Declaration) :
    (cs.foldl changed d).properties = (d.history cs).foldl OrderedMap.act d.properties := by
  induction cs generalizing d with
  | nil => rfl
  | cons c cs ih => rw [List.foldl_cons, ih, changed_properties, history, List.foldl_append]

/-- After any calls whatever, refused ones among them, the properties of a declaration
    are what the writes and removals tell that were done, those of its first properties
    before all others; no call that is about the properties changes the selector, and none
    that is about the selector changes the properties.

    A call that is refused leaves everything as it was, unless it is a removal. A removal,
    whether it is refused or not, takes out the names that it has come to, and so it
    leaves everything as it was exactly if none of these is there. If all that is handed
    in are names, it is not refused and takes out each of them. -/
theorem properties_told (x : Selector) (initial : List (String × String)) (cs : List Change) :
    let start : Declaration := ⟨x, .ofList initial⟩
    let d := cs.foldl changed start
    OrderedMap.Told (initial.map Act.ofPair ++ start.history cs) d.properties ∧
    (∀ c m, d.change? c = .error m ↔ c.refusal? d = some m) ∧
    (∀ c m, (∀ names, c ≠ .remove names) → d.change? c = .error m → d.changed c = d) ∧
    (∀ names, d.changed (.remove names) = d.without (names.reached d) ∧
      (d.changed (.remove names) = d ↔ ∀ name ∈ names.reached d, name ∉ d.properties.keys)) ∧
    (∀ names : List String, d.change? (.remove (.value (.array (names.map .text)))) = .ok (d.without names)) ∧
    (∀ c, (∀ s, c ≠ .selectorText s) → (d.changed c).selector = d.selector) ∧
    ∀ s, (d.changed (.selectorText s)).properties = d.properties := by
  intro start d
  refine ⟨?_, fun c m => change?_eq_error_iff, fun c m hc hrefused => (allOrNothing_of_not_remove hc).left_eq hrefused,
    fun names => ⟨changed_remove names d, ?_⟩, fun names => Attempt.result?_of_ok (run_remove_texts names d),
    fun c => changed_selector, fun s => changed_properties d (.selectorText s)⟩
  · have hinitial : (OrderedMap.ofList initial : OrderedMap String) = (initial.map Act.ofPair).foldl OrderedMap.act .empty := by
      rw [List.foldl_map]
      rfl
    have hproperties : d.properties = (initial.map Act.ofPair ++ start.history cs).foldl OrderedMap.act .empty := by
      rw [List.foldl_append, ← hinitial]
      exact foldl_changed_properties cs start
    rw [hproperties]
    exact OrderedMap.told_foldl _
  · rw [changed_remove]
    exact without_eq_self_iff

/-- The names of the declaration itself, and a list in which a name is followed by what
    no map can hold: both removals fail, and both leave the declaration without the first
    of its two properties. -/
theorem removal_fails_half_done :
    let d : Declaration := ⟨⟨"p", .legacy, .number 1⟩, ⟨[("a", "1"), ("b", "2")]⟩⟩
    let listed : Names := .value (.array [.text "a", .array [.text "b"]])
    (d.change? (.remove .own) = .error .sizeChanged ∧ (d.changed (.remove .own)).properties.entries = [("b", "2")]) ∧
      (d.change? (.remove listed) = .error (.unhashable "list") ∧
        (d.changed (.remove listed)).properties.entries = [("b", "2")]) ∧
      ¬ ∀ (d : Declaration) c m, d.change? c = .error m → d.changed c = d := by
  intro d listed
  have hown : d.change? (.remove .own) = .error .sizeChanged ∧
      (d.changed (.remove .own)).properties.entries = [("b", "2")] := ⟨rfl, rfl⟩
  refine ⟨hown, ⟨rfl, rfl⟩, fun hall => ?_⟩
  have hsame : d.changed (.remove .own) = d := hall d (.remove .own) _ hown.1
  rw [hsame] at hown
  exact absurd hown.2 (by decide)

/-- A name that is removed and written again goes behind one that was only overwritten. -/
example :
    ([.add "b" (some "3"), .remove (.value (.text "a")), .addMap ⟨[("c", "4"), ("a", "5")]⟩ (some ""),
      .add "a" (some "6")].foldl changed ⟨⟨"p", .legacy, .number 1⟩, .ofList [("a", "1"), ("b", "2")]⟩).properties.entries =
      [("b", "3"), ("a", "6")] := by decide

end Declaration

end AttributeSheet
