/-
  AttributeSheet.Proofs.MapWrites — what writing leaves in an ordered map.

  After any number of writes a name has the value of the last write of it, or else the
  one it had (`get?_insertAll`), and the names stand in the order in which they first
  came (`keys_insertAll`). So a map made from pairs has each name once, at the place of
  its first pair and with the value of its last, and it is the only such map
  (`eq_of_keys_get?`).

  Writes of other names pass one another as long as no name is new (`insert_comm`). So
  writing the same pairs once more leaves a map as it is, even though a value may be
  overwritten in between (`insertAll_again`).
-/
import AttributeSheet.OrderedMap
import Mathlib.Data.List.Induction
import Mathlib.Data.List.Nodup
import Mathlib.Data.List.Perm.Subperm

namespace AttributeSheet.OrderedMap

variable {α : Type}

theorem lookup_cons (k n : String) (v : α) (l : List (String × α)) :
    ((n, v) :: l).lookup k = if k = n then some v else l.lookup k := by
  rw [List.lookup_cons]
  by_cases e : k = n
  · simp [e]
  · simp [beq_eq_false_iff_ne.mpr e, e]

theorem lookup_eq_none {k : String} {l : List (String × α)} (h : k ∉ l.map (·.1)) : l.lookup k = none :=
  List.lookup_eq_none_iff.mpr fun p hp => by
    simpa using fun e : k = p.1 => h (List.mem_map.mpr ⟨p, hp, e.symm⟩)

def lastValue? (name : String) (pairs : List (String × α)) : Option α := pairs.reverse.lookup name

theorem lastValue?_append (name : String) (a b : List (String × α)) :
    lastValue? name (a ++ b) = (lastValue? name b).or (lastValue? name a) := by
  simp [lastValue?, List.lookup_append]

theorem lastValue?_cons (name : String) (p : String × α) (ps : List (String × α)) :
    lastValue? name (p :: ps) = (lastValue? name ps).or (if name = p.1 then some p.2 else none) := by
  have h := lastValue?_append name [p] ps
  rw [List.singleton_append] at h
  rw [h, lastValue?, lastValue?, List.reverse_singleton, lookup_cons, List.lookup_nil]

theorem lastValue?_eq_none {name : String} {pairs : List (String × α)} :
    lastValue? name pairs = none ↔ name ∉ pairs.map (·.1) := by
  induction pairs with
  | nil => simp [lastValue?]
  | cons p ps ih => by_cases e : name = p.1 <;> simp [lastValue?_cons, ih, e]

theorem lastValue?_of_nodup {pairs : List (String × α)} (h : (pairs.map (·.1)).Nodup) (name : String) :
    lastValue? name pairs = pairs.lookup name := by
  induction pairs with
  | nil => rfl
  | cons p ps ih =>
    obtain ⟨hp, hps⟩ := List.nodup_cons.mp h
    rw [lastValue?_cons, lookup_cons, ih hps]
    by_cases e : name = p.1
    · subst e; simp [lookup_eq_none hp]
    · simp [e]

/-! ## One write -/

theorem lookup_insertEntry (name k : String) (value : α) (l : List (String × α)) :
    (insertEntry name value l).lookup k = if k = name then some value else l.lookup k := by
  induction l with
  | nil => rw [insertEntry, lookup_cons]
  | cons p l ih =>
    obtain ⟨n, v⟩ := p
    rw [insertEntry, lookup_cons]
    by_cases e : n = name
    · subst e
      rw [if_pos rfl, lookup_cons]
      by_cases h : k = n <;> simp [h]
    · rw [if_neg e, lookup_cons, ih]
      by_cases h : k = n
      · subst h; simp [e]
      · simp [h]

theorem get?_insert (m : OrderedMap α) (name k : String) (value : α) :
    (m.insert name value).get? k = if k = name then some value else m.get? k :=
  lookup_insertEntry name k value m.entries

theorem names_insertEntry (name : String) (value : α) (l : List (String × α)) :
    (insertEntry name value l).map (·.1) = if name ∈ l.map (·.1) then l.map (·.1) else l.map (·.1) ++ [name] := by
  induction l with
  | nil => simp [insertEntry]
  | cons p l ih =>
    obtain ⟨n, v⟩ := p
    by_cases e : n = name
    · simp [insertEntry, e]
    · simp only [insertEntry, if_neg e, List.map_cons, ih, List.mem_cons, Ne.symm e, false_or]
      split <;> simp

theorem keys_insert (m : OrderedMap α) (name : String) (value : α) :
    (m.insert name value).keys = if name ∈ m.keys then m.keys else m.keys ++ [name] :=
  names_insertEntry name value m.entries

theorem mem_keys_iff {m : OrderedMap α} {name : String} : name ∈ m.keys ↔ ∃ value, m.get? name = some value := by
  rw [← Option.isSome_iff_exists]
  constructor
  · intro h
    by_contra hnone
    have := List.lookup_eq_none_iff.mp (Option.not_isSome_iff_eq_none.mp hnone)
    obtain ⟨p, hp, rfl⟩ := List.mem_map.mp h
    simpa using this p hp
  · intro h
    by_contra hmem
    rw [get?, lookup_eq_none hmem] at h
    cases h

theorem nodup_keys_insert {m : OrderedMap α} (h : m.keys.Nodup) (name : String) (value : α) :
    (m.insert name value).keys.Nodup := by
  rw [keys_insert]
  split
  · exact h
  · rename_i hn; exact List.nodup_append.mpr ⟨h, by simp, by rintro a ha b hb rfl; simp_all⟩

/-! ## Many writes -/

theorem insertAll_cons (m : OrderedMap α) (p : String × α) (ps : List (String × α)) :
    m.insertAll (p :: ps) = (m.insert p.1 p.2).insertAll ps := rfl

/-- A name has the value of its last write, or else the one it had. -/
theorem get?_insertAll (m : OrderedMap α) (ps : List (String × α)) (k : String) :
    (m.insertAll ps).get? k = (lastValue? k ps).or (m.get? k) := by
  induction ps generalizing m with
  | nil => rfl
  | cons p ps ih =>
    rw [insertAll_cons, ih, get?_insert, lastValue?_cons]
    by_cases e : k = p.1 <;> simp [e]

theorem eraseDups_of_nodup {l : List String} (h : l.Nodup) : l.eraseDups = l := by
  induction l with
  | nil => rfl
  | cons x l ih =>
    obtain ⟨hx, hl⟩ := List.nodup_cons.mp h
    have : l.filter (fun b => !b == x) = l := List.filter_eq_self.mpr fun y hy => by
      simpa using fun e : y = x => hx (e ▸ hy)
    rw [List.eraseDups_cons, this, ih hl]

/-- The names that are there stay in front; new ones follow as they first come. -/
theorem keys_insertAll_append (m : OrderedMap α) (ps : List (String × α)) :
    (m.insertAll ps).keys = m.keys ++ ((ps.map (·.1)).filter (· ∉ m.keys)).eraseDups := by
  induction ps generalizing m with
  | nil => rw [List.map_nil, List.filter_nil, List.eraseDups_nil, List.append_nil]; rfl
  | cons p ps ih =>
    rw [insertAll_cons, ih, keys_insert, List.map_cons]
    by_cases hp : p.1 ∈ m.keys
    · rw [if_pos hp, List.filter_cons_of_neg (by simpa using hp)]
    · have hrest : (ps.map (·.1)).filter (· ∉ m.keys ++ [p.1]) =
          ((ps.map (·.1)).filter (· ∉ m.keys)).filter fun b => !b == p.1 := by
        rw [List.filter_filter]
        exact List.filter_congr fun b _ => by rw [Bool.eq_iff_iff]; simp [and_comm]
      rw [if_neg hp, List.filter_cons_of_pos (by simpa using hp), List.eraseDups_cons, hrest, List.append_assoc,
        List.singleton_append]

theorem keys_insertAll {m : OrderedMap α} (h : m.keys.Nodup) (ps : List (String × α)) :
    (m.insertAll ps).keys = (m.keys ++ ps.map (·.1)).eraseDups := by
  have hnew : (ps.map (·.1)).removeAll m.keys = (ps.map (·.1)).filter (· ∉ m.keys) :=
    List.filter_congr fun b _ => by rw [Bool.eq_iff_iff]; simp
  rw [keys_insertAll_append, List.eraseDups_append, eraseDups_of_nodup h, hnew]

theorem keys_ofList (ps : List (String × α)) : (ofList ps).keys = (ps.map (·.1)).eraseDups :=
  keys_insertAll (m := empty) List.nodup_nil ps

theorem nodup_keys_insertAll {m : OrderedMap α} (h : m.keys.Nodup) (ps : List (String × α)) :
    (m.insertAll ps).keys.Nodup := by
  induction ps generalizing m with
  | nil => exact h
  | cons p ps ih => exact ih (nodup_keys_insert h p.1 p.2)

theorem nodup_keys_ofList (ps : List (String × α)) : (ofList ps).keys.Nodup :=
  nodup_keys_insertAll (m := empty) List.nodup_nil ps

theorem get?_ofList (ps : List (String × α)) (k : String) : (ofList ps).get? k = lastValue? k ps := by
  rw [ofList, get?_insertAll]; simp [get?, empty]

/-! ## A map is its names and values -/

theorem lookup_ext {l l' : List (String × α)} (hk : l.map (·.1) = l'.map (·.1)) (hn : (l.map (·.1)).Nodup)
    (hv : ∀ k, l.lookup k = l'.lookup k) : l = l' := by
  induction l generalizing l' with
  | nil => exact (List.map_eq_nil_iff.mp hk.symm).symm
  | cons p l ih =>
    obtain ⟨n, v⟩ := p
    cases l' with
    | nil => cases hk
    | cons p' l' =>
      obtain ⟨n', v'⟩ := p'
      obtain ⟨rfl, hk'⟩ := List.cons.inj hk
      obtain ⟨hnew, hn'⟩ := List.nodup_cons.mp hn
      have hhead := hv n
      simp only [List.lookup_cons_self, Option.some.injEq] at hhead
      have htail : ∀ k, l.lookup k = l'.lookup k := by
        intro k
        by_cases e : k = n
        · subst e
          rw [lookup_eq_none hnew, lookup_eq_none (hk' ▸ hnew)]
        · simpa [lookup_cons, e] using hv k
      rw [hhead, ih hk' hn' htail]

theorem eq_of_keys_get? {m k : OrderedMap α} (hk : m.keys = k.keys) (hn : m.keys.Nodup)
    (hv : ∀ name, m.get? name = k.get? name) : m = k := by
  obtain ⟨l⟩ := m
  obtain ⟨l'⟩ := k
  exact congrArg OrderedMap.mk (lookup_ext hk hn hv)

theorem ofList_of_nodup {ps : List (String × α)} (h : (ps.map (·.1)).Nodup) : ofList ps = ⟨ps⟩ := by
  refine eq_of_keys_get? ?_ (nodup_keys_ofList ps) fun name => ?_
  · rw [keys_ofList, eraseDups_of_nodup h]; rfl
  · rw [get?_ofList, lastValue?_of_nodup h]; rfl

/-! ## The same writes again -/

theorem insertAll_snoc (m : OrderedMap α) (ps : List (String × α)) (p : String × α) :
    m.insertAll (ps ++ [p]) = (m.insertAll ps).insert p.1 p.2 := List.foldl_append

theorem insertAll_append (m : OrderedMap α) (ps qs : List (String × α)) :
    m.insertAll (ps ++ qs) = (m.insertAll ps).insertAll qs := List.foldl_append

theorem insertEntry_insertEntry (name : String) (v w : α) (l : List (String × α)) :
    insertEntry name w (insertEntry name v l) = insertEntry name w l := by
  induction l with
  | nil => simp [insertEntry]
  | cons p l ih =>
    obtain ⟨n, u⟩ := p
    by_cases e : n = name
    · simp [insertEntry, e]
    · simp [insertEntry, e, ih]

theorem insertEntry_comm {k n : String} (hne : k ≠ n) (v w : α) {l : List (String × α)} (hk : k ∈ l.map (·.1)) :
    insertEntry k w (insertEntry n v l) = insertEntry n v (insertEntry k w l) := by
  induction l with
  | nil => cases hk
  | cons p l ih =>
    obtain ⟨a, u⟩ := p
    by_cases hn : a = n
    · subst hn
      simp [insertEntry, Ne.symm hne]
    · by_cases hka : a = k
      · subst hka
        simp [insertEntry, hn]
      · have hrest : k ∈ l.map (·.1) := by simpa [Ne.symm hka] using hk
        simp [insertEntry, hn, hka, ih hrest]

theorem insert_insert (m : OrderedMap α) (name : String) (v w : α) : (m.insert name v).insert name w = m.insert name w :=
  congrArg OrderedMap.mk (insertEntry_insertEntry name v w m.entries)

theorem insert_of_get? {m : OrderedMap α} {name : String} {v : α} (h : m.get? name = some v) : m.insert name v = m := by
  obtain ⟨l⟩ := m
  refine congrArg OrderedMap.mk ?_
  replace h : l.lookup name = some v := h
  induction l with
  | nil => cases h
  | cons p l ih =>
    rw [lookup_cons] at h
    by_cases e : name = p.1
    · rw [if_pos e] at h
      rw [insertEntry, if_pos e.symm, ← Option.some.inj h]
    · rw [if_neg e] at h
      rw [insertEntry, if_neg (Ne.symm e), ih h]

theorem insert_comm {m : OrderedMap α} {k n : String} (hne : k ≠ n) (hk : k ∈ m.keys) (v w : α) :
    (m.insert n v).insert k w = (m.insert k w).insert n v :=
  congrArg OrderedMap.mk (insertEntry_comm hne v w hk)

theorem mem_keys_insert {m : OrderedMap α} {k : String} (hk : k ∈ m.keys) (name : String) (value : α) :
    k ∈ (m.insert name value).keys := by
  rw [keys_insert]
  split
  · exact hk
  · exact List.mem_append_left [name] hk

theorem mem_keys_insertAll (m : OrderedMap α) (ps : List (String × α)) : ∀ p ∈ ps, p.1 ∈ (m.insertAll ps).keys := by
  intro p hp
  rw [keys_insertAll_append, List.mem_append]
  by_cases h : p.1 ∈ m.keys
  · exact Or.inl h
  · refine Or.inr (List.mem_eraseDups.mpr (List.mem_filter.mpr ⟨List.mem_map_of_mem hp, ?_⟩))
    simpa using h

/-- A write does not matter if the same name is written after the others, and none of
    those is new. -/
theorem insertAll_absorb {m : OrderedMap α} {ps : List (String × α)} (hps : ∀ p ∈ ps, p.1 ∈ m.keys) (name : String)
    (v : α) : ((m.insert name v).insertAll ps).insert name v = (m.insertAll ps).insert name v := by
  induction ps generalizing m with
  | nil => exact insert_insert m name v v
  | cons p ps ih =>
    have hrest : ∀ q ∈ ps, q.1 ∈ (m.insert p.1 p.2).keys :=
      fun q hq => mem_keys_insert (hps q (List.mem_cons_of_mem p hq)) p.1 p.2
    rw [insertAll_cons, insertAll_cons]
    by_cases e : p.1 = name
    · subst e
      rw [insert_insert]
    · rw [insert_comm e (hps p List.mem_cons_self), ih hrest]

/-- Writing the same pairs once more changes nothing. -/
theorem insertAll_again (m : OrderedMap α) (ps : List (String × α)) : (m.insertAll ps).insertAll ps = m.insertAll ps := by
  induction ps using List.reverseRecOn with
  | nil => rfl
  | append_singleton ps p ih =>
    -- The last pair's first write gives way to its second, and the others are settled without it.
    rw [insertAll_snoc, insertAll_snoc, insertAll_absorb (mem_keys_insertAll m ps), ih]

/-! ## Entries come from writes -/

theorem insertEntry_subperm (name : String) (value : α) (l : List (String × α)) :
    (insertEntry name value l).Subperm ((name, value) :: l) := by
  induction l with
  | nil => exact List.Subperm.refl _
  | cons p l ih =>
    obtain ⟨n, v⟩ := p
    by_cases e : n = name
    · subst e
      rw [insertEntry, if_pos rfl]
      exact (List.subperm_cons _).mpr (List.sublist_cons_self _ _).subperm
    · rw [insertEntry, if_neg e]
      exact ((List.subperm_cons _).mpr ih).trans (List.Perm.swap _ _ _).subperm

theorem insertAll_subperm (m : OrderedMap α) (ps : List (String × α)) :
    (m.insertAll ps).entries.Subperm (m.entries ++ ps) := by
  induction ps generalizing m with
  | nil => rw [List.append_nil]; exact List.Subperm.refl _
  | cons p ps ih =>
    refine (ih (m.insert p.1 p.2)).trans ?_
    refine ((List.subperm_append_right ps).mpr (insertEntry_subperm p.1 p.2 m.entries)).trans ?_
    exact List.perm_middle.symm.subperm

theorem ofList_subperm (ps : List (String × α)) : (ofList ps).entries.Subperm ps := insertAll_subperm empty ps

end AttributeSheet.OrderedMap
