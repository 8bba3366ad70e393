/-
  AttributeSheet.Proofs.MapHistory — what is in a map, told by its history.

  Whatever is done to a map comes to acts on its names, one after the other: a name is
  written, a name is removed, or all of them are (`Act`). From the acts alone it is known
  what the map holds (`Told`). A name is there if its last write comes after its last
  removal, with the value of that write (`LastWrote`). The names stand in the order of the
  moments at which each of them last came in (`CameIn`): writing a name that is there does
  not move it, and one that is removed and written again goes to the end. One act keeps
  all of this (`Told.act`), and so every history does (`told_foldl`).
-/
import AttributeSheet.Proofs.MapWrites
import Mathlib.Order.Bounds.Basic

namespace AttributeSheet

namespace OrderedMap

variable {α : Type}

inductive Act (α : Type) where
  | write (name : String) (value : α)
  | remove (name : String)
  | clear
  deriving DecidableEq, Repr

def act (m : OrderedMap α) : Act α → OrderedMap α
  | .write name value => m.insert name value
  | .remove name => m.erase name
  | .clear => empty

namespace Act

def Writes (name : String) : Act α → Prop
  | write n _ => n = name
  | remove _ | clear => False

/-- Clearing a map removes every name. -/
def Removes (name : String) : Act α → Prop
  | write .. => False
  | remove n => n = name
  | clear => True

def ofPair (p : String × α) : Act α := write p.1 p.2

end Act

variable {acts : List (Act α)} {m : OrderedMap α} {name : String}

theorem lookup_filter_ne (name k : String) (l : List (String × α)) :
    (l.filter fun p => p.1 ≠ name).lookup k = if k = name then none else l.lookup k := by
  induction l with
  | nil => simp
  | cons p l ih =>
    by_cases e : p.1 = name
    · rw [List.filter_cons_of_neg (by simpa using e), ih, lookup_cons]
      by_cases h : k = name
      · rw [if_pos h, if_pos h]
      · rw [if_neg h, if_neg h, if_neg (by rw [e]; exact h)]
    · rw [List.filter_cons_of_pos (by simpa using e), lookup_cons, lookup_cons, ih]
      by_cases h : k = p.1
      · subst h; rw [if_pos rfl, if_pos rfl, if_neg e]
      · rw [if_neg h, if_neg h]

theorem get?_erase (m : OrderedMap α) (name k : String) :
    (m.erase name).get? k = if k = name then none else m.get? k :=
  lookup_filter_ne name k m.entries

theorem keys_erase (m : OrderedMap α) (name : String) : (m.erase name).keys = m.keys.filter (· ≠ name) := by
  show (m.entries.filter (·.1 ≠ name)).map (·.1) = (m.entries.map (·.1)).filter (· ≠ name)
  rw [List.filter_map]
  rfl

theorem get?_act (m : OrderedMap α) (a : Act α) (name : String) (value : α) :
    (m.act a).get? name = some value ↔
      a = .write name value ∨ (¬ a.Writes name ∧ ¬ a.Removes name ∧ m.get? name = some value) := by
  cases a with
  | write n v =>
    rw [act, get?_insert]
    by_cases e : name = n
    · subst e
      simp [Act.Writes, eq_comm]
    · simp [Act.Writes, Act.Removes, e, Ne.symm e]
  | remove n =>
    rw [act, get?_erase]
    by_cases e : name = n
    · subst e
      simp [Act.Removes]
    · simp [Act.Writes, Act.Removes, e, Ne.symm e]
  | clear => simp [act, get?, empty, Act.Removes]

/-- The names after an act are old ones, as they stood, and at most one new one behind
    them. -/
theorem keys_act (m : OrderedMap α) (a : Act α) :
    ∃ (old : List String) (new : Option String),
      (m.act a).keys = old ++ new.toList ∧ old.Sublist m.keys ∧ ∀ n ∈ new, n ∉ m.keys := by
  cases a with
  | write n v =>
    by_cases h : n ∈ m.keys
    · exact ⟨m.keys, none, by simp [act, keys_insert, h], List.Sublist.refl _, by simp⟩
    · exact ⟨m.keys, some n, by simp [act, keys_insert, h], List.Sublist.refl _, by simpa using h⟩
  | remove n => exact ⟨m.keys.filter (· ≠ n), none, by simp [act, keys_erase], List.filter_sublist, by simp⟩
  | clear => exact ⟨[], none, rfl, List.nil_sublist _, by simp⟩

/-! ## What the acts tell -/

/-- The last write of the name gives it this value, and no removal of it comes later. -/
def LastWrote (acts : List (Act α)) (name : String) (value : α) : Prop :=
  ∃ before after, acts = before ++ .write name value :: after ∧ ∀ a ∈ after, ¬ a.Writes name ∧ ¬ a.Removes name

/-- The last write of the name comes after the last removal of it. -/
def Present (acts : List (Act α)) (name : String) : Prop := ∃ value, LastWrote acts name value

/-- The act at place `k` lets the name in: it is not there before and there after it. -/
def CameIn (acts : List (Act α)) (name : String) (k : Nat) : Prop :=
  ¬ Present (acts.take k) name ∧ Present (acts.take (k + 1)) name

def LastCameIn (acts : List (Act α)) (name : String) (k : Nat) : Prop := IsGreatest {k | CameIn acts name k} k

/-- `m` is what the acts tell: each name stands there once, it is there with a value
    exactly if that is the one it was last given and it has not been removed since, and
    the names are in the order of the moments at which they last came in. -/
structure Told (acts : List (Act α)) (m : OrderedMap α) : Prop where
  nodup : m.keys.Nodup
  present : ∀ name, name ∈ m.keys ↔ Present acts name
  value : ∀ name value, m.get? name = some value ↔ LastWrote acts name value
  came : ∀ name ∈ m.keys, ∃ k, LastCameIn acts name k
  ordered : m.keys.Pairwise fun a b => ∀ i j, LastCameIn acts a i → LastCameIn acts b j → i < j

theorem lastWrote_snoc (a : Act α) (value : α) :
    LastWrote (acts ++ [a]) name value ↔
      a = .write name value ∨ (¬ a.Writes name ∧ ¬ a.Removes name ∧ LastWrote acts name value) := by
  constructor
  · rintro ⟨before, after, h, hafter⟩
    rcases List.eq_nil_or_concat after with rfl | ⟨after, b, rfl⟩
    · exact Or.inl (List.singleton_inj.mp (List.append_inj_right' h rfl))
    · have h' : acts ++ [a] = (before ++ .write name value :: after) ++ [b] := by simpa using h
      obtain ⟨hacts, hb⟩ := List.append_inj' h' rfl
      obtain rfl : a = b := List.singleton_inj.mp hb
      have hlast := hafter a (by simp)
      exact Or.inr ⟨hlast.1, hlast.2, before, after, hacts, fun x hx => hafter x (by simp [hx])⟩
  · rintro (rfl | ⟨hwrites, hremoves, before, after, rfl, hafter⟩)
    · exact ⟨acts, [], rfl, by simp⟩
    · refine ⟨before, after ++ [a], by simp, fun x hx => ?_⟩
      rcases List.mem_append.mp hx with hx | hx
      · exact hafter x hx
      · rw [List.mem_singleton.mp hx]
        exact ⟨hwrites, hremoves⟩

theorem cameIn_snoc (a : Act α) (k : Nat) :
    CameIn (acts ++ [a]) name k ↔
      (k < acts.length ∧ CameIn acts name k) ∨
        (k = acts.length ∧ ¬ Present acts name ∧ Present (acts ++ [a]) name) := by
  unfold CameIn
  rcases Nat.lt_trichotomy k acts.length with hk | rfl | hk
  · rw [List.take_append_of_le_length (Nat.le_of_lt hk), List.take_append_of_le_length hk]
    simp [hk, Nat.ne_of_lt hk]
  · rw [List.take_left, List.take_of_length_le (by simp)]
    simp
  · have hbefore : (acts ++ [a]).take k = acts ++ [a] := List.take_of_length_le (by simp; omega)
    have hafter : (acts ++ [a]).take (k + 1) = acts ++ [a] := List.take_of_length_le (by simp; omega)
    rw [hbefore, hafter]
    constructor
    · intro h
      exact absurd h.2 h.1
    · rintro (⟨h, -⟩ | ⟨h, -⟩) <;> omega

theorem CameIn.lt_length {k : Nat} (h : CameIn acts name k) : k < acts.length := by
  by_contra hk
  unfold CameIn at h
  rw [List.take_of_length_le (by omega), List.take_of_length_le (by omega)] at h
  exact h.1 h.2

theorem lastCameIn_snoc_of_present (h : Present acts name) (a : Act α) (k : Nat) :
    LastCameIn (acts ++ [a]) name k ↔ LastCameIn acts name k := by
  have hsame : {k | CameIn (acts ++ [a]) name k} = {k | CameIn acts name k} := by
    ext k
    show CameIn (acts ++ [a]) name k ↔ CameIn acts name k
    rw [cameIn_snoc]
    constructor
    · rintro (⟨-, hk⟩ | ⟨-, hnew, -⟩)
      · exact hk
      · exact absurd h hnew
    · intro hk
      exact Or.inl ⟨hk.lt_length, hk⟩
  rw [LastCameIn, hsame, LastCameIn]

theorem lastCameIn_snoc_of_new {a : Act α} (h : ¬ Present acts name) (h' : Present (acts ++ [a]) name) (k : Nat) :
    LastCameIn (acts ++ [a]) name k ↔ k = acts.length := by
  have hlast : LastCameIn (acts ++ [a]) name acts.length := by
    refine ⟨(cameIn_snoc a _).mpr (Or.inr ⟨rfl, h, h'⟩), fun j hj => ?_⟩
    rcases (cameIn_snoc a j).mp hj with ⟨hlt, -⟩ | ⟨rfl, -⟩
    · exact Nat.le_of_lt hlt
    · exact Nat.le_refl _
  constructor
  · intro hk
    exact hk.unique hlast
  · rintro rfl
    exact hlast

namespace Told

theorem act (h : Told acts m) (a : Act α) : Told (acts ++ [a]) (m.act a) := by
  have hvalue : ∀ name value, (m.act a).get? name = some value ↔ LastWrote (acts ++ [a]) name value := by
    intro name value
    rw [get?_act, lastWrote_snoc, h.value]
  have hpresent : ∀ name, name ∈ (m.act a).keys ↔ Present (acts ++ [a]) name := by
    intro name
    rw [mem_keys_iff]
    exact exists_congr (hvalue name)
  obtain ⟨old, new, hkeys, hold, hnew⟩ := keys_act m a
  have hkept : ∀ name ∈ m.keys, ∀ k, LastCameIn (acts ++ [a]) name k ↔ LastCameIn acts name k :=
    fun name hname => lastCameIn_snoc_of_present ((h.present name).mp hname) a
  have hcame : ∀ name ∈ (m.act a).keys, name ∉ m.keys → ∀ k, LastCameIn (acts ++ [a]) name k ↔ k = acts.length :=
    fun name hname hn => lastCameIn_snoc_of_new (mt (h.present name).mpr hn) ((hpresent name).mp hname)
  refine ⟨?_, hpresent, hvalue, fun name hname => ?_, ?_⟩
  · rw [hkeys, List.nodup_append]
    refine ⟨h.nodup.sublist hold, by cases new <;> simp, fun x hx y hy hxy => ?_⟩
    exact hnew y (by simpa using hy) (hxy ▸ hold.subset hx)
  · by_cases hin : name ∈ m.keys
    · obtain ⟨k, hk⟩ := h.came name hin
      exact ⟨k, (hkept name hin k).mpr hk⟩
    · exact ⟨acts.length, (hcame name hname hin _).mpr rfl⟩
  · -- Old names stand among each other as before, and the new one, if there is one, came in after all of them.
    have hordered : old.Pairwise fun x y => ∀ i j, LastCameIn (acts ++ [a]) x i → LastCameIn (acts ++ [a]) y j → i < j := by
      refine (h.ordered.sublist hold).imp_of_mem fun {x y} hx hy hxy i j hi hj => ?_
      exact hxy i j ((hkept x (hold.subset hx) i).mp hi) ((hkept y (hold.subset hy) j).mp hj)
    rw [hkeys, List.pairwise_append]
    refine ⟨hordered, by cases new <;> simp, fun x hx y hy i j hi hj => ?_⟩
    have hy' : y ∈ (m.act a).keys := by rw [hkeys]; exact List.mem_append_right _ hy
    rw [(hcame y hy' (hnew y (by simpa using hy)) j).mp hj]
    exact CameIn.lt_length ((hkept x (hold.subset hx) i).mp hi).1

theorem nothing : Told [] (empty : OrderedMap α) where
  nodup := List.nodup_nil
  present name := by simp [keys, empty, Present, LastWrote]
  value name value := by simp [get?, empty, LastWrote]
  came name hname := absurd hname List.not_mem_nil
  ordered := List.Pairwise.nil

end Told

/-- Whatever is done to an empty map one after the other, the acts tell what it holds. -/
theorem told_foldl (acts : List (Act α)) : Told acts (acts.foldl act empty) := by
  induction acts using List.reverseRecOn with
  | nil => exact .nothing
  | append_singleton acts a ih =>
    rw [List.foldl_append, List.foldl_cons, List.foldl_nil]
    exact ih.act a

end OrderedMap

end AttributeSheet
