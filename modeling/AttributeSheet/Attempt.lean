/-
  AttributeSheet.Attempt — calls on something that may fail half way.

  An attempt works on a state, step by step, and answers or makes no sense. Either way it
  leaves a state: one that fails leaves what it has done by then.
-/
import AttributeSheet.Problem

namespace AttributeSheet

abbrev Attempt (σ α : Type) := ExceptT Misuse (StateM σ) α

namespace Attempt

variable {σ α β : Type}

def left (a : Attempt σ α) (s : σ) : σ := (a.run.run s).2

def result? (a : Attempt σ α) (s : σ) : Except Misuse σ :=
  match a.run.run s with
  | (.ok _, t) => .ok t
  | (.error m, _) => .error m

/-! ## What an attempt comes to -/

@[simp] theorem run_get (s : σ) : (get : Attempt σ σ).run.run s = (.ok s, s) := rfl

@[simp] theorem run_lift (x : Except Misuse α) (s : σ) : (liftM x : Attempt σ α).run.run s = (x, s) := rfl

/-- One attempt after another: the second begins with what the first leaves, unless that
    has failed. -/
theorem run_bind (a : Attempt σ α) (f : α → Attempt σ β) (s : σ) :
    (a >>= f).run.run s =
      match a.run.run s with
      | (.ok x, t) => (f x).run.run t
      | (.error m, t) => (.error m, t) := by
  show (ExceptT.bind a f : Attempt σ β) s = _
  simp only [ExceptT.run, StateT.run]
  unfold ExceptT.bind ExceptT.mk ExceptT.bindCont
  simp only [bind, StateT.bind]
  rcases a s with ⟨answer, t⟩
  cases answer <;> rfl

theorem run_bind_ok {a : Attempt σ α} {s t : σ} {x : α} (h : a.run.run s = (.ok x, t)) (f : α → Attempt σ β) :
    (a >>= f).run.run s = (f x).run.run t := by
  rw [run_bind, h]

theorem run_bind_error {a : Attempt σ α} {s t : σ} {m : Misuse} (h : a.run.run s = (.error m, t))
    (f : α → Attempt σ β) : (a >>= f).run.run s = (.error m, t) := by
  rw [run_bind, h]

variable {a : Attempt σ α} {s t : σ} {m : Misuse} {x : α}

theorem result?_of_ok (h : a.run.run s = (.ok x, t)) : a.result? s = .ok t := by rw [result?, h]

theorem result?_of_error (h : a.run.run s = (.error m, t)) : a.result? s = .error m := by rw [result?, h]

theorem left_of_run {y : Except Misuse α} (h : a.run.run s = (y, t)) : a.left s = t := by rw [left, h]

theorem left_of_result (h : a.result? s = .ok t) : a.left s = t := by
  unfold result? at h
  split at h
  next hrun => exact (left_of_run hrun).trans (Except.ok.inj h)
  · cases h

theorem run_forM_ok {ι : Type} {f : ι → Attempt σ Unit} {g : σ → ι → σ} {l : List ι}
    (h : ∀ i ∈ l, ∀ s, (f i).run.run s = (.ok (), g s i)) (s : σ) :
    (l.forM f).run.run s = (.ok (), l.foldl g s) := by
  induction l generalizing s with
  | nil => rfl
  | cons i l ih =>
    have hcons : (i :: l).forM f = f i >>= fun _ => l.forM f := rfl
    rw [hcons, run_bind_ok (h i List.mem_cons_self s), ih fun j hj => h j (List.mem_cons_of_mem i hj)]
    rfl

/-! ## All or nothing -/

/-- Where it fails, it leaves everything as it was. -/
def AllOrNothing (a : Attempt σ α) : Prop := ∀ s m t, a.run.run s = (.error m, t) → t = s

theorem allOrNothing_of_cases
    (h : ∀ s, (∃ x t, a.run.run s = (.ok x, t)) ∨ ∃ m, a.run.run s = (.error m, s)) : a.AllOrNothing := by
  intro s m t hrun
  rcases h s with ⟨x, t', hdone⟩ | ⟨m', hrefused⟩
  · cases hdone.symm.trans hrun
  · exact (congrArg Prod.snd (hrefused.symm.trans hrun)).symm

theorem AllOrNothing.left_eq (h : a.AllOrNothing) (hfailed : a.result? s = .error m) : a.left s = s := by
  unfold result? at hfailed
  split at hfailed
  · cases hfailed
  next hrun => exact (left_of_run hrun).trans (h s _ _ hrun)

theorem result?_eq_ok_iff {a : Attempt σ Unit} : a.result? s = .ok t ↔ a.run.run s = (.ok (), t) := by
  unfold result?
  constructor
  · intro h
    split at h
    next hrun => rw [hrun, Except.ok.inj h]
    · cases h
  · intro h
    rw [h]

end Attempt

end AttributeSheet
