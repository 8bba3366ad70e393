/-
  AttributeSheet.Proofs.RejectedRules — what a host rejects leaves no trace but its reports.

  On a host that judges by the text, the declarations and properties that are rejected can
  as well be left out (`Refusals.kept`): page and answer are the same without them, and
  nothing is reported (`rejected_rules_invisible`). The host of flat pages is such a host
  as long as no selector breaks it; a host of parsed pages is one if its library tells
  from a name and a value whether it writes them (`parsed_refusesBy`).
-/
import AttributeSheet.Host.Tree
import AttributeSheet.Session
import AttributeSheet.Proofs.LastWrite

namespace AttributeSheet

variable {δ ε : Type} {host : Host δ ε} {handler : Option Handler}

namespace Host

variable {τ ν σ : Type} [DecidableEq ν]

/-- What a host of parsed pages rejects: texts that its library cannot read, and names and
    values that it does not write. -/
def Parsed.refusals (lib : Markup.Library τ ν σ) (admits : String → String → Bool) : Refusals where
  selector s := !(lib.compile s).isOk
  property name value := !admits name value

/-- A host of parsed pages judges by the text if its library does where it writes. -/
theorem parsed_refusesBy (lib : Markup.Library τ ν σ) {admits : String → String → Bool}
    (hset : ∀ root element name value, (lib.set root element name value).isOk = admits name value) (d : Declaration) :
    (parsed lib).RefusesBy (Parsed.refusals lib admits) d where
  query_rejected hs page := by
    cases hc : lib.compile d.selector.text with
    | ok members => simp [Parsed.refusals, hc, Except.isOk, Except.toBool] at hs
    | error words => exact ⟨_, by simp only [parsed, Parsed.query, hc]; rfl⟩
  query_answered hs page := by
    cases hc : lib.compile d.selector.text with
    | ok members =>
      simp only [parsed, Parsed.query, hc]
      split
      · exact ⟨_, rfl⟩
      · exact ⟨_, rfl⟩
    | error words => simp [Parsed.refusals, hc, Except.isOk, Except.toBool] at hs
  write_rejected p _ hp page element := by
    have hadmits : (lib.set page.root element p.1 p.2).isOk = false := by
      rw [hset]
      simpa [Parsed.refusals] using hp
    cases hw : lib.set page.root element p.1 p.2 with
    | ok root => simp [hw, Except.isOk, Except.toBool] at hadmits
    | error words => exact ⟨_, by simp only [parsed, Parsed.write, hw]; rfl⟩
  write_done p _ hp page element := by
    have hadmits : (lib.set page.root element p.1 p.2).isOk = true := by
      rw [hset]
      simpa [Parsed.refusals] using hp
    cases hw : lib.set page.root element p.1 p.2 with
    | ok root => exact ⟨_, by simp only [parsed, Parsed.write, hw]; rfl⟩
    | error words => simp [hw, Except.isOk, Except.toBool] at hadmits

end Host

/-! ## Leaving out what is rejected -/

namespace Refusals

variable (refusals : Refusals)

def thinned (d : Declaration) : Declaration :=
  { d with properties := ⟨d.properties.entries.filter fun p => !refusals.property p.1 p.2⟩ }

def kept (l : List Declaration) : List Declaration :=
  (l.filter fun d => !refusals.selector d.selector.text).map refusals.thinned

end Refusals

namespace Host.RefusesBy

variable {refusals : Refusals} {d : Declaration}

theorem thinned (h : host.RefusesBy refusals d) : host.RefusesBy refusals (refusals.thinned d) where
  query_rejected := h.query_rejected
  query_answered := h.query_answered
  write_rejected p hp := h.write_rejected p (List.mem_of_mem_filter hp)
  write_done p hp := h.write_done p (List.mem_of_mem_filter hp)

/-- The writes of rejected properties leave the page as it is. -/
theorem writtenAll_kept (h : host.RefusesBy refusals d) {ps : List (String × String)}
    (hps : ∀ p ∈ ps, p ∈ d.properties.entries) (page : δ) (element : ε) :
    host.writtenAll (ps.filter fun p => !refusals.property p.1 p.2) page element = host.writtenAll ps page element := by
  unfold Host.writtenAll
  induction ps generalizing page with
  | nil => rfl
  | cons p ps ih =>
    have hrest : ∀ q ∈ ps, q ∈ d.properties.entries := fun q hq => hps q (by simp [hq])
    cases hr : refusals.property p.1 p.2 with
    | false => simpa [hr] using ih hrest (host.written element page p)
    | true =>
      obtain ⟨cause, hw⟩ := h.write_rejected p (hps p (by simp)) hr page element
      simpa [hr, Host.written_of_error hw] using ih hrest page

theorem after_thinned (h : host.RefusesBy refusals d) (page : δ) :
    host.after page (refusals.thinned d) = host.after page d := by
  have hwrites : host.writtenAll (refusals.thinned d).properties.entries = host.writtenAll d.properties.entries := by
    funext page element
    exact h.writtenAll_kept (fun _ hp => hp) page element
  rw [Host.after, Host.after, hwrites]
  rfl

theorem after_rejected (h : host.RefusesBy refusals d) (hr : refusals.selector d.selector.text = true) (page : δ) :
    host.after page d = page := by
  obtain ⟨cause, hquery⟩ := h.query_rejected hr page
  rw [Host.after, Host.found_of_error hquery, List.foldl_nil]

end Host.RefusesBy

namespace Refusals

variable {refusals : Refusals}

theorem kept_cons (d : Declaration) (l : List Declaration) :
    refusals.kept (d :: l) =
      if refusals.selector d.selector.text then refusals.kept l else refusals.thinned d :: refusals.kept l := by
  cases h : refusals.selector d.selector.text <;> simp [kept, h]

theorem refusesBy_kept {l : List Declaration} (h : ∀ d ∈ l, host.RefusesBy refusals d) :
    ∀ d ∈ refusals.kept l, host.RefusesBy refusals d := by
  intro d hd
  obtain ⟨d', hd', rfl⟩ := List.mem_map.mp hd
  exact (h d' (List.mem_of_mem_filter hd')).thinned

/-- What is kept does to a page what all does. -/
theorem foldl_after_kept {l : List Declaration} (h : ∀ d ∈ l, host.RefusesBy refusals d) (page : δ) :
    (refusals.kept l).foldl host.after page = l.foldl host.after page := by
  induction l generalizing page with
  | nil => rfl
  | cons d l ih =>
    have hd := h d (by simp)
    have hl : ∀ x ∈ l, host.RefusesBy refusals x := fun x hx => h x (by simp [hx])
    rw [kept_cons, List.foldl_cons]
    cases hr : refusals.selector d.selector.text with
    | true => rw [if_pos rfl, ih hl, hd.after_rejected hr]
    | false => rw [if_neg Bool.false_ne_true, List.foldl_cons, ih hl, hd.after_thinned]

theorem reports_thinned (elements : List ε) {d : Declaration} (hr : refusals.selector d.selector.text = false) :
    refusals.reports elements (refusals.thinned d) = [] := by
  have hnone : (refusals.thinned d).properties.entries.filter (fun p => refusals.property p.1 p.2) = [] := by
    simp [thinned, List.filter_filter]
  have hsame : refusals.selector (refusals.thinned d).selector.text = false := hr
  rw [reports, hsame, if_neg Bool.false_ne_true, hnone]
  simp

theorem reportsAlong_kept (host : Host δ ε) (l : List Declaration) (page : δ) :
    refusals.reportsAlong host page (refusals.kept l) = [] := by
  induction l generalizing page with
  | nil => rfl
  | cons d l ih =>
    rw [kept_cons]
    cases hr : refusals.selector d.selector.text with
    | true => rw [if_pos rfl, ih]
    | false => rw [if_neg Bool.false_ne_true, reportsAlong, reports_thinned _ hr, ih, List.nil_append]

end Refusals

namespace Session

variable {s : Session δ} {refusals : Refusals} {l : List Declaration}

theorem apply_told (hq : Quiet s.handler) (hl : ∀ d ∈ l, host.RefusesBy refusals d) (text : String) :
    (s.apply host l text).session.page = l.foldl host.after (host.load s.page text) ∧
    (s.apply host l text).result =
      .ok (host.doctype text ++ host.print (l.foldl host.after (host.load s.page text))) ∧
    (problems (s.apply host l text).events).map Problem.bare =
      refusals.reportsAlong host (host.load s.page text) l := by
  have hrun := Cascade.run_told hq hl s.page s.reported text
  refine ⟨hrun.page_eq, ?_, hrun.told_eq⟩
  rw [apply, Cascade.result, hrun.going, hrun.page_eq]

/-- On a host that judges by the text, and while the handler does not raise: applying a
    list and applying it without what is rejected end in the same page and give the same
    answer. Reported are, declaration by declaration, the rejected selector or, for each
    element matched by then, the rejected names; without what is rejected, nothing is.
    The host of flat lists judges by the text of any selector that does not break it, and
    a host of parsed pages does if its library writes by names and values. -/
theorem rejected_rules_invisible :
    (∀ {δ ε : Type} (host : Host δ ε) (refusals : Refusals) (s : Session δ) (l : List Declaration) (text : String),
      Quiet s.handler → (∀ d ∈ l, host.RefusesBy refusals d) →
      (s.apply host l text).session.page = l.foldl host.after (host.load s.page text) ∧
      (s.apply host (refusals.kept l) text).session.page = (s.apply host l text).session.page ∧
      (∃ shown, (s.apply host l text).result = .ok shown ∧
        (s.apply host (refusals.kept l) text).result = .ok shown) ∧
      (problems (s.apply host l text).events).map Problem.bare =
        refusals.reportsAlong host (host.load s.page text) l ∧
      problems (s.apply host (refusals.kept l) text).events = []) ∧
    (∀ d : Declaration, d.selector.text.toList.head? ≠ some '?' → Host.flat.RefusesBy Host.Flat.refusals d) ∧
    ∀ {τ ν σ : Type} [DecidableEq ν] (lib : Markup.Library τ ν σ) (admits : String → String → Bool),
      (∀ root element name value, (lib.set root element name value).isOk = admits name value) →
      ∀ d, (Host.parsed lib).RefusesBy (Host.Parsed.refusals lib admits) d := by
  refine ⟨fun host refusals s l text hq hl => ?_,
    fun d hd => Host.Flat.flat_refusesBy (mt Host.Flat.breaks_iff.mp hd),
    fun lib admits hset d => Host.parsed_refusesBy lib hset d⟩
  obtain ⟨hpage, hresult, htold⟩ := apply_told hq hl text
  obtain ⟨hpage', hresult', htold'⟩ := apply_told hq (Refusals.refusesBy_kept hl) text
  rw [Refusals.foldl_after_kept hl] at hpage' hresult'
  rw [Refusals.reportsAlong_kept, List.map_eq_nil_iff] at htold'
  exact ⟨hpage, hpage'.trans hpage.symm, ⟨_, hresult, hresult'⟩, htold, htold'⟩

/-- A rejected selector, and a rejected name on two elements; and a selector that is none,
    asked of forests. -/
theorem rejected_rules_invisible_two_elements :
    let s : Session (List Host.Flat.Element) :=
      ⟨.legacy, some (.recording "log"), [⟨"a", .empty⟩, ⟨"b", .empty⟩], [], []⟩
    let l : List Declaration :=
      [⟨⟨"!x", .legacy, .number 0⟩, ⟨[("y", "1")]⟩⟩, ⟨⟨"*", .legacy, .number 0⟩, ⟨[("x", "1"), ("a b", "2")]⟩⟩]
    Quiet s.handler ∧ (∀ d ∈ l, Host.flat.RefusesBy Host.Flat.refusals d) ∧
    (s.apply Host.flat [⟨⟨"*", .legacy, .number 0⟩, ⟨[("x", "1")]⟩⟩] "").session.page =
      (s.apply Host.flat l "").session.page ∧
    (problems (s.apply Host.flat l "").events).map Problem.bare =
      [.badSelector "!x" none, .badAttribute "a b" none, .badAttribute "a b" none] ∧
    ∃ cause, Host.tree.query (.empty Host.Tree.library) "p[" = .error (.rejected "p[" cause) := by
  intro s l
  have hq : Quiet s.handler := quiet_recording "log"
  obtain ⟨hinvisible, hflat, hparsed⟩ := rejected_rules_invisible
  have hhead : ∀ d ∈ l, d.selector.text.toList.head? ≠ some '?' := by decide
  have hl : ∀ d ∈ l, Host.flat.RefusesBy Host.Flat.refusals d := fun d hd => hflat d (hhead d hd)
  obtain ⟨-, hpage, -, htold, -⟩ := hinvisible Host.flat Host.Flat.refusals s l "" hq hl
  have hkept : Host.Flat.refusals.kept l = [⟨⟨"*", .legacy, .number 0⟩, ⟨[("x", "1")]⟩⟩] := by decide
  rw [hkept] at hpage
  have hset : ∀ root path name value,
      (Host.Tree.library.set root path name value).isOk = Host.Tree.admits name value := by
    intro root path name value
    simp only [Host.Tree.library, Host.Tree.set]
    cases Host.Tree.admits name value <;> rfl
  have hforests := hparsed Host.Tree.library Host.Tree.admits hset ⟨⟨"p[", .legacy, .number 11⟩, .empty⟩
  exact ⟨hq, hl, hpage, htold.trans (by decide), hforests.query_rejected (by decide +kernel) _⟩

end Session

end AttributeSheet
