/-
  AttributeSheet.Proofs.EffectiveWrites — which write of a run lasts, id and class included.

  Where ids and classes are written, what a declaration matches can only be told from the
  page that the declarations before it have left, and a run may end in the middle of a
  declaration. What a declaration writes is known all the same (`writesAt`): if the run
  comes to it, its properties on each element that it matches in that page, without the
  names that the host refuses, and only up to the first that the handler raises at
  (`writes_applyOne`). The writes of a run are those of its declarations, one after the
  other (`writes_run`).

  From the writes alone each element is known (`getElem?_replay`): nothing but its
  attributes changes, those it has stay where they are, and each ends with the value of
  the last declaration that writes it (`frame_and_last_write`).
-/
import AttributeSheet.Session
import AttributeSheet.Proofs.HostCalls
import AttributeSheet.Proofs.LastWrite
import AttributeSheet.Proofs.RunPairs
import Mathlib.Order.Bounds.Basic

namespace AttributeSheet

/-! ## One loop over the writes -/

namespace Cascade

variable {δ ε : Type} {host : Host δ ε} {handler : Option Handler}

theorem foldl_writeAll (ps : List (String × String)) (elements : List ε) (r : Run δ ε) :
    elements.foldl (writeAll host handler ps) r =
      (elements.flatMap fun element => ps.map fun p => (element, p)).foldl
        (fun r w => writeOne host handler w.1 r w.2) r := by
  rw [List.foldl_flatMap]
  congr 1
  funext r element
  rw [List.foldl_map]
  rfl

theorem foldl_writeOne_halted {r : Run δ ε} (h : r.halt.isSome = true) (ws : List (ε × String × String)) :
    ws.foldl (fun r w => writeOne host handler w.1 r w.2) r = r :=
  List.foldl_fixed' (fun w => writeOne_halted h w.1 w.2) ws

end Cascade

namespace Host.Flat

open Cascade

variable {handler : Option Handler} {r : Run (List Element) Nat}

/-! ## The writes of one declaration -/

/-- The writes that a declaration asks for in a page: its properties, in their order, for
    each element that it matches there, in the order of the page. -/
def asked (page : List Element) (d : Declaration) : List (Nat × String × String) :=
  (flat.found page d.selector.text).flatMap fun i => d.properties.entries.map fun p => (i, p)

/-- The writes that are done of those that are asked for, after `reported` has been
    reported: a name that the host refuses is passed over, or ends the run if the handler
    raises at its report. -/
def done (handler : Option Handler) : List Problem → List (Nat × String × String) → List (Nat × String × String)
  | _, [] => []
  | reported, w :: ws =>
    if refusesName w.2.1 then
      if handler.any (·.raises (reported ++ [.badAttribute w.2.1 none])) then []
      else done handler (reported ++ [.badAttribute w.2.1 none]) ws
    else w :: done handler reported ws

theorem done_taken (handler : Option Handler) (reported : List Problem) (ws : List (Nat × String × String)) :
    ∀ w ∈ done handler reported ws, refusesName w.2.1 = false := by
  induction ws generalizing reported with
  | nil => exact fun w hw => absurd hw List.not_mem_nil
  | cons v ws ih =>
    intro w hw
    rw [done] at hw
    cases hname : refusesName v.2.1 with
    | true =>
      rw [hname, if_pos rfl] at hw
      split at hw
      · cases hw
      · exact ih _ w hw
    | false =>
      rw [hname, if_neg Bool.false_ne_true] at hw
      rcases List.mem_cons.mp hw with rfl | hw
      · exact hname
      · exact ih _ w hw

theorem writeOne_taken (hr : r.halt = none) (i : Nat) {p : String × String} (h : refusesName p.1 = false) :
    ∃ page, writeOne flat handler i r p = { r with page := page }.note (.wrote i p.1 p.2) := by
  refine ⟨r.page.modify i fun e => { e with attributes := e.attributes.insert p.1 p.2 }, ?_⟩
  simp [writeOne, Run.unlessHalted, hr, flat, write, h]

theorem writeOne_refused (hr : r.halt = none) (i : Nat) {p : String × String} (h : refusesName p.1 = true) :
    writeOne flat handler i r p = r.report handler (.badAttribute p.1 none) := by
  simp [writeOne, Run.unlessHalted, hr, flat, write, h]

theorem writes_foldl_writeOne (hr : r.halt = none) (ws : List (Nat × String × String)) :
    writes (ws.foldl (fun r w => writeOne flat handler w.1 r w.2) r).events =
      writes r.events ++ done handler r.reported ws := by
  induction ws generalizing r with
  | nil => exact (List.append_nil _).symm
  | cons w ws ih =>
    obtain ⟨i, p⟩ := w
    rw [List.foldl_cons, done]
    cases hname : refusesName p.1 with
    | false =>
      obtain ⟨page, hwrote⟩ :
          ∃ page, writeOne flat handler i r p = { r with page := page }.note (.wrote i p.1 p.2) :=
        writeOne_taken hr i hname
      have hgoing : ({ r with page := page }.note (.wrote i p.1 p.2)).halt = none := hr
      have hnew : writes ({ r with page := page }.note (.wrote i p.1 p.2)).events = writes r.events ++ [(i, p)] :=
        writes_append _ _
      rw [hwrote, ih hgoing, hnew, List.append_assoc, if_neg Bool.false_ne_true]
      rfl
    | true =>
      rw [writeOne_refused hr i hname, if_pos rfl]
      have hhalt := Run.isSome_halt_report handler r (.badAttribute p.1 none)
      cases hraises : handler.any (·.raises (r.reported ++ [.badAttribute p.1 none])) with
      | true =>
        rw [foldl_writeOne_halted (hhalt.trans hraises), Run.writes_report, if_pos rfl, List.append_nil]
      | false =>
        have hgoing : (r.report handler (.badAttribute p.1 none)).halt = none :=
          Option.isSome_eq_false_iff.mp (hhalt.trans hraises) |> Option.isNone_iff_eq_none.mp
        rw [ih hgoing, Run.writes_report, if_neg Bool.false_ne_true]
        rfl

theorem writes_applyOne (hr : r.halt = none) (d : Declaration) :
    writes (applyOne flat handler r d).events = writes r.events ++ done handler r.reported (asked r.page d) := by
  have hnoted : writes (r.note (.queried d.selector.text)).events = writes r.events := Run.writes_note r rfl
  have hpage : (r.note (.queried d.selector.text)).page = r.page := rfl
  simp only [applyOne, ask, hr, Option.isSome_none, Bool.false_eq_true, if_false, hpage]
  cases hq : flat.query r.page d.selector.text with
  | ok elements =>
    have hgoing : ((r.note (.queried d.selector.text)).note (.matched d.selector.text elements.length)).halt = none := hr
    rw [foldl_writeAll, writes_foldl_writeOne hgoing, Run.writes_note _ rfl, hnoted, asked, found_of_ok hq]
    rfl
  | error refusal =>
    have hnone : done handler r.reported (asked r.page d) = [] := by
      rw [asked, found_of_error hq]
      rfl
    rw [hnone, List.append_nil]
    cases refusal with
    | rejected named cause => exact (Run.writes_report _ _ _).trans hnoted
    | broken message => exact hnoted

/-! ## The writes of a run -/

section

variable {l : List Declaration} {page : List Element} {reported : List Problem} {text : String}

/-- What the declaration at place `k` of the list writes: nothing if the run has halted
    before it, and else what is done in the page that the ones before it have left. -/
def writesAt (handler : Option Handler) (l : List Declaration) (page : List Element) (reported : List Problem)
    (text : String) (k : Nat) : List (Nat × String × String) :=
  match l[k]? with
  | none => []
  | some d =>
    let before := run flat handler (l.take k) page reported text
    if before.halt.isSome then [] else done handler before.reported (asked before.page d)

theorem writesAt_taken {k : Nat} {w : Nat × String × String} (hw : w ∈ writesAt handler l page reported text k) :
    refusesName w.2.1 = false := by
  simp only [writesAt] at hw
  split at hw
  · cases hw
  · split at hw
    · cases hw
    · exact done_taken handler _ _ w hw

theorem run_append (l : List Declaration) (d : Declaration) (page : List Element) (reported : List Problem)
    (text : String) :
    run flat handler (l ++ [d]) page reported text = applyOne flat handler (run flat handler l page reported text) d :=
  List.foldl_append

theorem writesAt_append (d : Declaration) {k : Nat} (hk : k < l.length) :
    writesAt handler (l ++ [d]) page reported text k = writesAt handler l page reported text k := by
  rw [writesAt, writesAt, List.getElem?_append_left hk, List.take_append_of_le_length (Nat.le_of_lt hk)]

/-- The writes of a run are those of its declarations, one after the other. -/
theorem writes_run (handler : Option Handler) (l : List Declaration) (page : List Element) (reported : List Problem)
    (text : String) :
    writes (run flat handler l page reported text).events =
      (List.range l.length).flatMap (writesAt handler l page reported text) := by
  induction l using List.reverseRecOn with
  | nil => rfl
  | append_singleton l d ih =>
    have hearlier : (List.range l.length).flatMap (writesAt handler (l ++ [d]) page reported text) =
        (List.range l.length).flatMap (writesAt handler l page reported text) :=
      List.flatMap_congr fun k hk => writesAt_append d (List.mem_range.mp hk)
    let before := run flat handler l page reported text
    have hlast : writesAt handler (l ++ [d]) page reported text l.length =
        if before.halt.isSome then [] else done handler before.reported (asked before.page d) := by
      simp [writesAt, before]
    rw [List.length_append, List.length_singleton, List.range_succ, List.flatMap_append, hearlier, ← ih,
      List.flatMap_singleton, hlast, run_append]
    cases hr : before.halt with
    | some halt =>
      rw [applyOne_halted (by rw [hr]; rfl)]
      simp
    | none =>
      rw [writes_applyOne hr]
      simp [before]

end

/-! ## One element -/

/-- Those of the writes that are to the element at place `i`: the names with their values. -/
def toPlace (i : Nat) (ws : List (Nat × String × String)) : List (String × String) :=
  (ws.filter fun w => w.1 = i).map (·.2)

theorem replay_cons (page : List Element) (w : Nat × String × String) (ws : List (Nat × String × String)) :
    flat.replay page (w :: ws) = flat.replay (page.modify w.1 (·.written w.2)) ws := by
  rw [← written_eq_modify]; rfl

theorem length_replay (page : List Element) (ws : List (Nat × String × String)) :
    (flat.replay page ws).length = page.length := by
  induction ws generalizing page with
  | nil => rfl
  | cons w ws ih => rw [replay_cons, ih, List.length_modify]

theorem getElem?_replay (page : List Element) (ws : List (Nat × String × String)) (i : Nat) :
    (flat.replay page ws)[i]? = page[i]?.map fun e => (toPlace i ws).foldl Element.written e := by
  induction ws generalizing page with
  | nil => simp [replay, toPlace]
  | cons w ws ih =>
    rw [replay_cons, ih, List.getElem?_modify]
    by_cases hi : w.1 = i
    · simp [toPlace, hi, Function.comp_def]
    · simp [toPlace, hi]

theorem foldl_written {ps : List (String × String)} (h : ∀ p ∈ ps, refusesName p.1 = false) (e : Element) :
    ps.foldl Element.written e = { e with attributes := e.attributes.insertAll ps } := by
  have hall : (ps.filter fun p => !refusesName p.1) = ps := by
    rw [List.filter_eq_self]
    intro p hp
    rw [h p hp]
    rfl
  rw [foldl_written_eq, hall]

/-- `e'` is `e` after the writes that `written k` tells of each place `k` below `n`: its tag
    is kept, its names stay in front of new ones, which follow as they are first written,
    no name that is written has a space in it, and a name has the value that it is given
    at the last place that writes it, or else the one it had. -/
structure Element.LastWritten (written : Nat → List (String × String)) (n : Nat) (e e' : Element) : Prop where
  tag_eq : e'.tag = e.tag
  keys_eq : e'.attributes.keys = e.attributes.keys ++
    ((((List.range n).flatMap written).map (·.1)).filter (· ∉ e.attributes.keys)).eraseDups
  names_taken : ∀ k, ∀ p ∈ written k, ' ' ∉ p.1.toList
  value : ∀ name,
    (∃ k, IsGreatest {k | name ∈ (written k).map (·.1)} k ∧
      e'.attributes.get? name = OrderedMap.lastValue? name (written k)) ∨
    ((∀ k, name ∉ (written k).map (·.1)) ∧ e'.attributes.get? name = e.attributes.get? name)

theorem lastValue?_flatMap_range (f : Nat → List (String × String)) (n : Nat) (name : String) :
    (∃ k, IsGreatest {k | k < n ∧ name ∈ (f k).map (·.1)} k ∧
      OrderedMap.lastValue? name ((List.range n).flatMap f) = OrderedMap.lastValue? name (f k) ∧
      OrderedMap.lastValue? name (f k) ≠ none) ∨
    ((∀ k < n, name ∉ (f k).map (·.1)) ∧ OrderedMap.lastValue? name ((List.range n).flatMap f) = none) := by
  induction n with
  | zero => exact Or.inr ⟨fun k hk => absurd hk (Nat.not_lt_zero k), rfl⟩
  | succ n ih =>
    rw [List.range_succ, List.flatMap_append, List.flatMap_singleton, OrderedMap.lastValue?_append]
    by_cases hn : name ∈ (f n).map (·.1)
    · have hsome : OrderedMap.lastValue? name (f n) ≠ none := mt OrderedMap.lastValue?_eq_none.mp (not_not_intro hn)
      refine Or.inl ⟨n, ⟨⟨Nat.lt_succ_self n, hn⟩, fun j hj => Nat.le_of_lt_succ hj.1⟩, ?_, hsome⟩
      exact Option.or_of_isSome (Option.isSome_iff_ne_none.mpr hsome)
    · rw [OrderedMap.lastValue?_eq_none.mpr hn, Option.none_or]
      rcases ih with ⟨k, ⟨⟨hk, hname⟩, hmax⟩, hv, hsome⟩ | ⟨hnone, hv⟩
      · refine Or.inl ⟨k, ⟨⟨Nat.lt_succ_of_lt hk, hname⟩, fun j hj => ?_⟩, hv, hsome⟩
        rcases Nat.lt_succ_iff_lt_or_eq.mp hj.1 with hlt | rfl
        · exact hmax ⟨hlt, hj.2⟩
        · exact absurd hj.2 hn
      · refine Or.inr ⟨fun k hk => ?_, hv⟩
        rcases Nat.lt_succ_iff_lt_or_eq.mp hk with hlt | rfl
        · exact hnone k hlt
        · exact hn

theorem lastWritten_foldl {written : Nat → List (String × String)} {n : Nat} (hout : ∀ k, n ≤ k → written k = [])
    (htaken : ∀ k, ∀ p ∈ written k, refusesName p.1 = false) (e : Element) :
    e.LastWritten written n (((List.range n).flatMap written).foldl Element.written e) := by
  have hall : ∀ p ∈ (List.range n).flatMap written, refusesName p.1 = false := by
    intro p hp
    obtain ⟨k, -, hk⟩ := List.mem_flatMap.mp hp
    exact htaken k p hk
  have hinside : ∀ name k, name ∈ (written k).map (·.1) → k < n := by
    intro name k hname
    by_contra hk
    rw [hout k (Nat.le_of_not_lt hk)] at hname
    cases hname
  rw [foldl_written hall]
  refine ⟨rfl, OrderedMap.keys_insertAll_append _ _, fun k p hp => ?_, fun name => ?_⟩
  · simpa [refusesName] using htaken k p hp
  · rw [OrderedMap.get?_insertAll]
    rcases lastValue?_flatMap_range written n name with ⟨k, ⟨⟨-, hname⟩, hmax⟩, hv, hsome⟩ | ⟨hnone, hv⟩
    · refine Or.inl ⟨k, ⟨hname, fun j hj => hmax ⟨hinside name j hj, hj⟩⟩, ?_⟩
      rw [hv, Option.or_of_isSome (Option.isSome_iff_ne_none.mpr hsome)]
    · refine Or.inr ⟨fun k hk => hnone k (hinside name k hk) hk, ?_⟩
      rw [hv, Option.none_or]

/-- Where the writes of all places are done in a page, each element is left like that by
    those to it. -/
theorem lastWritten_replay {page : List Element} {ws : Nat → List (Nat × String × String)} {n : Nat}
    (hout : ∀ k, n ≤ k → ws k = []) (htaken : ∀ k, ∀ w ∈ ws k, refusesName w.2.1 = false) {i : Nat} {e : Element}
    (he : page[i]? = some e) :
    ∃ e', (flat.replay page ((List.range n).flatMap ws))[i]? = some e' ∧
      e.LastWritten (fun k => toPlace i (ws k)) n e' := by
  have hplace : toPlace i ((List.range n).flatMap ws) = (List.range n).flatMap fun k => toPlace i (ws k) := by
    rw [toPlace, List.filter_flatMap, List.map_flatMap]
    rfl
  refine ⟨_, by rw [getElem?_replay, he, hplace, Option.map_some], lastWritten_foldl (fun k hk => ?_) (fun k p hp => ?_) e⟩
  · rw [hout k hk]; rfl
  · obtain ⟨w, hw, rfl⟩ := List.mem_map.mp hp
    exact htaken k w (List.mem_of_mem_filter hw)

end Host.Flat

namespace Session

open Host Host.Flat

/-- Applying a list leaves as many elements as there were, and each of them written, under
    its own tag, by the declarations that come to it: what each declaration writes is
    judged by the page that those before it have left, and where the run is aborted, only
    what was written before counts. The writes are those that the run has logged. -/
theorem frame_and_last_write (s : Session (List Element)) (l : List Declaration) (html : String) :
    let applied := s.apply flat l html
    applied.session.page.length = s.page.length ∧
    (∀ (i : Nat) (e : Element), s.page[i]? = some e → ∃ e', applied.session.page[i]? = some e' ∧
      e.LastWritten (fun k => toPlace i (writesAt s.handler l s.page s.reported html k)) l.length e') ∧
    writes applied.events = (List.range l.length).flatMap (writesAt s.handler l s.page s.reported html) := by
  intro applied
  have hwrites : writes applied.events = (List.range l.length).flatMap (writesAt s.handler l s.page s.reported html) :=
    writes_run s.handler l s.page s.reported html
  have hpage : applied.session.page = flat.replay s.page (writes applied.events) :=
    Cascade.run_replays flat s.handler l s.page s.reported html
  clear_value applied
  refine ⟨by rw [hpage, length_replay], fun i e he => ?_, hwrites⟩
  rw [hpage, hwrites]
  refine lastWritten_replay (fun k hk => ?_) (fun k w hw => writesAt_taken hw) he
  rw [writesAt, List.getElem?_eq_none hk]

/-- An element that is matched by the id that it has just been written, until the second
    refused name ends the run: what the aborted declaration has written by then lasts. -/
theorem frame_and_last_write_by_written_id :
    let page : List Element := [⟨"a", ⟨[("k", "0")]⟩⟩, ⟨"b", .empty⟩]
    let l : List Declaration :=
      [⟨⟨"a", .legacy, .number 1⟩, ⟨[("id", "x"), ("u v", "0")]⟩⟩,
        ⟨⟨"#x", .legacy, .number 100⟩, ⟨[("k", "1"), ("y z", "2"), ("id", "w")]⟩⟩]
    let second : Handler := ⟨"stop", fun reported => decide (reported.length = 2)⟩
    let s : Session (List Element) := ⟨.legacy, some second, page, [], []⟩
    page[0]? = some ⟨"a", ⟨[("k", "0")]⟩⟩ ∧
    ∃ e, (s.apply flat l "").session.page[0]? = some e ∧ e.tag = "a" ∧ e.attributes.keys = ["k", "id"] ∧
      e.attributes.get? "k" = some "1" := by
  intro page l second s
  obtain ⟨-, hwritten, -⟩ := frame_and_last_write s l ""
  obtain ⟨e, he, hlast⟩ := hwritten 0 ⟨"a", ⟨[("k", "0")]⟩⟩ rfl
  refine ⟨rfl, e, he, hlast.tag_eq, hlast.keys_eq.trans (by decide), ?_⟩
  have hcut : toPlace 0 (writesAt s.handler l s.page s.reported "" 1) = [("k", "1")] := by decide
  have hsecond : IsGreatest {k | "k" ∈ (toPlace 0 (writesAt s.handler l s.page s.reported "" k)).map (·.1)} 1 := by
    refine ⟨by rw [Set.mem_ofPred_eq, hcut]; decide, fun k hk => ?_⟩
    by_contra hlater
    obtain ⟨j, rfl⟩ : ∃ j, k = j + 2 := Nat.exists_eq_add_of_le' (Nat.lt_of_not_le hlater)
    exact absurd hk List.not_mem_nil
  rcases hlast.value "k" with ⟨k, hk, hvalue⟩ | ⟨hnone, -⟩
  · rw [hvalue, hk.unique hsecond, hcut]; rfl
  · exact absurd hsecond.1 (hnone 1)

end Session

end AttributeSheet
