/-
  AttributeSheet.Proofs.HostCalls — what a run asks of its host.

  Of the events of a run, some are calls on the host: the page is taken in, a selector
  is asked for, an attribute is written (`calls`). A run only ever adds to its events
  (`Moves.extends`), and the page it holds is the one that was taken in, with the
  attributes that were written so far written over again (`run_replays`): nothing else
  changes a page.
-/
import AttributeSheet.Proofs.ToldRuns
import Mathlib.Data.List.Basic

namespace AttributeSheet

variable {δ ε : Type} {host : Host δ ε} {handler : Option Handler}

/-- The event is a call on the host; a write is one only if the host takes it. -/
def Event.isCall : Event ε → Bool
  | loaded _ | queried _ | wrote .. => true
  | skipped _ | parsed _ | vacant | matched .. | logged _ | handed .. => false

def calls (events : List (Event ε)) : List (Event ε) := events.filter Event.isCall

def Event.write? : Event ε → Option (ε × String × String)
  | wrote element name value => some (element, name, value)
  | _ => none

def writes (events : List (Event ε)) : List (ε × String × String) := events.filterMap Event.write?

@[simp] theorem calls_append (a b : List (Event ε)) : calls (a ++ b) = calls a ++ calls b := List.filter_append ..

@[simp] theorem writes_append (a b : List (Event ε)) : writes (a ++ b) = writes a ++ writes b :=
  List.filterMap_append

theorem writes_calls (events : List (Event ε)) : writes (calls events) = writes events := by
  rw [writes, calls, List.filterMap_filter]
  exact List.filterMap_congr fun e _ => by cases e <;> rfl

theorem Run.writes_note (r : Run δ ε) {e : Event ε} (h : e.write? = none) :
    writes (r.note e).events = writes r.events := by
  simp [note, writes, h]

theorem Run.writes_report (r : Run δ ε) (handler : Option Handler) (p : Problem) :
    writes (r.report handler p).events = writes r.events := by
  have hnone : writes (reporting handler p : List (Event ε)) = [] := by cases handler <;> rfl
  have hevents : writes (r.report handler p).events = writes r.events ++ writes (reporting handler p) :=
    writes_append _ _
  rw [hevents, hnone, List.append_nil]

theorem calls_reporting (handler : Option Handler) (p : Problem) : calls (reporting handler p : List (Event ε)) = [] := by
  cases handler <;> rfl

/-- The page with attributes written, one after the other. -/
def Host.replay (host : Host δ ε) (page : δ) (ws : List (ε × String × String)) : δ :=
  ws.foldl (fun page w => host.written w.1 page w.2) page

theorem Host.replay_append (host : Host δ ε) (page : δ) (a b : List (ε × String × String)) :
    host.replay page (a ++ b) = host.replay (host.replay page a) b := List.foldl_append

namespace Cascade

variable {r r' : Run δ ε}

/-- A move adds to the events and takes none back. -/
theorem Move.extends (h : Move host handler r r') : r.events <+: r'.events := by
  cases h with
  | queried selector _ => exact List.prefix_append ..
  | matched selector count _ => exact List.prefix_append ..
  | wrote _ _ => exact List.prefix_append ..
  | badSelector _ _ => exact List.prefix_append ..
  | badAttribute _ _ => exact List.prefix_append ..
  | queryBroke _ _ => exact List.prefix_refl _
  | writeBroke _ _ => exact List.prefix_refl _

theorem Moves.extends (h : Moves host handler r r') : r.events <+: r'.events := by
  induction h with
  | refl => exact List.prefix_refl _
  | tail _ hmove ih => exact ih.trans hmove.extends

theorem Move.replays {first : δ} (h : Move host handler r r') (hr : r.page = host.replay first (writes r.events)) :
    r'.page = host.replay first (writes r'.events) := by
  cases h with
  | queried selector _ => rw [Run.writes_note r rfl]; exact hr
  | matched selector count _ => rw [Run.writes_note r rfl]; exact hr
  | @wrote page element name value _ hw =>
    have hnew : writes ({ r with page := page }.note (.wrote element name value)).events =
        writes r.events ++ [(element, name, value)] := writes_append _ _
    rw [hnew, Host.replay_append, ← hr]
    exact (Host.written_of_ok hw).symm
  | badSelector _ _ => rw [Run.writes_report]; exact hr
  | badAttribute _ _ => rw [Run.writes_report]; exact hr
  | queryBroke _ _ => exact hr
  | writeBroke _ _ => exact hr

/-- The page of a run is the loaded one with what was written written over again, wherever
    the run has ended. -/
theorem run_replays (host : Host δ ε) (handler : Option Handler) (l : List Declaration) (page : δ)
    (reported : List Problem) (text : String) :
    (run host handler l page reported text).page =
      host.replay (host.load page text) (writes (run host handler l page reported text).events) := by
  refine run_keeps (P := fun r => r.page = host.replay (host.load page text) (writes r.events))
    (fun _ _ h hr => h.replays hr) ?_
  rcases load_cases host page reported text with h | h <;> rw [h] <;> rfl

end Cascade

end AttributeSheet
