/-
  AttributeSheet.Proofs.Patterns — patterns of characters, and the search for them.

  A pattern has choices: which of two parts comes, and how many rounds of a loop. A search
  for it tries one choice after the other, a loop with many rounds first or with few, and
  goes back to the last choice left open when what follows finds nothing. `rests` lists
  what each way leaves of the text, in the order of the search, which stops at the first.

  Whether there is a way at all does not depend on that order: `rests` leaves a text
  behind every word of the pattern's language and behind nothing else (`mem_rests_iff`).
  So a pattern is found at the start of a text if the text begins with a word of its
  language (`opens_iff`), and languages may be reckoned with. A loop whose rounds come to
  one round when they are joined has no other words than none and one of them
  (`kstar_eq_one_add`).
-/
import Mathlib.Computability.Language
import Mathlib.Order.CompletePartialOrder

namespace AttributeSheet.Text

open scoped Computability

/-- How many rounds of a loop a search tries first. -/
inductive Pattern.Order where
  | most
  | fewest
  deriving DecidableEq, Repr

inductive Pattern where
  | nothing
  | one (admits : Char → Bool)
  | both (p q : Pattern)
  | either (p q : Pattern)
  | rounds (order : Pattern.Order) (p : Pattern)

namespace Pattern

/-! ## The search -/

/-- What the ways through a loop leave, in the order of the search. A round that takes
    nothing is not gone on from. -/
def roundsRests (order : Order) (round : List Char → List (List Char)) (cs : List Char) : List (List Char) :=
  let more := (round cs).flatMap fun rest => if rest.length < cs.length then roundsRests order round rest else []
  match order with
  | .most => more ++ [cs]
  | .fewest => cs :: more
  termination_by cs.length

/-- What the ways to take the pattern from the start of the characters leave of them, in the
    order of the search. -/
def rests : Pattern → List Char → List (List Char)
  | nothing, cs => [cs]
  | one _, [] => []
  | one admits, c :: cs => if admits c then [cs] else []
  | both p q, cs => (p.rests cs).flatMap q.rests
  | either p q, cs => p.rests cs ++ q.rests cs
  | rounds order p, cs => roundsRests order p.rests cs

def opens (p : Pattern) (cs : List Char) : Bool := (p.rests cs).head?.isSome

/-! ## The language -/

def language : Pattern → Language Char
  | nothing => 1
  | one admits => {word | ∃ c, admits c = true ∧ word = [c]}
  | both p q => p.language * q.language
  | either p q => p.language + q.language
  | rounds _ p => p.language∗

theorem mem_language_one {admits : Char → Bool} {word : List Char} :
    word ∈ (one admits).language ↔ ∃ c, admits c = true ∧ word = [c] := Iff.rfl

theorem language_both (p q : Pattern) : (both p q).language = p.language * q.language := rfl

theorem language_either (p q : Pattern) : (either p q).language = p.language + q.language := rfl

theorem language_rounds (order : Order) (p : Pattern) : (rounds order p).language = p.language∗ := rfl

/-- A word of a loop is empty, or a round that takes something and a word of the loop. -/
theorem mem_kstar_iff_round {L : Language Char} {word : List Char} :
    word ∈ L∗ ↔ word = [] ∨ ∃ a ∈ L, a ≠ [] ∧ ∃ b ∈ L∗, word = a ++ b := by
  constructor
  · intro h
    obtain ⟨parts, rfl, hparts⟩ := Language.mem_kstar_iff_exists_nonempty.mp h
    cases parts with
    | nil => exact Or.inl rfl
    | cons a parts =>
      obtain ⟨ha, hne⟩ := hparts a List.mem_cons_self
      have hrest : parts.flatten ∈ L∗ :=
        Language.join_mem_kstar fun b hb => (hparts b (List.mem_cons_of_mem a hb)).1
      exact Or.inr ⟨a, ha, hne, parts.flatten, hrest, List.flatten_cons⟩
  · rintro (rfl | ⟨a, ha, -, b, hb, rfl⟩)
    · exact Language.nil_mem_kstar L
    · obtain ⟨parts, rfl, hparts⟩ := Language.mem_kstar.mp hb
      exact Language.mem_kstar.mpr ⟨a :: parts, List.flatten_cons.symm, List.forall_mem_cons.mpr ⟨ha, hparts⟩⟩

theorem mem_roundsRests {order : Order} {round : List Char → List (List Char)} {cs rest : List Char} :
    rest ∈ roundsRests order round cs ↔
      rest = cs ∨ ∃ mid ∈ round cs, mid.length < cs.length ∧ rest ∈ roundsRests order round mid := by
  have hmore : rest ∈ (round cs).flatMap
        (fun mid => if mid.length < cs.length then roundsRests order round mid else []) ↔
      ∃ mid ∈ round cs, mid.length < cs.length ∧ rest ∈ roundsRests order round mid := by
    simp only [List.mem_flatMap, List.mem_ite_nil_right]
  cases order with
  | most => rw [roundsRests, List.mem_append, hmore, List.mem_singleton, or_comm]
  | fewest => rw [roundsRests, List.mem_cons, hmore]

/-- If the words of a round are those of a language, the words of the loop are those of its
    closure. -/
theorem mem_roundsRests_iff {order : Order} {round : List Char → List (List Char)} {L : Language Char}
    (hround : ∀ cs rest, rest ∈ round cs ↔ ∃ word ∈ L, cs = word ++ rest) (cs rest : List Char) :
    rest ∈ roundsRests order round cs ↔ ∃ word ∈ L∗, cs = word ++ rest := by
  -- A round leaves less than it was given, so the induction is on how much that is.
  induction hn : cs.length using Nat.strong_induction_on generalizing cs with
  | _ n ih =>
    rw [mem_roundsRests]
    constructor
    · rintro (rfl | ⟨mid, hmid, hlt, hrest⟩)
      · exact ⟨[], Language.nil_mem_kstar L, rfl⟩
      · obtain ⟨b, hb, rfl⟩ := (ih mid.length (hn ▸ hlt) mid rfl).mp hrest
        obtain ⟨a, ha, rfl⟩ := (hround _ _).mp hmid
        have hne : a ≠ [] := by
          rintro rfl
          exact absurd hlt (lt_irrefl _)
        exact ⟨a ++ b, mem_kstar_iff_round.mpr (Or.inr ⟨a, ha, hne, b, hb, rfl⟩), by rw [List.append_assoc]⟩
    · rintro ⟨word, hword, rfl⟩
      rcases mem_kstar_iff_round.mp hword with rfl | ⟨a, ha, hne, b, hb, rfl⟩
      · exact Or.inl rfl
      · have hlt : (b ++ rest).length < (a ++ b ++ rest).length := by
          have hpos := List.length_pos_of_ne_nil hne
          simp only [List.length_append]
          omega
        exact Or.inr ⟨b ++ rest, (hround _ _).mpr ⟨a, ha, List.append_assoc ..⟩, hlt,
          (ih _ (hn ▸ hlt) _ rfl).mpr ⟨b, hb, rfl⟩⟩

theorem mem_rests_iff (p : Pattern) (cs rest : List Char) :
    rest ∈ p.rests cs ↔ ∃ word ∈ p.language, cs = word ++ rest := by
  induction p generalizing cs rest with
  | nothing =>
    simp only [rests, language, List.mem_singleton, Language.mem_one, exists_eq_left, List.nil_append, eq_comm]
  | one admits =>
    cases cs with
    | nil => simp [rests, mem_language_one]
    | cons c cs =>
      simp only [rests, mem_language_one, List.mem_ite_nil_right, List.mem_singleton]
      constructor
      · rintro ⟨hc, rfl⟩
        exact ⟨[c], ⟨c, hc, rfl⟩, rfl⟩
      · rintro ⟨_, ⟨d, hd, rfl⟩, hcs⟩
        obtain ⟨rfl, rfl⟩ := List.cons.inj hcs
        exact ⟨hd, rfl⟩
  | both p q hp hq =>
    simp only [rests, language_both, List.mem_flatMap, hp, hq, Language.mem_mul]
    constructor
    · rintro ⟨mid, ⟨a, ha, rfl⟩, b, hb, rfl⟩
      exact ⟨a ++ b, ⟨a, ha, b, hb, rfl⟩, (List.append_assoc ..).symm⟩
    · rintro ⟨_, ⟨a, ha, b, hb, rfl⟩, rfl⟩
      exact ⟨b ++ rest, ⟨a, ha, List.append_assoc ..⟩, b, hb, rfl⟩
  | either p q hp hq =>
    simp only [rests, language_either, List.mem_append, hp, hq, Language.mem_add, or_and_right, exists_or]
  | rounds order p hp => exact mem_roundsRests_iff hp cs rest

theorem opens_iff {p : Pattern} {cs : List Char} : p.opens cs = true ↔ cs ∈ p.language * ⊤ := by
  rw [opens, List.isSome_head?, Language.mem_mul]
  constructor
  · intro h
    obtain ⟨rest, hrest⟩ := List.exists_mem_of_ne_nil _ h
    obtain ⟨word, hword, rfl⟩ := (mem_rests_iff p _ rest).mp hrest
    exact ⟨word, hword, rest, trivial, rfl⟩
  · rintro ⟨word, hword, rest, -, rfl⟩
    exact List.ne_nil_of_mem ((mem_rests_iff p _ rest).mpr ⟨word, hword, rfl⟩)

/-! ## Loops -/

def times : Nat → Pattern → Pattern
  | 0, _ => nothing
  | n + 1, p => both p (times n p)

theorem language_times (n : Nat) (p : Pattern) : (times n p).language = p.language ^ n := by
  induction n with
  | zero => rfl
  | succ n ih => rw [times, language_both, ih, pow_succ']

theorem language_any (order : Order) : (rounds order (one fun _ => true)).language = ⊤ := by
  refine top_unique fun word _ => ?_
  rw [language_rounds]
  induction word with
  | nil => exact Language.nil_mem_kstar _
  | cons c word ih =>
    exact mem_kstar_iff_round.mpr (Or.inr ⟨[c], ⟨c, rfl, rfl⟩, List.cons_ne_nil c [], word, ih trivial, rfl⟩)

/-- A loop whose rounds joined are a round again comes to no round or to one. -/
theorem kstar_eq_one_add {L : Language Char} (hjoined : L * L ≤ L) : L∗ = 1 + L := by
  apply le_antisymm
  · apply kstar_le_of_mul_le_left
    · exact le_add_right le_rfl
    · calc (1 + L) * L = L + L * L := by rw [add_mul, one_mul]
        _ ≤ L := add_le le_rfl hjoined
        _ ≤ 1 + L := le_add_left le_rfl
  · exact add_le one_le_kstar le_kstar

end Pattern

end AttributeSheet.Text
