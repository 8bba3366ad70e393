/-
  AttributeSheet.Proofs.QuotedTexts — a quoted text is read back, and shows on one line.

  One character of a quoted text is written in one of eight ways (`Escape`), and quoting
  writes each in one of them (`escape_escapeChar`). All else is by cases on these.

  A quoted text says itself where it ends: its mark never stands in it but behind a
  backslash (`Escape.head`). So it can be read back without looking at what follows
  (`unquote?`): one character after the other (`Escape.read`), up to the bare mark
  (`readQuoted?_escaped`), whatever text comes after it (`unquote?_quoteChars`).

  Every character that quoting writes is printable (`isPrintable_quote`), and none that
  ends a line is (`not_isPrintable_of_endsLine`).
-/
import AttributeSheet.Text.Letters
import AttributeSheet.Text.Quoted
import Mathlib.Algebra.Ring.Parity

namespace AttributeSheet.Text

/-! ## The ways a character is written -/

def IsMark (mark : Char) : Prop := mark = '\'' ∨ mark = '"'

instance (mark : Char) : Decidable (IsMark mark) := inferInstanceAs (Decidable (_ ∨ _))

theorem toList_quote (s : String) : (quote s).toList = quoteChars s.toList := String.toList_ofList

theorem isMark_quoteMark (cs : List Char) : IsMark (quoteMark cs) := by
  unfold quoteMark
  split_ifs
  · exact Or.inr rfl
  · exact Or.inl rfl

/-- How a character is written between two marks: behind a backslash, by a letter, as it
    is, or by its code point in as many digits as hold it. -/
inductive Escape (mark : Char) : Char → List Char → Prop
  | backed {c : Char} : c = mark ∨ c = '\\' → Escape mark c ['\\', c]
  | tab : Escape mark '\t' ['\\', 't']
  | newline : Escape mark '\n' ['\\', 'n']
  | carriageReturn : Escape mark '\r' ['\\', 'r']
  | plain {c : Char} : c ≠ mark → c ≠ '\\' → isPrintable c = true → Escape mark c [c]
  | byte {c : Char} : c.toNat < 16 ^ 2 → Escape mark c ('\\' :: 'x' :: hexDigits 2 c.toNat)
  | word {c : Char} : c.toNat < 16 ^ 4 → Escape mark c ('\\' :: 'u' :: hexDigits 4 c.toNat)
  | long {c : Char} : c.toNat < 16 ^ 8 → Escape mark c ('\\' :: 'U' :: hexDigits 8 c.toNat)

theorem toNat_lt_long (c : Char) : c.toNat < 16 ^ 8 := by
  have hvalid : c.toNat < 0xD800 ∨ 0xDFFF < c.toNat ∧ c.toNat < 0x110000 := c.valid
  omega

theorem escape_escapeCode (mark c : Char) : Escape mark c (escapeCode c.toNat) := by
  unfold escapeCode
  split_ifs with hbyte hword
  · exact .byte hbyte
  · exact .word hword
  · exact .long (toNat_lt_long c)

theorem escape_escapeChar (mark c : Char) : Escape mark c (escapeChar mark c) := by
  unfold escapeChar
  split_ifs with hbacked htab hnewline hreturn hprintable
  · exact .backed hbacked
  · subst htab
    exact .tab
  · subst hnewline
    exact .newline
  · subst hreturn
    exact .carriageReturn
  · obtain ⟨hmark, hbackslash⟩ := not_or.mp hbacked
    exact .plain hmark hbackslash hprintable
  · exact escape_escapeCode mark c

theorem Escape.head {mark c : Char} {written : List Char} (hmark : IsMark mark) (h : Escape mark c written) :
    ∃ d r, written = d :: r ∧ d ≠ mark := by
  have hbackslash : '\\' ≠ mark := by
    rcases hmark with rfl | rfl
    · decide
    · decide
  cases h with
  | plain hc _ _ => exact ⟨c, [], rfl, hc⟩
  | _ => exact ⟨'\\', _, rfl, hbackslash⟩

/-! ## Code points -/

def hexValue? (digits : List Char) : Option Nat :=
  digits.foldlM (fun n d => (hexDigit? d).map fun value => 16 * n + value) 0

def readCode? (width : Nat) (cs : List Char) : Option (Char × List Char) :=
  (hexValue? (cs.take width)).map fun n => (Char.ofNat n, cs.drop width)

theorem hexDigit?_hexChar : ∀ n < 16, hexDigit? (hexChar n) = some n := by decide

theorem length_hexDigits (width n : Nat) : (hexDigits width n).length = width := by
  induction width generalizing n with
  | zero => rfl
  | succ width ih => rw [hexDigits, List.length_append, ih, List.length_singleton]

theorem hexValue?_hexDigits (width n : Nat) : hexValue? (hexDigits width n) = some (n % 16 ^ width) := by
  induction width generalizing n with
  | zero => rw [Nat.pow_zero, Nat.mod_one]; rfl
  | succ width ih =>
    have hlast : hexDigit? (hexChar (n % 16)) = some (n % 16) := hexDigit?_hexChar _ (Nat.mod_lt n (by decide))
    have hvalue : n % 16 ^ (width + 1) = 16 * (n / 16 % 16 ^ width) + n % 16 := by
      rw [Nat.pow_succ', Nat.mod_mul, Nat.add_comm]
    unfold hexValue? at ih ⊢
    rw [hexDigits, List.foldlM_append, ih, hvalue]
    simp [hlast]

theorem readCode?_hexDigits {width : Nat} {c : Char} (h : c.toNat < 16 ^ width) (rest : List Char) :
    readCode? width (hexDigits width c.toNat ++ rest) = some (c, rest) := by
  have hlength := length_hexDigits width c.toNat
  rw [readCode?, List.take_left' hlength, List.drop_left' hlength, hexValue?_hexDigits, Nat.mod_eq_of_lt h,
    Option.map_some, Char.ofNat_toNat]

theorem readCode?_length {width : Nat} {cs rest : List Char} {c : Char} (h : readCode? width cs = some (c, rest)) :
    rest.length ≤ cs.length := by
  obtain ⟨n, -, hn⟩ := Option.map_eq_some_iff.mp h
  rw [← (Prod.mk.inj hn).2, List.length_drop]
  omega

/-! ## Reading back -/

def unescape? : List Char → Option (Char × List Char)
  | '\\' :: 't' :: r => some ('\t', r)
  | '\\' :: 'n' :: r => some ('\n', r)
  | '\\' :: 'r' :: r => some ('\r', r)
  | '\\' :: 'x' :: r => readCode? 2 r
  | '\\' :: 'u' :: r => readCode? 4 r
  | '\\' :: 'U' :: r => readCode? 8 r
  | '\\' :: c :: r => some (c, r)
  | c :: r => some (c, r)
  | [] => none

theorem unescape?_length {cs rest : List Char} {c : Char} (h : unescape? cs = some (c, rest)) :
    rest.length < cs.length := by
  have hcode : ∀ {width : Nat} {d e : Char} {r : List Char}, readCode? width r = some (c, rest) →
      rest.length < (d :: e :: r).length := by
    intro width d e r hr
    have := readCode?_length hr
    simp only [List.length_cons]
    omega
  unfold unescape? at h
  split at h
  case h_4 => exact hcode h
  case h_5 => exact hcode h
  case h_6 => exact hcode h
  case h_9 => cases h
  all_goals
    obtain ⟨rfl, rfl⟩ := Prod.mk.inj (Option.some.inj h)
    simp only [List.length_cons]
    omega

theorem unescape?_plain {c : Char} (h : c ≠ '\\') (rest : List Char) : unescape? (c :: rest) = some (c, rest) := by
  unfold unescape?
  split <;> simp_all

theorem Escape.read {mark c : Char} {written : List Char} (hmark : IsMark mark) (h : Escape mark c written)
    (rest : List Char) : unescape? (written ++ rest) = some (c, rest) := by
  cases h with
  | backed hc =>
    rcases hc with rfl | rfl
    · rcases hmark with rfl | rfl
      · rfl
      · rfl
    · rfl
  | tab => rfl
  | newline => rfl
  | carriageReturn => rfl
  | plain _ hbackslash _ => exact unescape?_plain hbackslash rest
  | byte hc => exact readCode?_hexDigits hc rest
  | word hc => exact readCode?_hexDigits hc rest
  | long hc => exact readCode?_hexDigits hc rest

/-- Reads a text up to the bare mark, and what follows the mark. -/
def readQuoted? (mark : Char) : List Char → Option (List Char × List Char)
  | [] => none
  | c :: r =>
    if c = mark then some ([], r)
    else match _ : unescape? (c :: r) with
      | none => none
      | some (d, rest) => (readQuoted? mark rest).map fun p => (d :: p.1, p.2)
  termination_by cs => cs.length
  decreasing_by exact unescape?_length (by assumption)

def unquote? : List Char → Option (List Char × List Char)
  | [] => none
  | mark :: r => if IsMark mark then readQuoted? mark r else none

theorem readQuoted?_escaped {mark : Char} (hmark : IsMark mark) (cs rest : List Char) :
    readQuoted? mark (cs.flatMap (escapeChar mark) ++ mark :: rest) = some (cs, rest) := by
  induction cs with
  | nil => rw [List.flatMap_nil, List.nil_append, readQuoted?, if_pos rfl]
  | cons c cs ih =>
    have hescape := escape_escapeChar mark c
    have hread := hescape.read hmark (cs.flatMap (escapeChar mark) ++ mark :: rest)
    obtain ⟨d, r, hwritten, hd⟩ := hescape.head hmark
    rw [List.flatMap_cons, List.append_assoc]
    rw [hwritten, List.cons_append] at hread ⊢
    rw [readQuoted?, if_neg hd]
    split
    · simp_all
    · simp_all

/-- A quoted text is read back, whatever follows it. -/
theorem unquote?_quoteChars (cs rest : List Char) : unquote? (quoteChars cs ++ rest) = some (cs, rest) := by
  have hmark := isMark_quoteMark cs
  rw [quoteChars, List.append_assoc, List.cons_append, List.cons_append, List.nil_append, unquote?, if_pos hmark]
  exact readQuoted?_escaped hmark cs rest

/-! ## On one line -/

def isAscii (c : Char) : Bool := 32 ≤ c.toNat && c.toNat ≤ 126

theorem isPrintable_of_ascii {c : Char} (h : isAscii c = true) : isPrintable c = true := by
  have hruns : ∀ run ∈ unprintableRuns, run.2 < 32 ∨ 126 < run.1 := by decide +kernel
  rw [isAscii, Bool.and_eq_true, decide_eq_true_eq, decide_eq_true_eq] at h
  rw [isPrintable, Bool.not_eq_true', List.any_eq_false]
  intro run hrun
  have := hruns run hrun
  simp only [Bool.and_eq_true, decide_eq_true_eq]
  omega

theorem printable_of_all_ascii {cs : List Char} (h : cs.all isAscii = true) : ∀ c ∈ cs, isPrintable c = true := by
  intro c hc
  exact isPrintable_of_ascii (List.all_eq_true.mp h c hc)

theorem isPrintable_hexDigits (width n : Nat) : ∀ c ∈ hexDigits width n, isPrintable c = true := by
  have hdigit : ∀ n < 16, isAscii (hexChar n) = true := by decide
  induction width generalizing n with
  | zero => nofun
  | succ width ih =>
    intro c hc
    rcases List.mem_append.mp hc with hc | hc
    · exact ih _ c hc
    · rw [List.mem_singleton.mp hc]
      exact isPrintable_of_ascii (hdigit _ (Nat.mod_lt n (by decide)))

theorem IsMark.printable {mark : Char} (h : IsMark mark) : isPrintable mark = true := by
  rcases h with rfl | rfl
  · exact isPrintable_of_ascii rfl
  · exact isPrintable_of_ascii rfl

theorem Escape.printable {mark c : Char} {written : List Char} (hmark : IsMark mark) (h : Escape mark c written) :
    ∀ d ∈ written, isPrintable d = true := by
  have hletters : ∀ d ∈ ['\\', 't', 'n', 'r', 'x', 'u', 'U'], isPrintable d = true := printable_of_all_ascii rfl
  have hbehind : ∀ {r : List Char}, (∀ d ∈ r, isPrintable d = true) →
      ∀ d ∈ '\\' :: r, isPrintable d = true := by
    intro r hr
    exact List.forall_mem_cons.mpr ⟨hletters '\\' (by decide), hr⟩
  have hcode : ∀ {x : Char}, x ∈ ['x', 'u', 'U'] → ∀ width n, ∀ d ∈ '\\' :: x :: hexDigits width n,
      isPrintable d = true := by
    intro x hx width n
    have hx' : isPrintable x = true := hletters x (by simp_all)
    exact hbehind (List.forall_mem_cons.mpr ⟨hx', isPrintable_hexDigits width n⟩)
  cases h with
  | backed hc =>
    rcases hc with rfl | rfl
    · exact hbehind (List.forall_mem_singleton.mpr hmark.printable)
    · exact hbehind (List.forall_mem_singleton.mpr (hletters '\\' (by decide)))
  | tab => exact hbehind (List.forall_mem_singleton.mpr (hletters 't' (by decide)))
  | newline => exact hbehind (List.forall_mem_singleton.mpr (hletters 'n' (by decide)))
  | carriageReturn => exact hbehind (List.forall_mem_singleton.mpr (hletters 'r' (by decide)))
  | plain _ _ hc => exact List.forall_mem_singleton.mpr hc
  | byte _ => exact hcode (by decide) 2 _
  | word _ => exact hcode (by decide) 4 _
  | long _ => exact hcode (by decide) 8 _

theorem isPrintable_quote (s : String) : ∀ c ∈ (quote s).toList, isPrintable c = true := by
  have hmark := isMark_quoteMark s.toList
  intro c hc
  rw [toList_quote, quoteChars] at hc
  rcases List.mem_append.mp hc with hc | hc
  · rcases List.mem_cons.mp hc with rfl | hc
    · exact hmark.printable
    · obtain ⟨d, -, hd⟩ := List.mem_flatMap.mp hc
      exact (escape_escapeChar _ d).printable hmark c hd
  · rw [List.mem_singleton.mp hc]
    exact hmark.printable

/-- The characters at which a text is parted into lines. -/
def endsLine (c : Char) : Bool :=
  let n := c.toNat
  (10 ≤ n && n ≤ 13) || (28 ≤ n && n ≤ 30) || n == 0x85 || n == 0x2028 || n == 0x2029

theorem not_isPrintable_of_endsLine {c : Char} (h : endsLine c = true) : isPrintable c = false := by
  have hrun : ∀ first last, (first, last) ∈ unprintableRuns → first ≤ c.toNat → c.toNat ≤ last →
      isPrintable c = false := by
    intro first last hmem hfirst hlast
    rw [isPrintable, Bool.not_eq_false', List.any_eq_true]
    exact ⟨(first, last), hmem, by simp [hfirst, hlast]⟩
  simp only [endsLine, Bool.or_eq_true, Bool.and_eq_true, decide_eq_true_eq, beq_iff_eq] at h
  rcases h with (((h | h) | h) | h) | h
  · exact hrun 0 31 (by decide +kernel) (by omega) (by omega)
  · exact hrun 0 31 (by decide +kernel) (by omega) (by omega)
  · exact hrun 127 160 (by decide +kernel) (by omega) (by omega)
  · exact hrun 8232 8239 (by decide +kernel) (by omega) (by omega)
  · exact hrun 8232 8239 (by decide +kernel) (by omega) (by omega)

end AttributeSheet.Text
