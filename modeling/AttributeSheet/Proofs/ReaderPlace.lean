/-
  AttributeSheet.Proofs.ReaderPlace — where a reader stands after any text.

  Of the text so far, only what comes after the last closing brace is still open
  (`SinceLast`). Its first opening brace parts the selector from the properties, and the
  text after the last semicolon of those is the open property. Where the reader stands is
  read off these parts: the phase from the marks that occur in them
  (`opened_beforeSelector_iff`, `opened_inSelector_iff`, `within_inValue_iff`), what it holds
  from the texts themselves (`opened_of_no_brace`, `within_of_no_colon`, `within_of_colon`).
  The finished blocks are as many as there are closing braces (`length_closedPieces`), and
  no text takes one of them back (`blocks_prefix_feed`).

  So the reader is known at every point of every text (`place_told`).
-/
import AttributeSheet.Proofs.RepeatedReading

namespace AttributeSheet

namespace Text

/-! ## The text since a mark -/

/-- `p` is the text after the last `d` of `cs`, all of it if there is none. -/
def SinceLast (d : Char) (cs p : List Char) : Prop := d ∉ p ∧ (cs = p ∨ ∃ before, cs = before ++ d :: p)

theorem openPiece_of_not_mem {d : Char} {cs : List Char} (h : d ∉ cs) : openPiece d cs = cs := by
  induction cs using List.reverseRecOn with
  | nil => rfl
  | append_singleton cs c ih =>
    have hcs : d ∉ cs := fun hd => h (List.mem_append_left _ hd)
    have hc : c ≠ d := fun hcd => h (by simp [hcd])
    rw [openPiece_snoc, if_neg hc, ih hcs]

theorem openPiece_behind_mark {d : Char} (before : List Char) {p : List Char} (h : d ∉ p) :
    openPiece d (before ++ d :: p) = p := by
  induction p using List.reverseRecOn with
  | nil => rw [openPiece_snoc, if_pos rfl]
  | append_singleton p c ih =>
    have hp : d ∉ p := fun hd => h (List.mem_append_left _ hd)
    have hc : c ≠ d := fun hcd => h (by simp [hcd])
    rw [← List.cons_append, ← List.append_assoc, openPiece_snoc, if_neg hc, ih hp]

theorem sinceLast_openPiece (d : Char) (cs : List Char) : SinceLast d cs (openPiece d cs) := by
  induction cs using List.reverseRecOn with
  | nil => exact ⟨nofun, Or.inl rfl⟩
  | append_singleton cs c ih =>
    rw [openPiece_snoc]
    by_cases hc : c = d
    · rw [if_pos hc, hc]
      exact ⟨nofun, Or.inr ⟨cs, rfl⟩⟩
    · rw [if_neg hc]
      obtain ⟨hpiece, hcs⟩ := ih
      refine ⟨?_, ?_⟩
      · simp [hpiece, Ne.symm hc]
      · rcases hcs with hcs | ⟨before, hcs⟩
        · exact Or.inl (congrArg (· ++ [c]) hcs)
        · exact Or.inr ⟨before, (congrArg (· ++ [c]) hcs).trans (List.append_assoc _ _ _)⟩

theorem sinceLast_iff {d : Char} {cs p : List Char} : SinceLast d cs p ↔ openPiece d cs = p := by
  constructor
  · intro h
    obtain ⟨hp, hcs | ⟨before, hcs⟩⟩ := h
    · rw [hcs, openPiece_of_not_mem hp]
    · rw [hcs, openPiece_behind_mark before hp]
  · intro h
    rw [← h]
    exact sinceLast_openPiece d cs

theorem length_closedPieces (d : Char) (cs : List Char) : (closedPieces d cs).length = cs.count d := by
  induction cs using List.reverseRecOn with
  | nil => rfl
  | append_singleton cs c ih =>
    rw [closedPieces_snoc, List.count_append, ← ih]
    by_cases hc : c = d
    · subst hc
      simp
    · simp [hc]

end Text

namespace Block.Reader

open Text Chained

/-! ## The finished blocks -/

theorem blocks_prefix_endBlock (r : Reader) : r.blocks <+: r.endBlock.blocks := List.prefix_append _ _

theorem blocks_prefix_step (r : Reader) (c : Char) : r.blocks <+: (r.step c).blocks := by
  unfold step
  cases r.phase with
  | beforeSelector =>
    dsimp only
    split_ifs
    · exact r.blocks_prefix_endBlock
    · exact List.prefix_rfl
    · exact List.prefix_rfl
    · exact List.prefix_rfl
  | inSelector =>
    dsimp only
    split_ifs
    · exact List.prefix_rfl
    · exact r.blocks_prefix_endBlock
    · exact List.prefix_rfl
  | inProperties =>
    dsimp only
    split_ifs
    · exact List.prefix_rfl
    · exact List.prefix_rfl
    · exact r.endProperty.blocks_prefix_endBlock
    · exact List.prefix_rfl
  | inValue =>
    dsimp only
    split_ifs
    · exact List.prefix_rfl
    · exact r.endProperty.blocks_prefix_endBlock
    · exact List.prefix_rfl

/-- A finished block stays what it is and where it is, whatever is read after it. -/
theorem blocks_prefix_feed (r : Reader) (cs : List Char) : r.blocks <+: (r.feed cs).blocks :=
  feed_keeps (P := fun s => r.blocks <+: s.blocks) (fun s c _ h => h.trans (s.blocks_prefix_step c)) List.prefix_rfl

theorem trace_eq_map (r : Reader) (cs : List Char) : r.trace cs = cs.inits.tail.map r.feed := by
  induction cs generalizing r with
  | nil => rfl
  | cons c cs ih =>
    have hinits : cs.inits = [] :: cs.inits.tail := by cases cs <;> rfl
    have hmap : (cs.inits.map (c :: ·)).map r.feed = cs.inits.map (r.step c).feed := by
      rw [List.map_map]
      rfl
    rw [trace, ih, List.inits_cons, List.tail_cons, hmap, hinits]
    rfl

/-! ## The open block -/

theorem opened_blocks (blocks : List Block) (p : List Char) : (opened blocks p).blocks = blocks := by
  unfold opened
  cases splitAt? '{' p with
  | none => rfl
  | some parts =>
    dsimp only [within]
    cases splitAt? ':' (openPiece ';' parts.2) with
    | none => rfl
    | some entry => rfl

/-- Without an opening brace all of the text is selector. -/
theorem opened_of_no_brace (blocks : List Block) {p : List Char} (h : '{' ∉ p) :
    opened blocks p =
      ⟨if p.all isBlank then .beforeSelector else .inSelector, String.ofList (skipBlanks p), "", "", [], blocks⟩ := by
  unfold opened
  rw [splitAt?_eq_none.mpr h]

theorem opened_of_brace (blocks : List Block) {selector : List Char} (h : '{' ∉ selector) (q : List Char) :
    opened blocks (selector ++ '{' :: q) = within blocks selector q := by
  unfold opened
  rw [splitAt?_of_not_mem h]

theorem within_of_no_colon (blocks : List Block) (selector : List Char) {q : List Char} (h : ':' ∉ openPiece ';' q) :
    within blocks selector q =
      ⟨.inProperties, String.ofList (skipBlanks selector), String.ofList (openPiece ';' q), "",
        named (closedPieces ';' q), blocks⟩ := by
  unfold within
  rw [splitAt?_eq_none.mpr h]

theorem within_of_colon (blocks : List Block) (selector : List Char) {q name value : List Char}
    (he : openPiece ';' q = name ++ ':' :: value) (h : ':' ∉ name) :
    within blocks selector q =
      ⟨.inValue, String.ofList (skipBlanks selector), String.ofList name, String.ofList value,
        named (closedPieces ';' q), blocks⟩ := by
  unfold within
  rw [he, splitAt?_of_not_mem h]

theorem within_inValue_iff (blocks : List Block) (selector q : List Char) :
    (within blocks selector q).phase = .inValue ↔ ':' ∈ openPiece ';' q := by
  by_cases hcolon : ':' ∈ openPiece ';' q
  · obtain ⟨name, value, he, hname⟩ := List.eq_append_cons_of_mem hcolon
    rw [within_of_colon blocks selector he hname]
    simp [hcolon]
  · rw [within_of_no_colon blocks selector hcolon]
    simp [hcolon]

theorem within_inProperties_iff (blocks : List Block) (selector q : List Char) :
    (within blocks selector q).phase = .inProperties ↔ ':' ∉ openPiece ';' q := by
  rw [← within_inValue_iff blocks selector q]
  rcases within_phase blocks selector q with h | h
  · simp [h]
  · simp [h]

theorem within_selector (blocks : List Block) (selector q : List Char) :
    trim (within blocks selector q).selector = trimmed selector := by
  unfold within
  cases splitAt? ':' (openPiece ';' q) with
  | none => rw [trim_ofList, trimmed_skipBlanks]
  | some entry => rw [trim_ofList, trimmed_skipBlanks]

theorem within_properties (blocks : List Block) (selector q : List Char) :
    (within blocks selector q).properties = named (closedPieces ';' q) := by
  unfold within
  cases splitAt? ':' (openPiece ';' q) with
  | none => rfl
  | some entry => rfl

theorem opened_phase_of_brace (blocks : List Block) {p : List Char} (h : '{' ∈ p) :
    (opened blocks p).phase = .inProperties ∨ (opened blocks p).phase = .inValue := by
  obtain ⟨selector, q, rfl, hselector⟩ := List.eq_append_cons_of_mem h
  rw [opened_of_brace blocks hselector q]
  exact within_phase blocks selector q

theorem opened_beforeSelector_iff (blocks : List Block) (p : List Char) :
    (opened blocks p).phase = .beforeSelector ↔ ∀ c ∈ p, isBlank c = true := by
  by_cases hbrace : '{' ∈ p
  · have hsolid : isBlank '{' ≠ true := by decide
    have hsome : ¬ ∀ c ∈ p, isBlank c = true := fun h => hsolid (h '{' hbrace)
    rcases opened_phase_of_brace blocks hbrace with hphase | hphase
    · simp [hphase, hsome]
    · simp [hphase, hsome]
  · rw [opened_of_no_brace blocks hbrace]
    by_cases hblank : ∀ c ∈ p, isBlank c = true
    · simpa [List.all_eq_true.mpr hblank] using hblank
    · have hall : ¬ p.all isBlank = true := fun h => hblank (List.all_eq_true.mp h)
      simp only [if_neg hall, reduceCtorEq, hblank]

theorem opened_inSelector_iff (blocks : List Block) (p : List Char) :
    (opened blocks p).phase = .inSelector ↔ (∃ c ∈ p, isBlank c = false) ∧ '{' ∉ p := by
  by_cases hbrace : '{' ∈ p
  · rcases opened_phase_of_brace blocks hbrace with hphase | hphase
    · simp [hphase, hbrace]
    · simp [hphase, hbrace]
  · rw [opened_of_no_brace blocks hbrace]
    by_cases hall : p.all isBlank = true
    · have hnone : ¬ ∃ c ∈ p, isBlank c = false := by simpa using hall
      simp [hall, hnone]
    · have hsome : ∃ c ∈ p, isBlank c = false := by simpa using hall
      simp [hall, hsome, hbrace]

/-! ## At every point -/

/-- Every reader on the way through a text is where the text so far leads to, and where a
    text `t` leads to is told by `p`, the part of it that no closing brace has closed. There are as
    many finished blocks as closing braces, and they stay whatever is read after them. The
    reader is before a selector if `p` is blank, and in one if it is not blank and has no
    opening brace. If it has one, `q` being the text after the first one and `e` the part of
    that which no semicolon has closed, the reader is in a value if `e` has a colon and among the
    properties if it has none; the finished properties are the named entries that semicolons
    have closed. The parts held so far are those of `p` and `e`, up to blanks at their ends. -/
theorem place_told (t p : List Char) (hp : SinceLast '}' t p) :
    let r := start.feed t
    start.trace t = t.inits.tail.map start.feed ∧
    r.blocks.length = t.count '}' ∧ (∀ more, r.blocks <+: (start.feed (t ++ more)).blocks) ∧
    (r.phase = .beforeSelector ↔ ∀ c ∈ p, isBlank c = true) ∧
    (r.phase = .inSelector ↔ (∃ c ∈ p, isBlank c = false) ∧ '{' ∉ p) ∧
    ('{' ∉ p → trim r.selector = trimmed p ∧ r.name = "" ∧ r.value = "" ∧ r.properties = []) ∧
    ∀ selector q, p = selector ++ '{' :: q → '{' ∉ selector →
      trim r.selector = trimmed selector ∧ r.properties = named (closedPieces ';' q) ∧
      ∀ e, SinceLast ';' q e →
        (r.phase = .inValue ↔ ':' ∈ e) ∧ (r.phase = .inProperties ↔ ':' ∉ e) ∧
        (':' ∉ e → trim r.name = trimmed e ∧ r.value = "") ∧
        ∀ name value, e = name ++ ':' :: value → ':' ∉ name →
          trim r.name = trimmed name ∧ trim r.value = trimmed value := by
  intro r
  have hr : r = opened ((closedPieces '}' t).map block) p := by
    rw [← sinceLast_iff.mp hp]
    exact feed_start t
  refine ⟨trace_eq_map start t, ?_, ?_, ?_, ?_, ?_, ?_⟩
  · rw [hr, opened_blocks, List.length_map, length_closedPieces]
  · intro more
    rw [feed_append]
    exact blocks_prefix_feed r more
  · rw [hr]
    exact opened_beforeSelector_iff _ p
  · rw [hr]
    exact opened_inSelector_iff _ p
  · intro hbrace
    rw [hr, opened_of_no_brace _ hbrace]
    exact ⟨by rw [trim_ofList, trimmed_skipBlanks], rfl, rfl, rfl⟩
  · intro selector q hsplit hselector
    rw [hsplit, opened_of_brace _ hselector] at hr
    refine ⟨by rw [hr, within_selector], by rw [hr, within_properties], ?_⟩
    intro e he
    have hopen : openPiece ';' q = e := sinceLast_iff.mp he
    refine ⟨?_, ?_, ?_, ?_⟩
    · rw [hr, within_inValue_iff, hopen]
    · rw [hr, within_inProperties_iff, hopen]
    · intro hcolon
      rw [hr, within_of_no_colon _ _ (hopen ▸ hcolon), hopen]
      exact ⟨trim_ofList e, rfl⟩
    · intro name value hentry hname
      rw [hr, within_of_colon _ _ (hopen.trans hentry) hname]
      exact ⟨trim_ofList name, trim_ofList value⟩

/-- In the value of a property behind a nameless one, in the second of two blocks. -/
theorem place_told_second_value :
    let t := "a\x7bb:\x7b\x7d\n#c \x7b x : 1; :2 ;y: z:".toList
    let p := "\n#c \x7b x : 1; :2 ;y: z:".toList
    let r := start.feed t
    SinceLast '}' t p ∧ r.blocks.length = 1 ∧ r.phase = .inValue ∧ trim r.selector = "#c" ∧
      r.properties = [("x", "1")] ∧ trim r.name = "y" ∧ trim r.value = "z:" := by
  intro t p r
  have hp : SinceLast '}' t p := ⟨by decide, Or.inr ⟨"a\x7bb:\x7b".toList, by decide⟩⟩
  have he : SinceLast ';' " x : 1; :2 ;y: z:".toList "y: z:".toList :=
    ⟨by decide, Or.inr ⟨" x : 1; :2 ".toList, by decide⟩⟩
  obtain ⟨-, hblocks, -, -, -, -, hopen⟩ := place_told t p hp
  obtain ⟨hselector, hproperties, hentry⟩ := hopen "\n#c ".toList " x : 1; :2 ;y: z:".toList (by decide) (by decide)
  obtain ⟨hvalue, -, -, hparts⟩ := hentry "y: z:".toList he
  obtain ⟨hname, htext⟩ := hparts ['y'] " z:".toList (by decide) (by decide)
  exact ⟨hp, hblocks.trans (by decide), hvalue.mpr (by decide), hselector.trans (by decide),
    hproperties.trans (by decide), hname.trans (by decide), htext.trans (by decide)⟩

end Block.Reader

end AttributeSheet
