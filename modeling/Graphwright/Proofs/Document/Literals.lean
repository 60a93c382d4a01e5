import Graphwright.Proofs.Document.Cutting

/-!
# Cutting string literals

Every text that is printed as a string literal, on one line or as a block, is cut into one token
again (`cuts_string`). A literal may stand inside an indented part of a text, so this holds with a
margin after every line end (`indentBy`). Of a literal on one line the escapes have to be undone
(`literalChar_cases`); of a block no three quotes may be left that would end it early
(`closes_escapeTriple`).
-/
namespace Graphwright.Document

/-! ## Margins -/

/-- A text with a margin behind every line end. -/
def indentBy (margin cs : List Char) : List Char :=
  cs.flatMap fun c => if c = '\n' then '\n' :: margin else [c]

@[simp] theorem indentBy_newline (margin cs : List Char) :
    indentBy margin ('\n' :: cs) = '\n' :: (margin ++ indentBy margin cs) := rfl

theorem indentBy_cons {c : Char} (h : c ≠ '\n') (margin cs : List Char) :
    indentBy margin (c :: cs) = c :: indentBy margin cs := by
  simp [indentBy, h]

@[simp] theorem indentBy_append (margin cs ds : List Char) :
    indentBy margin (cs ++ ds) = indentBy margin cs ++ indentBy margin ds := List.flatMap_append

theorem indentBy_of_ne {cs : List Char} (h : ∀ c ∈ cs, c ≠ '\n') (margin : List Char) :
    indentBy margin cs = cs := by
  induction cs with
  | nil => rfl
  | cons c cs ih =>
    rw [indentBy_cons (h c List.mem_cons_self), ih fun d hd => h d (List.mem_cons_of_mem _ hd)]

theorem indentBy_noMargin (cs : List Char) : indentBy [] cs = cs := by
  have hchar : (fun c => if c = '\n' then ['\n'] else [c]) = fun c : Char => [c] := by
    funext c
    split <;> simp_all
  rw [indentBy, hchar, List.flatMap_singleton']

/-- A text indented twice has both margins, the later one in front. -/
theorem indentBy_indentBy {margin : List Char} (h : ∀ c ∈ margin, c ≠ '\n')
    (margin' cs : List Char) :
    indentBy margin' (indentBy margin cs) = indentBy (margin' ++ margin) cs := by
  induction cs with
  | nil => rfl
  | cons c cs ih =>
    by_cases hc : c = '\n'
    · subst hc
      rw [indentBy_newline, indentBy_newline, indentBy_newline, indentBy_append, indentBy_of_ne h,
        ih, List.append_assoc]
    · rw [indentBy_cons hc, indentBy_cons hc, indentBy_cons hc, ih]

/-- Blanks in front of lines. -/
def IsMargin (margin : List Char) : Prop := ∀ c ∈ margin, c = ' '

instance (margin : List Char) : Decidable (IsMargin margin) := List.decidableBAll _ margin

/-! ## Literals on one line -/

/-- Four hexadecimal digits in front of a text, and the number that they stand for. -/
def IsFour (digits : List Char) (n : Nat) : Prop :=
  (∀ rest, Text.hexFour? (digits ++ rest) = some (n, rest)) ∧ digits.length = 4 ∧
    digits.head? ≠ some '\x7b' ∧ '\n' ∉ digits

theorem hexFour?_append {digits : List Char} {n : Nat} (h : Text.hexFour? digits = some (n, []))
    (rest : List Char) : Text.hexFour? (digits ++ rest) = some (n, rest) := by
  unfold Text.hexFour? at h
  split at h
  · split at h
    · rename_i ha hb hc hd
      obtain ⟨rfl, rfl⟩ := Prod.mk.inj (Option.some.inj h)
      simp [Text.hexFour?, ha, hb, hc, hd]
    · cases h
  · cases h

/-- The number of a control character is written with four digits. -/
theorem isFour_hex {n : Nat} (h : n < 160) : IsFour (Text.hex 4 n).toList n := by
  have hdigits : ∀ n < 160, Text.hexFour? (Text.hex 4 n).toList = some (n, []) ∧
      (Text.hex 4 n).toList.length = 4 ∧
      (Text.hex 4 n).toList.head? ≠ some '\x7b' ∧ '\n' ∉ (Text.hex 4 n).toList := by
    decide +kernel
  obtain ⟨hfour, hlength, hbrace, hline⟩ := hdigits n h
  exact ⟨hexFour?_append hfour, hlength, hbrace, hline⟩

theorem escapeSequence_four {digits : List Char} {n : Nat} (h : IsFour digits n) (hn : n < 160)
    (position : Nat) (rest : List Char) :
    escapeSequence position ('\\' :: 'u' :: digits ++ rest) = .ok (Char.ofNat n, 6) := by
  obtain ⟨hfour, hlength, hbrace, -⟩ := h
  have hscalar : isScalar n := by simp [isScalar]; omega
  have hbrace : ∀ more, digits ++ rest ≠ '\x7b' :: more := by
    rintro more hmore
    obtain ⟨d, ds, rfl⟩ := List.exists_cons_of_length_eq_add_one hlength
    exact hbrace (congrArg some (List.cons.inj hmore).1)
  have hlong : ¬ (digits ++ rest).length < 4 := by simp [hlength]
  rw [List.cons_append, List.cons_append, escapeSequence]
  simp only [List.drop_succ_cons, List.drop_zero, hlong, hfour, hscalar, if_true, if_false]

/-- A character stands for itself in a literal, or is escaped. -/
theorem literalChar_cases (c : Char) :
    ((Print.literalChar c).toList = [c] ∧ c ≠ '"' ∧ c ≠ '\\' ∧ c ≠ '\r' ∧ c ≠ '\n') ∨
      ∃ escape, (Print.literalChar c).toList = '\\' :: escape ∧ '\n' ∉ escape ∧
        ∀ position rest, escapeSequence position ('\\' :: escape ++ rest) =
          .ok (c, escape.length + 1) := by
  by_cases hshort : c ∈ ['"', '\\', '\x08', '\x0c', '\n', '\r', '\t']
  · right
    simp only [List.mem_cons, List.not_mem_nil, or_false] at hshort
    rcases hshort with rfl | rfl | rfl | rfl | rfl | rfl | rfl
    all_goals exact ⟨_, rfl, by decide, fun _ _ => rfl⟩
  · simp only [List.mem_cons, List.not_mem_nil, or_false, not_or] at hshort
    obtain ⟨hquote, hslash, hb, hf, hn, hr, ht⟩ := hshort
    by_cases hcontrol : c.toNat < 0x20 || (0x7f ≤ c.toNat && c.toNat < 0xa0)
    · right
      have hc : c.toNat < 160 := by
        simp at hcontrol
        omega
      have hfour := isFour_hex hc
      refine ⟨'u' :: (Text.hex 4 c.toNat).toList, ?_, ?_, fun position rest => ?_⟩
      · simp [Print.literalChar, hquote, hslash, hb, hf, hn, hr, ht, hcontrol]
      · simpa using hfour.2.2.2
      · have := escapeSequence_four hfour hc position rest
        simpa [hfour.2.1] using this
    · left
      refine ⟨?_, hquote, hslash, hr, hn⟩
      simp [Print.literalChar, hquote, hslash, hb, hf, hn, hr, ht, hcontrol]

/-- The text of a literal between its quotes. -/
def literalBody (cs : List Char) : List Char := cs.flatMap fun c => (Print.literalChar c).toList

theorem toList_literal (s : String) :
    (Print.literal s).toList = '"' :: (literalBody s.toList ++ ['"']) := by
  simp [Print.literal, literalBody, List.flatMap_map]

/-- What is between the quotes of a literal is read up to the quote behind it. -/
theorem stringFrom_literalBody (cs rest : List Char) (fuel start position : Nat) (acc : List Char)
    (hfuel : (literalBody cs ++ '"' :: rest).length < fuel) :
    ∃ length, stringFrom fuel start position acc (literalBody cs ++ '"' :: rest) =
      .ok ⟨.string, String.ofList (acc.reverse ++ cs), length, rest⟩ := by
  induction cs generalizing fuel position acc with
  | nil =>
    obtain ⟨fuel, rfl⟩ := Nat.exists_eq_add_one_of_ne_zero (Nat.ne_zero_of_lt hfuel)
    exact ⟨position + 1 - start, by simp [literalBody, stringFrom]⟩
  | cons c cs ih =>
    obtain ⟨fuel, rfl⟩ := Nat.exists_eq_add_one_of_ne_zero (Nat.ne_zero_of_lt hfuel)
    have hcons : literalBody (c :: cs) = (Print.literalChar c).toList ++ literalBody cs := rfl
    rw [hcons, List.append_assoc] at hfuel ⊢
    rcases literalChar_cases c with ⟨hc, hquote, hslash, hr, hn⟩ | ⟨escape, hc, -, hescape⟩
    · rw [hc] at hfuel ⊢
      obtain ⟨length, ih⟩ := ih fuel (position + 1) (c :: acc) (by simp at hfuel ⊢; omega)
      refine ⟨length, ?_⟩
      simp [stringFrom, hquote, hslash, hr, hn, ih]
    · rw [hc] at hfuel ⊢
      obtain ⟨length, ih⟩ :=
        ih fuel (position + (escape.length + 1)) (c :: acc) (by simp at hfuel ⊢; omega)
      refine ⟨length, ?_⟩
      have hstep := hescape position (literalBody cs ++ '"' :: rest)
      rw [List.cons_append] at hstep ⊢
      rw [stringFrom, if_neg (by decide), if_pos rfl, hstep]
      change stringFrom _ _ _ _ _ = _
      rw [Nat.add_sub_cancel, List.drop_left, ih, List.reverse_cons, List.append_assoc]
      rfl

theorem not_mem_literalBody (cs : List Char) : '\n' ∉ literalBody cs := by
  intro h
  obtain ⟨c, -, hc⟩ := List.mem_flatMap.mp h
  rcases literalChar_cases c with ⟨heq, -, -, -, hn⟩ | ⟨escape, heq, hn, -⟩
  · rw [heq, List.mem_singleton] at hc
    exact hn hc.symm
  · rw [heq, List.mem_cons] at hc
    exact hc.elim (by decide) hn

theorem head?_literalBody (cs : List Char) : (literalBody cs).head? ≠ some '"' := by
  cases cs with
  | nil => simp [literalBody]
  | cons c cs =>
    have hcons : literalBody (c :: cs) = (Print.literalChar c).toList ++ literalBody cs := rfl
    rw [hcons]
    rcases literalChar_cases c with ⟨heq, hquote, -⟩ | ⟨escape, heq, -⟩ <;> simp [*]

theorem cuts_literal (s : String) : Cuts (Print.literal s).toList [(.string, "")] := by
  rw [toList_literal]
  refine cutsBefore_lexeme rfl (by decide) fun rest hrest position => ?_
  obtain ⟨length, hstring⟩ :=
    stringFrom_literalBody s.toList rest _ position (position + 1) [] (Nat.lt_succ_self _)
  refine ⟨.string, s, length, ?_, rfl⟩
  rw [List.append_assoc, List.singleton_append, lexeme]
  · rw [hstring]
    simp
  · intro more hmore
    cases hbody : literalBody s.toList with
    | nil =>
      rw [hbody] at hmore
      obtain ⟨-, rfl⟩ := List.cons.inj hmore
      exact absurd (hrest '"' rfl) (by decide)
    | cons c cs =>
      rw [hbody] at hmore
      obtain ⟨rfl, -⟩ := List.cons.inj hmore
      exact head?_literalBody s.toList (by rw [hbody]; rfl)

/-! ## Blocks -/

/-- What may stand between the quotes of a block: quotes behind a backslash are passed over, and no
others close it early. -/
inductive Closes : List Char → Prop
  | nil : Closes []
  | escaped {cs : List Char} : Closes cs → Closes ('\\' :: (tripleQuote ++ cs))
  | char {c : Char} {cs : List Char} : ¬ tripleQuote <+: c :: cs ++ tripleQuote →
      ¬ '\\' :: tripleQuote <+: c :: cs ++ tripleQuote → Closes cs → Closes (c :: cs)

theorem Closes.plain {c : Char} {cs : List Char} (hquote : c ≠ '"') (hslash : c ≠ '\\')
    (h : Closes cs) : Closes (c :: cs) := by
  refine .char ?_ ?_ h
  · exact fun h => hquote (List.cons_prefix_cons.mp h).1.symm
  · exact fun h => hslash (List.cons_prefix_cons.mp h).1.symm

theorem Closes.plain_append {cs ds : List Char} (hcs : ∀ c ∈ cs, c ≠ '"' ∧ c ≠ '\\')
    (h : Closes ds) : Closes (cs ++ ds) := by
  induction cs with
  | nil => exact h
  | cons c cs ih =>
    obtain ⟨hquote, hslash⟩ := hcs c List.mem_cons_self
    exact .plain hquote hslash (ih fun d hd => hcs d (List.mem_cons_of_mem _ hd))

theorem not_isPrefixOf_append {ps cs : List Char} (hlength : ps.length ≤ cs.length)
    (h : ¬ ps <+: cs) (rest : List Char) : ps.isPrefixOf (cs ++ rest) = false := by
  rw [Bool.eq_false_iff, ne_eq, List.isPrefixOf_iff_prefix]
  exact fun hprefix => h (List.prefix_of_prefix_length_le hprefix (List.prefix_append ..) hlength)

/-- What closes is read up to the quotes behind it, and so is what follows a line feed in front of
it. -/
theorem blockFrom_closes {cs : List Char} (h : Closes cs) (rest : List Char) :
    (∀ fuel start position line lines, (cs ++ tripleQuote ++ rest).length < fuel → ∃ value length,
      blockFrom fuel start position line lines (cs ++ tripleQuote ++ rest) =
        .ok ⟨.blockString, value, length, rest⟩) ∧
    ∀ ds, cs = '\n' :: ds → ∀ fuel start position line lines,
    (ds ++ tripleQuote ++ rest).length < fuel →
        ∃ value length, blockFrom fuel start position line lines (ds ++ tripleQuote ++ rest) =
          .ok ⟨.blockString, value, length, rest⟩ := by
  -- A carriage return and a line feed are passed over at once: the second part is what the case of
  -- a return needs.
  induction h with
  | nil =>
    refine ⟨fun fuel start position line lines hfuel => ?_, nofun⟩
    obtain ⟨fuel, rfl⟩ := Nat.exists_eq_add_one_of_ne_zero (Nat.ne_zero_of_lt hfuel)
    exact ⟨_, _, by simp [tripleQuote, blockFrom, List.isPrefixOf]; exact ⟨rfl, rfl⟩⟩
  | @escaped cs _ ih =>
    refine ⟨fun fuel start position line lines hfuel => ?_, fun ds h => by cases h⟩
    obtain ⟨fuel, rfl⟩ := Nat.exists_eq_add_one_of_ne_zero (Nat.ne_zero_of_lt hfuel)
    obtain ⟨value, length, ih⟩ := ih.1 fuel start (position + 4) ('"' :: '"' :: '"' :: line) lines
      (by simp [tripleQuote] at hfuel ⊢; omega)
    refine ⟨value, length, ?_⟩
    simp only [tripleQuote, List.cons_append, List.nil_append] at ih ⊢
    rw [blockFrom, if_neg (by simp [tripleQuote]), if_pos (by simp [tripleQuote])]
    exact ih
  | @char c cs hquotes hescaped hcs ih =>
    refine ⟨fun fuel start position line lines hfuel => ?_, fun ds h => by cases h; exact ih.1⟩
    obtain ⟨fuel, rfl⟩ := Nat.exists_eq_add_one_of_ne_zero (Nat.ne_zero_of_lt hfuel)
    have hquotes := not_isPrefixOf_append (by simp [tripleQuote]) hquotes rest
    have hescaped := not_isPrefixOf_append (by simp [tripleQuote]) hescaped rest
    have hfuel' : (cs ++ tripleQuote ++ rest).length < fuel := by simp at hfuel ⊢; omega
    rw [List.cons_append, List.cons_append] at hquotes hescaped ⊢
    rw [blockFrom, if_neg (ne_true_of_eq_false hquotes), if_neg (ne_true_of_eq_false hescaped)]
    split
    · split
      · rename_i hpair
        obtain ⟨rfl, hfeed⟩ := List.cons_prefix_cons.mp (List.isPrefixOf_iff_prefix.mp hpair)
        obtain ⟨ds, rfl⟩ : ∃ ds, cs = '\n' :: ds := by
          cases cs with
          | nil => exact absurd (List.cons_prefix_cons.mp hfeed).1 (by decide)
          | cons d ds => exact ⟨ds, by rw [(List.cons_prefix_cons.mp hfeed).1]⟩
        exact ih.2 ds rfl _ _ _ _ _ (by simp at hfuel' ⊢; omega)
      · exact ih.1 _ _ _ _ _ hfuel'
    · exact ih.1 _ _ _ _ _ hfuel'

/-- Characters that close are cut into one token between their quotes. -/
theorem cutsFreely_block {cs : List Char} (h : Closes cs) :
    CutsFreely (tripleQuote ++ cs ++ tripleQuote) [(.blockString, "")] := by
  refine cutsBefore_lexeme rfl (by decide) fun rest _ position => ?_
  obtain ⟨value, length, hblock⟩ :=
    (blockFrom_closes h rest).1 ((cs ++ tripleQuote ++ rest).length + 1) position
    (position + 3) [] [] (Nat.lt_succ_self _)
  exact ⟨.blockString, value, length, hblock, rfl⟩

/-- What may stand behind a text in a block: a line end, if the text would run into the quotes or
escape them. -/
def IsEnding (after value : List Char) : Prop :=
  after = ['\n'] ∨ after = [] ∧ value.getLast? ≠ some '"' ∧ value.getLast? ≠ some '\\'

theorem IsEnding.tail {after value : List Char} {c : Char} (h : IsEnding after (c :: value)) :
    IsEnding after value := by
  refine h.imp_right fun ⟨hafter, hquote, hslash⟩ => ⟨hafter, ?_⟩
  cases value with
  | nil => simp
  | cons d ds =>
    exact ⟨by rwa [List.getLast?_cons_cons] at hquote, by rwa [List.getLast?_cons_cons] at hslash⟩

theorem escapeTriple_of_not_begins {c : Char} {cs : List Char} (h : ¬ tripleQuote <+: c :: cs) :
    escapeTriple (c :: cs) = c :: escapeTriple cs := by
  rw [escapeTriple]
  rintro rest hc rfl
  exact h ⟨rest, by rw [hc]; rfl⟩

/-- A quote that is seen in an escaped text comes from a quote of the text, and that is not the
first of three. -/
theorem eq_cons_of_quote {margin after value ys : List Char} {c : Char} (hc : c = '"' ∨ c = '\\')
    (h : IsEnding after (c :: value))
    (hys : indentBy margin (escapeTriple value ++ after) ++ tripleQuote = '"' :: ys) :
    ∃ rest, value = '"' :: rest ∧ indentBy margin (escapeTriple rest ++ after) ++ tripleQuote = ys ∧
      ¬ tripleQuote <+: value := by
  cases value with
  | nil =>
    have hafter : after = ['\n'] := by
      refine h.resolve_right fun ⟨_, hquote, hslash⟩ => ?_
      rcases hc with rfl | rfl
      · exact hquote rfl
      · exact hslash rfl
    rw [hafter] at hys
    exact absurd (List.cons.inj hys).1 (by decide)
  | cons d rest =>
    by_cases htriple : tripleQuote <+: d :: rest
    · obtain ⟨more, hmore⟩ := htriple
      rw [← hmore] at hys
      exact absurd (List.cons.inj hys).1 (by decide)
    · rw [escapeTriple_of_not_begins htriple, List.cons_append] at hys
      by_cases hd : d = '\n'
      · subst hd
        exact absurd (List.cons.inj hys).1 (by decide)
      · rw [indentBy_cons hd, List.cons_append] at hys
        obtain ⟨rfl, rfl⟩ := List.cons.inj hys
        exact ⟨rest, rfl, rfl, htriple⟩

/-- Three quotes in an escaped text would come from three quotes of the text. -/
theorem not_begins_of_quote {margin after rest : List Char} (h : IsEnding after ('"' :: rest))
    (htriple : ¬ tripleQuote <+: '"' :: rest) :
    ¬ tripleQuote <+: '"' :: (indentBy margin (escapeTriple rest ++ after) ++ tripleQuote) := by
  rintro ⟨ys, hys⟩
  obtain ⟨rest, rfl, hys, -⟩ := eq_cons_of_quote (.inl rfl) h (List.cons.inj hys).2.symm
  obtain ⟨rest, rfl, -, -⟩ := eq_cons_of_quote (.inl rfl) h.tail hys
  exact htriple ⟨rest, rfl⟩

/-- Three quotes behind a backslash of the text would have been escaped. -/
theorem not_escaped_of_backslash {margin after rest : List Char}
    (h : IsEnding after ('\\' :: rest)) :
    ¬ '\\' :: tripleQuote <+:
      '\\' :: (indentBy margin (escapeTriple rest ++ after) ++ tripleQuote) := by
  rintro ⟨ys, hys⟩
  obtain ⟨rest, rfl, hys, hrest⟩ := eq_cons_of_quote (.inr rfl) h (List.cons.inj hys).2.symm
  obtain ⟨rest, rfl, hys, -⟩ := eq_cons_of_quote (.inl rfl) h.tail hys
  obtain ⟨rest, rfl, -, -⟩ := eq_cons_of_quote (.inl rfl) h.tail.tail hys
  exact hrest ⟨rest, rfl⟩

/-- No quotes of an escaped text close it early, if it has the right ending. -/
theorem closes_escapeTriple {margin : List Char} (hmargin : IsMargin margin) {after : List Char}
    (value : List Char) (h : IsEnding after value) :
    Closes (indentBy margin (escapeTriple value ++ after)) := by
  have hplain : ∀ c ∈ margin, c ≠ '"' ∧ c ≠ '\\' := fun c hc => by
    rw [hmargin c hc]
    decide
  induction value using escapeTriple.induct with
  | case1 rest ih => exact .escaped (ih h.tail.tail.tail)
  | case2 c rest hne ih =>
    have htriple : ¬ tripleQuote <+: c :: rest := by
      rintro ⟨more, hmore⟩
      obtain ⟨rfl, rfl⟩ := List.cons.inj hmore
      exact hne more rfl rfl
    have ih := ih h.tail
    rw [escapeTriple_of_not_begins htriple, List.cons_append]
    by_cases hc : c = '\n'
    · subst hc
      exact .plain (by decide) (by decide) (ih.plain_append hplain)
    rw [indentBy_cons hc]
    by_cases hquote : c = '"'
    · subst hquote
      exact .char (not_begins_of_quote h htriple)
        (fun hprefix => absurd (List.cons_prefix_cons.mp hprefix).1 (by decide)) ih
    by_cases hslash : c = '\\'
    · subst hslash
      exact .char (fun hprefix => absurd (List.cons_prefix_cons.mp hprefix).1 (by decide))
        (not_escaped_of_backslash h) ih
    · exact .plain hquote hslash ih
  | case3 =>
    rcases h with rfl | ⟨rfl, -⟩
    · exact .plain (by decide) (by decide) (Closes.nil.plain_append hplain)
    · exact .nil

theorem toList_blockLiteral (s : String) :
    ∃ before after, (before = [] ∨ before = ['\n']) ∧ IsEnding after s.toList ∧
    (blockLiteral s).toList = tripleQuote ++ (before ++ escapeTriple s.toList ++ after) ++
      tripleQuote := by
  have hshape (before escaped after : List Char) :
      tripleQuote ++ before ++ escaped ++ after ++ tripleQuote =
      tripleQuote ++ (before ++ escaped ++ after) ++ tripleQuote := by
    simp only [List.append_assoc]
  unfold blockLiteral
  rw [String.toList_ofList, hshape]
  refine ⟨_, _, ?_, ?_, rfl⟩
  · split
    · exact .inr rfl
    · exact .inl rfl
  · split
    · exact .inl rfl
    · rename_i hends
      simp only [Bool.or_eq_true, Bool.and_eq_true, not_or, beq_iff_eq] at hends
      refine .inr ⟨rfl, fun hquote => ?_, hends.2.2⟩
      exact hends.2.1 ⟨hquote, by rw [Bool.not_eq_true', Bool.eq_false_iff]; exact hends.1.2⟩

/-- A text as a literal is cut into one token, also inside an indented part. -/
theorem cuts_string (s : String) (isBlock : Bool) {margin : List Char} (hmargin : IsMargin margin) :
    Cuts (indentBy margin (Print.string s isBlock).toList)
      [(if isBlock then .blockString else .string, "")] := by
  cases isBlock with
  | false =>
    have hline : ∀ c ∈ (Print.literal s).toList, c ≠ '\n' := by
      rw [toList_literal]
      rintro c hc rfl
      simp [not_mem_literalBody] at hc
    change Cuts (indentBy margin (Print.literal s).toList) _
    rw [indentBy_of_ne hline]
    exact cuts_literal s
  | true =>
    obtain ⟨before, after, hbefore, hafter, htext⟩ := toList_blockLiteral s
    have hquotes : indentBy margin tripleQuote = tripleQuote := rfl
    have hcloses : Closes (indentBy margin (before ++ (escapeTriple s.toList ++ after))) := by
      have hcloses := closes_escapeTriple hmargin s.toList hafter
      rcases hbefore with rfl | rfl
      · exact hcloses
      · refine .plain (by decide) (by decide) (hcloses.plain_append fun c hc => ?_)
        rw [hmargin c hc]
        decide
    change Cuts (indentBy margin (blockLiteral s).toList) _
    rw [htext, indentBy_append, indentBy_append, hquotes, List.append_assoc before]
    exact (cutsFreely_block hcloses).cuts

end Graphwright.Document
