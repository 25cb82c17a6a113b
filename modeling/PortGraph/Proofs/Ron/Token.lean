import PortGraph.Proofs.Number.Written
import PortGraph.Ron.Reader
import PortGraph.Ron.Writer

/-!
# Written words, texts and numbers

Behind a written value stands a comma or a round bracket (`Reader.EndsValue`), which none of the
readers takes for a part of it.  A text that was written between quotes is read back as that text
(`Reader.quoted_written`), an integer as that integer (`Reader.number_toString`), and every written
float is read as some number, whatever ends it (`Reader.number_writeFloat`).
-/

set_option autoImplicit false

namespace PortGraph.Ron.Reader

/-! ## Blanks -/

/-- Skipping blanks stops at a character that neither is one nor starts a comment. -/
theorem skipBlanks_append {blanks : List Char} (h : ∀ c ∈ blanks, isBlank c = true) {c : Char}
    (hc : isBlank c = false) (hslash : c ≠ '/') (cs : List Char) :
    skipBlanks (blanks ++ c :: cs) = .ok (c :: cs) := by
  have hdrop : (blanks ++ c :: cs).dropWhile isBlank = c :: cs := by
    rw [List.dropWhile_append_of_pos h]
    exact List.dropWhile_cons_of_neg (by simp [hc])
  rw [skipBlanks, Reader.blanks, hdrop]
  split
  any_goals
    rename_i heq
    exact absurd (List.cons.inj heq).1 hslash
  rfl

theorem skipBlanks_cons {c : Char} (hc : isBlank c = false) (hslash : c ≠ '/') (cs : List Char) :
    skipBlanks (c :: cs) = .ok (c :: cs) :=
  skipBlanks_append (fun _ h ↦ absurd h List.not_mem_nil) hc hslash cs

theorem isBlank_of_mem_breakLine {level : Nat} {c : Char} (h : c ∈ (breakLine level).toList) :
    isBlank c = true := by
  simp only [breakLine, String.toList_append, String.toList_ofList] at h
  rcases List.mem_append.mp h with h | h
  · rw [List.mem_singleton.mp h]
    rfl
  · rw [List.eq_of_mem_replicate h]
    rfl

/-! ## Words -/

/-- What may stand behind a value. -/
def EndsValue (rest : List Char) : Prop := ∀ c ∈ rest.head?, c = ',' ∨ c = ')'

theorem EndsValue.comma (cs : List Char) : EndsValue (',' :: cs) := by
  rintro c ⟨⟩
  exact .inl rfl

theorem EndsValue.bracket (cs : List Char) : EndsValue (')' :: cs) := by
  rintro c ⟨⟩
  exact .inr rfl

/-- What holds of none of the characters that may stand behind a value holds of none that does. -/
theorem EndsValue.forall {rest : List Char} (h : EndsValue rest) {p : Char → Bool}
    (hcomma : p ',' = false) (hbracket : p ')' = false) : ∀ c ∈ rest.head?, p c = false := by
  intro c hc
  rcases h c hc with rfl | rfl
  · exact hcomma
  · exact hbracket

theorem EndsValue.continues {rest : List Char} (h : EndsValue rest) :
    Reader.continues rest = false := by
  cases rest with
  | nil => rfl
  | cons c rest => exact h.forall (p := isIdentifierTail) (by decide) (by decide) c rfl

theorem string?_append (s cs : List Char) : string? s (s ++ cs) = .some cs := by
  have hpos : s.isPrefixOf (s ++ cs) = true :=
    List.isPrefixOf_iff_prefix.mpr (List.prefix_append s cs)
  rw [string?, if_pos hpos, List.drop_left]

theorem word?_append {s : String} {cs : List Char} (h : continues cs = false) :
    word? s (s.toList ++ cs) = .some cs := by
  rw [word?, string?_append]
  exact if_neg (by simp [h])

/-- No word stands where its first character does not. -/
theorem word?_eq_none {s : String} {d : Char} {cs : List Char} (hs : s.toList.head? = .some d)
    (h : cs.head? ≠ .some d) : word? s cs = .none := by
  obtain ⟨ds, hds⟩ := List.head?_eq_some_iff.mp hs
  have hneg : ¬s.toList.isPrefixOf cs = true := by
    rw [hds]
    intro hprefix
    obtain ⟨t, rfl⟩ := List.isPrefixOf_iff_prefix.mp hprefix
    exact h rfl
  rw [word?, string?, if_neg hneg]

/-! ## Texts -/

theorem hexNumber?_toDigits (n : Nat) : hexNumber? (Nat.toDigits 16 n) = .some n := by
  have hdigit : ∀ m < 16, hexValue? m.digitChar = .some m := by decide
  refine foldl_toDigits (by decide) (fun n m hm ↦ ?_) n
  rw [hdigit m hm]
  rfl

theorem isSome_hexValue?_of_mem_toDigits {n : Nat} {c : Char} (h : c ∈ Nat.toDigits 16 n) :
    (hexValue? c).isSome = true := by
  have hdigit : ∀ m < 16, (hexValue? m.digitChar).isSome = true := by decide
  induction n using Nat.strong_induction_on with
  | _ n ih =>
    by_cases hn : n < 16
    · rw [Nat.toDigits_of_lt_base hn] at h
      exact List.mem_singleton.mp h ▸ hdigit n hn
    · rw [Nat.toDigits_of_base_le (by decide) (by omega)] at h
      rcases List.mem_append.mp h with h | h
      · exact ih (n / 16) (by omega) h
      · exact List.mem_singleton.mp h ▸ hdigit (n % 16) (Nat.mod_lt n (by decide))

/-- A character written by its number is read by it. -/
theorem bracedEscape_toDigits (c : Char) (cs : List Char) :
    bracedEscape ('{' :: (Nat.toDigits 16 c.toNat ++ '}' :: cs)) = .ok (c, cs) := by
  have hvalid : c.toNat.isValidChar := c.valid
  have hlength : (Nat.toDigits 16 c.toNat).length ≤ 6 := by
    refine (Nat.length_toDigits_le_iff (by decide) (by decide)).mpr ?_
    rcases hvalid with h | ⟨-, h⟩ <;> omega
  have hclose : ∀ d ∈ (('}' :: cs).take (6 - (Nat.toDigits 16 c.toNat).length)).head?,
      (hexValue? d).isSome = false := by
    intro d hd
    cases hk : 6 - (Nat.toDigits 16 c.toNat).length with
    | zero => exact absurd (hk ▸ hd) (by simp)
    | succ k =>
      rw [hk] at hd
      obtain rfl : '}' = d := Option.some.inj hd
      rfl
  have hdigits : (((Nat.toDigits 16 c.toNat ++ '}' :: cs).take 6).takeWhile
      fun d ↦ (hexValue? d).isSome) = Nat.toDigits 16 c.toNat := by
    rw [List.take_append, List.take_of_length_le hlength]
    exact (span_of_forall (fun d ↦ isSome_hexValue?_of_mem_toDigits) hclose).1
  have hne : Nat.toDigits 16 c.toNat ≠ [] := List.ne_nil_of_length_pos Nat.length_toDigits_pos
  rw [bracedEscape, hdigits, hexNumber?_toDigits, List.drop_left]
  refine (if_neg ?_).trans (by rw [Char.ofNat_toNat])
  simp [hne, hvalid]

/-- A written character is read in one round. -/
theorem textBody_quoteChar (c : Char) (steps : Nat) (acc cs : List Char) :
    textBody (steps + 1) acc ((quoteChar .escaped c).toList ++ cs) =
      textBody steps (c :: acc) cs := by
  rw [quoteChar]
  iterate 4
    split
    · rename_i h
      subst h
      rfl
  split
  · rename_i h
    subst h
    rfl
  · rename_i hquote
    split
    · rename_i h
      subst h
      rfl
    · rename_i hslash
      split
      · rename_i h
        subst h
        rfl
      · split
        · simp only [hexDigits, String.toList_append, String.toList_ofList, List.append_assoc]
          change textBody (steps + 1) acc
            ('\\' :: 'u' :: '{' :: (Nat.toDigits 16 c.toNat ++ '}' :: cs)) = _
          rw [textBody, if_neg (by decide), if_pos rfl, escape, bracedEscape_toDigits]
        · rw [String.toList_singleton]
          change textBody (steps + 1) acc (c :: cs) = _
          rw [textBody, if_neg hquote, if_neg hslash]

theorem textBody_written (s : List Char) {steps : Nat} (hsteps : s.length < steps)
    (acc rest : List Char) :
    textBody steps acc (s.flatMap (fun c ↦ (quoteChar .escaped c).toList) ++ '"' :: rest) =
      .ok (String.ofList (acc.reverse ++ s), rest) := by
  induction s generalizing steps acc with
  | nil =>
    obtain ⟨steps, rfl⟩ := Nat.exists_eq_succ_of_ne_zero (Nat.ne_of_gt hsteps)
    rw [List.append_nil]
    rfl
  | cons c s ih =>
    obtain ⟨steps, rfl⟩ := Nat.exists_eq_succ_of_ne_zero (Nat.ne_of_gt (Nat.zero_lt_of_lt hsteps))
    rw [List.flatMap_cons, List.append_assoc, textBody_quoteChar,
      ih (Nat.lt_of_succ_lt_succ hsteps), List.reverse_cons, List.append_assoc]
    rfl

theorem toList_writeText (s : String) : (writeText s).toList =
    '"' :: (s.toList.flatMap (fun c ↦ (quoteChar .escaped c).toList) ++ ['"']) := by
  simp only [writeText, quoteText, String.toList_append, String.toList_join, List.flatMap_map]
  rfl

/-- **A written text is read back.** -/
theorem quoted_written (s : String) (rest : List Char) :
    quoted ((writeText s).toList ++ rest) = .ok (s, rest) := by
  have hne : ∀ c, (quoteChar .escaped c).toList ≠ [] := by
    intro c
    rw [quoteChar]
    split_ifs <;> simp
  rw [toList_writeText, List.cons_append, List.append_assoc, List.singleton_append, quoted,
    textBody_written s.toList, List.reverse_nil, List.nil_append, String.ofList_toList]
  have hle := length_le_flatMap hne s.toList
  rw [List.length_append, List.length_cons]
  omega

/-! ## Names -/

/-- A name that is read as an identifier by itself. -/
def IsName (s : String) : Prop :=
  s.toList.head?.any (fun c ↦ c ≠ 'r' ∧ c ≠ 'b' ∧ isIdentifierStart c) = true ∧
    s.toList.all isIdentifierTail = true

instance (s : String) : Decidable (IsName s) := inferInstanceAs (Decidable (_ ∧ _))

theorem IsName.exists_cons {s : String} (hs : IsName s) : ∃ c cs, s.toList = c :: cs ∧
    (c ≠ 'r' ∧ c ≠ 'b' ∧ isIdentifierStart c = true) ∧
      ∀ d ∈ s.toList, isIdentifierTail d = true := by
  obtain ⟨c, hc, hplain⟩ := (Option.any_eq_true _ _).mp hs.1
  obtain ⟨cs, hcs⟩ := List.head?_eq_some_iff.mp hc
  exact ⟨c, cs, hcs, of_decide_eq_true hplain, List.all_eq_true.mp hs.2⟩

theorem isBlank_of_isIdentifierStart {c : Char} (h : isIdentifierStart c = true) :
    isBlank c = false := by
  have hblank : ∀ n ∈ [0x20, 0x09, 0x0A, 0x0B, 0x0C, 0x0D, 0x85, 0x200E, 0x200F, 0x2028, 0x2029],
      isIdentifierStart (Char.ofNat n) = false := by decide +kernel
  refine Bool.eq_false_iff.mpr fun hc ↦ ?_
  have hmem : c.toNat ∈
      [0x20, 0x09, 0x0A, 0x0B, 0x0C, 0x0D, 0x85, 0x200E, 0x200F, 0x2028, 0x2029] := by
    simp only [isBlank, Bool.or_eq_true, Bool.and_eq_true, decide_eq_true_eq] at hc
    simp only [List.mem_cons, List.not_mem_nil, or_false]
    rcases hc with (((((rfl | hc) | hc) | hc) | hc) | hc) | hc
    · exact .inl rfl
    all_goals omega
  exact absurd (h.symm.trans (Char.ofNat_toNat c ▸ hblank _ hmem)) (by decide)

/-- No identifier starts with a character that cannot start one. -/
theorem identifier?_eq_none {c : Char} (h : isIdentifierStart c = false) (cs : List Char) :
    identifier? (c :: cs) = .none := by
  have hne : ∀ d, isIdentifierStart d = true → c ≠ d := by
    rintro d hd rfl
    exact absurd (h.symm.trans hd) (by decide)
  have hmarked : startsMarkedText (c :: cs) = false := by
    rw [startsMarkedText.eq_def]
    split
    any_goals
      rename_i heq
      exact absurd (List.cons.inj heq).1 (hne _ (by decide))
    rfl
  rw [identifier?.eq_def, hmarked, if_neg (by simp)]
  split
  · rename_i heq
    exact absurd (List.cons.inj heq).1 (hne 'r' (by decide))
  · rename_i heq
    obtain ⟨rfl, rfl⟩ := List.cons.inj heq
    rw [h]
    rfl
  · rfl

/-- A name with a colon behind it is read. -/
theorem identifier_append {s : String} (hs : IsName s) (rest : List Char) :
    identifier (s.toList ++ ':' :: rest) = .ok (s, ':' :: rest) := by
  obtain ⟨c, cs, hcs, ⟨hr, hb, hstart⟩, htail⟩ := hs.exists_cons
  rw [hcs] at htail
  have hcolon : ∀ d ∈ (':' :: rest).head?, isIdentifierTail d = false := by
    rintro d ⟨⟩
    decide
  obtain ⟨htake, hdrop⟩ := span_of_forall htail hcolon
  have hmarked : startsMarkedText (c :: (cs ++ ':' :: rest)) = false := by
    rw [startsMarkedText.eq_def]
    split
    any_goals
      rename_i heq
      first
        | exact absurd (List.cons.inj heq).1 hr
        | exact absurd (List.cons.inj heq).1 hb
    rfl
  have hread : identifier? (c :: (cs ++ ':' :: rest)) = .some (s, ':' :: rest) := by
    rw [List.cons_append] at htake hdrop
    rw [identifier?.eq_def, hmarked, if_neg (by simp)]
    split
    · rename_i heq
      exact absurd (List.cons.inj heq).1 hr
    · rename_i heq
      obtain ⟨rfl, rfl⟩ := List.cons.inj heq
      rw [hstart, if_neg (by simp), hdrop, htake, ← hcs, String.ofList_toList]
      rfl
    · rename_i heq
      exact absurd heq (by simp)
  rw [hcs, List.cons_append, identifier.eq_def, hread]

/-! ## Integers -/

theorem isIntegerChar_of_isDigit {c : Char} (h : c.isDigit = true) : isIntegerChar c = true :=
  of_isDigit (p := fun c ↦ isIntegerChar c = true) (by decide) h

theorem isFloatChar_of_isDigit {c : Char} (h : c.isDigit = true) : isFloatChar c = true := by
  rw [isFloatChar, h]
  rfl

theorem splitSign_of_isDigit {c : Char} (h : c.isDigit = true) (cs : List Char) :
    Decimal.splitSign (c :: cs) = (false, c :: cs) := by
  rw [Decimal.splitSign.eq_def]
  split
  any_goals
    rename_i heq
    exact absurd ((List.cons.inj heq).1 ▸ h) (by decide)
  rfl

theorem exists_toDigits (n : Nat) : ∃ c cs, Nat.toDigits 10 n = c :: cs ∧ c.isDigit = true := by
  obtain ⟨c, cs, hcs⟩ := List.exists_cons_of_length_pos (Nat.length_toDigits_pos (b := 10) (n := n))
  exact ⟨c, cs, hcs, isDigit_of_mem_toDigits (hcs ▸ List.mem_cons_self)⟩

theorem naturalInBase?_toDigits (n : Nat) : naturalInBase? 10 (Nat.toDigits 10 n) = .some n := by
  have hdigit : ∀ m < 10, hexValue? m.digitChar = .some m := by decide
  have hfilter : (Nat.toDigits 10 n).filter (· ≠ '_') = Nat.toDigits 10 n := by
    refine List.filter_eq_self.mpr fun c hc ↦ decide_eq_true ?_
    rintro rfl
    exact absurd (isDigit_of_mem_toDigits hc) (by decide)
  rw [naturalInBase?, hfilter]
  refine foldl_toDigits (by decide) (fun n m hm ↦ ?_) n
  rw [hdigit m hm]
  exact if_pos hm

section Numbers

variable {rest : List Char}

theorem naturalNumber_toDigits (n : Nat) (hr : EndsValue rest) :
    naturalNumber (Nat.toDigits 10 n ++ rest) = .ok (n, rest) := by
  obtain ⟨htake, hdrop⟩ := span_of_forall (p := isIntegerChar)
    (fun c hc ↦ isIntegerChar_of_isDigit (isDigit_of_mem_toDigits (n := n) hc))
    (hr.forall (by decide) (by decide))
  -- a mark of the base would stand behind a zero that does not stand alone
  have hmark : ∀ mark, mark ≠ ',' → mark ≠ ')' → ∀ cs,
      Nat.toDigits 10 n ++ rest = '0' :: mark :: cs → False := by
    intro mark hcomma hbracket cs heq
    by_cases hn : n = 0
    · subst hn
      have hrest : rest = mark :: cs := (List.cons.inj heq).2
      exact (hr mark (hrest ▸ rfl)).elim hcomma hbracket
    · obtain ⟨c, ds, hds, hc⟩ := toDigits_eq_cons hn
      rw [hds] at heq
      exact hc (List.cons.inj heq).1
  obtain ⟨c, ds, hds, hc⟩ := exists_toDigits n
  rw [naturalNumber]
  · rw [htake, hdrop, naturalInBase?_toDigits, hds]
    split
    · rename_i heq
      exact absurd heq (by simp)
    · rename_i heq
      exact absurd ((List.cons.inj heq).1 ▸ hc) (by decide)
    · rename_i heq _ _
      rw [Option.some.inj heq]
    · rename_i heq _ _
      exact absurd heq (by simp)
  · exact hmark 'b' (by decide) (by decide)
  · exact hmark 'o' (by decide) (by decide)
  · exact hmark 'x' (by decide) (by decide)

theorem splitSign_toString (n : Int) (rest : List Char) :
    Decimal.splitSign ((toString n).toList ++ rest) =
      (decide (n < 0), Nat.toDigits 10 n.natAbs ++ rest) := by
  obtain ⟨c, ds, hds, hc⟩ := exists_toDigits n.natAbs
  rw [toList_toString]
  split
  · rename_i hn
    rw [decide_eq_true hn]
    rfl
  · rename_i hn
    rw [decide_eq_false hn, hds]
    exact splitSign_of_isDigit hc _

theorem exists_toString (n : Int) :
    ∃ c cs, (toString n).toList = c :: cs ∧ (c = '-' ∨ c.isDigit = true) := by
  obtain ⟨c, ds, hds, hc⟩ := exists_toDigits n.natAbs
  rw [toList_toString]
  split
  · exact ⟨_, _, rfl, .inl rfl⟩
  · exact ⟨_, _, hds, .inr hc⟩

theorem integer_toString (n : Int) (hr : EndsValue rest) :
    integer ((toString n).toList ++ rest) = .ok ((n, .none), rest) := by
  have hdrop := (span_of_forall (p := isIntegerChar)
    (fun c hc ↦ isIntegerChar_of_isDigit (isDigit_of_mem_toDigits (n := n.natAbs) hc))
    (hr.forall (by decide) (by decide))).2
  have hmarks : integerTypes.findSome? (fun t ↦ (word? t.mark rest).map (t, ·)) = .none := by
    have hletters : ∀ t ∈ integerTypes,
        t.mark.toList.head? = .some 'i' ∨ t.mark.toList.head? = .some 'u' := by decide
    refine List.findSome?_eq_none_iff.mpr fun t ht ↦ ?_
    have hword : word? t.mark rest = .none := by
      rcases hletters t ht with h | h
      all_goals
        refine word?_eq_none h fun hhead ↦ ?_
        rcases hr _ hhead with h | h <;> exact absurd h (by decide)
    rw [hword]
    rfl
  have hsigned : (if decide (n < 0) = true then -(n.natAbs : Int) else n.natAbs) = n := by
    simp only [decide_eq_true_eq]
    split <;> omega
  rw [integer]
  · rw [splitSign_toString]
    dsimp only
    rw [naturalNumber_toDigits _ hr]
    dsimp only
    rw [hdrop, hmarks, hsigned]
  · intro cs heq
    obtain ⟨c, ds, hds, hc⟩ := exists_toString n
    rw [hds] at heq
    rcases hc with rfl | hc
    · exact absurd (List.cons.inj heq).1 (by decide)
    · exact absurd ((List.cons.inj heq).1 ▸ hc) (by decide)

theorem looksFloat_eq (cs : List Char) : looksFloat cs =
    decide (((Decimal.splitSign cs).2.takeWhile isIntegerChar).length <
      ((Decimal.splitSign cs).2.takeWhile isFloatChar).length) := by
  rw [looksFloat.eq_def, Decimal.splitSign.eq_def]
  split <;> split <;> simp_all

theorem looksFloat_toString (n : Int) (hr : EndsValue rest) :
    looksFloat ((toString n).toList ++ rest) = false := by
  have hinteger := (span_of_forall (p := isIntegerChar)
    (fun c hc ↦ isIntegerChar_of_isDigit (isDigit_of_mem_toDigits (n := n.natAbs) hc))
    (hr.forall (by decide) (by decide))).1
  have hfloat := (span_of_forall (p := isFloatChar)
    (fun c hc ↦ isFloatChar_of_isDigit (isDigit_of_mem_toDigits (n := n.natAbs) hc))
    (hr.forall (by decide) (by decide))).1
  rw [looksFloat_eq, splitSign_toString, hinteger, hfloat]
  exact decide_eq_false (Nat.lt_irrefl _)

/-- **A written integer is read back.** -/
theorem number_toString {n : Int} (h : Json.fitsInteger n = true) (hr : EndsValue rest) :
    number ((toString n).toList ++ rest) = .ok (.int n, rest) := by
  rw [number, looksFloat_toString n hr, integer_toString n hr]
  exact if_pos h

/-! ## Floats -/

/-- No word for a number that is not finite stands where two characters of another number do. -/
theorem anyWord?_specialWords {run : List Char} (h : ∀ c ∈ run, isFloatChar c = true)
    (hlength : 2 ≤ run.length) (rest : List Char) :
    anyWord? specialWords (run ++ rest) = .none := by
  have hletters : ∀ w ∈ specialWords, (w.toList.take 2).all isFloatChar = false := by decide
  refine List.findSome?_eq_none_iff.mpr fun w hw ↦ ?_
  obtain ⟨c, hc, hletter⟩ := List.all_eq_false.mp (hletters w hw)
  have hneg : ¬w.toList.isPrefixOf (run ++ rest) = true := by
    intro hprefix
    obtain ⟨t, ht⟩ := List.isPrefixOf_iff_prefix.mp hprefix
    have hmem : c ∈ (run ++ rest).take 2 := by
      rw [← ht, List.take_append]
      exact List.mem_append_left _ hc
    rw [List.take_append_of_le_length hlength] at hmem
    exact hletter (h c (List.mem_of_mem_take hmem))
  rw [word?, string?, if_neg hneg]

theorem dropUnderscores_eq_self {cs : List Char} (h : ∀ c ∈ cs, c ≠ '_') (allowed : Bool) :
    dropUnderscores allowed cs = .some cs := by
  induction cs generalizing allowed with
  | nil => rfl
  | cons c cs ih =>
    obtain ⟨hc, hcs⟩ := List.forall_mem_cons.mp h
    rw [dropUnderscores, if_neg hc]
    exact congrArg (Option.map (c :: ·)) (ih hcs _)

section Positional

variable {whole fraction : List Char}

theorem splitSign_positional (negative : Bool) (hne : whole ≠ [])
    (hwhole : ∀ c ∈ whole, c.isDigit = true) (tail : List Char) :
    Decimal.splitSign ((if negative then ['-'] else []) ++ (whole ++ tail)) =
      (negative, whole ++ tail) := by
  obtain ⟨c, cs, rfl⟩ := List.exists_cons_of_ne_nil hne
  cases negative with
  | true => rfl
  | false => exact splitSign_of_isDigit (hwhole c List.mem_cons_self) _

theorem ofChars?_positional (negative : Bool) (hne : whole ≠ [])
    (hwhole : ∀ c ∈ whole, c.isDigit = true) (hfraction : ∀ c ∈ fraction, c.isDigit = true) :
    Decimal.ofChars? ((if negative then ['-'] else []) ++ (whole ++ '.' :: fraction)) =
      .some (Decimal.ofParts negative whole fraction 0) := by
  have hpoint : ∀ c ∈ ('.' :: fraction).head?, Char.isDigit c = false := by
    rintro c ⟨⟩
    rfl
  obtain ⟨htake, hdrop⟩ := span_of_forall hwhole hpoint
  rw [Decimal.ofChars?, splitSign_positional negative hne hwhole]
  dsimp only
  rw [htake, hdrop]
  refine (if_neg (by simp [hne])).trans ?_
  change (Decimal.exponentOfChars? (fraction.dropWhile Char.isDigit)).map
    (Decimal.ofParts negative whole (fraction.takeWhile Char.isDigit) ·) = _
  rw [List.takeWhile_eq_self_iff.mpr hfraction, List.dropWhile_eq_nil_iff.mpr hfraction]
  rfl

theorem mem_positional (negative : Bool) (hwhole : ∀ c ∈ whole, c.isDigit = true)
    (hfraction : ∀ c ∈ fraction, c.isDigit = true) :
    ∀ c ∈ (if negative then ['-'] else []) ++ (whole ++ '.' :: fraction),
      c.isDigit = true ∨ c = '.' ∨ c = '-' := by
  intro c hc
  rcases List.mem_append.mp hc with hc | hc
  · cases negative with
    | true => exact .inr (.inr (List.mem_singleton.mp hc))
    | false => exact absurd hc List.not_mem_nil
  · rcases List.mem_append.mp hc with hc | hc
    · exact .inl (hwhole c hc)
    · exact (List.mem_cons.mp hc).elim (.inr ∘ .inl) (.inl ∘ hfraction c)

theorem isFloatChar_positional (negative : Bool) (hwhole : ∀ c ∈ whole, c.isDigit = true)
    (hfraction : ∀ c ∈ fraction, c.isDigit = true) :
    ∀ c ∈ (if negative then ['-'] else []) ++ (whole ++ '.' :: fraction), isFloatChar c = true := by
  intro c hc
  rcases mem_positional negative hwhole hfraction c hc with h | rfl | rfl
  · exact isFloatChar_of_isDigit h
  · rfl
  · rfl

/-- The point tells that a float is meant. -/
theorem looksFloat_positional (negative : Bool) (hne : whole ≠ [])
    (hwhole : ∀ c ∈ whole, c.isDigit = true) (hfraction : ∀ c ∈ fraction, c.isDigit = true)
    (hr : EndsValue rest) :
    looksFloat ((if negative then ['-'] else []) ++ (whole ++ '.' :: fraction) ++ rest) = true := by
  have hends := hr.forall (p := isFloatChar) (by decide) (by decide)
  have hbody : ∀ c ∈ whole ++ '.' :: fraction, isFloatChar c = true := fun c hc ↦
    isFloatChar_positional negative hwhole hfraction c (List.mem_append_right _ hc)
  have hinteger : ((whole ++ '.' :: fraction ++ rest).takeWhile isIntegerChar) = whole := by
    rw [List.append_assoc]
    exact (span_of_forall (fun c hc ↦ isIntegerChar_of_isDigit (hwhole c hc))
      (by rintro c ⟨⟩; rfl)).1
  rw [looksFloat_eq, List.append_assoc, List.append_assoc whole,
    splitSign_positional negative hne hwhole, ← List.append_assoc whole, hinteger,
    (span_of_forall hbody hends).1]
  simp

/-- Digits around a point are read as the float nearest to them. -/
theorem number_positional (negative : Bool) (hne : whole ≠ [])
    (hwhole : ∀ c ∈ whole, c.isDigit = true) (hfraction : ∀ c ∈ fraction, c.isDigit = true)
    (hr : EndsValue rest) :
    number ((if negative then ['-'] else []) ++ (whole ++ '.' :: fraction) ++ rest) =
      .ok (Json.ofFloat (Decimal.ofParts negative whole fraction 0).toFloat, rest) := by
  have hrun := isFloatChar_positional negative hwhole hfraction
  have hunderscore : ∀ c ∈ (if negative then ['-'] else []) ++ (whole ++ '.' :: fraction),
      c ≠ '_' := by
    rintro c hc rfl
    exact absurd (mem_positional negative hwhole hfraction _ hc) (by decide)
  obtain ⟨htake, hdrop⟩ := span_of_forall hrun (hr.forall (p := isFloatChar) (by decide) (by decide))
  have hlength : 2 ≤ ((if negative then ['-'] else []) ++ (whole ++ '.' :: fraction)).length := by
    have hpos := List.length_pos_iff.mpr hne
    simp only [List.length_append, List.length_cons]
    omega
  have hmark : ∀ mark : String, mark.toList.head? = .some 'f' → word? mark rest = .none := by
    intro mark h
    refine word?_eq_none h fun hhead ↦ ?_
    rcases hr _ hhead with h | h <;> exact absurd h (by decide)
  rw [number, looksFloat_positional negative hne hwhole hfraction hr, if_pos rfl, floatNumber,
    anyWord?_specialWords hrun hlength]
  dsimp only
  rw [htake, hdrop, dropUnderscores_eq_self hunderscore, Option.bind_some,
    ofChars?_positional negative hne hwhole hfraction]
  dsimp only
  rw [hmark "f32" rfl, hmark "f64" rfl]

end Positional

/-- A number without exponent is digits around a point. -/
theorem exists_writePositional (d : DecimalDigits) : ∃ whole fraction,
    (FloatLayout.writePositional d).toList = whole ++ '.' :: fraction ∧ whole ≠ [] ∧
      (∀ c ∈ whole, Char.isDigit c = true) ∧ ∀ c ∈ fraction, Char.isDigit c = true := by
  have hdigits : ∀ c ∈ Nat.toDigits 10 d.digits, Char.isDigit c = true := fun c ↦
    isDigit_of_mem_toDigits
  have hne : Nat.toDigits 10 d.digits ≠ [] := List.ne_nil_of_length_pos Nat.length_toDigits_pos
  have hzeros : ∀ n, ∀ c ∈ List.replicate n '0', Char.isDigit c = true := by
    intro n c hc
    rw [List.eq_of_mem_replicate hc]
    rfl
  rw [FloatLayout.writePositional]
  split
  · refine ⟨Nat.toDigits 10 d.digits ++ List.replicate d.exponent.toNat '0', ['0'], ?_, ?_, ?_, ?_⟩
    · simp [FloatLayout.zeros]
    · simp [hne]
    · exact List.forall_mem_append.mpr ⟨hdigits, hzeros _⟩
    · exact List.forall_mem_singleton.mpr rfl
  · rename_i hnegative
    split
    · rename_i hpoint
      refine ⟨_, _, by simp; rfl, ?_, fun c hc ↦ hdigits c (List.mem_of_mem_take hc),
        fun c hc ↦ hdigits c (List.mem_of_mem_drop hc)⟩
      refine List.ne_nil_of_length_pos ?_
      have hpos := List.length_pos_iff.mpr hne
      rw [List.length_take]
      omega
    · exact ⟨['0'], List.replicate _ '0' ++ Nat.toDigits 10 d.digits,
        by simp [FloatLayout.zeros]; rfl, by simp, List.forall_mem_singleton.mpr rfl,
        List.forall_mem_append.mpr ⟨hzeros _, hdigits⟩⟩

theorem writeDigits_plain (d : DecimalDigits) :
    FloatLayout.plain.writeDigits d = FloatLayout.writePositional d := by
  rw [FloatLayout.writeDigits]
  exact if_pos (.inr rfl)

/-- **What stands behind a written float does not matter** if it is read as a float at all. -/
theorem number_writeFloat {x y : Float}
    (h : number (FloatLayout.plain.writeFloat x).toList = .ok (.float y, [])) :
    (∃ c cs, (FloatLayout.plain.writeFloat x).toList = c :: cs ∧ (c = '-' ∨ c.isDigit = true)) ∧
      ∀ rest, EndsValue rest →
        number ((FloatLayout.plain.writeFloat x).toList ++ rest) = .ok (.float y, rest) := by
  rw [FloatLayout.writeFloat] at h ⊢
  generalize BinaryNumber.ofFloat x = n at h ⊢
  cases n with
  | finite negative mantissa exponent =>
    obtain ⟨whole, fraction, htext, hne, hwhole, hfraction⟩ := exists_writePositional
      (DecimalDigits.shortest .double FloatLayout.plain.tie mantissa exponent)
    have hwritten : (FloatLayout.plain.write .double (.finite negative mantissa exponent)).toList =
        (if negative then ['-'] else []) ++ (whole ++ '.' :: fraction) := by
      rw [← htext, FloatLayout.write, String.toList_append, writeDigits_plain]
      cases negative <;> rfl
    rw [hwritten] at h ⊢
    have hread : ∀ rest, EndsValue rest → _ := fun _ ↦
      number_positional negative hne hwhole hfraction
    have hvalue := hread [] (by simp [EndsValue])
    rw [List.append_nil, h] at hvalue
    refine ⟨?_, fun rest hr ↦ ?_⟩
    · obtain ⟨c, cs, rfl⟩ := List.exists_cons_of_ne_nil hne
      cases negative with
      | true => exact ⟨_, _, rfl, .inl rfl⟩
      | false => exact ⟨_, _, rfl, .inr (hwhole c List.mem_cons_self)⟩
    · rw [hread rest hr, ← (Prod.mk.inj (Except.ok.inj hvalue)).1]
  | infinite negative =>
    have hnull : number (FloatLayout.plain.write .double (.infinite negative)).toList =
        .ok (.null, []) := by cases negative <;> decide +kernel
    exact absurd (h.symm.trans hnull) (by simp)
  | nan =>
    have hnull : number (FloatLayout.plain.write .double .nan).toList = .ok (.null, []) := by
      decide +kernel
    exact absurd (h.symm.trans hnull) (by simp)

end Numbers

end PortGraph.Ron.Reader
