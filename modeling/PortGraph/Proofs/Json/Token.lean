import Mathlib.Tactic.SplitIfs
import PortGraph.Json.Reader
import PortGraph.Json.Writer
import PortGraph.Proofs.Number.Written

/-!
# Written strings and numbers

A string that was written between quotes is read back as that string, character by character
(`Reader.quoted_written`), and an integer as that integer (`Reader.number_toString`).  What stands
behind a number does not matter as long as it is not taken for a part of it
(`Reader.number_append`).
-/

set_option autoImplicit false

namespace PortGraph.Json

namespace Reader

/-! ## Blanks -/

theorem skipBlanks_append {blanks : List Char} (h : ∀ c ∈ blanks, isBlank c = true)
    (cs : List Char) : skipBlanks (blanks ++ cs) = skipBlanks cs :=
  List.dropWhile_append_of_pos h

theorem skipBlanks_cons {c : Char} (h : isBlank c = false) (cs : List Char) :
    skipBlanks (c :: cs) = c :: cs :=
  List.dropWhile_cons_of_neg (by simp [h])

theorem isBlank_of_mem_breakLine {level : Nat} {c : Char} (h : c ∈ (breakLine level).toList) :
    isBlank c = true := by
  simp only [breakLine, String.toList_append, String.toList_ofList] at h
  rcases List.mem_append.mp h with h | h
  · rw [List.mem_singleton.mp h]
    rfl
  · rw [List.eq_of_mem_replicate h]
    rfl

/-! ## Strings -/

theorem byteCount_cons (c : Char) (cs : List Char) :
    byteCount (c :: cs) = c.utf8Size + byteCount cs := by
  have hfold : ∀ (cs : List Char) (n : Nat), cs.foldl (fun n c ↦ n + c.utf8Size) n =
      n + cs.foldl (fun n c ↦ n + c.utf8Size) 0 := by
    intro cs
    induction cs with
    | nil => exact fun n ↦ rfl
    | cons c cs ih =>
      intro n
      rw [List.foldl_cons, List.foldl_cons, ih (n + c.utf8Size), ih (0 + c.utf8Size)]
      omega
  rw [byteCount, byteCount, List.foldl_cons, hfold cs (0 + c.utf8Size)]
  omega

theorem length_le_byteCount (cs : List Char) : cs.length ≤ byteCount cs := by
  induction cs with
  | nil => exact Nat.le_refl 0
  | cons c cs ih =>
    have hpos : 0 < c.utf8Size := c.utf8Size_pos
    rw [byteCount_cons, List.length_cons]
    omega

/-- A unit of four digits is read, whatever stands behind it. -/
theorem hexUnit_append {ds : List Char} {n : Nat} (hlength : ds.length = 4)
    (h : hexNumber? ds = some n) (cs : List Char) : hexUnit (ds ++ cs) = .ok (n, cs) := by
  have hbytes : ¬byteCount (ds ++ cs) < 4 := by
    have hle := length_le_byteCount (ds ++ cs)
    rw [List.length_append] at hle
    omega
  rw [hexUnit, if_neg hbytes, List.take_left' hlength, List.drop_left' hlength, h]

theorem stringBody_unicode {ds : List Char} {c : Char} (hlength : ds.length = 4)
    (h : hexNumber? ds = some c.toNat) (hc : c.toNat < 0x20) (steps : Nat) (acc cs : List Char) :
    stringBody (steps + 1) acc ('\\' :: 'u' :: (ds ++ cs)) = stringBody steps (c :: acc) cs := by
  have hescape : unicodeEscape (ds ++ cs) = .ok (c, cs) := by
    rw [unicodeEscape, hexUnit_append hlength h]
    dsimp only
    rw [if_neg (by omega), if_pos (by omega), Char.ofNat_toNat]
  rw [stringBody.eq_def]
  dsimp only
  rw [if_neg (by decide), if_pos rfl, if_pos rfl, hescape]

/-- A written character is read in one round. -/
theorem stringBody_writeChar (c : Char) (steps : Nat) (acc cs : List Char) :
    stringBody (steps + 1) acc ((writeChar c).toList ++ cs) = stringBody steps (c :: acc) cs := by
  have hone : ∀ n < 0x10, hexNumber? ('0' :: '0' :: '0' :: Nat.toDigits 16 n) = some n ∧
      (Nat.toDigits 16 n).length = 1 := by decide
  have htwo : ∀ n < 0x20, ¬n < 0x10 → hexNumber? ('0' :: '0' :: Nat.toDigits 16 n) = some n ∧
      (Nat.toDigits 16 n).length = 2 := by decide
  rw [writeChar]
  split
  · rename_i h
    subst h
    rfl
  · rename_i hquote
    split
    · rename_i h
      subst h
      rfl
    · rename_i hslash
      iterate 5
        split
        · rename_i h
          subst h
          rfl
      split
      · rename_i h
        obtain ⟨hread, hlength⟩ := hone c.toNat h
        simp only [hexDigits, String.toList_append, String.toList_ofList]
        exact stringBody_unicode (by simp [hlength]) hread (by omega) steps acc cs
      · rename_i hmore
        split
        · rename_i h
          obtain ⟨hread, hlength⟩ := htwo c.toNat h hmore
          simp only [hexDigits, String.toList_append, String.toList_ofList]
          exact stringBody_unicode (by simp [hlength]) hread h steps acc cs
        · rename_i hprintable
          rw [String.toList_singleton]
          change stringBody (steps + 1) acc (c :: cs) = _
          cases cs <;> simp [stringBody, hquote, hslash, hprintable]

theorem stringBody_written (s : List Char) {steps : Nat} (hsteps : s.length < steps)
    (acc rest : List Char) :
    stringBody steps acc (s.flatMap (fun c ↦ (writeChar c).toList) ++ '"' :: rest) =
      .ok (String.ofList (acc.reverse ++ s), rest) := by
  induction s generalizing steps acc with
  | nil =>
    obtain ⟨steps, rfl⟩ := Nat.exists_eq_succ_of_ne_zero (Nat.ne_of_gt hsteps)
    rw [List.append_nil]
    cases rest <;> rfl
  | cons c s ih =>
    obtain ⟨steps, rfl⟩ := Nat.exists_eq_succ_of_ne_zero (Nat.ne_of_gt (Nat.zero_lt_of_lt hsteps))
    rw [List.flatMap_cons, List.append_assoc, stringBody_writeChar,
      ih (Nat.lt_of_succ_lt_succ hsteps), List.reverse_cons, List.append_assoc]
    rfl

/-- **A written string is read back.** -/
theorem quoted_written (s : String) (rest : List Char) :
    quoted ((s.toList.flatMap fun c ↦ (writeChar c).toList) ++ '"' :: rest) = .ok (s, rest) := by
  have hne : ∀ c, (writeChar c).toList ≠ [] := by
    intro c
    rw [writeChar]
    split_ifs <;> simp
  rw [quoted, stringBody_written s.toList, List.reverse_nil, List.nil_append, String.ofList_toList]
  have hle := length_le_flatMap hne s.toList
  rw [List.length_append, List.length_cons]
  omega

/-! ## Numbers -/

/-- What may stand behind a number: nothing that would be taken for a part of it. -/
def EndsNumber (rest : List Char) : Prop :=
  ∀ c ∈ rest.head?, c.isDigit = false ∧ c ≠ '.' ∧ c ≠ 'e' ∧ c ≠ 'E'

theorem map_prodMk_eq_ok {α : Type} {x : Except ReadError α} {cs : List Char} {a : α}
    (h : x.map (·, cs) = .ok (a, [])) : x = .ok a ∧ cs = [] := by
  cases x with
  | error e => exact absurd h (by simp [Except.map])
  | ok b =>
    obtain ⟨rfl, rfl⟩ := Prod.mk.inj (Except.ok.inj h)
    exact ⟨rfl, rfl⟩

variable {cs rest : List Char}

theorem EndsNumber.isDigit (h : EndsNumber rest) : ∀ c ∈ rest.head?, Char.isDigit c = false :=
  fun c hc ↦ (h c hc).1

theorem splitSign_append (h : cs ≠ []) : Decimal.splitSign (cs ++ rest) =
    ((Decimal.splitSign cs).1, (Decimal.splitSign cs).2 ++ rest) := by
  cases cs with
  | nil => exact absurd rfl h
  | cons c cs =>
    rw [List.cons_append, Decimal.splitSign.eq_def, Decimal.splitSign.eq_def]
    split <;> simp_all

theorem exponent_append {n : Int} (h : exponent cs = .ok (n, [])) (hr : EndsNumber rest) :
    exponent (cs ++ rest) = .ok (n, rest) := by
  have hne : cs ≠ [] := by
    rintro rfl
    exact absurd h (by simp [exponent, Decimal.splitSign])
  obtain ⟨htake, hdrop⟩ := span_append hr.isDigit (Decimal.splitSign cs).2
  simp only [exponent] at h ⊢
  rw [splitSign_append hne]
  dsimp only
  rw [htake, hdrop]
  split at h
  · exact absurd h (by simp)
  · rename_i hdigits
    obtain ⟨hn, hnil⟩ := Prod.mk.inj (Except.ok.inj h)
    rw [if_neg hdigits, hn, hnil]
    rfl

theorem exponent_then_append {real : Int → Except ReadError Json} {j : Json}
    (h : (match exponent cs with
      | Except.error e => Except.error e
      | Except.ok (n, cs) => (real n).map (·, cs)) = .ok (j, [])) (hr : EndsNumber rest) :
    (match exponent (cs ++ rest) with
      | Except.error e => Except.error e
      | Except.ok (n, cs) => (real n).map (·, cs)) = .ok (j, rest) := by
  cases he : exponent cs with
  | error e =>
    rw [he] at h
    exact absurd h (by simp)
  | ok r =>
    obtain ⟨n, left⟩ := r
    rw [he] at h
    obtain ⟨hj, rfl⟩ := map_prodMk_eq_ok h
    rw [exponent_append he hr]
    dsimp only
    rw [hj]
    rfl

/-- Behind its whole part a number goes on with a point or an exponent, or it is over. -/
theorem fractionAndExponent_of_endsNumber (negative : Bool) (whole : List Char)
    (hr : EndsNumber rest) : fractionAndExponent negative whole rest =
      (wholeNumber negative whole).map (·, rest) := by
  cases rest with
  | nil => rfl
  | cons c rest =>
    obtain ⟨-, hpoint, he, hE⟩ := hr c rfl
    rw [fractionAndExponent.eq_def]
    split
    · rename_i heq
      exact absurd (List.cons.inj heq).1 hpoint
    · rename_i heq
      obtain ⟨rfl, rfl⟩ := List.cons.inj heq
      rw [if_neg (by simp [he, hE])]
    · rename_i heq
      exact absurd heq (by simp)

theorem fractionAndExponent_point_append {negative : Bool} {whole : List Char} {j : Json}
    (h : fractionAndExponent negative whole ('.' :: cs) = .ok (j, [])) (hr : EndsNumber rest) :
    fractionAndExponent negative whole ('.' :: (cs ++ rest)) = .ok (j, rest) := by
  obtain ⟨htake, hdrop⟩ := span_append hr.isDigit cs
  rw [fractionAndExponent] at h ⊢
  rw [htake, hdrop]
  split at h
  · exact absurd h (by simp)
  · rename_i hdigits
    rw [if_neg hdigits]
    cases hd : cs.dropWhile Char.isDigit with
    | nil =>
      -- the number is over, and what is behind it is no exponent
      rw [hd] at h
      obtain ⟨hj, -⟩ := map_prodMk_eq_ok h
      cases rest with
      | nil => exact congrArg (Except.map (·, [])) hj
      | cons c rest =>
        obtain ⟨-, -, he, hE⟩ := hr c rfl
        rw [List.nil_append]
        dsimp only
        rw [if_neg (by simp [he, hE]), hj]
        rfl
    | cons c ds =>
      rw [hd] at h
      rw [List.cons_append]
      dsimp only at h ⊢
      split at h
      · rename_i hmark
        rw [if_pos hmark]
        exact exponent_then_append h hr
      · exact absurd (map_prodMk_eq_ok h).2 (by simp)

theorem fractionAndExponent_append {negative : Bool} {whole : List Char} {j : Json}
    (h : fractionAndExponent negative whole cs = .ok (j, [])) (hr : EndsNumber rest) :
    fractionAndExponent negative whole (cs ++ rest) = .ok (j, rest) := by
  cases cs with
  | nil =>
    obtain ⟨hj, -⟩ := map_prodMk_eq_ok h
    rw [List.nil_append, fractionAndExponent_of_endsNumber negative whole hr, hj]
    rfl
  | cons c cs =>
    by_cases hpoint : c = '.'
    · subst hpoint
      exact fractionAndExponent_point_append h hr
    · rw [List.cons_append]
      simp only [fractionAndExponent] at h ⊢
      split at h
      · rename_i hmark
        rw [if_pos hmark]
        exact exponent_then_append h hr
      · exact absurd (map_prodMk_eq_ok h).2 (by simp)

theorem magnitude_append {negative : Bool} {j : Json} (h : magnitude negative cs = .ok (j, []))
    (hr : EndsNumber rest) : magnitude negative (cs ++ rest) = .ok (j, rest) := by
  rw [magnitude.eq_def] at h
  split at h
  · exact absurd h (by simp)
  · rename_i cs
    split at h
    · exact absurd h (by simp)
    · rename_i hnext
      have hnext' : ¬(((cs ++ rest).head?.map Char.isDigit).getD false = true) := by
        cases cs with
        | nil =>
          cases rest with
          | nil => simp
          | cons c rest => simpa using (hr c rfl).1
        | cons c cs => simpa using hnext
      rw [List.cons_append, magnitude, if_neg hnext']
      exact fractionAndExponent_append h hr
  · rename_i c cs hzero
    obtain ⟨htake, hdrop⟩ := span_append hr.isDigit (c :: cs)
    split at h
    · rename_i hdigit
      rw [List.cons_append, magnitude.eq_def]
      split
      · rename_i heq
        exact absurd heq (by simp)
      · rename_i heq
        exact (hzero (List.cons.inj heq).1).elim
      · rename_i heq
        obtain ⟨rfl, rfl⟩ := List.cons.inj heq
        rw [if_pos hdigit, ← List.cons_append, htake, hdrop]
        exact fractionAndExponent_append h hr
    · exact absurd h (by simp)

/-- **What stands behind a number does not matter** if it ends the number. -/
theorem number_append {j : Json} (h : number cs = .ok (j, [])) (hr : EndsNumber rest) :
    number (cs ++ rest) = .ok (j, rest) := by
  rw [number.eq_def] at h
  split at h
  · exact magnitude_append h hr
  · rename_i hsign
    rw [number.eq_def]
    split
    · rename_i cs' heq
      cases cs with
      | nil => exact absurd h (by simp [magnitude])
      | cons c cs => exact absurd ((List.cons.inj heq).1 ▸ rfl) (hsign cs)
    · exact magnitude_append h hr

theorem wholeNumber_toDigits (negative : Bool) {n : Nat}
    (hfits : fitsInteger (if negative then -(n : Int) else n) = true)
    (hzero : ¬(negative = true ∧ (n : Int) = 0)) :
    wholeNumber negative (Nat.toDigits 10 n) = .ok (.int (if negative then -(n : Int) else n)) := by
  rw [wholeNumber, naturalOfDigits_toDigits]
  exact if_pos ⟨hfits, hzero⟩

theorem magnitude_toDigits (negative : Bool) {n : Nat}
    (hfits : fitsInteger (if negative then -(n : Int) else n) = true)
    (hzero : ¬(negative = true ∧ (n : Int) = 0)) :
    magnitude negative (Nat.toDigits 10 n) =
      .ok (.int (if negative then -(n : Int) else n), []) := by
  have hwhole := wholeNumber_toDigits negative hfits hzero
  by_cases hn : n = 0
  · subst hn
    exact congrArg (Except.map (·, [])) hwhole
  · obtain ⟨c, cs, hcs, hc⟩ := toDigits_eq_cons hn
    have hdigits : ∀ d ∈ c :: cs, Char.isDigit d = true := fun d hd ↦
      isDigit_of_mem_toDigits (hcs ▸ hd)
    rw [hcs] at hwhole ⊢
    rw [magnitude.eq_def]
    split
    · rename_i heq
      exact absurd heq (by simp)
    · rename_i heq
      exact absurd (List.cons.inj heq).1 hc
    · rename_i heq
      obtain ⟨rfl, rfl⟩ := List.cons.inj heq
      rw [if_pos (hdigits c List.mem_cons_self), List.takeWhile_eq_self_iff.mpr hdigits,
        List.dropWhile_eq_nil_iff.mpr hdigits]
      exact congrArg (Except.map (·, [])) hwhole

/-- **A written integer is read back.** -/
theorem number_toString {n : Int} (h : fitsInteger n = true) :
    number (toString n).toList = .ok (.int n, []) := by
  rw [toList_toString]
  split
  · rename_i hn
    have heq : (if true then -(n.natAbs : Int) else n.natAbs) = n := by
      rw [if_pos rfl]
      omega
    have hmagnitude := magnitude_toDigits true (n := n.natAbs)
      (by rw [heq]; exact h) (by omega)
    rw [heq] at hmagnitude
    exact hmagnitude
  · rename_i hn
    have heq : (if false = true then -(n.natAbs : Int) else n.natAbs) = n := by
      rw [if_neg (by simp)]
      omega
    have hmagnitude := magnitude_toDigits false (n := n.natAbs)
      (by rw [heq]; exact h) (by simp)
    rw [heq] at hmagnitude
    rw [number.eq_def]
    split
    · rename_i cs hcs
      have hminus : ('-' : Char) ∈ Nat.toDigits 10 n.natAbs := hcs ▸ List.mem_cons_self
      exact absurd (isDigit_of_mem_toDigits hminus) (by decide)
    · exact hmagnitude

/-- A number starts with a character that says so. -/
theorem exists_of_number {cs : List Char} {r : Json × List Char} (h : number cs = .ok r) :
    ∃ c cs', cs = c :: cs' ∧ startsNumber c = true := by
  cases cs with
  | nil => exact absurd h (by simp [number, magnitude])
  | cons c cs =>
    refine ⟨c, cs, rfl, ?_⟩
    rw [number.eq_def] at h
    split at h
    · rename_i heq
      rw [(List.cons.inj heq).1]
      rfl
    · rw [magnitude.eq_def] at h
      split at h
      · rename_i heq
        exact absurd heq (by simp)
      · rename_i heq
        rw [(List.cons.inj heq).1]
        rfl
      · rename_i heq
        split at h
        · rename_i hdigit
          rw [(List.cons.inj heq).1, startsNumber, hdigit, Bool.or_true]
        · exact absurd h (by simp)

end Reader

end PortGraph.Json
