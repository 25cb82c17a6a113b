import PortGraph.Proofs.Json.Canonical
import PortGraph.Proofs.Ron.Token

/-!
# Written trees

What a reader of RON texts makes of a text that was written for it does not depend on what ends the
text (`Reader.Reads`).  What is read of each part of a bracket is read of all of them
(`Reader.parts_remaining`), so the tree of a JSON value is read as that value in canonical form, if
it nests no deeper than the budget and its numbers are read as they were written
(`Reader.reads_write`).
-/

set_option autoImplicit false

namespace PortGraph.Ron

/-! ## Nesting -/

mutual

/-- How many brackets, elements and `Some` marks are open around the innermost part of a tree. -/
def nesting : Ron → Nat
  | .some r => nesting r + 1
  | .list rs => elementsNesting rs + 1
  | .map es => entriesNesting es + 1
  | .fields fs => entriesNesting fs + 1
  | _ => 0

/-- How many are open from the deepest element on. -/
def elementsNesting : List Ron → Nat
  | [] => 0
  | r :: rest => max (nesting r + 1) (elementsNesting rest)

/-- How many are open from the deepest entry on. -/
def entriesNesting : List (String × Ron) → Nat
  | [] => 0
  | (_, r) :: rest => max (nesting r + 1) (entriesNesting rest)

end

theorem nesting_lt_elementsNesting {r : Ron} {rs : List Ron} (h : r ∈ rs) :
    r.nesting < elementsNesting rs := by
  induction rs with
  | nil => exact absurd h (by simp)
  | cons r' rs ih =>
    rw [elementsNesting]
    rcases List.mem_cons.mp h with rfl | h
    · exact Nat.le_max_left _ _
    · exact (ih h).trans_le (Nat.le_max_right _ _)

theorem nesting_lt_entriesNesting {name : String} {r : Ron} {es : List (String × Ron)}
    (h : (name, r) ∈ es) : r.nesting < entriesNesting es := by
  induction es with
  | nil => exact absurd h (by simp)
  | cons e es ih =>
    obtain ⟨k, r'⟩ := e
    rw [entriesNesting]
    rcases List.mem_cons.mp h with heq | h
    · rw [← (Prod.mk.inj heq).2]
      exact Nat.le_max_left _ _
    · exact (ih h).trans_le (Nat.le_max_right _ _)

theorem ofItems_eq_map (js : List Json) : ofItems js = js.map ofJson := by
  induction js with
  | nil => rfl
  | cons j js ih => rw [ofItems, ih, List.map_cons]

theorem ofMembers_eq_map (ms : List (String × Json)) :
    ofMembers ms = ms.map fun m ↦ (m.1, ofJson m.2) := by
  induction ms with
  | nil => rfl
  | cons m ms ih => rw [ofMembers, ih, List.map_cons]

namespace Reader

/-- Whatever ends the text, the reader takes all of it and gives `a`. -/
def Reads {α : Type} (read : List Char → Read α) (text : List Char) (a : α) : Prop :=
  ∀ rest, EndsValue rest → read (text ++ rest) = .ok (a, rest)

/-- A text that can stand in a bracket: it begins with neither a blank nor a comment, and closes
nothing. -/
def Begins (text : List Char) : Prop :=
  ∃ c cs, text = c :: cs ∧ isBlank c = false ∧ c ≠ '/' ∧ c ≠ ')' ∧ c ≠ ']' ∧ c ≠ '}'

/-! ## Brackets -/

/-- The characters that close a bracket. -/
def closers : List Char := [')', ']', '}']

theorem mem_closers_iff {c : Char} : c ∈ closers ↔ c = ')' ∨ c = ']' ∨ c = '}' := by
  simp [closers]

theorem isBlank_of_mem_closers {c : Char} (h : c ∈ closers) : isBlank c = false ∧ c ≠ '/' := by
  rcases mem_closers_iff.mp h with rfl | rfl | rfl <;> decide

/-- The line break in front of the next part of a bracket, or of its closing character. -/
def gap (level : Nat) (parts : List (List Char)) : List Char :=
  (breakLine (if parts.isEmpty then level else level + 1)).toList

/-- What stands in a bracket at a level from a part on. -/
def remaining (level : Nat) (close : Char) : List (List Char) → List Char
  | [] => [close]
  | part :: parts => part ++ ',' :: (gap level parts ++ remaining level close parts)

theorem isBlank_of_mem_gap {level : Nat} {parts : List (List Char)} {c : Char}
    (h : c ∈ gap level parts) : isBlank c = true :=
  isBlank_of_mem_breakLine h

theorem length_le_remaining (level : Nat) (close : Char) (parts : List (List Char)) :
    parts.length ≤ (remaining level close parts).length := by
  induction parts with
  | nil => exact Nat.zero_le _
  | cons part parts ih =>
    simp only [remaining, List.length_append, List.length_cons]
    omega

/-- There are characters enough for all parts, and one round more. -/
theorem length_lt_remaining {β : Type} (level : Nat) (close : Char) (text : β → List Char)
    (bs : List β) (blanks rest : List Char) :
    bs.length < (blanks ++ (remaining level close (bs.map text) ++ rest)).length + 1 := by
  have hle := length_le_remaining level close (bs.map text)
  rw [List.length_map] at hle
  rw [List.length_append, List.length_append]
  omega

section Brackets

variable {close : Char} {blanks rest : List Char}

theorem skipBlanks_begins {part : List Char} (h : Begins part)
    (hblanks : ∀ c ∈ blanks, isBlank c = true) (rest : List Char) :
    skipBlanks (blanks ++ (part ++ rest)) = .ok (part ++ rest) := by
  obtain ⟨c, cs, rfl, hc, hslash, -⟩ := h
  exact skipBlanks_append hblanks hc hslash _

theorem skipBlanks_closer (hclose : close ∈ closers) (hblanks : ∀ c ∈ blanks, isBlank c = true)
    (rest : List Char) : skipBlanks (blanks ++ close :: rest) = .ok (close :: rest) := by
  have hplain := isBlank_of_mem_closers hclose
  exact skipBlanks_append hblanks hplain.1 hplain.2 rest

theorem closing_cons {c : Char} (hc : isBlank c = false) (hslash : c ≠ '/') (cs : List Char) :
    closing c (c :: cs) = .ok cs := by
  rw [closing, skipBlanks_cons hc hslash]
  exact if_pos rfl

theorem closing_closer (hclose : close ∈ closers) (rest : List Char) :
    closing close (close :: rest) = .ok rest :=
  closing_cons (isBlank_of_mem_closers hclose).1 (isBlank_of_mem_closers hclose).2 rest

theorem skipBlanks_remaining (hclose : close ∈ closers) {parts : List (List Char)}
    (h : ∀ part ∈ parts, Begins part) (level : Nat) (hblanks : ∀ c ∈ blanks, isBlank c = true)
    (rest : List Char) : skipBlanks (blanks ++ (remaining level close parts ++ rest)) =
      .ok (remaining level close parts ++ rest) := by
  cases parts with
  | nil => exact skipBlanks_closer hclose hblanks rest
  | cons part parts =>
    rw [remaining, List.append_assoc]
    exact skipBlanks_begins (h part List.mem_cons_self) hblanks _

theorem nextPart_closer (hclose : close ∈ closers) (hblanks : ∀ c ∈ blanks, isBlank c = true)
    (passed : Bool) (rest : List Char) :
    nextPart close passed (blanks ++ close :: rest) = .ok (false, close :: rest) := by
  rw [nextPart, skipBlanks_closer hclose hblanks]
  exact if_pos rfl

theorem nextPart_begins (hclose : close ∈ closers) {part : List Char} (h : Begins part)
    (hblanks : ∀ c ∈ blanks, isBlank c = true) (rest : List Char) :
    nextPart close true (blanks ++ (part ++ rest)) = .ok (true, part ++ rest) := by
  rw [nextPart, skipBlanks_begins h hblanks]
  obtain ⟨c, cs, rfl, -, -, hround, hsquare, hcurly⟩ := h
  refine (if_neg fun hc ↦ ?_).trans (if_pos rfl)
  obtain rfl := Option.some.inj hc
  rcases mem_closers_iff.mp hclose with h | h | h
  · exact hround h
  · exact hsquare h
  · exact hcurly h

/-- Behind a part stands a comma, and then the next part or the closing character. -/
theorem comma_gap (hclose : close ∈ closers) {parts : List (List Char)}
    (h : ∀ part ∈ parts, Begins part) (level : Nat) (rest : List Char) :
    comma (',' :: (gap level parts ++ (remaining level close parts ++ rest))) =
      .ok (true, remaining level close parts ++ rest) := by
  rw [comma, skipBlanks_cons (by decide) (by decide)]
  exact congrArg (Except.map (true, ·))
    (skipBlanks_remaining hclose h level (fun _ ↦ isBlank_of_mem_gap) rest)

end Brackets

section Parts

variable {α β : Type} {read : List Char → Read α} {text : β → List Char} {a : β → α} {bs : List β}
  {close : Char} {blanks : List Char}

/-- **What is read of each part is read of all of them.** -/
theorem parts_remaining (hclose : close ∈ closers)
    (h : ∀ b ∈ bs, Begins (text b) ∧ Reads read (text b) (a b)) (level : Nat)
    (hblanks : ∀ c ∈ blanks, isBlank c = true) (rest : List Char) {steps : Nat}
    (hsteps : bs.length < steps) :
    parts close read steps true (blanks ++ (remaining level close (bs.map text) ++ rest)) =
      .ok (bs.map a, close :: rest) := by
  induction bs generalizing steps blanks with
  | nil =>
    obtain ⟨steps, rfl⟩ := Nat.exists_eq_succ_of_ne_zero (Nat.ne_of_gt hsteps)
    rw [List.map_nil, remaining, List.singleton_append, parts,
      nextPart_closer hclose hblanks]
    rfl
  | cons b bs ih =>
    obtain ⟨steps, rfl⟩ := Nat.exists_eq_succ_of_ne_zero (Nat.ne_of_gt (Nat.zero_lt_of_lt hsteps))
    obtain ⟨⟨hbegins, hreads⟩, hbs⟩ := List.forall_mem_cons.mp h
    have hparts : ∀ part ∈ bs.map text, Begins part :=
      List.forall_mem_map.mpr fun b hb ↦ (hbs b hb).1
    have hrest := ih hbs (List.forall_mem_nil _) (Nat.lt_of_succ_lt_succ hsteps)
    rw [List.nil_append] at hrest
    rw [List.map_cons, remaining, List.append_assoc, List.cons_append, List.append_assoc, parts,
      nextPart_begins hclose hbegins hblanks]
    dsimp only
    rw [hreads _ (.comma _)]
    dsimp only
    rw [comma_gap hclose hparts]
    dsimp only
    rw [hrest]
    rfl

/-- The text of an entry. -/
def entryText (name text : List Char) : List Char := name ++ ':' :: ' ' :: text

theorem reads_entry (name : List Char → Read String) (key : List Char) {s : String}
    (hname : ∀ rest, name (key ++ ':' :: rest) = .ok (s, ':' :: rest)) {value : List Char} {x : α}
    (hbegins : Begins value) (hreads : Reads read value x) :
    Reads (entry name read) (entryText key value) (s, x) := by
  intro rest hr
  have hcolon : ∀ cs, closing ':' (':' :: cs) = .ok cs := closing_cons (by decide) (by decide)
  have hblank : skipBlanks (' ' :: (value ++ rest)) = .ok (value ++ rest) :=
    skipBlanks_begins hbegins (List.forall_mem_singleton.mpr rfl) rest
  rw [entryText, List.append_assoc, List.cons_append, List.cons_append, entry, hname]
  dsimp only
  rw [hcolon]
  dsimp only
  rw [hblank]
  dsimp only
  rw [hreads rest hr]
  rfl

/-- A bracket is read if its parts are: it takes one level of the budget and each part one more. -/
theorem bracket_remaining {ctx : Context} {purpose : Purpose}
    (part : (List Char → Read Json) → List Char → Read α) (hclose : close ∈ closers) {budget : Nat}
    (hbudget : 0 < budget)
    (h : ∀ b ∈ bs, 2 ≤ budget ∧ Begins (text b) ∧
      Reads (part (value ctx purpose (budget - 2))) (text b) (a b)) (level : Nat)
    (hblanks : ∀ c ∈ blanks, isBlank c = true) (rest : List Char) :
    bracket close part (inner ctx purpose budget)
        (blanks ++ (remaining level close (bs.map text) ++ rest)) = .ok (bs.map a, rest) := by
  have hcontents : contents close part (inner ctx purpose budget)
      (blanks ++ (remaining level close (bs.map text) ++ rest)) =
        .ok (bs.map a, close :: rest) := by
    match budget, hbudget with
    | 1, _ =>
      obtain rfl : bs = [] := List.eq_nil_iff_forall_not_mem.mpr fun b hb ↦
        absurd (h b hb).1 (by decide)
      rw [List.map_nil, remaining, List.singleton_append,
        show inner ctx purpose 1 = [value ctx purpose 0] from rfl, contents,
        nextPart_closer hclose hblanks]
      rfl
    | budget + 2, _ =>
      exact parts_remaining hclose (fun b hb ↦ (h b hb).2) level hblanks rest
        (length_lt_remaining ..)
  rw [bracket, hcontents]
  dsimp only
  rw [closing_closer hclose]
  rfl

end Parts

/-! ## Layout -/

theorem toList_writeElements (level : Nat) (rs : List Ron) (close : Char) :
    (writeElements (level + 1) rs).toList ++ ((breakLine level).toList ++ [close]) =
      gap level (rs.map fun r ↦ (write (level + 1) r).toList) ++
        remaining level close (rs.map fun r ↦ (write (level + 1) r).toList) := by
  induction rs with
  | nil => rfl
  | cons r rs ih =>
    rw [writeElements]
    simp only [String.toList_append, List.append_assoc, ih, List.map_cons, remaining]
    rfl

theorem toList_writeEntries (level : Nat) (es : List (String × Ron)) (close : Char) :
    (writeEntries (level + 1) es).toList ++ ((breakLine level).toList ++ [close]) =
      gap level (es.map fun e ↦ entryText (writeText e.1).toList (write (level + 1) e.2).toList) ++
        remaining level close
          (es.map fun e ↦ entryText (writeText e.1).toList (write (level + 1) e.2).toList) := by
  induction es with
  | nil => rfl
  | cons e es ih =>
    rw [writeEntries]
    simp only [String.toList_append, List.append_assoc, ih, List.map_cons, remaining, entryText]
    rfl

theorem toList_writeFields (level : Nat) (fs : List (String × Ron)) (close : Char) :
    (writeFields (level + 1) fs).toList ++ ((breakLine level).toList ++ [close]) =
      gap level (fs.map fun f ↦ entryText f.1.toList (write (level + 1) f.2).toList) ++
        remaining level close
          (fs.map fun f ↦ entryText f.1.toList (write (level + 1) f.2).toList) := by
  induction fs with
  | nil => rfl
  | cons f fs ih =>
    rw [writeFields]
    simp only [String.toList_append, List.append_assoc, ih, List.map_cons, remaining, entryText]
    rfl

theorem exists_blanks_list (level : Nat) (rs : List Ron) :
    ∃ blanks, (∀ c ∈ blanks, isBlank c = true) ∧ (write level (.list rs)).toList =
      '[' :: (blanks ++ remaining level ']' (rs.map fun r ↦ (write (level + 1) r).toList)) := by
  cases rs with
  | nil => exact ⟨[], List.forall_mem_nil _, by simp [write, remaining]⟩
  | cons r rs =>
    refine ⟨gap level ((r :: rs).map fun r ↦ (write (level + 1) r).toList),
      fun _ ↦ isBlank_of_mem_gap, ?_⟩
    have hopen : "[".toList = ['['] := rfl
    have hclose : "]".toList = [']'] := rfl
    rw [← toList_writeElements, write]
    simp only [String.toList_append, List.append_assoc, hopen, hclose, List.cons_append,
      List.nil_append]

theorem exists_blanks_map (level : Nat) (es : List (String × Ron)) :
    ∃ blanks, (∀ c ∈ blanks, isBlank c = true) ∧ (write level (.map es)).toList =
      '{' :: (blanks ++ remaining level '}'
        (es.map fun e ↦ entryText (writeText e.1).toList (write (level + 1) e.2).toList)) := by
  cases es with
  | nil => exact ⟨[], List.forall_mem_nil _, by simp [write, remaining]⟩
  | cons e es =>
    refine ⟨gap level ((e :: es).map fun e ↦
      entryText (writeText e.1).toList (write (level + 1) e.2).toList),
      fun _ ↦ isBlank_of_mem_gap, ?_⟩
    have hopen : "\x7b".toList = ['{'] := rfl
    have hclose : "\x7d".toList = ['}'] := rfl
    rw [← toList_writeEntries, write]
    simp only [String.toList_append, List.append_assoc, hopen, hclose, List.cons_append,
      List.nil_append]

theorem exists_blanks_fields (level : Nat) (fs : List (String × Ron)) :
    ∃ blanks, (∀ c ∈ blanks, isBlank c = true) ∧ (write level (.fields fs)).toList =
      '(' :: (blanks ++ remaining level ')'
        (fs.map fun f ↦ entryText f.1.toList (write (level + 1) f.2).toList)) := by
  cases fs with
  | nil => exact ⟨[], List.forall_mem_nil _, by simp [write, remaining]⟩
  | cons f fs =>
    refine ⟨gap level ((f :: fs).map fun f ↦ entryText f.1.toList (write (level + 1) f.2).toList),
      fun _ ↦ isBlank_of_mem_gap, ?_⟩
    have hopen : "(".toList = ['('] := rfl
    have hclose : ")".toList = [')'] := rfl
    rw [← toList_writeFields, write]
    simp only [String.toList_append, List.append_assoc, hopen, hclose, List.cons_append,
      List.nil_append]

/-! ## Values -/

/-- A number is read as it was written, whatever ends it. -/
structure ReadsBack (j : Json) : Prop where
  /-- It begins as numbers do. -/
  starts : ∃ c cs, (write 0 (ofJson j)).toList = c :: cs ∧ (c = '-' ∨ c.isDigit = true)
  /-- It is read by itself. -/
  reads : Reads number (write 0 (ofJson j)).toList j

theorem readsBack_int {n : Int} (h : Json.fitsInteger n = true) : ReadsBack (.int n) where
  starts := exists_toString n
  reads _ hr := number_toString h hr

theorem readsBack_float {x : Float}
    (h : number (FloatLayout.plain.writeFloat x).toList = .ok (.float x, [])) :
    ReadsBack (.float x) where
  starts := (number_writeFloat h).1
  reads := (number_writeFloat h).2

theorem anyWord?_nullWords {cs : List Char} (hN : cs.head? ≠ .some 'N')
    (hi : cs.head? ≠ .some 'i') : anyWord? nullWords cs = .none := by
  have hletters : ∀ w ∈ nullWords, w.toList.head? = .some 'N' ∨ w.toList.head? = .some 'i' := by
    decide
  refine List.findSome?_eq_none_iff.mpr fun w hw ↦ ?_
  exact (hletters w hw).elim (word?_eq_none · hN) (word?_eq_none · hi)

/-- What begins with a character that starts neither a word nor a round bracket is read by that
character. -/
theorem valueWith_unnamed {c : Char} (hc : isIdentifierStart c = false) (hround : c ≠ '(')
    (ctx : Context) (purpose : Purpose) (inner : Inner) (cs : List Char) :
    valueWith ctx purpose inner (c :: cs) = unnamedValue purpose inner false (c :: cs) := by
  have hhead : ∀ {d : Char}, isIdentifierStart d = true → (c :: cs).head? ≠ .some d := by
    intro d hd heq
    obtain rfl := Option.some.inj heq
    exact absurd (hc.symm.trans hd) (by decide)
  have hunit : string? ['(', ')'] (c :: cs) = .none := by
    simp [string?, List.isPrefixOf, hround.symm]
  rw [valueWith, word?_eq_none (s := "true") rfl (hhead (by decide)),
    word?_eq_none (s := "false") rfl (hhead (by decide)),
    anyWord?_nullWords (hhead (by decide)) (hhead (by decide)), hunit,
    word?_eq_none (s := "Some") rfl (hhead (by decide)), identifier?_eq_none hc]

/-- The characters a number begins with begin nothing else. -/
theorem plain_of_startsNumber {c : Char} (h : c = '-' ∨ c.isDigit = true) :
    isIdentifierStart c = false ∧ isBlank c = false ∧
      c ∉ ['/', '(', ')', '[', ']', '{', '}', '"'] := by
  rcases h with rfl | h
  · decide
  · exact of_isDigit (p := fun c ↦ isIdentifierStart c = false ∧ isBlank c = false ∧
      c ∉ ['/', '(', ')', '[', ']', '{', '}', '"']) (by decide) h

theorem ReadsBack.reads_value {j : Json} (h : ReadsBack j) (ctx : Context) (budget : Nat) :
    Reads (value ctx .keep budget) (write 0 (ofJson j)).toList j := by
  obtain ⟨⟨c, cs, hcs, hc⟩, hreads⟩ := h
  obtain ⟨hname, -, hplain⟩ := plain_of_startsNumber hc
  simp only [List.mem_cons, List.not_mem_nil, or_false, not_or] at hplain
  obtain ⟨-, hround, -, hsquare, -, hcurly, -, -⟩ := hplain
  have hdigit : (c.isDigit || c = '+' || c = '-' || c = '.') = true := by
    rcases hc with rfl | hc
    · rfl
    · rw [hc]
      rfl
  intro rest hr
  have hread := hreads rest hr
  rw [hcs, List.cons_append] at hread ⊢
  rw [value, valueWith_unnamed hname hround, unnamedValue, if_neg hround, if_neg (by simp),
    if_neg hsquare, if_neg hcurly, if_pos hdigit, hread]

theorem begins_of_startsNumber {text : List Char} {c : Char} {cs : List Char}
    (htext : text = c :: cs) (hc : c = '-' ∨ c.isDigit = true) : Begins text := by
  obtain ⟨-, hblank, hplain⟩ := plain_of_startsNumber hc
  simp only [List.mem_cons, List.not_mem_nil, or_false, not_or] at hplain
  obtain ⟨hslash, -, hround, -, hsquare, -, hcurly, -⟩ := hplain
  exact ⟨c, cs, htext, hblank, hslash, hround, hsquare, hcurly⟩

theorem begins_text (s : String) (level : Nat) : Begins (write level (.text s)).toList :=
  ⟨'"', _, by rw [write, toList_writeText], by decide⟩

theorem begins_int (n : Int) (level : Nat) : Begins (write level (.int n)).toList := by
  obtain ⟨c, cs, hcs, hc⟩ := exists_toString n
  exact begins_of_startsNumber hcs hc

theorem begins_list (rs : List Ron) (level : Nat) : Begins (write level (.list rs)).toList := by
  obtain ⟨blanks, -, hlist⟩ := exists_blanks_list level rs
  exact ⟨'[', _, hlist, by decide⟩

theorem begins_map (es : List (String × Ron)) (level : Nat) :
    Begins (write level (.map es)).toList := by
  obtain ⟨blanks, -, hmap⟩ := exists_blanks_map level es
  exact ⟨'{', _, hmap, by decide⟩

theorem begins_fields (fs : List (String × Ron)) (level : Nat) :
    Begins (write level (.fields fs)).toList := by
  obtain ⟨blanks, -, hfields⟩ := exists_blanks_fields level fs
  exact ⟨'(', _, hfields, by decide⟩

theorem begins_some (r : Ron) (level : Nat) : Begins (write level (.some r)).toList := by
  rw [write]
  simp only [String.toList_append]
  exact ⟨'S', _, rfl, by decide⟩

theorem begins_write {j : Json} (h : ∀ x ∈ j.numbers, ReadsBack x) (level : Nat) :
    Begins (write level (ofJson j)).toList := by
  have hnumber : ∀ {x : Json}, ReadsBack x → Begins (write 0 (ofJson x)).toList := by
    intro x hx
    obtain ⟨c, cs, hcs, hc⟩ := hx.starts
    exact begins_of_startsNumber hcs hc
  cases j with
  | null => exact ⟨'(', _, by rw [ofJson, write]; rfl, by decide⟩
  | bool b =>
    cases b
    · exact ⟨'f', _, by rw [ofJson, write]; rfl, by decide⟩
    · exact ⟨'t', _, by rw [ofJson, write]; rfl, by decide⟩
  | int n => exact hnumber (h _ (List.mem_singleton_self _))
  | float x => exact hnumber (h _ (List.mem_singleton_self _))
  | string s => exact begins_text s level
  | array js => exact begins_list (ofItems js) level
  | object ms => exact begins_map (ofMembers ms) level

theorem reads_string (s : String) (ctx : Context) (budget : Nat) :
    Reads (value ctx .keep budget) (writeText s).toList (.string s) := by
  intro rest _
  have hquoted := quoted_written s rest
  rw [toList_writeText, List.cons_append] at hquoted ⊢
  rw [value, valueWith_unnamed (by decide) (by decide)]
  exact congrArg (Except.map fun r ↦ (Json.string r.1, r.2)) hquoted

theorem reads_unit (ctx : Context) (budget : Nat) :
    Reads (value ctx .keep budget) ['(', ')'] .null := by
  intro rest _
  have hhead : ∀ {d : Char}, '(' ≠ d → ('(' :: ')' :: rest).head? ≠ .some d := fun hd heq ↦
    hd (Option.some.inj heq)
  have hunit : string? ['(', ')'] ('(' :: ')' :: rest) = .some rest :=
    string?_append ['(', ')'] rest
  change valueWith ctx .keep (inner ctx .keep budget) ('(' :: ')' :: rest) = _
  rw [valueWith, word?_eq_none (s := "true") rfl (hhead (by decide)),
    word?_eq_none (s := "false") rfl (hhead (by decide)),
    anyWord?_nullWords (hhead (by decide)) (hhead (by decide)), hunit]

theorem reads_bool (b : Bool) (level : Nat) (ctx : Context) (budget : Nat) :
    Reads (value ctx .keep budget) (write level (.bool b)).toList (.bool b) := by
  intro rest hr
  rw [value, write]
  cases b with
  | true =>
    have htrue : word? "true" ("true".toList ++ rest) = .some rest := word?_append hr.continues
    rw [if_pos rfl, valueWith, htrue]
  | false =>
    have htrue : word? "true" ("false".toList ++ rest) = .none :=
      word?_eq_none rfl (fun heq ↦ absurd (Option.some.inj heq) (by decide))
    have hfalse : word? "false" ("false".toList ++ rest) = .some rest := word?_append hr.continues
    rw [if_neg (by simp), valueWith, htrue, hfalse]

mutual

/-- **The tree of a value is read as that value in canonical form**, if it nests no deeper than the
budget and its numbers are read as they were written. -/
theorem reads_write : ∀ (j : Json) (level budget : Nat) (ctx : Context),
    (ofJson j).nesting ≤ budget → (∀ x ∈ j.numbers, ReadsBack x) →
    Reads (value ctx .keep budget) (write level (ofJson j)).toList j.canonical
  | .null, level, budget, ctx, _, _ => by
    rw [ofJson, write]
    exact reads_unit ctx budget
  | .bool b, level, budget, ctx, _, _ => by
    rw [ofJson]
    exact reads_bool b level ctx budget
  | .int n, level, budget, ctx, _, h =>
    (h _ (List.mem_singleton_self _)).reads_value ctx budget
  | .float x, level, budget, ctx, _, h =>
    (h _ (List.mem_singleton_self _)).reads_value ctx budget
  | .string s, level, budget, ctx, _, _ => by
    rw [ofJson, write]
    exact reads_string s ctx budget
  | .array js, level, budget, ctx, hb, h => by
    rw [ofJson, nesting] at hb
    have hclose : ']' ∈ closers := by decide
    have hitems := reads_writeItems js (level + 1) budget ctx hb h
    obtain ⟨blanks, hblanks, hlist⟩ := exists_blanks_list level (ofItems js)
    intro rest _
    rw [ofJson, hlist, List.cons_append, List.append_assoc, value,
      valueWith_unnamed (by decide) (by decide), Json.canonical, Json.canonicalItems_eq_map,
      ofItems_eq_map, List.map_map]
    exact congrArg (Except.map fun r ↦ (Json.array r.1, r.2))
      (bracket_remaining id hclose (Nat.lt_of_lt_of_le (Nat.succ_pos _) hb) hitems level hblanks
        rest)
  | .object ms, level, budget, ctx, hb, h => by
    rw [ofJson, nesting] at hb
    have hclose : '}' ∈ closers := by decide
    have hmembers := reads_writeMembers ms (level + 1) budget ctx hb h
    obtain ⟨blanks, hblanks, hmap⟩ := exists_blanks_map level (ofMembers ms)
    intro rest _
    rw [ofJson, hmap, List.cons_append, List.append_assoc, value,
      valueWith_unnamed (by decide) (by decide), Json.canonical, Json.canonicalMembers_eq_map,
      ofMembers_eq_map, List.map_map]
    exact congrArg (Except.map fun r ↦ (Json.object (Json.sortMembers r.1), r.2))
      (bracket_remaining (entry quoted) hclose (Nat.lt_of_lt_of_le (Nat.succ_pos _) hb) hmembers
        level hblanks rest)

theorem reads_writeItems : ∀ (js : List Json) (level budget : Nat) (ctx : Context),
    elementsNesting (ofItems js) + 1 ≤ budget → (∀ x ∈ Json.itemsNumbers js, ReadsBack x) →
    ∀ j ∈ js, 2 ≤ budget ∧ Begins (write level (ofJson j)).toList ∧
        Reads (value ctx .keep (budget - 2)) (write level (ofJson j)).toList j.canonical
  | [], _, _, _, _, _ => by simp
  | j :: js, level, budget, ctx, hb, h => by
    obtain ⟨hj, hjs⟩ := List.forall_mem_append.mp h
    rw [ofItems, elementsNesting] at hb
    exact List.forall_mem_cons.mpr ⟨⟨by omega, begins_write hj level,
        reads_write j level (budget - 2) ctx (by omega) hj⟩,
      reads_writeItems js level budget ctx (by omega) hjs⟩

theorem reads_writeMembers : ∀ (ms : List (String × Json)) (level budget : Nat) (ctx : Context),
    entriesNesting (ofMembers ms) + 1 ≤ budget → (∀ x ∈ Json.membersNumbers ms, ReadsBack x) →
    ∀ m ∈ ms, 2 ≤ budget ∧
      Begins (entryText (writeText m.1).toList (write level (ofJson m.2)).toList) ∧
      Reads (entry quoted (value ctx .keep (budget - 2)))
        (entryText (writeText m.1).toList (write level (ofJson m.2)).toList) (m.1, m.2.canonical)
  | [], _, _, _, _, _ => by simp
  | (k, j) :: ms, level, budget, ctx, hb, h => by
    obtain ⟨hj, hms⟩ := List.forall_mem_append.mp h
    rw [ofMembers, entriesNesting] at hb
    refine List.forall_mem_cons.mpr ⟨⟨by omega, ?_, ?_⟩,
      reads_writeMembers ms level budget ctx (by omega) hms⟩
    · rw [entryText, toList_writeText]
      exact ⟨'"', _, rfl, by decide⟩
    · exact reads_entry quoted _ (fun _ ↦ quoted_written k _) (begins_write hj level)
        (reads_write j level (budget - 2) ctx (by omega) hj)

end

end Reader

namespace TextReader

open Reader

/-! ## Structures -/

theorem begins_entryText {s : String} (h : IsName s) (text : List Char) :
    Begins (entryText s.toList text) := by
  obtain ⟨c, cs, hcs, ⟨-, -, hstart⟩, -⟩ := h.exists_cons
  have hne : ∀ d, isIdentifierStart d = false → c ≠ d := by
    rintro d hd rfl
    exact absurd (hstart.symm.trans hd) (by decide)
  rw [entryText, hcs]
  exact ⟨c, _, rfl, isBlank_of_isIdentifierStart hstart, hne _ rfl, hne _ rfl, hne _ rfl, hne _ rfl⟩

theorem reads_text (s : String) (level : Nat) (ctx : Context) :
    Reads (text ctx) (write level (.text s)).toList s := by
  intro rest _
  rw [write]
  exact quoted_written s rest

theorem reads_word (w : UInt32) (level : Nat) (ctx : Context) :
    Reads (word ctx) (write level (.int w.toNat)).toList w := by
  have hlow : (0 : Int) ≤ w.toNat := Int.natCast_nonneg _
  have hhigh : (w.toNat : Int) < UInt32.size := Int.ofNat_lt.mpr w.toNat_lt
  intro rest hr
  have hread := integer_toString w.toNat hr
  obtain ⟨c, cs, hcs, -⟩ := exists_toString w.toNat
  rw [write]
  rw [hcs, List.cons_append] at hread ⊢
  rw [word, hread]
  · dsimp only
    rw [if_pos ⟨hlow, hhigh, rfl⟩]
    exact congrArg (fun w ↦ Except.ok (w, rest)) w.ofNat_toNat
  · simp

/-- **What is marked as present is read back** behind its `Some` mark. -/
theorem reads_option {α : Type} {read : TextReader α} {r : Ron} {a : α} {level budget : Nat}
    (hbegins : Begins (write level r).toList) (h : Reads (read { budget }) (write level r).toList a) :
    Reads (option read { budget := budget + 1 }) (write level (.some r)).toList (.some a) := by
  intro rest _
  have htext : (write level (.some r)).toList ++ rest =
      "Some".toList ++ '(' :: ((write level r).toList ++ ')' :: rest) := by
    rw [write]
    simp
  have hnone : word? "None" ("Some".toList ++ '(' :: ((write level r).toList ++ ')' :: rest)) =
      .none :=
    word?_eq_none rfl (fun heq ↦ absurd (Option.some.inj heq) (by decide))
  have hsome : word? "Some" ("Some".toList ++ '(' :: ((write level r).toList ++ ')' :: rest)) =
      .some ('(' :: ((write level r).toList ++ ')' :: rest)) :=
    word?_append rfl
  have hmark := skipBlanks_cons (c := '(') (by decide) (by decide)
    ((write level r).toList ++ ')' :: rest)
  have hskip := skipBlanks_begins hbegins (List.forall_mem_nil _) (')' :: rest)
  rw [List.nil_append] at hskip
  have hinside : inside read { budget := budget + 1 } ((write level r).toList ++ ')' :: rest) =
      .ok (a, ')' :: rest) :=
    h (')' :: rest) (.bracket rest)
  have hcomma : comma (')' :: rest) = .ok (false, ')' :: rest) := by
    rw [comma, skipBlanks_cons (by decide) (by decide)]
    rfl
  unfold option
  rw [htext, hnone, hsome]
  simp only [hmark, hskip, hinside, hcomma]
  rfl

/-- A sequence is read back if its elements are. -/
theorem reads_list {α β : Type} {read : TextReader α} {toRon : β → Ron} {a : β → α} {bs : List β}
    {level budget : Nat} (h : ∀ b ∈ bs, Begins (write (level + 1) (toRon b)).toList ∧
      Reads (read { budget }) (write (level + 1) (toRon b)).toList (a b)) :
    Reads (list read { budget := budget + 2 }) (write level (.list (bs.map toRon))).toList
      (bs.map a) := by
  intro rest _
  obtain ⟨blanks, hblanks, hlist⟩ := exists_blanks_list level (bs.map toRon)
  have hclose : ']' ∈ closers := by decide
  have hinside : inside (fun ctx cs ↦ parts ']' (inside read ctx) (cs.length + 1) true cs)
      { budget := budget + 2 } (blanks ++ (remaining level ']'
        (bs.map fun b ↦ (write (level + 1) (toRon b)).toList) ++ rest)) =
      .ok (bs.map a, ']' :: rest) :=
    parts_remaining hclose h level hblanks rest (length_lt_remaining ..)
  unfold list
  rw [hlist, List.map_map, List.cons_append, List.append_assoc]
  simp only [Function.comp_def, hinside, closing_closer hclose]
  rfl

section Records

variable {R : Type} {record : Record TextReader R} {level budget : Nat} {fs : List (String × Ron)}
  {updates : List (R → R)}

/-- A field is read by the field of its name, which changes a structure by the update. -/
structure ReadsField (record : Record TextReader R) (level budget : Nat) (f : String × Ron)
    (update : R → R) : Prop where
  /-- It can stand in a bracket. -/
  begins : Begins (write level f.2).toList
  /-- The field of its name reads it. -/
  reads : ∃ field, record.field? f.1 = .some field ∧
    Reads (field.read { budget }) (write level f.2).toList update

theorem reads_map {α : Type} {read : TextReader α} {ctx : Context} {text : List Char} {a : α}
    (set : α → R → R) (h : Reads (read ctx) text a) :
    Reads ((set <$> read : TextReader (R → R)) ctx) text (set a) := fun rest hr ↦
  congrArg (Except.map fun r ↦ (set r.1, r.2)) (h rest hr)

/-- **What is read of each field of a structure is read of all of them**, in their order. -/
theorem named_remaining (h : List.Forall₂ (ReadsField record (level + 1) budget) fs updates)
    (hnames : ∀ s ∈ fs.map Prod.fst, IsName s) {seen : List String}
    (hnodup : ((fs.map Prod.fst).reverse ++ seen).Nodup)
    (hall : record.missing? ((fs.map Prod.fst).reverse ++ seen) = .none) (acc : R)
    {blanks : List Char} (hblanks : ∀ c ∈ blanks, isBlank c = true) (rest : List Char)
    {steps : Nat} (hsteps : fs.length < steps) :
    named record { budget := budget + 1 } steps true seen acc (blanks ++ (remaining level ')'
        (fs.map fun f ↦ entryText f.1.toList (write (level + 1) f.2).toList) ++ rest)) =
      .ok (updates.foldl (fun acc update ↦ update acc) acc, ')' :: rest) := by
  have hclose : ')' ∈ closers := by decide
  induction h generalizing seen acc steps blanks with
  | nil =>
    obtain ⟨steps, rfl⟩ := Nat.exists_eq_succ_of_ne_zero (Nat.ne_of_gt hsteps)
    rw [List.map_nil, remaining, List.singleton_append, named, nextPart_closer hclose hblanks]
    dsimp only
    rw [show record.missing? seen = .none from hall]
    rfl
  | @cons f update fs updates hf _ ih =>
    obtain ⟨steps, rfl⟩ := Nat.exists_eq_succ_of_ne_zero (Nat.ne_of_gt (Nat.zero_lt_of_lt hsteps))
    obtain ⟨hbegins, field, hfield, hread⟩ := hf
    obtain ⟨hname, hfnames⟩ := List.forall_mem_cons.mp hnames
    rw [List.map_cons, List.reverse_cons, List.append_assoc] at hnodup hall
    have hnew : f.1 ∉ seen := (List.nodup_cons.mp (List.nodup_append.mp hnodup).2.1).1
    have hparts : ∀ part ∈ fs.map (fun f ↦ entryText f.1.toList (write (level + 1) f.2).toList),
        Begins part :=
      List.forall_mem_map.mpr fun f hf ↦ begins_entryText (hfnames _ (List.mem_map_of_mem hf)) _
    have hrest := ih hfnames hnodup hall (update acc) (List.forall_mem_nil _)
      (Nat.lt_of_succ_lt_succ hsteps)
    rw [List.nil_append] at hrest
    have hidentifier : ∀ cs, inside (fun _ ↦ identifier) { budget := budget + 1 }
        (entryText f.1.toList (write (level + 1) f.2).toList ++ cs) =
          .ok (f.1, entryText [] (write (level + 1) f.2).toList ++ cs) := by
      intro cs
      rw [entryText, List.append_assoc, List.cons_append]
      exact identifier_append hname _
    have hread : Reads (inside field.read { budget := budget + 1 }) (write (level + 1) f.2).toList
      update := hread
    have hentry := reads_entry (fun cs ↦ .ok (f.1, cs)) [] (fun _ ↦ rfl) hbegins hread _
      (.comma (gap level (fs.map fun f ↦ entryText f.1.toList (write (level + 1) f.2).toList) ++
        (remaining level ')' (fs.map fun f ↦ entryText f.1.toList (write (level + 1) f.2).toList) ++
          rest)))
    rw [List.map_cons, remaining, List.append_assoc, List.cons_append, List.append_assoc, named,
      nextPart_begins hclose (begins_entryText hname _) hblanks]
    dsimp only
    rw [hidentifier]
    dsimp only
    rw [hfield, if_neg (by simpa using hnew)]
    dsimp only
    rw [hentry]
    dsimp only
    rw [comma_gap hclose hparts]
    exact hrest

/-- A structure is read back if its fields are. -/
theorem reads_record (h : List.Forall₂ (ReadsField record (level + 1) budget) fs updates)
    (hnames : ∀ s ∈ fs.map Prod.fst, IsName s) (hnodup : (fs.map Prod.fst).Nodup)
    (hall : record.missing? (fs.map Prod.fst).reverse = .none) :
    Reads (TextReader.record record { budget := budget + 2 }) (write level (.fields fs)).toList
      (updates.foldl (fun acc update ↦ update acc) record.blank) := by
  intro rest _
  obtain ⟨blanks, hblanks, hfields⟩ := exists_blanks_fields level fs
  have hclose : ')' ∈ closers := by decide
  have hopen : ∀ cs, closing '(' ('(' :: cs) = .ok cs := closing_cons (by decide) (by decide)
  have hnodup' : ((fs.map Prod.fst).reverse ++ []).Nodup := by
    rw [List.append_nil]
    exact (List.reverse_perm _).nodup_iff.mpr hnodup
  have hinside : fields record { budget := budget + 2 } (blanks ++ (remaining level ')'
      (fs.map fun f ↦ entryText f.1.toList (write (level + 1) f.2).toList) ++ rest)) =
        .ok (updates.foldl (fun acc update ↦ update acc) record.blank, ')' :: rest) :=
    named_remaining h hnames hnodup' (by rwa [List.append_nil]) record.blank hblanks rest
      (length_lt_remaining ..)
  have hname : ∀ cs, structureName record { budget := budget + 2 } ('(' :: cs) = .ok ('(' :: cs) :=
    fun _ ↦ rfl
  rw [hfields, List.cons_append, List.append_assoc, TextReader.record]
  simp only [hname, hopen, hinside, closing_closer hclose]
  rfl

end Records

/-- A whole text is read if a reader takes all of it. -/
theorem run_eq_ok {α : Type} {read : TextReader α} {s : String} {a : α} {cs : List Char}
    (hs : s.toList = '(' :: cs) (h : Reads (read {}) s.toList a) : run read s = .ok a := by
  have hread := h [] (by simp [EndsValue])
  have hplain : attributes (s.length + 1) {} s.toList = .ok ({}, s.toList) := by
    rw [hs, attributes, skipBlanks_cons (by decide) (by decide)]
    rfl
  rw [List.append_nil] at hread
  rw [run, hplain]
  dsimp only
  rw [hread]
  rfl

end TextReader

end PortGraph.Ron
