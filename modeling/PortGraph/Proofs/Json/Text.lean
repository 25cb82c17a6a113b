import PortGraph.Proofs.Json.Canonical
import PortGraph.Proofs.Json.Token

/-!
# Written values

A reader of JSON texts takes as much of a text as was written for it, whatever blanks stand in front
of it and whatever stands behind it (`Reader.Reads`).  What is read of each part of a bracket is
read of all of them (`Reader.items_remaining`, `Reader.members_remaining`), so a written value is
read back in canonical form if it nests no deeper than allowed and its numbers are
(`Reader.reads_write`).
-/

set_option autoImplicit false

namespace PortGraph.Json.Reader

/-- Whatever blanks stand in front of the text and whatever ends it, the reader takes all of it and
gives `a`. -/
def Reads {α : Type} (read : List Char → Read α) (text : List Char) (a : α) : Prop :=
  ∀ blanks rest : List Char, (∀ c ∈ blanks, isBlank c = true) → EndsNumber rest →
    read (blanks ++ (text ++ rest)) = .ok (a, rest)

theorem Reads.here {α : Type} {read : List Char → Read α} {text rest : List Char} {a : α}
    (h : Reads read text a) (hr : EndsNumber rest) : read (text ++ rest) = .ok (a, rest) :=
  h [] rest (by simp) hr

/-- A text that can stand in a bracket: it begins with no blank and closes nothing. -/
def Begins (text : List Char) : Prop :=
  ∃ c cs, text = c :: cs ∧ isBlank c = false ∧ c ≠ ']' ∧ c ≠ '}'

/-! ## Brackets -/

/-- What stands in a bracket at a level from a part on, which may be the first one. -/
def remaining (level : Nat) (close : Char) (first : Bool) : List (List Char) → List Char
  | [] => (if first then [] else (breakLine level).toList) ++ [close]
  | part :: parts =>
    (if first then [] else [',']) ++ (breakLine (level + 1)).toList ++
      (part ++ remaining level close false parts)

theorem length_le_remaining (level : Nat) (close : Char) (first : Bool)
    (parts : List (List Char)) : parts.length ≤ (remaining level close first parts).length := by
  induction parts generalizing first with
  | nil => exact Nat.zero_le _
  | cons part parts ih =>
    have hbreak : 0 < (breakLine (level + 1)).toList.length := by
      rw [breakLine, String.toList_append, List.length_append]
      exact Nat.lt_add_right _ Nat.one_pos
    have hle := ih false
    simp only [remaining, List.length_append, List.length_cons]
    omega

/-- There are characters enough for all parts, and one round more. -/
theorem length_lt_remaining {β : Type} (level : Nat) (close : Char) (text : β → List Char)
    (bs : List β) (rest : List Char) :
    bs.length < (remaining level close true (bs.map text) ++ rest).length + 1 := by
  have hle := length_le_remaining level close true (bs.map text)
  rw [List.length_map] at hle
  rw [List.length_append]
  omega

theorem endsNumber_remaining (level : Nat) (close : Char) (parts : List (List Char))
    (rest : List Char) : EndsNumber (remaining level close false parts ++ rest) := by
  have hbreak : ∃ cs, (breakLine level).toList = '\n' :: cs := by
    rw [breakLine, String.toList_append]
    exact ⟨_, rfl⟩
  obtain ⟨cs, hcs⟩ := hbreak
  cases parts with
  | nil =>
    rw [remaining, hcs]
    rintro c ⟨⟩
    decide
  | cons part parts =>
    rw [remaining]
    rintro c ⟨⟩
    decide

section Brackets

variable {level : Nat} {close : Char} {first : Bool} {rest : List Char}

theorem nextItem_nil (hclose : isBlank close = false) :
    nextItem close first (remaining level close first [] ++ rest) = .ok (false, close :: rest) := by
  have hskip : skipBlanks (remaining level close first [] ++ rest) = close :: rest := by
    rw [remaining, List.append_assoc, List.singleton_append]
    cases first with
    | true => exact skipBlanks_cons hclose rest
    | false =>
      exact (skipBlanks_append (fun _ ↦ isBlank_of_mem_breakLine) _).trans
        (skipBlanks_cons hclose rest)
  rw [nextItem, hskip]
  exact if_pos rfl

theorem nextItem_cons (hclose : close = ']' ∨ close = '}') {part : List Char}
    {parts : List (List Char)} (hpart : Begins part) :
    nextItem close first (remaining level close first (part :: parts) ++ rest) =
      .ok (true, part ++ (remaining level close false parts ++ rest)) := by
  obtain ⟨c, cs, rfl, hblank, hsquare, hcurly⟩ := hpart
  have hc : c ≠ close := by
    rcases hclose with rfl | rfl
    · exact hsquare
    · exact hcurly
  have hcomma : ',' ≠ close := by
    rcases hclose with rfl | rfl <;> decide
  have hskip : skipBlanks ((breakLine (level + 1)).toList ++
      (c :: cs ++ (remaining level close false parts ++ rest))) =
        c :: (cs ++ (remaining level close false parts ++ rest)) :=
    (skipBlanks_append (fun _ ↦ isBlank_of_mem_breakLine) _).trans (skipBlanks_cons hblank _)
  simp only [remaining, List.append_assoc]
  cases first with
  | true =>
    rw [if_pos rfl, List.nil_append, nextItem, hskip]
    dsimp only
    rw [if_neg hc]
    rfl
  | false =>
    rw [if_neg (by simp), List.singleton_append, nextItem, skipBlanks_cons (by decide)]
    dsimp only
    rw [if_neg hcomma, hskip, if_neg (by simp), if_pos rfl]
    dsimp only
    rw [if_neg hc]
    rfl

theorem close_cons (hclose : isBlank close = false) :
    Reader.close close (close :: rest) = .ok rest := by
  rw [Reader.close, skipBlanks_cons hclose]
  exact if_pos rfl

end Brackets

section Parts

variable {α β : Type} {read : List Char → Read α} {text : β → List Char} {a : β → α} {bs : List β}

/-- **What is read of each item is read of all of them.** -/
theorem items_remaining (h : ∀ b ∈ bs, Begins (text b) ∧ Reads read (text b) (a b)) (level : Nat)
    (first : Bool) (rest : List Char) {steps : Nat} (hsteps : bs.length < steps) :
    items read steps first (remaining level ']' first (bs.map text) ++ rest) =
      .ok (bs.map a, rest) := by
  induction bs generalizing steps first with
  | nil =>
    obtain ⟨steps, rfl⟩ := Nat.exists_eq_succ_of_ne_zero (Nat.ne_of_gt hsteps)
    rw [List.map_nil, items, nextItem_nil (by decide)]
    exact congrArg (Except.map ([], ·)) (close_cons (by decide))
  | cons b bs ih =>
    obtain ⟨steps, rfl⟩ := Nat.exists_eq_succ_of_ne_zero (Nat.ne_of_gt (Nat.zero_lt_of_lt hsteps))
    obtain ⟨⟨hbegins, hreads⟩, hbs⟩ := List.forall_mem_cons.mp h
    rw [List.map_cons, items, nextItem_cons (.inl rfl) hbegins]
    dsimp only
    rw [hreads.here (endsNumber_remaining _ _ _ _)]
    dsimp only
    rw [ih hbs false (Nat.lt_of_succ_lt_succ hsteps)]
    rfl

/-- The text of a member. -/
def memberText (name : String) (text : List Char) : List Char :=
  (writeString name).toList ++ ':' :: ' ' :: text

theorem toList_writeString (s : String) : (writeString s).toList =
    '"' :: (s.toList.flatMap (fun c ↦ (writeChar c).toList) ++ ['"']) := by
  simp only [writeString, String.toList_append, String.toList_join, List.flatMap_map]
  rfl

theorem begins_memberText (name : String) (text : List Char) : Begins (memberText name text) := by
  rw [memberText, toList_writeString]
  exact ⟨_, _, rfl, by decide, by decide, by decide⟩

theorem colon_cons (cs : List Char) : colon (':' :: cs) = .ok cs := by
  rw [colon, skipBlanks_cons (by decide)]
  exact if_pos rfl

/-- Behind the name of a member stands its value, one blank away. -/
theorem memberName_memberText (name : String) (text rest : List Char) :
    memberName (memberText name text ++ rest) = .ok (name, ' ' :: (text ++ rest)) := by
  rw [memberText, toList_writeString]
  simp only [List.cons_append, List.append_assoc, List.nil_append]
  rw [memberName, if_pos rfl, quoted_written]
  dsimp only
  rw [colon_cons]
  rfl

/-- **What is read of each member's value is read of all of them.** -/
theorem members_remaining {name : β → String} (h : ∀ b ∈ bs, Reads read (text b) (a b))
    (level : Nat) (first : Bool) (rest : List Char) {steps : Nat} (hsteps : bs.length < steps) :
    members read steps first
        (remaining level '}' first (bs.map fun b ↦ memberText (name b) (text b)) ++ rest) =
      .ok (bs.map fun b ↦ (name b, a b), rest) := by
  induction bs generalizing steps first with
  | nil =>
    obtain ⟨steps, rfl⟩ := Nat.exists_eq_succ_of_ne_zero (Nat.ne_of_gt hsteps)
    rw [List.map_nil, members, nextItem_nil (by decide)]
    exact congrArg (Except.map ([], ·)) (close_cons (by decide))
  | cons b bs ih =>
    obtain ⟨steps, rfl⟩ := Nat.exists_eq_succ_of_ne_zero (Nat.ne_of_gt (Nat.zero_lt_of_lt hsteps))
    obtain ⟨hreads, hbs⟩ := List.forall_mem_cons.mp h
    rw [List.map_cons, members, nextItem_cons (.inr rfl) (begins_memberText ..)]
    dsimp only
    rw [memberName_memberText]
    dsimp only
    rw [← List.singleton_append, hreads [' '] _ (List.forall_mem_singleton.mpr rfl)
      (endsNumber_remaining _ _ _ _)]
    dsimp only
    rw [ih hbs false (Nat.lt_of_succ_lt_succ hsteps)]
    rfl

end Parts

/-! ## Layout -/

theorem toList_writeItems (level : Nat) (j : Json) (js : List Json) (close : Char) :
    (writeItems (level + 1) (j :: js)).toList ++ ((breakLine level).toList ++ [close]) =
      remaining level close true ((j :: js).map fun j ↦ (write (level + 1) j).toList) := by
  have hbehind : ∀ (js : List Json) (j : Json),
      (writeItems (level + 1) (j :: js)).toList ++ ((breakLine level).toList ++ [close]) =
        (breakLine (level + 1)).toList ++ ((write (level + 1) j).toList ++
          remaining level close false (js.map fun j ↦ (write (level + 1) j).toList)) := by
    intro js
    induction js with
    | nil =>
      intro j
      simp [writeItems, remaining]
    | cons j' js ih =>
      intro j
      rw [writeItems.eq_def]
      simp only [String.toList_append, List.append_assoc, ih j', List.map_cons, remaining]
      rfl
  exact hbehind js j

theorem toList_writeMembers (level : Nat) (m : String × Json) (ms : List (String × Json))
    (close : Char) :
    (writeMembers (level + 1) (m :: ms)).toList ++ ((breakLine level).toList ++ [close]) =
      remaining level close true
        ((m :: ms).map fun m ↦ memberText m.1 (write (level + 1) m.2).toList) := by
  have hbehind : ∀ (ms : List (String × Json)) (m : String × Json),
      (writeMembers (level + 1) (m :: ms)).toList ++ ((breakLine level).toList ++ [close]) =
        (breakLine (level + 1)).toList ++ (memberText m.1 (write (level + 1) m.2).toList ++
          remaining level close false
            (ms.map fun m ↦ memberText m.1 (write (level + 1) m.2).toList)) := by
    intro ms
    induction ms with
    | nil =>
      intro m
      simp [writeMembers, remaining, memberText]
    | cons m' ms ih =>
      intro m
      rw [writeMembers.eq_def]
      simp only [String.toList_append, List.append_assoc, ih m', List.map_cons, remaining,
        memberText]
      rfl
  exact hbehind ms m

theorem toList_write_array (level : Nat) (js : List Json) : (write level (.array js)).toList =
    '[' :: remaining level ']' true (js.map fun j ↦ (write (level + 1) j).toList) := by
  cases js with
  | nil => simp [write, remaining]
  | cons j js =>
    rw [← toList_writeItems, write.eq_def]
    simp only [String.toList_append, List.append_assoc]
    rfl

theorem toList_write_object (level : Nat) (ms : List (String × Json)) :
    (write level (.object ms)).toList = '{' :: remaining level '}' true
      (ms.map fun m ↦ memberText m.1 (write (level + 1) m.2).toList) := by
  cases ms with
  | nil => simp [write, remaining]
  | cons m ms =>
    rw [← toList_writeMembers, write.eq_def]
    simp only [String.toList_append, List.append_assoc]
    rfl

/-! ## Values -/

/-- A number is read as it was written. -/
def ReadsBack (j : Json) : Prop := number (write 0 j).toList = .ok (j, [])

theorem readsBack_int {n : Int} (h : fitsInteger n = true) : ReadsBack (.int n) := number_toString h

theorem value_blanks {blanks : List Char} (h : ∀ c ∈ blanks, isBlank c = true) (levels : Nat)
    (cs : List Char) : value levels (blanks ++ cs) = value levels cs := by
  rw [value.eq_1, value.eq_1, skipBlanks_append h]

theorem ne_of_startsNumber {c d : Char} (hc : startsNumber c = true) (hd : startsNumber d = false) :
    c ≠ d := by
  rintro rfl
  exact absurd (hc.symm.trans hd) (by decide)

theorem isBlank_of_startsNumber {c : Char} (h : startsNumber c = true) : isBlank c = false := by
  have hne : ∀ d, startsNumber d = false → c ≠ d := fun _ ↦ ne_of_startsNumber h
  simp [isBlank, hne ' ' rfl, hne '\n' rfl, hne '\t' rfl, hne '\r' rfl]

theorem value_number {c : Char} (h : startsNumber c = true) (levels : Nat) (cs : List Char) :
    value levels (c :: cs) = number (c :: cs) := by
  rw [value.eq_1, skipBlanks_cons (isBlank_of_startsNumber h)]
  dsimp only
  rw [if_neg (ne_of_startsNumber h rfl), if_neg (ne_of_startsNumber h rfl),
    if_neg (ne_of_startsNumber h rfl), if_neg (ne_of_startsNumber h rfl), if_pos h]

theorem reads_number {cs : List Char} {j : Json} (h : number cs = .ok (j, [])) (levels : Nat) :
    Reads (value levels) cs j := by
  intro blanks rest hblanks hr
  obtain ⟨c, cs', rfl, hc⟩ := exists_of_number h
  rw [value_blanks hblanks, List.cons_append, value_number hc]
  exact number_append h hr

theorem reads_string (s : String) (levels : Nat) :
    Reads (value levels) (writeString s).toList (.string s) := by
  intro blanks rest hblanks _
  rw [value_blanks hblanks, toList_writeString, List.cons_append, List.append_assoc,
    List.singleton_append, value.eq_1, skipBlanks_cons (by decide)]
  exact congrArg (Except.map fun r ↦ (Json.string r.1, r.2)) (quoted_written s rest)

/-- The character a value begins with tells its sort. -/
def Leads : Json → Char → Prop
  | .null, c => c = 'n'
  | .bool b, c => c = if b then 't' else 'f'
  | .int _, c => startsNumber c = true
  | .float _, c => startsNumber c = true
  | .string _, c => c = '"'
  | .array _, c => c = '['
  | .object _, c => c = '{'

theorem exists_write {j : Json} (h : ∀ x ∈ j.numbers, ReadsBack x) (level : Nat) :
    ∃ c cs, (write level j).toList = c :: cs ∧ Leads j c := by
  cases j with
  | null => exact ⟨_, _, by rw [write]; rfl, rfl⟩
  | bool b => cases b <;> exact ⟨_, _, by rw [write]; rfl, rfl⟩
  | int n =>
    have hn : ReadsBack (.int n) := h _ (List.mem_singleton_self _)
    exact exists_of_number hn
  | float x =>
    have hx : ReadsBack (.float x) := h _ (List.mem_singleton_self _)
    exact exists_of_number hx
  | string s => exact ⟨_, _, by rw [write, toList_writeString], rfl⟩
  | array js => exact ⟨_, _, toList_write_array level js, rfl⟩
  | object ms => exact ⟨_, _, toList_write_object level ms, rfl⟩

theorem begins_write {j : Json} (h : ∀ x ∈ j.numbers, ReadsBack x) (level : Nat) :
    Begins (write level j).toList := by
  obtain ⟨c, cs, hcs, hc⟩ := exists_write h level
  refine ⟨c, cs, hcs, ?_⟩
  have hnumber : startsNumber c = true → isBlank c = false ∧ c ≠ ']' ∧ c ≠ '}' := fun hc ↦
    ⟨isBlank_of_startsNumber hc, ne_of_startsNumber hc rfl, ne_of_startsNumber hc rfl⟩
  cases j with
  | int n => exact hnumber hc
  | float x => exact hnumber hc
  | bool b =>
    cases b <;> rw [show c = _ from hc] <;> decide
  | _ =>
    rw [show c = _ from hc]
    decide

mutual

/-- **A written value is read back in canonical form**, if it nests no deeper than allowed and its
numbers are read as they were written. -/
theorem reads_write : ∀ (j : Json) (level levels : Nat), j.depth ≤ levels →
    (∀ x ∈ j.numbers, ReadsBack x) → Reads (value levels) (write level j).toList j.canonical
  | .null, level, levels, _, _ => by
    intro blanks rest hblanks _
    rw [value_blanks hblanks, write, value.eq_1]
    rfl
  | .bool b, level, levels, _, _ => by
    intro blanks rest hblanks _
    cases b <;>
      rw [value_blanks hblanks, write, value.eq_1] <;>
      rfl
  | .int n, level, levels, _, h => reads_number (h _ (List.mem_singleton_self _)) levels
  | .float x, level, levels, _, h => reads_number (h _ (List.mem_singleton_self _)) levels
  | .string s, level, levels, _, _ => by
    rw [write]
    exact reads_string s levels
  | .array js, level, levels, hdepth, h => by
    obtain ⟨levels, rfl⟩ := Nat.exists_eq_succ_of_ne_zero (Nat.ne_of_gt (Nat.zero_lt_of_lt hdepth))
    have hitems := reads_writeItems js (level + 1) levels (Nat.le_of_succ_le_succ hdepth) h
    intro blanks rest hblanks _
    rw [value_blanks hblanks, toList_write_array, List.cons_append, value.eq_1,
      skipBlanks_cons (by decide), canonical, canonicalItems_eq_map]
    exact congrArg (Except.map fun r ↦ (Json.array r.1, r.2))
      (items_remaining hitems level true rest (length_lt_remaining ..))
  | .object ms, level, levels, hdepth, h => by
    obtain ⟨levels, rfl⟩ := Nat.exists_eq_succ_of_ne_zero (Nat.ne_of_gt (Nat.zero_lt_of_lt hdepth))
    have hmembers := reads_writeMembers ms (level + 1) levels (Nat.le_of_succ_le_succ hdepth) h
    intro blanks rest hblanks _
    rw [value_blanks hblanks, toList_write_object, List.cons_append, value.eq_1,
      skipBlanks_cons (by decide), canonical, canonicalMembers_eq_map]
    exact congrArg (Except.map fun r ↦ (Json.object (sortMembers r.1), r.2))
      (members_remaining hmembers level true rest (length_lt_remaining ..))

theorem reads_writeItems : ∀ (js : List Json) (level levels : Nat), itemsDepth js ≤ levels →
    (∀ x ∈ itemsNumbers js, ReadsBack x) → ∀ j ∈ js,
      Begins (write level j).toList ∧ Reads (value levels) (write level j).toList j.canonical
  | [], _, _, _, _ => by simp
  | j :: js, level, levels, hdepth, h => by
    obtain ⟨hj, hjs⟩ := List.forall_mem_append.mp h
    obtain ⟨hjdepth, hjsdepth⟩ := Nat.max_le.mp hdepth
    exact List.forall_mem_cons.mpr
      ⟨⟨begins_write hj level, reads_write j level levels hjdepth hj⟩,
        reads_writeItems js level levels hjsdepth hjs⟩

theorem reads_writeMembers : ∀ (ms : List (String × Json)) (level levels : Nat),
    membersDepth ms ≤ levels → (∀ x ∈ membersNumbers ms, ReadsBack x) → ∀ m ∈ ms,
      Reads (value levels) (write level m.2).toList m.2.canonical
  | [], _, _, _, _ => by simp
  | (k, j) :: ms, level, levels, hdepth, h => by
    obtain ⟨hj, hms⟩ := List.forall_mem_append.mp h
    obtain ⟨hjdepth, hmsdepth⟩ := Nat.max_le.mp hdepth
    exact List.forall_mem_cons.mpr ⟨reads_write j level levels hjdepth hj,
      reads_writeMembers ms level levels hmsdepth hms⟩

end

end PortGraph.Json.Reader

namespace PortGraph.Json.TextReader

open Reader

/-! ## Structures -/

theorem reads_text (s : String) (level levels : Nat) :
    Reads (text levels) (write level (.string s)).toList s := by
  intro blanks rest hblanks _
  rw [write, toList_writeString, List.cons_append, List.append_assoc, List.singleton_append, text,
    skipBlanks_append hblanks, skipBlanks_cons (by decide)]
  exact quoted_written s rest

theorem reads_word (w : UInt32) (level levels : Nat) :
    Reads (word levels) (write level (.int w.toNat)).toList w := by
  have hlow : (0 : Int) ≤ w.toNat := Int.natCast_nonneg _
  have hhigh : (w.toNat : Int) < UInt32.size := Int.ofNat_lt.mpr w.toNat_lt
  have hfits : fitsInteger w.toNat = true := by
    refine decide_eq_true ⟨Int.le_trans (by decide) hlow, Int.lt_trans hhigh (by decide)⟩
  have hnumber : number (write level (.int w.toNat)).toList = .ok (.int w.toNat, []) := by
    rw [write]
    exact number_toString hfits
  intro blanks rest hblanks hr
  have hread := number_append hnumber hr
  obtain ⟨c, cs, hcs, hc⟩ := exists_of_number hnumber
  rw [hcs, List.cons_append] at hread ⊢
  rw [word, skipBlanks_append hblanks, skipBlanks_cons (isBlank_of_startsNumber hc)]
  dsimp only
  rw [if_pos hc, hread]
  dsimp only
  rw [if_pos ⟨hlow, hhigh⟩]
  exact congrArg (fun w ↦ Except.ok (w, rest)) w.ofNat_toNat

/-- **A payload is read back in canonical form**, except that null is read as an absent one. -/
theorem reads_option {j : Json} (level : Nat) {levels : Nat} (hdepth : j.depth ≤ levels)
    (h : ∀ x ∈ j.numbers, ReadsBack x) : Reads (option value levels) (write level j).toList
      (((some j).filter (· ≠ .null)).map canonical) := by
  intro blanks rest hblanks hr
  obtain ⟨c, cs, hcs, hc⟩ := exists_write h level
  obtain ⟨c', cs', hcs', hblank, -, -⟩ := begins_write h level
  obtain ⟨rfl, rfl⟩ := List.cons.inj (hcs.symm.trans hcs')
  have hread := (reads_write j level levels hdepth h).here hr
  rw [hcs, List.cons_append] at hread ⊢
  unfold option
  rw [skipBlanks_append hblanks, skipBlanks_cons hblank]
  -- Whether the value is left out is decided by its first character: only null begins with an n.
  by_cases hj : j = .null
  · subst hj
    rw [write] at hcs
    obtain ⟨rfl, rfl⟩ := List.cons.inj hcs
    rfl
  · have hn : c ≠ 'n' := by
      cases j with
      | null => exact absurd rfl hj
      | bool b => cases b <;> rw [show c = _ from hc] <;> decide
      | int n => exact ne_of_startsNumber hc rfl
      | float x => exact ne_of_startsNumber hc rfl
      | _ =>
        rw [show c = _ from hc]
        decide
    split
    · rename_i heq
      exact absurd (List.cons.inj heq).1 hn
    · rw [hread, Option.filter_some, if_pos (decide_eq_true hj)]
      rfl

section Lists

variable {α β : Type}

/-- A sequence is read back if its items are. -/
theorem reads_list {read : TextReader α} {toJson : β → Json} {a : β → α} {bs : List β}
    {level levels : Nat} (h : ∀ b ∈ bs, Begins (write (level + 1) (toJson b)).toList ∧
      Reads (read levels) (write (level + 1) (toJson b)).toList (a b)) :
    Reads (list read (levels + 1)) (write level (.array (bs.map toJson))).toList (bs.map a) := by
  intro blanks rest hblanks _
  unfold list
  rw [toList_write_array, List.map_map, List.cons_append, skipBlanks_append hblanks,
    skipBlanks_cons (by decide)]
  exact items_remaining h level true rest (length_lt_remaining ..)

end Lists

section Records

variable {R : Type} {record : Record TextReader R} {level levels : Nat} {ms : List (String × Json)}
  {updates : List (R → R)}

/-- A member is read by the field of its name, which changes a structure by the update. -/
def ReadsMember (record : Record TextReader R) (level levels : Nat) (m : String × Json)
    (update : R → R) : Prop :=
  ∃ f, record.field? m.1 = some f ∧ Reads (f.read levels) (write level m.2).toList update

theorem reads_map {α : Type} {read : TextReader α} {text : List Char} {a : α} (set : α → R → R)
    (h : Reads (read levels) text a) :
    Reads ((set <$> read : TextReader (R → R)) levels) text (set a) := fun blanks rest hblanks hr ↦
  congrArg (Except.map fun r ↦ (set r.1, r.2)) (h blanks rest hblanks hr)

/-- **What is read of each member of a structure is read of all of them**, in their order. -/
theorem named_remaining (h : List.Forall₂ (ReadsMember record (level + 1) levels) ms updates)
    {seen : List String} (hnodup : ((ms.map Prod.fst).reverse ++ seen).Nodup)
    (hall : record.missing? ((ms.map Prod.fst).reverse ++ seen) = none) (first : Bool) (acc : R)
    (rest : List Char) {steps : Nat} (hsteps : ms.length < steps) :
    named record levels steps first seen acc (remaining level '}' first
        (ms.map fun m ↦ memberText m.1 (write (level + 1) m.2).toList) ++ rest) =
      .ok (updates.foldl (fun acc update ↦ update acc) acc, rest) := by
  -- The names seen so far and those still to come are different throughout, and every field read
  -- spends one step.
  induction h generalizing seen first acc steps with
  | nil =>
    obtain ⟨steps, rfl⟩ := Nat.exists_eq_succ_of_ne_zero (Nat.ne_of_gt hsteps)
    rw [List.map_nil, named, nextItem_nil (by decide)]
    dsimp only
    rw [show record.missing? seen = none from hall]
    exact congrArg (Except.map (acc, ·)) (close_cons (by decide))
  | @cons m update ms updates hm _ ih =>
    obtain ⟨steps, rfl⟩ := Nat.exists_eq_succ_of_ne_zero (Nat.ne_of_gt (Nat.zero_lt_of_lt hsteps))
    obtain ⟨f, hf, hread⟩ := hm
    rw [List.map_cons, List.reverse_cons, List.append_assoc] at hnodup hall
    have hnew : m.1 ∉ seen := (List.nodup_cons.mp (List.nodup_append.mp hnodup).2.1).1
    rw [List.map_cons, named, nextItem_cons (.inr rfl) (begins_memberText ..), memberText,
      toList_writeString]
    simp only [List.cons_append, List.append_assoc, List.nil_append]
    rw [if_neg (by simp), quoted_written]
    dsimp only
    rw [hf]
    dsimp only
    rw [if_neg (by simpa using hnew), colon_cons]
    dsimp only
    rw [← List.singleton_append, hread [' '] _ (List.forall_mem_singleton.mpr rfl)
      (endsNumber_remaining _ _ _ _)]
    exact ih hnodup hall false (update acc) (Nat.lt_of_succ_lt_succ hsteps)

/-- A structure is read back if its members are. -/
theorem reads_record (h : List.Forall₂ (ReadsMember record (level + 1) levels) ms updates)
    (hnodup : (ms.map Prod.fst).Nodup)
    (hall : record.missing? (ms.map Prod.fst).reverse = none) :
    Reads (TextReader.record record (levels + 1)) (write level (.object ms)).toList
      (updates.foldl (fun acc update ↦ update acc) record.blank) := by
  intro blanks rest hblanks _
  unfold TextReader.record
  rw [toList_write_object, List.cons_append, skipBlanks_append hblanks,
    skipBlanks_cons (by decide)]
  have hnames : ((ms.map Prod.fst).reverse ++ []).Nodup := by
    rw [List.append_nil]
    exact (List.reverse_perm _).nodup_iff.mpr hnodup
  exact named_remaining h hnames (by rwa [List.append_nil]) true record.blank rest
    (length_lt_remaining ..)

end Records

/-- A whole text is read if a reader takes all of it. -/
theorem run_eq_ok {α : Type} {read : TextReader α} {levels : Nat} {s : String} {a : α}
    (h : Reads (read levels) s.toList a) : run read levels s = .ok a := by
  have hread := h [] [] (by simp) (by simp [EndsNumber])
  rw [List.nil_append, List.append_nil] at hread
  rw [run, hread]
  rfl

end PortGraph.Json.TextReader
