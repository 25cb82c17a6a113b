import PortGraph.Command.Settings

/-!
# The words of a command line

The arguments of a command line are read from left to right, one word at a time: a file flag together with
the argument behind it, whatever that looks like, and any other argument by itself.  There is one such
reading of all arguments (`Arguments.spells_iff`).

What the arguments ask for, and what is wrong with them, is told by their words (`Arguments.ofList_eq`).
-/

set_option autoImplicit false

namespace PortGraph
namespace Arguments

/-- What is said at once on a command line. -/
inductive Word where
  /-- A file flag, and the file behind it. -/
  | settings (flag file : String)
  /-- A file flag with nothing behind it. -/
  | unfinished (flag : String)
  /-- Any other argument that begins like a flag. -/
  | unknown (arg : String)
  /-- An argument that does not. -/
  | plain (arg : String)
  deriving DecidableEq, Repr

namespace Word

/-- The arguments that make a word. -/
def arguments : Word → List String
  | settings flag file => [flag, file]
  | unfinished arg | unknown arg | plain arg => [arg]

/-- Whether a word is what its arguments make. -/
def IsFormed : Word → Prop
  | settings flag _ | unfinished flag => isFileFlag flag = true
  | unknown arg => isFileFlag arg = false ∧ arg.startsWith "-" = true
  | plain arg => isFileFlag arg = false ∧ arg.startsWith "-" = false

/-- The file that a word gives. -/
def file? : Word → Option String
  | settings _ file => some file
  | _ => none

/-- The positional argument that a word is. -/
def positional? : Word → Option String
  | plain arg => some arg
  | _ => none

@[simp] theorem file?_settings (flag file : String) : (settings flag file).file? = some file := rfl

@[simp] theorem positional?_settings (flag file : String) :
    (settings flag file).positional? = none := rfl

/-- What is reported of a word, if it is at fault. -/
def fault? : Word → Option String
  | unfinished flag => some (flag ++ " expects a file")
  | unknown arg => some arg
  | _ => none

/-- Whether nothing is missing from a word. -/
def isFinished : Word → Bool
  | unfinished _ => false
  | _ => true

/-- The word of an argument that is no file flag. -/
def ofArgument (arg : String) : Word := if arg.startsWith "-" then unknown arg else plain arg

@[simp] theorem arguments_ofArgument (arg : String) : (ofArgument arg).arguments = [arg] := by
  rw [ofArgument]
  split <;> rfl

theorem isFormed_ofArgument {arg : String} (h : isFileFlag arg = false) :
    (ofArgument arg).IsFormed := by
  rw [ofArgument]
  split
  · rename_i hdash
    exact ⟨h, hdash⟩
  · rename_i hdash
    exact ⟨h, Bool.not_eq_true _ ▸ hdash⟩

theorem isFinished_ofArgument (arg : String) : (ofArgument arg).isFinished = true := by
  rw [ofArgument]
  split <;> rfl

end Word

/-- The words of the arguments, read from left to right. -/
def words : List String → List Word
  | [] => []
  | [arg] => [if isFileFlag arg then .unfinished arg else .ofArgument arg]
  | arg :: next :: rest =>
    if isFileFlag arg then .settings arg next :: words rest
    else .ofArgument arg :: words (next :: rest)

theorem words_settings {flag : String} (h : isFileFlag flag = true) (file : String)
    (rest : List String) : words (flag :: file :: rest) = .settings flag file :: words rest := by
  rw [words, if_pos h]

theorem words_ofArgument {arg : String} (h : isFileFlag arg = false) (rest : List String) :
    words (arg :: rest) = .ofArgument arg :: words rest := by
  cases rest <;> simp [words, h]

/-- Going through arguments word by word. -/
theorem words_induction {P : List String → Prop} (nil : P [])
    (settings : ∀ flag file rest, isFileFlag flag = true → P rest → P (flag :: file :: rest))
    (unfinished : ∀ flag, isFileFlag flag = true → P [flag])
    (single : ∀ arg rest, isFileFlag arg = false → P rest → P (arg :: rest)) (args : List String) :
    P args := by
  induction args using words.induct with
  | case1 => exact nil
  | case2 arg =>
    cases h : isFileFlag arg with
    | true => exact unfinished arg h
    | false => exact single arg [] h nil
  | case3 flag file rest h ih => exact settings flag file rest h ih
  | case4 arg next rest h ih => exact single arg (next :: rest) (by simpa using h) ih

/-! ## There is one reading -/

/-- **Words spell arguments**: they are made of them one after the other, each is what its arguments make, and
only the last one may be unfinished. -/
structure Spells (ws : List Word) (args : List String) : Prop where
  /-- All arguments are read, in their order. -/
  arguments : ws.flatMap Word.arguments = args
  /-- Each word is what its arguments make. -/
  formed : ∀ w ∈ ws, w.IsFormed
  /-- A flag is unfinished only if nothing is left behind it. -/
  finished : ∀ w ∈ ws.dropLast, w.isFinished = true

theorem Spells.tail {w : Word} {ws : List Word} {args : List String} (h : Spells (w :: ws) args) :
    Spells ws (ws.flatMap Word.arguments) where
  arguments := rfl
  formed v hv := h.formed v (List.mem_cons_of_mem w hv)
  finished v hv := by
    cases ws with
    | nil => exact absurd hv (by simp)
    | cons u us => exact h.finished v (List.mem_cons_of_mem w hv)

/-- In front of finished words there is any finished word. -/
theorem Spells.cons {w : Word} {ws : List Word} {args : List String} (h : Spells ws args)
    (hw : w.IsFormed) (hfinished : w.isFinished = true) :
    Spells (w :: ws) (w.arguments ++ args) where
  arguments := by rw [List.flatMap_cons, h.arguments]
  formed := List.forall_mem_cons.mpr ⟨hw, h.formed⟩
  finished v hv := by
    cases ws with
    | nil => exact absurd hv (by simp)
    | cons u us =>
      rcases List.mem_cons.mp hv with rfl | hv
      · exact hfinished
      · exact h.finished v hv

theorem spells_words (args : List String) : Spells (words args) args := by
  induction args using words_induction with
  | nil => exact ⟨rfl, by simp [words], by simp [words]⟩
  | settings flag file rest h ih =>
    rw [words_settings h]
    exact ih.cons h rfl
  | unfinished flag h =>
    rw [words, if_pos h]
    exact ⟨rfl, by simpa [Word.IsFormed] using h, by simp⟩
  | single arg rest h ih =>
    rw [words_ofArgument h]
    have hcons := ih.cons (Word.isFormed_ofArgument h) (Word.isFinished_ofArgument arg)
    rwa [Word.arguments_ofArgument] at hcons

/-- **The words of arguments are all that spells them.** -/
theorem spells_iff {ws : List Word} {args : List String} : Spells ws args ↔ words args = ws := by
  refine ⟨fun h ↦ ?_, fun h ↦ h ▸ spells_words args⟩
  induction ws generalizing args with
  | nil =>
    rw [← h.arguments]
    rfl
  | cons w ws ih =>
    have hrest := ih h.tail
    have hw := h.formed w List.mem_cons_self
    rw [← h.arguments, List.flatMap_cons]
    cases w with
    | settings flag file =>
      exact (words_settings hw file _).trans (congrArg _ hrest)
    | unfinished flag =>
      -- no word may stand behind this one
      cases ws with
      | nil => exact congrArg (fun w ↦ [w]) (if_pos hw)
      | cons v vs => exact absurd (h.finished _ List.mem_cons_self) Bool.false_ne_true
    | unknown arg =>
      rw [Word.arguments, List.singleton_append, words_ofArgument hw.1, hrest, Word.ofArgument,
        if_pos hw.2]
    | plain arg =>
      rw [Word.arguments, List.singleton_append, words_ofArgument hw.1, hrest, Word.ofArgument, hw.2]
      rfl

/-! ## Places between words -/

/-- A place in front of which no flag waits for its file. -/
def IsWhole (front : List String) : Prop := ∀ w ∈ words front, w.isFinished = true

instance (front : List String) : Decidable (IsWhole front) :=
  inferInstanceAs (Decidable (∀ w ∈ words front, w.isFinished = true))

/-- **Words do not reach over such a place.** -/
theorem IsWhole.words_append {front : List String} (h : IsWhole front) (back : List String) :
    words (front ++ back) = words front ++ words back := by
  induction front using words_induction with
  | nil => rfl
  | settings flag file rest hflag ih =>
    rw [IsWhole, words_settings hflag] at h
    have hrest := ih fun w hw ↦ h w (List.mem_cons_of_mem _ hw)
    rw [List.cons_append, List.cons_append, words_settings hflag, words_settings hflag, hrest]
    rfl
  | unfinished flag hflag =>
    rw [IsWhole, words, if_pos hflag] at h
    exact absurd (h _ List.mem_cons_self) Bool.false_ne_true
  | single arg rest harg ih =>
    rw [IsWhole, words_ofArgument harg] at h
    have hrest := ih fun w hw ↦ h w (List.mem_cons_of_mem _ hw)
    rw [List.cons_append, words_ofArgument harg, words_ofArgument harg, hrest]
    rfl

/-! ## What the words ask for -/

/-- What words ask for: the last file, and all positional arguments. -/
def asked (ws : List Word) : Arguments where
  file := (ws.filterMap Word.file?).getLast?
  positional := ws.filterMap Word.positional?

/-- **What words are refused for**: the first that is at fault, or else the third positional argument. -/
def refusal? (ws : List Word) : Option String :=
  (ws.findSome? Word.fault?).or (ws.filterMap Word.positional?)[2]?

theorem asked_settings (flag file : String) (ws : List Word) :
    asked (.settings flag file :: ws) = { asked ws with file := (asked ws).file.or (some file) } := by
  have hlast : (file :: ws.filterMap Word.file?).getLast? =
      (ws.filterMap Word.file?).getLast?.or (some file) := by
    rw [List.getLast?_cons]
    cases (ws.filterMap Word.file?).getLast? <;> rfl
  exact congrArg (Arguments.mk · _) hlast

theorem asked_plain (arg : String) (ws : List Word) :
    asked (.plain arg :: ws) = { asked ws with positional := arg :: (asked ws).positional } := rfl

theorem scan_single {arg : String} (h : isFileFlag arg = false) (rest : List String) :
    scan (arg :: rest) = if arg.startsWith "-" then .error (.invalidArgument arg)
      else (scan rest).map fun found ↦ { found with positional := arg :: found.positional } := by
  cases rest with
  | nil => simp only [scan, h, Bool.false_eq_true, if_false, Except.map]
  | cons next rest =>
    simp only [scan, h, Bool.false_eq_true, if_false]
    cases scan (next :: rest) <;> rfl

/-- Sorting the arguments comes down to their words. -/
theorem scan_eq (args : List String) : scan args =
    match (words args).findSome? Word.fault? with
    | some report => .error (.invalidArgument report)
    | none => .ok (asked (words args)) := by
  induction args using words_induction with
  | nil => rfl
  | settings flag file rest h ih =>
    rw [scan, if_pos h, ih, words_settings h, List.findSome?_cons_of_isNone rfl, asked_settings]
    cases (words rest).findSome? Word.fault? <;> rfl
  | unfinished flag h =>
    rw [scan, if_pos h, words, if_pos h]
    rfl
  | single arg rest h ih =>
    rw [scan_single h, ih, words_ofArgument h, Word.ofArgument]
    split
    · rfl
    · rw [List.findSome?_cons_of_isNone rfl, asked_plain]
      cases (words rest).findSome? Word.fault? <;> rfl

/-- **What arguments ask for is told by their words.** -/
theorem ofList_eq (args : List String) : ofList args =
    match refusal? (words args) with
    | some report => .error (.invalidArgument report)
    | none => .ok (asked (words args)) := by
  rw [ofList, scan_eq, refusal?]
  cases (words args).findSome? Word.fault? with
  | some report => rfl
  | none =>
    simp only [Option.none_or]
    rfl

end Arguments
end PortGraph
