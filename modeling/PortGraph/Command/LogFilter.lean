import PortGraph.Act
import PortGraph.Number.Decimal
import PortGraph.Text.Category
import PortGraph.Text.Offset

/-!
# Log filters

A filter is a list of items between commas.  An item is a level, or a target with or without a
level, and says up to which level the lines are shown whose target begins with that of the item.
Behind the target, or in its place, may stand a span with a field in it, between brackets; such an
item speaks of lines in that span, or of lines that have that field.

Of several items that speak of a line the one with the longest target decides, of equal targets
the one with a field, and of equal items the last; a line that no item speaks of is not shown.  A
filter without items shows errors only.

The parts of an item are found in it without the white space around it, but then cut out of the
whole of it at the same offsets.  Where that would cut a character in two the filter cannot be
read at all, which is worse than being malformed.
-/

set_option autoImplicit false

namespace PortGraph

/-- Why a filter is refused. -/
inductive FilterError where
  /-- It is no filter. -/
  | malformed
  /-- One of its characters would be cut in two. -/
  | brokenCharacter
  deriving DecidableEq, Repr

/-! ## Fields -/

/-- A field that lines must have. -/
structure FieldPattern where
  /-- Its name. -/
  name : String
  /-- The pattern of its value, if the value matters. -/
  value : Option String
  deriving DecidableEq, Repr

namespace FieldPattern

/-- Whether a pattern is well-formed, having `depth` groups and perhaps a class open, and something
in front that may be repeated or not.  Every group and class is closed, every repetition has
something to repeat, and a backslash stands in front of a character. -/
def isWellFormed (depth : Nat) (inClass repeatable : Bool) : List Char → Bool
  | [] => depth = 0 && !inClass
  | ['\\'] => false
  | '\\' :: _ :: cs => isWellFormed depth inClass true cs
  | '[' :: '^' :: ']' :: cs => isWellFormed depth true true cs
  | '[' :: ']' :: cs => isWellFormed depth true true cs
  | '(' :: '?' :: cs =>
    if inClass then isWellFormed depth true true cs else isWellFormed (depth + 1) false false cs
  | c :: cs =>
    if inClass then isWellFormed depth (c ≠ ']') true cs
    else if c = '[' then isWellFormed depth true true cs
    else if c = '(' then isWellFormed (depth + 1) false false cs
    else if c = ')' then 0 < depth && isWellFormed (depth - 1) false true cs
    else if c = '|' then isWellFormed depth false false cs
    else if c = '*' ∨ c = '+' ∨ c = '?' then repeatable && isWellFormed depth false true cs
    else c ≠ '\x7b' && isWellFormed depth false true cs

/-- Whether a text may be the pattern of a value: a number, or any other well-formed pattern. -/
def isValue (text : String) : Bool :=
  (Decimal.ofChars? text.toList).isSome || isWellFormed 0 false false text.toList

/-- Read a field: its name, and the pattern of its value behind an equals sign. -/
def ofText (text : String) : Except FilterError FieldPattern :=
  match text.splitOn "=" with
  | name :: value :: _ => if isValue value then .ok ⟨name, some value⟩ else .error .malformed
  | _ => .ok ⟨text, none⟩

end FieldPattern

/-! ## Items -/

/-- An item of a filter. -/
structure FilterItem where
  /-- What the target of a line must begin with, if it matters. -/
  target : Option String
  /-- The span in which a line must stand, if it matters. -/
  span : Option String
  /-- The field that a line must have, if it matters. -/
  field : Option FieldPattern
  /-- The last level that is shown, if any is. -/
  limit : Option Level
  deriving DecidableEq, Repr

namespace FilterItem

/-- The limit of a name or number: a level, in letters of either case, or nothing at all. -/
def limit? (text : String) : Option (Option Level) :=
  match naturalOfText? text with
  | some 0 => some none
  | some n => (Level.all.find? (·.rank = n)).map some
  | none =>
    if text.toUpper = "OFF" then some none
    else (Level.all.find? (text.toUpper = ·.name)).map some

/-- Whether an item may begin with a character. -/
def isFirst (c : Char) : Bool := c = '-' || c = ':' || c = '_' || isAlphanumeric c

/-- The part of an item between two offsets. -/
def slice (item : List Char) (start stop : Nat) : Except FilterError String :=
  match sliceBytes? start stop item with
  | some cs => .ok (String.ofList cs)
  | none => .error .brokenCharacter

/-- Read the limit that makes up the rest of an item; without one all levels are shown. -/
def limitFrom (item : List Char) (start : Nat) : Except FilterError (Option Level) := do
  let text ← slice item start (byteSize item)
  if text.isEmpty then return some .trace
  else match limit? text with
    | some limit => return limit
    | none => throw .malformed

/-- Read what stands behind the brackets of a span. -/
def behindSpan (item : List Char) (start : Nat) :
    List Char → Except FilterError (Option Level)
  | [] => .ok (some .trace)
  | '=' :: _ => limitFrom item (start + 1)
  | _ => .error .malformed

/-- Read the rest of an item behind the opening bracket of a span. -/
def spanFrom (item : List Char) (target : Option String) (start : Nat) (cs : List Char) :
    Except FilterError FilterItem := do
  let name := cs.takeWhile (fun c ↦ c ≠ ']' ∧ c ≠ '\x7b')
  let stop := start + byteSize name
  match cs.drop name.length with
  | [] => throw .malformed
  | ']' :: rest =>
    let span ← slice item start stop
    return ⟨target, some span, none, ← behindSpan item (stop + 1) rest⟩
  | _ :: rest =>
    let span ← slice item start stop
    let body := rest.takeWhile (· ≠ '\x7d')
    let bodyStop := stop + 1 + byteSize body
    match rest.drop body.length with
    | [] => throw .malformed
    | _ :: rest =>
      let text ← slice item (stop + 1) bodyStop
      if text.isEmpty then throw .malformed
      let field ← FieldPattern.ofText text
      match rest with
      | ']' :: rest =>
        let limit ← behindSpan item (bodyStop + 2) rest
        return ⟨target, if span.isEmpty then none else some span, some field, limit⟩
      | _ => throw .malformed

/-- Read an item. -/
def ofText (text : String) : Except FilterError FilterItem := do
  let item := text.toList
  match trimWhiteSpace item with
  | [] => throw .malformed
  | '[' :: rest => spanFrom item none 1 rest
  | c :: cs =>
    if !isFirst c then throw .malformed
    let front := (c :: cs).takeWhile (fun c ↦ c ≠ '=' ∧ c ≠ '[')
    let stop := byteSize front
    match (c :: cs).drop front.length with
    | '=' :: _ =>
      let target ← slice item 0 stop
      return ⟨some target, none, none, ← limitFrom item (stop + 1)⟩
    | '[' :: rest =>
      let target ← slice item 0 stop
      spanFrom item (some target) (stop + 1) rest
    | _ =>
      match limit? text with
      | some limit => return ⟨none, none, none, limit⟩
      | none => return ⟨some text, none, none, some .trace⟩

/-- The field that every line has. -/
def messageField : FieldPattern := ⟨"message", none⟩

/-- Whether an item speaks of the lines of a target.  No line stands in a span, and no line has a
field besides its message, whose value is not looked at. -/
def concerns (item : FilterItem) (target : String) : Bool :=
  item.target.all (·.isPrefixOf target) && item.span.isNone && item.field.all (· = messageField)

/-- Whether an item decides rather than another one before it, both speaking of one target. -/
def outweighs (i before : FilterItem) : Bool :=
  let size (i : FilterItem) : Nat := (i.target.map (·.length + 1)).getD 0
  size before < size i || size before = size i && (before.field.isNone || i.field.isSome)

end FilterItem

/-! ## Filters -/

/-- A filter for log lines. -/
structure LogFilter where
  /-- Its items. -/
  items : List FilterItem
  deriving DecidableEq, Repr

namespace LogFilter

/-- Read a filter; items of no characters are passed over. -/
def ofText (text : String) : Except FilterError LogFilter :=
  match ((text.splitOn ",").filter (· ≠ "")).mapM FilterItem.ofText with
  | .error e => .error e
  | .ok [] => .ok ⟨[⟨none, none, none, some .error⟩]⟩
  | .ok items => .ok ⟨items⟩

/-- The item that decides on a target, given the one that does so far. -/
def better (target : String) (before : Option FilterItem) (i : FilterItem) : Option FilterItem :=
  if i.concerns target ∧ before.all i.outweighs then some i else before

/-- The item that decides on a target. -/
def deciding? (filter : LogFilter) (target : String) : Option FilterItem :=
  filter.items.foldl (better target) none

/-- Whether a line is shown. -/
def shows (filter : LogFilter) (line : LogLine) : Bool :=
  match (filter.deciding? line.topic.target).bind FilterItem.limit with
  | some limit => line.level.rank ≤ limit.rank
  | none => false

end LogFilter

end PortGraph
