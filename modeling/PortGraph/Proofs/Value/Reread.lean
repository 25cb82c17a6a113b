import PortGraph.Node.Operation
import PortGraph.Proofs.Number.Overflow
import PortGraph.Proofs.Value.Config

/-!
# Configurations that are kept again

A node that was given a configuration is saved with one of its own, and whether this can be given to a
node again depends on the numbers of the first one.  Read as 32-bit floats, those that there is room for
lead to a configuration that says the same for good; all others become infinite and are kept as null,
which no node accepts (`Operation.Keeps.reread`, `refused_sampleHuge`).
-/

set_option autoImplicit false

namespace PortGraph

/-! ## Numbers in configurations -/

/-- The number that a JSON value is. -/
def Json.number? : Json → Option BinaryNumber
  | .int n => some (.ofInt n)
  | .float x => some (.ofFloat x)
  | _ => none

/-- The numbers that are read as 32-bit floats when data of a kind is read. -/
def DataKind.floats : DataKind → Json → List BinaryNumber
  | .scalar .float, j => j.number?.toList
  | .list .float, .array js => js.filterMap Json.number?
  | _, _ => []

/-- What a configuration of one field says of the field. -/
def Json.payload? (field : String) : Json → Option Json
  | .array [j] => some j
  | .object members => members.lookup field
  | _ => none

/-- A 32-bit float is read off any number. -/
theorem Element.decode_float_iff {j : Json} {x : Float32} :
    Element.float.decode j = .ok x ↔ ∃ n, j.number? = some n ∧ n.toFloat32 = x := by
  cases j with
  | int n => simp [decode, Json.Decoder.float32, Json.number?]
  | float y => simp [decode, Json.Decoder.float32, Json.number?, narrow]
  | _ => simp [decode, Json.Decoder.float32, Json.number?]

theorem Element.isFinite_items_iff {js : List Json} {xs : List Float32}
    (h : Json.Decoder.items Element.float.decode js = .ok xs) :
    xs.all Float32.isFinite = true ↔ ∀ n ∈ js.filterMap Json.number?, n.Fits .single := by
  induction js generalizing xs with
  | nil =>
    obtain rfl := Except.ok.inj h
    simp
  | cons j js ih =>
    rw [Json.Decoder.items] at h
    cases hx : Element.float.decode j with
    | error e =>
      rw [hx] at h
      exact absurd h (by simp)
    | ok x =>
      rw [hx] at h
      cases hrest : Json.Decoder.items Element.float.decode js with
      | error e =>
        rw [hrest] at h
        exact absurd h (by simp [Except.map])
      | ok rest =>
        rw [hrest] at h
        obtain rfl := Except.ok.inj h
        obtain ⟨n, hn, rfl⟩ := decode_float_iff.mp hx
        rw [List.all_cons, Bool.and_eq_true, ih hrest, n.isFinite_toFloat32_iff,
          List.filterMap_cons_some hn, List.forall_mem_cons]

/-- **Data that was read is finite just if there is room for its numbers.** -/
theorem DataKind.isFinite_iff_fits {k : DataKind} {j : Json} {x : k.Carrier}
    (h : k.decode j = .ok x) :
    k.isFinite x = true ↔ ∀ n ∈ k.floats j, n.Fits .single := by
  cases k with
  | bool => simp [isFinite, floats]
  | text => simp [isFinite, floats]
  | scalar e =>
    cases e with
    | int => simp [isFinite, Element.isFinite, floats]
    | float =>
      obtain ⟨n, hn, rfl⟩ := Element.decode_float_iff.mp h
      rw [floats, hn]
      simpa [isFinite, Element.isFinite] using n.isFinite_toFloat32_iff
  | list e =>
    cases e with
    | int => simp [isFinite, Element.isFinite, floats]
    | float =>
      cases j with
      | array js => exact Element.isFinite_items_iff h
      | _ => exact absurd h (by simp [decode, Json.Decoder.list])

/-! ## Numbers that are kept as null -/

/-- What is not finite is not when it is widened. -/
theorem isFinite_widen_eq_false {x : Float32} (h : x.isFinite = false) :
    (widen x).isFinite = false := by
  have hmagnitude : ¬ x.toBits.toNat % BinaryFormat.single.signWord <
      BinaryFormat.single.infinityWord := by
    rw [← isFinite_iff_magnitude_lt, h]
    simp
  have hinfinite : ∀ negative, (BinaryNumber.infinite negative).toFloat.isFinite = false := by
    intro negative
    cases negative <;> decide +kernel
  rw [widen, BinaryNumber.ofFloat32, BinaryNumber.ofWord]
  dsimp only
  rw [if_neg hmagnitude]
  split
  · exact hinfinite _
  · decide +kernel

/-- What a number that is not finite is refused for when it is read back. -/
theorem Element.decode_toJson_eq_error {e : Element} {x : e.Carrier} (h : e.isFinite x = false) :
    e.decode (e.toJson x) = .error (.invalidType .null "f32") := by
  cases e with
  | int => exact absurd h (by simp [isFinite])
  | float =>
    have hkept : Element.float.toJson x = .null :=
      if_neg (by rw [isFinite_widen_eq_false h]; simp)
    rw [hkept]
    rfl

/-- If some items are refused, all for one reason, then so is the sequence. -/
theorem Json.Decoder.items_map_eq_error {α γ : Type} {read : Json.Decoder α} {write : γ → Json}
    {e : ShapeError} {xs : List γ}
    (hall : ∀ x ∈ xs, (∃ a, read (write x) = .ok a) ∨ read (write x) = .error e)
    (hsome : ∃ x ∈ xs, read (write x) = .error e) : items read (xs.map write) = .error e := by
  induction xs with
  | nil => exact absurd hsome (by simp)
  | cons x xs ih =>
    obtain ⟨hx, hall⟩ := List.forall_mem_cons.mp hall
    rw [List.map_cons, items]
    rcases hx with ⟨a, ha⟩ | he
    · obtain ⟨y, hy, he⟩ := hsome
      rcases List.mem_cons.mp hy with rfl | hy
      · rw [ha] at he
        exact absurd he (by simp)
      · rw [ha, ih hall ⟨y, hy, he⟩]
        rfl
    · rw [he]

/-- **Data that is not finite is refused when it is read back.** -/
theorem DataKind.decode_toJson_eq_error {k : DataKind} {x : k.Carrier} (h : k.isFinite x = false) :
    k.decode (k.toJson x) = .error (.invalidType .null "f32") := by
  cases k with
  | bool => exact absurd h (by simp [isFinite])
  | text => exact absurd h (by simp [isFinite])
  | scalar e => exact Element.decode_toJson_eq_error h
  | list e =>
    have hsome : ∃ y ∈ x, e.isFinite y = false := by simpa [isFinite] using h
    refine Json.Decoder.items_map_eq_error (fun y _ ↦ ?_)
      (hsome.imp fun y hy ↦ ⟨hy.1, Element.decode_toJson_eq_error hy.2⟩)
    cases hy : e.isFinite y with
    | true => exact .inl ⟨y, Element.decode_toJson hy⟩
    | false => exact .inr (Element.decode_toJson_eq_error hy)

/-! ## Configurations of one field -/

namespace DataKind

variable {k : DataKind} {title field : String}

theorem field?_asRecord (k : DataKind) (title field name : String) :
    (k.asRecord title field).field? name =
      if field = name then some ⟨field, true, fun j ↦ (k.decode j).map fun x _ ↦ x⟩ else none := by
  by_cases h : field = name <;> simp [asRecord, Record.field?, h]

/-- Behind the field there is nothing that matters. -/
theorem named_asRecord_seen {members : List (String × Json)} {x y : k.Carrier}
    (h : Json.Decoder.named (k.asRecord title field) [field] members x = .ok y) : y = x := by
  induction members with
  | nil =>
    simp only [Json.Decoder.named, Record.missing?, asRecord] at h
    simpa [eq_comm] using h
  | cons member members ih =>
    obtain ⟨name, j⟩ := member
    rw [Json.Decoder.named, field?_asRecord] at h
    by_cases hname : field = name
    · rw [if_pos hname] at h
      simp [hname] at h
    · rw [if_neg hname] at h
      exact ih h

/-- What is read off an object is read off its member. -/
theorem named_asRecord {members : List (String × Json)} {blank x : k.Carrier}
    (h : Json.Decoder.named (k.asRecord title field) [] members blank = .ok x) :
    ∃ j, members.lookup field = some j ∧ k.decode j = .ok x := by
  induction members with
  | nil => exact absurd h (by simp [Json.Decoder.named, Record.missing?, asRecord])
  | cons member members ih =>
    obtain ⟨name, j⟩ := member
    rw [Json.Decoder.named, field?_asRecord] at h
    by_cases hname : field = name
    · subst hname
      rw [if_pos rfl] at h
      refine ⟨j, by simp, ?_⟩
      cases hj : k.decode j with
      | error e =>
        simp [hj, Except.map] at h
      | ok y =>
        simp only [hj, Except.map, List.contains_nil, Bool.false_eq_true, if_false] at h
        rw [named_asRecord_seen h]
    · rw [if_neg hname] at h
      obtain ⟨j', hj', hx⟩ := ih h
      refine ⟨j', ?_, hx⟩
      rw [List.lookup_cons, beq_eq_false_iff_ne.mpr hname]
      exact hj'

/-- **What is read off a configuration of one field** is what it says of the field. -/
theorem payload_of_asRecord {config : Json} {x : k.Carrier}
    (h : Json.Decoder.record (k.asRecord title field) config = .ok x) :
    ∃ j, config.payload? field = some j ∧ k.decode j = .ok x := by
  cases config with
  | object members => exact named_asRecord h
  | array js =>
    rw [Json.Decoder.record, asRecord] at h
    rcases js with _ | ⟨j, js⟩
    · exact absurd h (by simp [Json.Decoder.positional])
    · cases hj : k.decode j with
      | error e => simp [Json.Decoder.positional, hj, Except.map] at h
      | ok y =>
        -- nothing may follow the item
        rcases js with _ | ⟨j', js⟩
        · exact ⟨j, rfl, by simpa [Json.Decoder.positional, hj, Except.map] using h⟩
        · simp [Json.Decoder.positional, hj, Except.map] at h
  | _ => exact absurd h (by simp [Json.Decoder.record])

end DataKind

/-! ## Nodes that keep data -/

namespace Operation

/-- **The nodes that keep data**: in which field, of which kind, and what they do, given the data. -/
inductive Keeps : String → (k : DataKind) → (k.Carrier → Operation) → Prop
  /-- The value that is published. -/
  | source (k : DataKind) : Keeps "value" k (.source k)
  /-- The value that folding starts with. -/
  | folding (e : Element) (operator : e.Carrier → e.Carrier → e.Carrier) :
    Keeps "init" (.scalar e) (.folding e operator)

variable {field : String} {k : DataKind} {make : k.Carrier → Operation} {panel : Panel}

theorem Keeps.persisted (h : Keeps field k make) (x : k.Carrier) (panel : Panel) :
    (make x).persisted panel = .ok (some (.object [(field, k.toJson x)])) := by
  cases h <;> rfl

/-- Such a node takes over what is read off the configuration. -/
theorem Keeps.restore (h : Keeps field k make) : ∃ title, ∀ old panel config,
    (make old).restore panel config =
      ((Json.Decoder.record (k.asRecord title field) config).map make).mapError .config := by
  cases h with
  | source =>
    refine ⟨"SourceConfig", fun old panel config ↦ ?_⟩
    rw [Operation.restore]
    split <;> rename_i hread <;> rw [hread] <;> rfl
  | folding e operator =>
    refine ⟨"ReduceConfig", fun old panel config ↦ ?_⟩
    rw [Operation.restore]
    split <;> rename_i hread <;> rw [hread] <;> rfl

/-- **A configuration that was taken over is saved as one that can be taken over again**, by a node of the
same type, just if there is room for the numbers that it has: then that node keeps the same data, and is
saved as the same.  Otherwise it has a null where a number ought to be, and is refused for it. -/
theorem Keeps.reread (h : Keeps field k make) {old : k.Carrier} {config : Json} {op : Operation}
    (hr : (make old).restore panel config = .ok op) :
    ∃ x j kept, op = make x ∧ config.payload? field = some j ∧ k.decode j = .ok x ∧
      op.persisted panel = .ok (some kept) ∧
      ∀ make', Keeps field k make' → ∀ fresh panel',
        ((∀ n ∈ k.floats j, n.Fits .single) →
          (make' fresh).restore panel' kept = .ok (make' x) ∧
            (make' x).persisted panel' = .ok (some kept)) ∧
        (¬ (∀ n ∈ k.floats j, n.Fits .single) →
          (make' fresh).restore panel' kept = .error (.config (.invalidType .null "f32"))) := by
  obtain ⟨title, hrestore⟩ := h.restore
  rw [hrestore] at hr
  cases hread : Json.Decoder.record (k.asRecord title field) config with
  | error e =>
    rw [hread] at hr
    exact absurd hr (by simp [Except.map, Except.mapError])
  | ok x =>
    rw [hread] at hr
    obtain rfl := Except.ok.inj hr
    obtain ⟨j, hj, hx⟩ := DataKind.payload_of_asRecord hread
    refine ⟨x, j, _, rfl, hj, hx, h.persisted x panel, fun make' h' fresh panel' ↦ ?_⟩
    obtain ⟨title', hrestore'⟩ := h'.restore
    rw [hrestore', DataKind.record_asRecord, ← DataKind.isFinite_iff_fits hx, Bool.not_eq_true]
    refine ⟨fun hfinite ↦ ⟨?_, h'.persisted x panel'⟩, fun hinfinite ↦ ?_⟩
    · rw [DataKind.decode_toJson hfinite]
      rfl
    · rw [DataKind.decode_toJson_eq_error hinfinite]
      rfl

end Operation

/-- A source of floats, all of which are zero. -/
def sampleZero : Operation := .source (.scalar .float) 0

/-- The panel of `sampleZero`. -/
def sampleZeroPanel : Panel where
  name := "zero"
  typeName := sampleZero.typeName
  inputs := [Operation.inputOf "from" (.data (.scalar .float))]
  outputs := [sampleZero.output]

/-- A configuration with a number, and with a member that says nothing. -/
def sampleNoted : Json := .object [("note", .null), ("value", .int 7)]

/-- **A number that there is room for is kept again.** -/
theorem reread_sampleNoted :
    ∃ op kept, sampleZero.restore sampleZeroPanel sampleNoted = .ok op ∧
      op.persisted sampleZeroPanel = .ok (some kept) ∧
      sampleZero.restore sampleZeroPanel kept = .ok op := by
  have hr : sampleZero.restore sampleZeroPanel sampleNoted =
      .ok (.source (.scalar .float) (BinaryNumber.ofInt 7).toFloat32) := rfl
  obtain ⟨x, j, kept, hop, hj, -, hkept, hagain⟩ :=
    (Operation.Keeps.source (.scalar .float)).reread hr
  refine ⟨_, kept, hr, hkept, hop ▸ ((hagain _ (.source _) 0 sampleZeroPanel).1 fun n hn ↦ ?_).1⟩
  obtain rfl : Json.int 7 = j := Option.some.inj hj
  obtain rfl : n = .ofInt 7 := by simpa [DataKind.floats, Json.number?] using hn
  norm_num [BinaryNumber.ofInt, BinaryNumber.Fits, BinaryFormat.overflow, BinaryFormat.maxExponent,
    BinaryFormat.minExponent, BinaryFormat.single]

/-- A configuration with a number that 32-bit floats have no room for. -/
def sampleHuge : Json := .object [("value", .float (⟨false, 1, 39⟩ : Decimal).toFloat)]

/-- **A number that is too large is not kept.** -/
theorem refused_sampleHuge :
    ∃ op kept, sampleZero.restore sampleZeroPanel sampleHuge = .ok op ∧
      op.persisted sampleZeroPanel = .ok (some kept) ∧
      sampleZero.restore sampleZeroPanel kept = .error (.config (.invalidType .null "f32")) := by
  refine ⟨.source (.scalar .float) (narrow (⟨false, 1, 39⟩ : Decimal).toFloat), _, rfl, rfl, ?_⟩
  have hinfinite : (DataKind.scalar .float).isFinite
      (narrow (⟨false, 1, 39⟩ : Decimal).toFloat) = false := by decide +kernel
  rw [sampleZero, Operation.restore, DataKind.record_asRecord,
    DataKind.decode_toJson_eq_error hinfinite]

end PortGraph
