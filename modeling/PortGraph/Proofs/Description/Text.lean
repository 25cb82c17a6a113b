import PortGraph.Proofs.Description.Config
import PortGraph.Proofs.Json.Text

/-!
# Descriptions as JSON texts

A description that is read from the JSON text written of it is that description again, without
payloads that are null (`GraphDescription.ofJsonText_toJsonText`).
-/

set_option autoImplicit false

namespace PortGraph

open Json Json.Reader

/-! ## Fields -/

theorem LinkDescription.reads_toJson (d : LinkDescription) (level levels : Nat) :
    Reads (TextReader.record (asRecord TextReader) (levels + 1)) (write level d.toJson).toList
      d := by
  have hnames : ["out_node", "out_port", "in_node", "in_port"].Nodup := by decide
  have hfields : List.Forall₂ (TextReader.ReadsMember (asRecord TextReader) (level + 1) levels)
      [("out_node", .string d.outNode), ("out_port", .string d.outPort),
        ("in_node", .string d.inNode), ("in_port", .string d.inPort)]
      [fun r ↦ { r with outNode := d.outNode }, fun r ↦ { r with outPort := d.outPort },
        fun r ↦ { r with inNode := d.inNode }, fun r ↦ { r with inPort := d.inPort }] :=
    .cons ⟨_, rfl, TextReader.reads_map _ (TextReader.reads_text d.outNode _ _)⟩ <|
    .cons ⟨_, rfl, TextReader.reads_map _ (TextReader.reads_text d.outPort _ _)⟩ <|
    .cons ⟨_, rfl, TextReader.reads_map _ (TextReader.reads_text d.inNode _ _)⟩ <|
    .cons ⟨_, rfl, TextReader.reads_map _ (TextReader.reads_text d.inPort _ _)⟩ .nil
  exact TextReader.reads_record hfields hnames rfl

/-- A payload that is present is read back, unless it is null. -/
theorem forall₂_presentField {R : Type} {record : Record TextReader R} {name : String}
    (set : Option Json → R → R)
    (hf : record.field? name =
      some (.defaulted name (RecordReader.option RecordReader.payload) set))
    {o : Option Json} {levels : Nat} (hdepth : ∀ j ∈ o.toList, j.depth ≤ levels)
    (h : ∀ j ∈ o.toList, ∀ x ∈ j.numbers, ReadsBack x) (level : Nat) :
    List.Forall₂ (TextReader.ReadsMember record level levels) (presentField name id o)
      (o.toList.map fun j ↦ set (((some j).filter (· ≠ .null)).map Json.canonical)) := by
  cases o with
  | none => exact .nil
  | some j =>
    have hj := List.mem_singleton_self j
    have hread := TextReader.reads_option level (hdepth j hj) (h j hj)
    exact .cons ⟨_, hf, TextReader.reads_map _ hread⟩ .nil

theorem NodeDescription.reads_toJson {d : NodeDescription} {levels : Nat}
    (hdepth : ∀ j ∈ d.payloads, j.depth ≤ levels)
    (h : ∀ j ∈ d.payloads, ∀ x ∈ j.numbers, ReadsBack x) (level : Nat) :
    Reads (TextReader.record (asRecord TextReader) (levels + 1)) (write level d.toJson).toList
      d.definite.canonical := by
  obtain ⟨hcdepth, hmdepth⟩ := List.forall_mem_append.mp hdepth
  obtain ⟨hc, hm⟩ := List.forall_mem_append.mp h
  have hfields : List.Forall₂ (TextReader.ReadsMember (asRecord TextReader) (level + 1) levels)
      ([("instance", .string d.instanceName), ("model", .string d.model)]
        ++ presentField "config" id d.config ++ presentField "metadata" id d.metadata)
      ([fun r ↦ { r with instanceName := d.instanceName }, fun r ↦ { r with model := d.model }]
        ++ d.config.toList.map (fun j r ↦
          { r with config := ((some j).filter (· ≠ .null)).map Json.canonical })
        ++ d.metadata.toList.map (fun j r ↦
          { r with metadata := ((some j).filter (· ≠ .null)).map Json.canonical })) := by
    refine List.rel_append (List.rel_append ?_ ?_) ?_
    · exact .cons ⟨_, rfl, TextReader.reads_map _ (TextReader.reads_text d.instanceName _ _)⟩ <|
        .cons ⟨_, rfl, TextReader.reads_map _ (TextReader.reads_text d.model _ _)⟩ .nil
    · refine forall₂_presentField (fun c (r : NodeDescription) ↦ { r with config := c }) ?_
        hcdepth hc _
      rfl
    · refine forall₂_presentField (fun m (r : NodeDescription) ↦ { r with metadata := m }) ?_
        hmdepth hm _
      rfl
  have hnames : ∀ config metadata : Bool,
      let names := ["instance", "model"] ++ (if config then ["config"] else []) ++
        (if metadata then ["metadata"] else [])
      names.Nodup ∧ (asRecord TextReader).missing? names.reverse = none := by decide
  obtain ⟨hnodup, hall⟩ := hnames d.config.isSome d.metadata.isSome
  rw [← map_fst_fields Json.string id d] at hnodup hall
  have hread := TextReader.reads_record hfields hnodup hall
  obtain ⟨name, model, config | config, metadata | metadata⟩ := d <;> exact hread

theorem GraphDescription.reads_toJson {d : GraphDescription} {levels : Nat}
    (hdepth : ∀ j ∈ d.payloads, j.depth ≤ levels)
    (h : ∀ j ∈ d.payloads, ∀ x ∈ j.numbers, ReadsBack x) (level : Nat) :
    Reads (TextReader.record (asRecord TextReader) (levels + 3)) (write level d.toJson).toList
      d.definite.canonical := by
  have hnames : ["version", "name", "nodes", "links"].Nodup := by decide
  have hnodes : Reads (TextReader.list (TextReader.record (NodeDescription.asRecord TextReader))
      (levels + 2)) (write (level + 1) (.array (d.nodes.map NodeDescription.toJson))).toList
      (d.nodes.map fun n ↦ n.definite.canonical) := by
    refine TextReader.reads_list fun n hn ↦ ⟨?_, ?_⟩
    · rw [NodeDescription.toJson, toList_write_object]
      exact ⟨_, _, rfl, by decide, by decide, by decide⟩
    · exact NodeDescription.reads_toJson (fun j hj ↦ hdepth j (List.mem_flatMap_of_mem hn hj))
        (fun j hj ↦ h j (List.mem_flatMap_of_mem hn hj)) _
  have hlinks : Reads (TextReader.list (TextReader.record (LinkDescription.asRecord TextReader))
      (levels + 2)) (write (level + 1) (.array (d.links.map LinkDescription.toJson))).toList
      (d.links.map id) := by
    refine TextReader.reads_list fun l _ ↦ ⟨?_, l.reads_toJson _ _⟩
    rw [LinkDescription.toJson, toList_write_object]
    exact ⟨_, _, rfl, by decide, by decide, by decide⟩
  have hfields : List.Forall₂
      (TextReader.ReadsMember (asRecord TextReader) (level + 1) (levels + 2))
      [("version", .int d.version.toNat), ("name", .string d.name),
        ("nodes", .array (d.nodes.map NodeDescription.toJson)),
        ("links", .array (d.links.map LinkDescription.toJson))]
      [fun r ↦ { r with version := d.version }, fun r ↦ { r with name := d.name },
        fun r ↦ { r with nodes := d.nodes.map fun n ↦ n.definite.canonical },
        fun r ↦ { r with links := d.links.map id }] :=
    .cons ⟨_, rfl, TextReader.reads_map _ (TextReader.reads_word d.version _ _)⟩ <|
    .cons ⟨_, rfl, TextReader.reads_map _ (TextReader.reads_text d.name _ _)⟩ <|
    .cons ⟨_, rfl, TextReader.reads_map _ hnodes⟩ <|
    .cons ⟨_, rfl, TextReader.reads_map _ hlinks⟩ .nil
  have hread := TextReader.reads_record hfields hnames rfl
  simpa [canonical, definite, Function.comp_def, toJson] using hread

/-! ## Depth -/

theorem NodeDescription.depth_lt_toJson {d : NodeDescription} {j : Json} (h : j ∈ d.payloads) :
    j.depth < d.toJson.depth := by
  have hmem : ∃ name, (name, j) ∈ [("instance", Json.string d.instanceName),
      ("model", .string d.model)] ++ presentField "config" id d.config ++
        presentField "metadata" id d.metadata := by
    rcases List.mem_append.mp h with h | h
    · exact ⟨"config", by simp [Option.mem_toList.mp h, presentField]⟩
    · exact ⟨"metadata", by simp [Option.mem_toList.mp h, presentField]⟩
  obtain ⟨name, hmem⟩ := hmem
  rw [toJson, depth]
  exact Nat.lt_succ_of_le (depth_le_membersDepth hmem)

/-- Three brackets stand around a payload. -/
theorem GraphDescription.depth_payload_le {d : GraphDescription} {j : Json} (h : j ∈ d.payloads) :
    j.depth + 3 ≤ d.toJson.depth := by
  obtain ⟨n, hn, hj⟩ := List.mem_flatMap.mp h
  have hnode := NodeDescription.depth_lt_toJson hj
  have hitem : n.toJson.depth ≤ itemsDepth (d.nodes.map NodeDescription.toJson) :=
    depth_le_itemsDepth (List.mem_map_of_mem hn)
  have hnodes : depth (.array (d.nodes.map NodeDescription.toJson)) < d.toJson.depth := by
    rw [toJson, depth.eq_def (.object _)]
    have hmem : ("nodes", Json.array (d.nodes.map NodeDescription.toJson)) ∈
        [("version", .int d.version.toNat), ("name", .string d.name),
          ("nodes", .array (d.nodes.map NodeDescription.toJson)),
          ("links", .array (d.links.map LinkDescription.toJson))] := by simp
    exact Nat.lt_succ_of_le (depth_le_membersDepth hmem)
  rw [depth] at hnodes
  omega

/-! ## Whole texts -/

theorem GraphDescription.ofJsonText_toJsonText {d : GraphDescription}
    (hdepth : d.toJson.depth ≤ maxLevels)
    (h : ∀ j ∈ d.payloads, ∀ x ∈ j.numbers, ReadsBack x) :
    ofJsonText d.toJsonText = .ok d.definite.canonical := by
  have hlevels : ∀ j ∈ d.payloads, j.depth ≤ maxLevels - 3 := by
    intro j hj
    have hle := depth_payload_le hj
    omega
  exact TextReader.run_eq_ok (GraphDescription.reads_toJson hlevels h 0)

theorem Json.IsStored.readsBack {j : Json} (h : j.IsStored)
    (hfloats : ∀ x, .float x ∈ j.numbers → ReadsBack (.float x)) :
    ∀ x ∈ j.numbers, ReadsBack x := by
  intro x hx
  rcases exists_of_mem_numbers hx with ⟨n, rfl⟩ | ⟨y, rfl⟩
  · exact readsBack_int (h.fitsInteger n hx)
  · exact hfloats y hx

/-- **JSON gives back the description it was made of**, without payloads that are null: as a value
always, and as a text if it nests no deeper than is read and its floats are read as they were
written.  Without a payload that is null it is the description itself. -/
theorem GraphDescription.json_gives_definite {d : GraphDescription}
    (h : ∀ j ∈ d.payloads, j.IsStored) :
    ofJson d.toConfig = .ok d.definite ∧
      (d.toJson.depth ≤ maxLevels →
        (∀ j ∈ d.payloads, ∀ x, .float x ∈ j.numbers →
          number (FloatLayout.json.writeFloat x).toList = .ok (.float x, [])) →
        ofJsonText d.toJsonText = .ok d.definite) ∧
      ((∀ n ∈ d.nodes, n.config ≠ some .null ∧ n.metadata ≠ some .null) → d.definite = d) := by
  have hcanonical : d.definite.canonical = d.definite :=
    canonical_eq_self fun j hj ↦ (h j (mem_payloads_of_definite hj)).canonical_eq
  refine ⟨?_, fun hdepth hfloats ↦ ?_, fun hdefinite ↦ ?_⟩
  · rw [ofJson_toConfig, hcanonical]
  · rw [ofJsonText_toJsonText hdepth fun j hj ↦ (h j hj).readsBack (hfloats j hj), hcanonical]
  · exact definite_eq_self fun n hn ↦ ⟨(hdefinite n hn).1, (hdefinite n hn).2⟩

/-- A saved graph with a payload of every sort, one of them null. -/
def GraphDescription.sampleCoded : GraphDescription where
  version := 7
  name := "tab\tand \"quote\""
  nodes := [
    { instanceName := "a\x01", model := "m", metadata := some .null,
      config := some (.object [("empty", .array []),
        ("list", .array [.int (-3), .float (.ofBits 0x3ff8000000000000), .bool true, .null]),
        ("text", .string "back\\slash\x1f")]) },
    { instanceName := "b", model := "m", config := some (.int 18446744073709551615) }]
  links := [⟨"a\x01", "out", "b", "in"⟩]

theorem GraphDescription.numbers_sampleCoded : ∀ j ∈ sampleCoded.payloads, ∀ x ∈ j.numbers,
    x = .int (-3) ∨ x = .float (.ofBits 0x3ff8000000000000) ∨ x = .int 18446744073709551615 := by
  decide

theorem GraphDescription.isStored_sampleCoded : ∀ j ∈ sampleCoded.payloads, j.IsStored := by
  have hcanonical : ∀ j ∈ sampleCoded.payloads, j.canonical = j := by decide
  refine fun j hj ↦ ⟨hcanonical j hj, fun n hn ↦ ?_⟩
  obtain ⟨⟨⟩⟩ | heq | ⟨⟨⟩⟩ := numbers_sampleCoded j hj _ hn
  · rfl
  · exact absurd heq (by simp)
  · rfl

theorem GraphDescription.eq_of_float_mem_sampleCoded {j : Json} (hj : j ∈ sampleCoded.payloads)
    {x : Float} (hx : .float x ∈ j.numbers) : x = .ofBits 0x3ff8000000000000 := by
  obtain heq | heq | heq := numbers_sampleCoded j hj _ hx
  · exact absurd heq (by simp)
  · exact Json.float.inj heq
  · exact absurd heq (by simp)

theorem GraphDescription.json_gives_sampleCoded :
    ofJson sampleCoded.toConfig = .ok sampleCoded.definite ∧
      ofJsonText sampleCoded.toJsonText = .ok sampleCoded.definite ∧
      sampleCoded.definite ≠ sampleCoded := by
  obtain ⟨hvalue, htext, -⟩ := json_gives_definite isStored_sampleCoded
  refine ⟨hvalue, htext (by decide) fun j hj x hx ↦ ?_, by decide⟩
  obtain rfl := eq_of_float_mem_sampleCoded hj hx
  decide +kernel

end PortGraph
