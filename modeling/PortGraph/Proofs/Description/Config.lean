import PortGraph.Description
import PortGraph.Proofs.Json.Decode

/-!
# Descriptions as configurations

A description that is read off a configuration made of one is that description again
(`GraphDescription.ofJson_toConfig`), with its payloads in canonical form and without those that are
null: null is read as an absent one.  The configurations of the nodes nest less deeply than that of
their graph (`GraphDescription.depth_lt_toConfig`).
-/

set_option autoImplicit false

namespace PortGraph

open Json

/-- The description with its payloads in canonical form. -/
def NodeDescription.canonical (d : NodeDescription) : NodeDescription :=
  { d with config := d.config.map Json.canonical, metadata := d.metadata.map Json.canonical }

/-- The description with the payloads of its nodes in canonical form. -/
def GraphDescription.canonical (d : GraphDescription) : GraphDescription :=
  { d with nodes := d.nodes.map NodeDescription.canonical }

/-- The description without payloads that are null. -/
def NodeDescription.definite (d : NodeDescription) : NodeDescription :=
  { d with config := d.config.filter (· ≠ .null), metadata := d.metadata.filter (· ≠ .null) }

/-- The description without payloads that are null. -/
def GraphDescription.definite (d : GraphDescription) : GraphDescription :=
  { d with nodes := d.nodes.map NodeDescription.definite }

/-- No payload of a node is null. -/
structure NodeDescription.IsDefinite (d : NodeDescription) : Prop where
  /-- Its configuration is not. -/
  config : d.config ≠ some .null
  /-- The data of the application is not. -/
  metadata : d.metadata ≠ some .null

theorem NodeDescription.IsDefinite.definite_eq_self {d : NodeDescription} (h : d.IsDefinite) :
    d.definite = d := by
  have hfilter : ∀ o : Option Json, o ≠ some .null → o.filter (· ≠ .null) = o := by
    intro o ho
    cases o with
    | none => rfl
    | some j => exact if_pos (by simpa using ho)
  rw [definite, hfilter _ h.config, hfilter _ h.metadata]

theorem GraphDescription.definite_eq_self {d : GraphDescription}
    (h : ∀ n ∈ d.nodes, n.IsDefinite) : d.definite = d := by
  have hnodes : d.nodes.map NodeDescription.definite = d.nodes :=
    (List.map_congr_left fun n hn ↦ (h n hn).definite_eq_self).trans (List.map_id _)
  rw [definite, hnodes]

/-! ## Payloads -/

/-- The payloads of a saved node. -/
def NodeDescription.payloads (d : NodeDescription) : List Json :=
  d.config.toList ++ d.metadata.toList

/-- The payloads of the nodes of a saved graph. -/
def GraphDescription.payloads (d : GraphDescription) : List Json :=
  d.nodes.flatMap NodeDescription.payloads

theorem NodeDescription.canonical_eq_self {d : NodeDescription}
    (h : ∀ j ∈ d.payloads, j.canonical = j) : d.canonical = d := by
  have hmap : ∀ o : Option Json, (∀ j ∈ o.toList, j.canonical = j) → o.map Json.canonical = o := by
    intro o ho
    cases o with
    | none => rfl
    | some j => exact congrArg some (ho j (List.mem_singleton_self j))
  obtain ⟨hconfig, hmetadata⟩ := List.forall_mem_append.mp h
  rw [canonical, hmap _ hconfig, hmap _ hmetadata]

theorem GraphDescription.canonical_eq_self {d : GraphDescription}
    (h : ∀ j ∈ d.payloads, j.canonical = j) : d.canonical = d := by
  have hnodes : d.nodes.map NodeDescription.canonical = d.nodes :=
    (List.map_congr_left fun n hn ↦ NodeDescription.canonical_eq_self fun j hj ↦
      h j (List.mem_flatMap_of_mem hn hj)).trans (List.map_id _)
  rw [canonical, hnodes]

theorem NodeDescription.mem_payloads_of_definite {d : NodeDescription} {j : Json}
    (h : j ∈ d.definite.payloads) : j ∈ d.payloads := by
  have hfilter : ∀ {o : Option Json}, j ∈ (o.filter (· ≠ .null)).toList → j ∈ o.toList := by
    intro o ho
    obtain ⟨rfl, -⟩ := Option.filter_eq_some_iff.mp (Option.mem_toList.mp ho)
    exact List.mem_singleton_self j
  rcases List.mem_append.mp h with h | h
  · exact List.mem_append_left _ (hfilter h)
  · exact List.mem_append_right _ (hfilter h)

theorem GraphDescription.mem_payloads_of_definite {d : GraphDescription} {j : Json}
    (h : j ∈ d.definite.payloads) : j ∈ d.payloads := by
  obtain ⟨n, hn, hj⟩ := List.mem_flatMap.mp h
  obtain ⟨n, hmem, rfl⟩ := List.mem_map.mp hn
  exact List.mem_flatMap_of_mem hmem (NodeDescription.mem_payloads_of_definite hj)

/-- The names of the fields that are written of a node. -/
theorem NodeDescription.map_fst_fields {α : Type} (text : String → α) (payload : Json → α)
    (d : NodeDescription) :
    ([("instance", text d.instanceName), ("model", text d.model)]
      ++ presentField "config" payload d.config
      ++ presentField "metadata" payload d.metadata).map Prod.fst =
    ["instance", "model"] ++ (if d.config.isSome then ["config"] else [])
      ++ (if d.metadata.isSome then ["metadata"] else []) := by
  have hpresent : ∀ (name : String) (o : Option Json),
      (presentField name payload o).map Prod.fst = if o.isSome then [name] else [] := by
    intro name o
    cases o <;> rfl
  rw [List.map_append, List.map_append, hpresent, hpresent]
  rfl

/-! ## Members in canonical form -/

/-- The members of a saved node, in the order of their names. -/
theorem NodeDescription.canonical_toJson (d : NodeDescription) : d.toJson.canonical =
    .object (presentField "config" Json.canonical d.config ++ [("instance", .string d.instanceName)]
      ++ presentField "metadata" Json.canonical d.metadata ++ [("model", .string d.model)]) := by
  obtain ⟨name, model, config | config, metadata | metadata⟩ := d <;>
    simp +decide only [toJson, presentField, Json.canonical, canonicalMembers, sortMembers,
      insertMember, List.foldl, List.cons_append, List.nil_append, List.append_nil, id, if_true,
      if_false]

/-- The members of a saved link, in the order of their names. -/
theorem LinkDescription.canonical_toJson (d : LinkDescription) : d.toJson.canonical =
    .object [("in_node", .string d.inNode), ("in_port", .string d.inPort),
      ("out_node", .string d.outNode), ("out_port", .string d.outPort)] := by
  simp +decide only [toJson, Json.canonical, canonicalMembers, sortMembers, insertMember,
    List.foldl, if_true, if_false]

/-- The members of a saved graph, in the order of their names. -/
theorem GraphDescription.toConfig_eq (d : GraphDescription) : d.toConfig =
    .object [("links", .array (d.links.map fun l ↦ l.toJson.canonical)), ("name", .string d.name),
      ("nodes", .array (d.nodes.map fun n ↦ n.toJson.canonical)),
      ("version", .int d.version.toNat)] := by
  simp +decide only [toConfig, toJson, Json.canonical, canonicalMembers, sortMembers, insertMember,
    List.foldl, canonicalItems_eq_map, List.map_map, Function.comp_def, if_true, if_false]

/-! ## Reading back -/

theorem NodeDescription.read_canonical (d : NodeDescription) :
    Json.Decoder.record (asRecord Json.Decoder) d.toJson.canonical = .ok d.definite.canonical := by
  rw [canonical_toJson]
  obtain ⟨name, model, config | config, metadata | metadata⟩ := d <;>
    simp [Json.Decoder.record, presentField, Json.Decoder.named, asRecord, Record.field?,
      Record.missing?, Field.mandatory, Field.defaulted, Functor.map, RecordReader.text,
      RecordReader.option, RecordReader.payload, Json.Decoder.text, Except.map, definite, canonical,
      Json.Decoder.option_payload]

theorem LinkDescription.read_canonical (d : LinkDescription) :
    Json.Decoder.record (asRecord Json.Decoder) d.toJson.canonical = .ok d := by
  rw [canonical_toJson]
  simp [Json.Decoder.record, Json.Decoder.named, asRecord, Record.field?, Record.missing?,
    Field.mandatory, Functor.map, RecordReader.text, Json.Decoder.text, Except.map]

/-- **A description is read back from the configuration made of it**, without payloads that are null
and with the others in canonical form. -/
theorem GraphDescription.ofJson_toConfig (d : GraphDescription) :
    ofJson d.toConfig = .ok d.definite.canonical := by
  have hlinks : (RecordReader.list (RecordReader.record (LinkDescription.asRecord Json.Decoder)) :
      Json.Decoder (List LinkDescription)) (.array (d.links.map fun l ↦ l.toJson.canonical)) =
        .ok d.links := by
    rw [← List.map_id d.links, List.map_map]
    exact Json.Decoder.items_map fun l _ ↦ l.read_canonical
  have hnodes : (RecordReader.list (RecordReader.record (NodeDescription.asRecord Json.Decoder)) :
      Json.Decoder (List NodeDescription)) (.array (d.nodes.map fun n ↦ n.toJson.canonical)) =
        .ok ((d.nodes.map NodeDescription.definite).map NodeDescription.canonical) := by
    rw [List.map_map]
    exact Json.Decoder.items_map fun n _ ↦ n.read_canonical
  have hname : (RecordReader.text : Json.Decoder String) (.string d.name) = .ok d.name := rfl
  have hversion :
      (RecordReader.word : Json.Decoder UInt32) (.int d.version.toNat) = .ok d.version :=
    Json.Decoder.word_toNat d.version
  have hfield : ∀ (name : String) (i : Nat) {f : Field Json.Decoder GraphDescription},
      (asRecord Json.Decoder).fields[i]? = some f → f.name = name →
      (asRecord Json.Decoder).field? name = some f :=
    fun name i f hf hname ↦ hname ▸ Json.Decoder.field?_of_getElem? (by decide) hf
  rw [toConfig_eq]
  change Json.Decoder.named (asRecord Json.Decoder) [] _ (asRecord Json.Decoder).blank = _
  rw [Json.Decoder.named_cons (hfield "links" 3 rfl rfl) (by decide)
      (Json.Decoder.read_defaulted hlinks _ _),
    Json.Decoder.named_cons (hfield "name" 1 rfl rfl) (by decide)
      (Json.Decoder.read_mandatory hname _ _),
    Json.Decoder.named_cons (hfield "nodes" 2 rfl rfl) (by decide)
      (Json.Decoder.read_defaulted hnodes _ _),
    Json.Decoder.named_cons (hfield "version" 0 rfl rfl) (by decide)
      (Json.Decoder.read_defaulted hversion _ _)]
  rfl

/-- Descriptions with the same canonical form make one configuration. -/
theorem GraphDescription.toConfig_canonical (d : GraphDescription) :
    d.canonical.toConfig = d.toConfig := by
  have hnode : ∀ n : NodeDescription, n.canonical.toJson.canonical = n.toJson.canonical := by
    intro n
    rw [NodeDescription.canonical_toJson, NodeDescription.canonical_toJson]
    obtain ⟨name, model, config | config, metadata | metadata⟩ := n <;>
      simp [presentField, NodeDescription.canonical, canonical_canonical]
  rw [toConfig_eq, toConfig_eq, canonical, List.map_map]
  simp only [Function.comp_def, hnode]

/-! ## Depth -/

theorem GraphDescription.depth_toConfig_pos (d : GraphDescription) : 0 < d.toConfig.depth := by
  rw [toConfig_eq, depth]
  exact Nat.succ_pos _

/-- **The configurations of nodes nest less deeply** than that of their graph. -/
theorem GraphDescription.depth_lt_toConfig {d : GraphDescription} {n : NodeDescription}
    (hn : n ∈ d.nodes) {config : Json} (hc : n.config = some config) :
    config.canonical.depth < d.toConfig.depth := by
  have hmember : config.canonical.depth < n.toJson.canonical.depth := by
    have hmem : ("config", config.canonical) ∈ presentField "config" Json.canonical (some config)
        ++ [("instance", .string n.instanceName)]
        ++ presentField "metadata" Json.canonical n.metadata ++ [("model", .string n.model)] := by
      simp [presentField]
    rw [NodeDescription.canonical_toJson, hc, depth]
    exact Nat.lt_succ_of_le (depth_le_membersDepth hmem)
  have hitem : n.toJson.canonical.depth ≤ itemsDepth (d.nodes.map fun n ↦ n.toJson.canonical) :=
    depth_le_itemsDepth (List.mem_map_of_mem hn)
  have hnodes : depth (.array (d.nodes.map fun n ↦ n.toJson.canonical)) < d.toConfig.depth := by
    have hmem : ("nodes", Json.array (d.nodes.map fun n ↦ n.toJson.canonical)) ∈
        [("links", .array (d.links.map fun l ↦ l.toJson.canonical)), ("name", .string d.name),
          ("nodes", .array (d.nodes.map fun n ↦ n.toJson.canonical)),
          ("version", .int d.version.toNat)] := by simp
    rw [toConfig_eq, depth.eq_def (.object _)]
    exact Nat.lt_succ_of_le (depth_le_membersDepth hmem)
  rw [depth] at hnodes
  omega

/-- What has a description as its configuration nests. -/
theorem GraphDescription.depth_pos_of_ofJson {j : Json} {d : GraphDescription}
    (h : ofJson j = .ok d) : 0 < j.depth := by
  cases j with
  | array | object => exact Nat.succ_pos _
  | _ => exact absurd h (by simp [ofJson, RecordReader.record, Decoder.record])

theorem NodeDescription.depth_le_of_record {j : Json} {n : NodeDescription}
    (h : Decoder.record (asRecord Decoder) j = .ok n) {config : Json} (hc : n.config = some config) :
    config.depth ≤ j.depth := by
  refine Decoder.record_induction (P := fun n ↦ ∀ c, n.config = some c → c.depth ≤ j.depth)
    (fun c hc ↦ absurd hc (by simp [asRecord])) (fun f hf j' hj' update hread n hn ↦ ?_) h config hc
  simp only [asRecord, List.mem_cons, List.not_mem_nil, or_false] at hf
  rcases hf with rfl | rfl | rfl | rfl <;> obtain ⟨x, hx, rfl⟩ := Decoder.map_eq_ok hread
  case inr.inr.inl =>
    rintro c rfl
    have hsame : j' = c := by
      cases j' with
      | null => exact absurd (Except.ok.inj hx) (by simp)
      | _ => exact Option.some.inj (Except.ok.inj hx)
    exact hsame ▸ Nat.le_of_lt hj'
  all_goals exact hn

/-- **The configurations of the nodes that are read nest less deeply** than that of their graph, whatever
it was written by. -/
theorem GraphDescription.depth_lt_of_ofJson {j : Json} {d : GraphDescription} (h : ofJson j = .ok d)
    {n : NodeDescription} (hn : n ∈ d.nodes) {config : Json} (hc : n.config = some config) :
    config.depth < j.depth := by
  refine Decoder.record_induction
    (P := fun d ↦ ∀ n ∈ d.nodes, ∀ c, n.config = some c → c.depth < j.depth)
    (fun n hn ↦ absurd hn (by simp [asRecord])) (fun f hf j' hj' update hread d hd ↦ ?_) h n hn
    config hc
  simp only [asRecord, List.mem_cons, List.not_mem_nil, or_false] at hf
  rcases hf with rfl | rfl | rfl | rfl <;> obtain ⟨x, hx, rfl⟩ := Decoder.map_eq_ok hread
  case inr.inr.inl =>
    intro n hn c hc
    cases j' with
    | array js =>
      obtain ⟨i, hi, hread⟩ := Decoder.forall_mem_of_items hx n hn
      have hle := NodeDescription.depth_le_of_record hread hc
      have hdeep := depth_le_itemsDepth hi
      rw [depth] at hj'
      omega
    | _ => exact absurd hx (by simp [RecordReader.list, Decoder.list])
  all_goals exact hd

end PortGraph
