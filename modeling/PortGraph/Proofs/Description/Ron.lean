import PortGraph.Proofs.Description.Text
import PortGraph.Proofs.Ron.Text

/-!
# Descriptions as RON texts

A description that is read from the RON text written of it is that description again, also where a
payload is null (`GraphDescription.ron_gives_back`), if the text is written at all and nests no
deeper than is read.
-/

set_option autoImplicit false

namespace PortGraph

open Ron.Reader Ron.TextReader

theorem LinkDescription.reads_toRon (d : LinkDescription) (level budget : Nat) :
    Reads (Ron.TextReader.record (asRecord Ron.TextReader) { budget := budget + 2 })
      (Ron.write level d.toRon).toList d := by
  have hnames : ["out_node", "out_port", "in_node", "in_port"].Nodup ∧
      ∀ s ∈ ["out_node", "out_port", "in_node", "in_port"], IsName s := by decide +kernel
  have hfields : List.Forall₂
      (Ron.TextReader.ReadsField (asRecord Ron.TextReader) (level + 1) budget)
      [("out_node", .text d.outNode), ("out_port", .text d.outPort),
        ("in_node", .text d.inNode), ("in_port", .text d.inPort)]
      [fun r ↦ { r with outNode := d.outNode }, fun r ↦ { r with outPort := d.outPort },
        fun r ↦ { r with inNode := d.inNode }, fun r ↦ { r with inPort := d.inPort }] :=
    .cons ⟨begins_text _ _, _, rfl, reads_map _ (reads_text d.outNode _ _)⟩ <|
    .cons ⟨begins_text _ _, _, rfl, reads_map _ (reads_text d.outPort _ _)⟩ <|
    .cons ⟨begins_text _ _, _, rfl, reads_map _ (reads_text d.inNode _ _)⟩ <|
    .cons ⟨begins_text _ _, _, rfl, reads_map _ (reads_text d.inPort _ _)⟩ .nil
  exact reads_record hfields hnames.2 hnames.1 rfl

/-- A field that is present is read back. -/
theorem forall₂_someField {R α β : Type} {record : Record Ron.TextReader R} {name : String}
    {read : Ron.TextReader β} {toRon : α → Ron} {back : α → β} (set : Option β → R → R)
    (hf : record.field? name = some (.defaulted name (RecordReader.option read) set)) {o : Option α}
    {level budget : Nat} (h : ∀ a ∈ o.toList, Begins (Ron.write level (toRon a)).toList ∧
      Reads (read { budget }) (Ron.write level (toRon a)).toList (back a)) :
    List.Forall₂ (ReadsField record level (budget + 1))
      (presentField name (fun a ↦ .some (toRon a)) o)
      (o.toList.map fun a ↦ set (some (back a))) := by
  cases o with
  | none => exact .nil
  | some a =>
    obtain ⟨hbegins, hreads⟩ := h a (List.mem_singleton_self a)
    exact .cons ⟨begins_some _ _, _, hf, reads_map _ (reads_option hbegins hreads)⟩ .nil

/-- **A payload that is present is read back in canonical form.** -/
theorem forall₂_payloadField {R : Type} {record : Record Ron.TextReader R} {name : String}
    (set : Option Json → R → R)
    (hf : record.field? name =
      some (.defaulted name (RecordReader.option RecordReader.payload) set))
    {o : Option Json} {budget : Nat} (hb : ∀ j ∈ o.toList, (Ron.ofJson j).nesting ≤ budget)
    (h : ∀ j ∈ o.toList, ∀ x ∈ j.numbers, ReadsBack x) (level : Nat) :
    List.Forall₂ (ReadsField record level (budget + 1))
      (presentField name (fun j ↦ .some (.ofJson j)) o)
      (o.toList.map fun j ↦ set (some j.canonical)) :=
  forall₂_someField set hf fun j hj ↦
    ⟨begins_write (h j hj) level, reads_write j level budget { budget } (hb j hj) (h j hj)⟩

theorem NodeDescription.reads_toRon {d : NodeDescription} {budget : Nat}
    (hb : ∀ j ∈ d.payloads, (Ron.ofJson j).nesting ≤ budget)
    (h : ∀ j ∈ d.payloads, ∀ x ∈ j.numbers, ReadsBack x) (level : Nat) :
    Reads (Ron.TextReader.record (asRecord Ron.TextReader) { budget := budget + 3 })
      (Ron.write level d.toRon).toList d.canonical := by
  obtain ⟨hcb, hmb⟩ := List.forall_mem_append.mp hb
  obtain ⟨hc, hm⟩ := List.forall_mem_append.mp h
  have hfields : List.Forall₂ (ReadsField (asRecord Ron.TextReader) (level + 1) (budget + 1))
      ([("instance", .text d.instanceName), ("model", .text d.model)]
        ++ presentField "config" (fun j ↦ .some (.ofJson j)) d.config
        ++ presentField "metadata" (fun j ↦ .some (.ofJson j)) d.metadata)
      ([fun r ↦ { r with instanceName := d.instanceName }, fun r ↦ { r with model := d.model }]
        ++ d.config.toList.map (fun j r ↦ { r with config := some j.canonical })
        ++ d.metadata.toList.map (fun j r ↦ { r with metadata := some j.canonical })) := by
    refine List.rel_append (List.rel_append ?_ ?_) ?_
    · exact .cons ⟨begins_text _ _, _, rfl, reads_map _ (reads_text d.instanceName _ _)⟩ <|
        .cons ⟨begins_text _ _, _, rfl, reads_map _ (reads_text d.model _ _)⟩ .nil
    · refine forall₂_payloadField (fun c (r : NodeDescription) ↦ { r with config := c }) ?_ hcb hc _
      rfl
    · refine forall₂_payloadField (fun m (r : NodeDescription) ↦ { r with metadata := m }) ?_ hmb hm _
      rfl
  have hnames : ∀ config metadata : Bool,
      let names := ["instance", "model"] ++ (if config then ["config"] else []) ++
        (if metadata then ["metadata"] else [])
      names.Nodup ∧ (∀ s ∈ names, IsName s) ∧
        (asRecord Ron.TextReader).missing? names.reverse = none := by decide +kernel
  obtain ⟨hnodup, hidentifiers, hall⟩ := hnames d.config.isSome d.metadata.isSome
  rw [← map_fst_fields Ron.text (fun j ↦ .some (.ofJson j)) d] at hnodup hidentifiers hall
  have hread := reads_record hfields hidentifiers hnodup hall
  obtain ⟨name, model, config | config, metadata | metadata⟩ := d <;> exact hread

theorem GraphDescription.reads_toRon {d : GraphDescription} {budget : Nat}
    (hb : ∀ j ∈ d.payloads, (Ron.ofJson j).nesting ≤ budget)
    (h : ∀ j ∈ d.payloads, ∀ x ∈ j.numbers, ReadsBack x) (level : Nat) :
    Reads (Ron.TextReader.record (asRecord Ron.TextReader) { budget := budget + 7 })
      (Ron.write level d.toRon).toList d.canonical := by
  have hnames : ["version", "name", "nodes", "links"].Nodup ∧
      ∀ s ∈ ["version", "name", "nodes", "links"], IsName s := by decide +kernel
  have hnodes : Reads (Ron.TextReader.list
      (Ron.TextReader.record (NodeDescription.asRecord Ron.TextReader)) { budget := budget + 5 })
      (Ron.write (level + 1) (.list (d.nodes.map NodeDescription.toRon))).toList
      (d.nodes.map NodeDescription.canonical) := by
    refine reads_list fun n hn ↦ ⟨begins_fields _ _, ?_⟩
    exact NodeDescription.reads_toRon (fun j hj ↦ hb j (List.mem_flatMap_of_mem hn hj))
      (fun j hj ↦ h j (List.mem_flatMap_of_mem hn hj)) _
  have hlinks : Reads (Ron.TextReader.list
      (Ron.TextReader.record (LinkDescription.asRecord Ron.TextReader)) { budget := budget + 5 })
      (Ron.write (level + 1) (.list (d.links.map LinkDescription.toRon))).toList
      (d.links.map id) :=
    reads_list fun l _ ↦ ⟨begins_fields _ _, l.reads_toRon _ _⟩
  have hfields : List.Forall₂ (ReadsField (asRecord Ron.TextReader) (level + 1) (budget + 5))
      [("version", .int d.version.toNat), ("name", .text d.name),
        ("nodes", .list (d.nodes.map NodeDescription.toRon)),
        ("links", .list (d.links.map LinkDescription.toRon))]
      [fun r ↦ { r with version := d.version }, fun r ↦ { r with name := d.name },
        fun r ↦ { r with nodes := d.nodes.map NodeDescription.canonical },
        fun r ↦ { r with links := d.links.map id }] :=
    .cons ⟨begins_int _ _, _, rfl, reads_map _ (reads_word d.version _ _)⟩ <|
    .cons ⟨begins_text _ _, _, rfl, reads_map _ (reads_text d.name _ _)⟩ <|
    .cons ⟨begins_list _ _, _, rfl, reads_map _ hnodes⟩ <|
    .cons ⟨begins_list _ _, _, rfl, reads_map _ hlinks⟩ .nil
  have hread := reads_record hfields hnames.2 hnames.1 rfl
  simpa [canonical, toRon] using hread

/-! ## Nesting -/

theorem NodeDescription.nesting_payload_le {d : NodeDescription} {j : Json} (h : j ∈ d.payloads) :
    (Ron.ofJson j).nesting + 3 ≤ d.toRon.nesting := by
  have hmem : ∃ name, (name, Ron.some (.ofJson j)) ∈ [("instance", Ron.text d.instanceName),
      ("model", .text d.model)] ++ presentField "config" (fun j ↦ .some (.ofJson j)) d.config ++
        presentField "metadata" (fun j ↦ .some (.ofJson j)) d.metadata := by
    rcases List.mem_append.mp h with h | h
    · exact ⟨"config", by simp [Option.mem_toList.mp h, presentField]⟩
    · exact ⟨"metadata", by simp [Option.mem_toList.mp h, presentField]⟩
  obtain ⟨name, hmem⟩ := hmem
  have hlt := Ron.nesting_lt_entriesNesting hmem
  rw [Ron.nesting] at hlt
  rw [toRon, Ron.nesting]
  exact Nat.succ_le_succ hlt

/-- Seven brackets, elements and marks are open around a payload. -/
theorem GraphDescription.nesting_payload_le {d : GraphDescription} {j : Json}
    (h : j ∈ d.payloads) : (Ron.ofJson j).nesting + 7 ≤ d.toRon.nesting := by
  obtain ⟨n, hn, hj⟩ := List.mem_flatMap.mp h
  have hnode := NodeDescription.nesting_payload_le hj
  have helement : n.toRon.nesting < Ron.elementsNesting (d.nodes.map NodeDescription.toRon) :=
    Ron.nesting_lt_elementsNesting (List.mem_map_of_mem hn)
  have hmem : ("nodes", Ron.list (d.nodes.map NodeDescription.toRon)) ∈
      [("version", .int d.version.toNat), ("name", .text d.name),
        ("nodes", .list (d.nodes.map NodeDescription.toRon)),
        ("links", .list (d.links.map LinkDescription.toRon))] := by simp
  have hnodes := Ron.nesting_lt_entriesNesting hmem
  rw [Ron.nesting] at hnodes
  rw [toRon, Ron.nesting]
  omega

/-! ## Whole texts -/

/-- **RON gives back the description it was made of**, whatever its payloads, if its text is written
at all, nests no deeper than is read, and the floats in it are read as they were written. -/
theorem GraphDescription.ron_gives_back {d : GraphDescription} (h : ∀ j ∈ d.payloads, j.IsStored)
    {t : String} (ht : d.toRonText? = some t)
    (hnesting : d.toRon.nesting ≤ ({} : Ron.Context).budget)
    (hfloats : ∀ j ∈ d.payloads, ∀ x, .float x ∈ j.numbers →
      number (FloatLayout.plain.writeFloat x).toList = .ok (.float x, [])) :
    ofRonText t = .ok d := by
  have hnumbers : ∀ j ∈ d.payloads, ∀ x ∈ j.numbers, ReadsBack x := by
    intro j hj x hx
    rcases Json.exists_of_mem_numbers hx with ⟨n, rfl⟩ | ⟨y, rfl⟩
    · exact readsBack_int ((h j hj).fitsInteger n hx)
    · exact readsBack_float (hfloats j hj y hx)
  have hbudget : ∀ j ∈ d.payloads, (Ron.ofJson j).nesting ≤ 121 := by
    intro j hj
    have hle : (Ron.ofJson j).nesting + 7 ≤ 128 := (nesting_payload_le hj).trans hnesting
    omega
  have hcanonical : d.canonical = d := canonical_eq_self fun j hj ↦ (h j hj).canonical_eq
  have hread := GraphDescription.reads_toRon hbudget hnumbers 0
  rw [hcanonical] at hread
  obtain ⟨blanks, -, hbegins⟩ := exists_blanks_fields 0 [("version", .int d.version.toNat),
    ("name", .text d.name), ("nodes", .list (d.nodes.map NodeDescription.toRon)),
    ("links", .list (d.links.map LinkDescription.toRon))]
  rw [toRonText?, Ron.toText?] at ht
  split at ht
  · obtain rfl := Option.some.inj ht
    exact run_eq_ok hbegins hread
  · exact absurd ht (by simp)

theorem GraphDescription.ron_gives_sampleCoded :
    ∃ t, sampleCoded.toRonText? = some t ∧ ofRonText t = .ok sampleCoded := by
  have ht : sampleCoded.toRonText? = some (Ron.write 0 sampleCoded.toRon) := by
    rw [toRonText?, Ron.toText?, if_pos (by decide)]
  refine ⟨_, ht, ron_gives_back isStored_sampleCoded ht (by decide) fun j hj x hx ↦ ?_⟩
  obtain rfl := eq_of_float_mem_sampleCoded hj hx
  decide +kernel

end PortGraph
