import PortGraph.Proofs.Net.Feeding

/-!
# What operations compute

An operation reads values off the inputs of its panel and publishes one on its output.
`Operation.compute` says which, in terms of the values alone, and `Operation.publication_value` that
it is what a node with the ports of the operation publishes.

* Panels whose inputs read alike (`Port.reading`) are told apart by no operation.
* If every input is served with a value of its data type, there is a result, and it is of the data
  type of the output (`Operation.compute_of_isServed`).
-/

set_option autoImplicit false

namespace PortGraph

open PortGraph.Graph

/-! ## Readings -/

/-- Whether a link ends at the port along which nothing arrived. -/
def Port.isStarved (p : Port) : Bool := p.isLinked && p.data.isNone

/-- What a node can tell of an input. -/
structure Reading where
  /-- How it was made. -/
  port : Port
  /-- The value that is read off it. -/
  value : Option Value
  /-- Whether nothing arrived along its link. -/
  isStarved : Bool

/-- What the node can tell of one of its inputs. -/
def Port.reading (p : Port) : Reading := ⟨p.declared, p.data.map Packet.value, p.isStarved⟩

/-- The value that is read off the input of a name. -/
def Panel.value? (panel : Panel) (name : String) : Option Value :=
  ((panel.port? .input name).bind Port.data).map Packet.value

/-- Whether nothing arrived along the link of the input of a name. -/
def Panel.isStarved (panel : Panel) (name : String) : Bool :=
  (panel.port? .input name).any Port.isStarved

/-- What can be told of the input of a name. -/
theorem Panel.reading?_eq (panel : Panel) (name : String) :
    (panel.port? .input name).map Port.reading =
      (panel.inputs.map Port.reading).find? (fun r ↦ r.port.name = name) := by
  rw [List.find?_map]
  rfl

section Congr

variable {panel panel' : Panel}

theorem Panel.value?_congr (h : panel'.inputs.map Port.reading = panel.inputs.map Port.reading)
    (name : String) : panel'.value? name = panel.value? name := by
  have hvalue : ∀ panel : Panel, panel.value? name =
      ((panel.port? .input name).map Port.reading).bind Reading.value := by
    intro panel
    rw [value?, Option.bind_map, Option.map_bind]
    rfl
  rw [hvalue, hvalue, reading?_eq, reading?_eq, h]

theorem Panel.isStarved_congr (h : panel'.inputs.map Port.reading = panel.inputs.map Port.reading)
    (name : String) : panel'.isStarved name = panel.isStarved name := by
  have hstarved : ∀ panel : Panel, panel.isStarved name =
      ((panel.port? .input name).map Port.reading).any Reading.isStarved := by
    intro panel
    rw [isStarved, Option.any_map]
    rfl
  rw [hstarved, hstarved, reading?_eq, reading?_eq, h]

end Congr

/-! ## Reading panels -/

namespace Panel

variable {panel : Panel} {name : String} {p : Port}

theorem value?_of_port? (hp : panel.port? .input name = some p) :
    panel.value? name = p.data.map Packet.value := by
  rw [value?, hp, Option.bind_some]

theorem isStarved_of_port? (hp : panel.port? .input name = some p) :
    panel.isStarved name = p.isStarved := by
  rw [isStarved, hp, Option.any_some]

theorem read_of_port? (hp : panel.port? .input name = some p) :
    panel.read .input name = match p.data with
      | some packet => .ok packet
      | none => .error (.noData (panel.endpoint name)) := by
  cases hd : p.data with
  | none => simp only [read, port, hp, hd]
  | some packet => simp only [read, port, hp, hd]

/-- What is read off an input, or that there is nothing. -/
theorem map_value_read (hp : panel.port? .input name = some p) :
    (panel.read .input name).map Packet.value = match panel.value? name with
      | some v => .ok v
      | none => .error (.noData (panel.endpoint name)) := by
  rw [read_of_port? hp, value?_of_port? hp]
  cases p.data <;> rfl

theorem readAs_eq (hp : panel.port? .input name = some p) (k : Kind) :
    panel.readAs .input name k = match panel.value? name with
      | none => .error (.noData (panel.endpoint name))
      | some v =>
        match v.as? k with
        | some x => .ok x
        | none => .error (.valueMismatch (panel.endpoint name) k.dataType v.dataType) := by
  rw [readAs, read_of_port? hp, value?_of_port? hp]
  cases p.data <;> rfl

theorem supplied?_eq (hp : panel.port? .input name = some p) (k : Kind) :
    panel.supplied? name k =
      if panel.isStarved name then .error (.noData (panel.endpoint name))
      else match panel.value? name with
        | none => .ok none
        | some v =>
          match v.as? k with
          | some x => .ok (some x)
          | none => .error (.valueMismatch (panel.endpoint name) k.dataType v.dataType) := by
  rw [supplied?, hp, Option.any_some, readAs?, readAs_eq hp, isStarved_of_port? hp,
    value?_of_port? hp, Port.isStarved]
  cases hd : p.data with
  | none => cases p.isLinked <;> rfl
  | some packet =>
    have hnot : (p.isLinked && (some packet).isNone) = false := by simp
    rw [hnot, if_neg Bool.false_ne_true, Option.map_some]
    dsimp only
    cases packet.value.as? k <;> cases p.isLinked <;> rfl

theorem toOption_read (hp : panel.port? .input name = some p) :
    (panel.read .input name).toOption.map Packet.value = panel.value? name := by
  rw [read_of_port? hp, value?_of_port? hp]
  cases p.data <;> rfl

theorem toOption_readAs (hp : panel.port? .input name = some p) (k : Kind) :
    (panel.readAs .input name k).toOption = (panel.value? name).bind (·.as? k) := by
  rw [readAs_eq hp]
  cases panel.value? name with
  | none => rfl
  | some v => dsimp only [Option.bind_some]; cases v.as? k <;> rfl

/-- An optional input gives nothing if nothing is there, unless a link should have brought it. -/
theorem toOption_supplied? (hp : panel.port? .input name = some p) (k : Kind) :
    (panel.supplied? name k).toOption =
      if panel.isStarved name then none
      else match panel.value? name with
        | none => some none
        | some v => (v.as? k).map some := by
  rw [supplied?_eq hp]
  split
  · rfl
  · cases panel.value? name with
    | none => rfl
    | some v => dsimp only; cases v.as? k <;> rfl

end Panel

/-! ## Computing -/

/-- The value of a publication. -/
def Publication.value : Publication → Value
  | .forwarded packet => packet.value
  | .computed v => v

@[simp] theorem Publication.value_packet (pub : Publication) (stamp : Nat) :
    (pub.packet stamp).result.value = pub.value := by
  cases pub <;> rfl

namespace Operation

/-- The argument on an optional input: none if nothing is there, no result if nothing came along its
link or what came is of another kind. -/
def optional (value? : String → Option Value) (isStarved : String → Bool) (name : String)
    (k : Kind) : Option (Option k.Carrier) :=
  if isStarved name then none
  else match value? name with
    | none => some none
    | some v => (v.as? k).map some

/-- **What an operation computes** of the values that its node reads. -/
def compute (op : Operation) (value? : String → Option Value) (isStarved : String → Bool) :
    Option Value :=
  match op with
  | .source k value => some ((value? "from").getD ⟨.data k, value⟩)
  | .sink _ => value? "from"
  | .unary k l f => ((value? "in").bind (·.as? k)).map fun x ↦ ⟨l, f x⟩
  | .binary k l m f => do
    let a ← (value? "a").bind (·.as? k)
    let b ← (value? "b").bind (·.as? l)
    return ⟨m, f a b⟩
  | .mapping e operator => do
    let f ← optional value? isStarved "f" (.mapping e)
    let xs ← (value? "in").bind (·.as? (.list e))
    return ⟨.list e, List.map (f.getD operator) xs⟩
  | .folding e operator init => do
    let f ← optional value? isStarved "f" (.folding e)
    let start ← optional value? isStarved "init" (.scalar e)
    let xs ← (value? "in").bind (·.as? (.list e))
    return ⟨.scalar e, List.foldl (f.getD operator) (start.getD init) xs⟩
  | .increment =>
    ((value? "in").bind (·.as? (.scalar .float))).map fun x ↦ ⟨.scalar .float, x + (1 : Float32)⟩

variable {op : Operation} {panel : Panel}

/-- The inputs of a node are those that its operation declares. -/
theorem Declares.exists_input (h : op.Declares panel) (name : String) {q : Port}
    (hq : Port.named? name ((op.inputs 0).result.map Port.declared) = some q) :
    ∃ p, panel.port? .input name = some p ∧ p ∈ panel.inputs ∧ p.declared = q := by
  rw [← h.inputs, Port.named?_map Port.declared_name, Option.map_eq_some_iff] at hq
  obtain ⟨p, hp, rfl⟩ := hq
  exact ⟨p, hp, (Port.mem_of_named? hp).1, rfl⟩

theorem Declares.exists_output (h : op.Declares panel) :
    ∃ p, panel.outputs = [p] ∧ p.declared = op.output := by
  have houtputs := h.outputs
  cases hout : panel.outputs with
  | nil => rw [hout] at houtputs; exact absurd houtputs (by simp)
  | cons p rest =>
    rw [hout, List.map_cons, List.cons.injEq, List.map_eq_nil_iff] at houtputs
    exact ⟨p, by rw [houtputs.2], houtputs.1⟩

/-- **A node with the ports of an operation publishes what the operation computes.** -/
theorem publication_value (h : op.Declares panel) :
    (op.publication panel).toOption.map Publication.value =
      op.compute panel.value? panel.isStarved := by
  have hbind : ∀ {α : Type} (x : Except GraphError α) (f : α → Except GraphError Publication),
      (x >>= f).toOption = x.toOption.bind fun a ↦ (f a).toOption := by
    intro α x f
    cases x <;> rfl
  -- an operation reads its inputs in their order, and the first that cannot be read settles it
  cases op with
  | source k value =>
    obtain ⟨p, hp, -⟩ := h.exists_input "from" rfl
    rw [publication, compute, Panel.read_of_port? hp, Panel.value?_of_port? hp]
    cases p.data <;> rfl
  | sink k =>
    obtain ⟨p, hp, -⟩ := h.exists_input "from" rfl
    rw [publication, compute, hbind, ← Panel.toOption_read hp]
    cases panel.read .input "from" <;> rfl
  | unary k l f =>
    obtain ⟨p, hp, -⟩ := h.exists_input "in" rfl
    rw [publication, compute, hbind, Panel.toOption_readAs hp]
    cases (panel.value? "in").bind (·.as? k) <;> rfl
  | binary k l m f =>
    obtain ⟨p, hp, -⟩ := h.exists_input "a" rfl
    obtain ⟨q, hq, -⟩ := h.exists_input "b" rfl
    simp only [publication, compute, hbind, Panel.toOption_readAs hp, Panel.toOption_readAs hq]
    cases (panel.value? "a").bind (·.as? k) <;> cases (panel.value? "b").bind (·.as? l) <;> rfl
  | mapping e operator =>
    obtain ⟨p, hp, -⟩ := h.exists_input "in" rfl
    obtain ⟨q, hq, -⟩ := h.exists_input "f" rfl
    simp only [publication, compute, optional, hbind, Panel.toOption_readAs hp,
      Panel.toOption_supplied? hq]
    rw [Option.map_bind]
    refine congrArg (Option.bind _) (funext fun f ↦ ?_)
    cases (panel.value? "in").bind (·.as? (.list e)) <;> rfl
  | folding e operator init =>
    obtain ⟨p, hp, -⟩ := h.exists_input "in" rfl
    obtain ⟨q, hq, -⟩ := h.exists_input "f" rfl
    obtain ⟨r, hr, -⟩ := h.exists_input "init" rfl
    simp only [publication, compute, optional, hbind, Panel.toOption_readAs hp,
      Panel.toOption_supplied? hq, Panel.toOption_supplied? hr]
    rw [Option.map_bind]
    refine congrArg (Option.bind _) (funext fun f ↦ ?_)
    rw [Function.comp_apply, Option.map_bind]
    refine congrArg (Option.bind _) (funext fun start ↦ ?_)
    cases (panel.value? "in").bind (·.as? (.list e)) <;> rfl
  | increment =>
    obtain ⟨p, hp, -⟩ := h.exists_input "in" rfl
    rw [publication, compute, hbind, Panel.toOption_readAs hp]
    cases (panel.value? "in").bind (·.as? (.scalar .float)) <;> rfl

/-- **Executing an operation** fails and changes nothing if it computes nothing; otherwise its
output holds what it computes. -/
theorem execute_spec (h : op.Declares panel) (stamp : Nat) :
    (op.compute panel.value? panel.isStarved = none ∧
      ∃ e, (op.execute panel stamp).result = (.error e, panel)) ∨
    ∃ packet, op.compute panel.value? panel.isStarved = some packet.value ∧
      (op.execute panel stamp).result =
        (.ok (), { panel with outputs := panel.outputs.map (·.store (some packet)) }) := by
  rw [← publication_value h]
  obtain ⟨p, hout, hp⟩ := h.exists_output
  have hname : p.name = op.output.name := congrArg (·.name) hp
  have hport : panel.port? .output op.output.name = some p := by
    rw [Panel.port?, Panel.ports, hout, Port.named?, List.find?_cons_of_pos (by simpa using hname)]
  cases hpub : op.publication panel with
  | error e =>
    refine .inl ⟨rfl, .graph e, ?_⟩
    rw [execute, hpub]
    rfl
  | ok pub =>
    refine .inr ⟨(pub.packet stamp).result, by rw [Publication.value_packet]; rfl, ?_⟩
    rw [execute, hpub]
    simp only [Act.bind_apply, Panel.publish, Panel.port, hport]
    have hmodify : panel.modifyPort .output op.output.name
        (·.store (some (pub.packet stamp).result)) =
        { panel with outputs := panel.outputs.map (·.store (some (pub.packet stamp).result)) } := by
      rw [Panel.modifyPort, Panel.ports, hout, Port.modifyNamed, if_pos hname]
      rfl
    rw [hmodify]
    rfl

/-- **Nodes with one operation publish the same value, or fail for the same reason**, if they have
one name and read the same. -/
theorem map_value_publication {panel' : Panel} (h : op.Declares panel) (h' : op.Declares panel')
    (hname : panel'.name = panel.name)
    (hread : panel'.inputs.map Port.reading = panel.inputs.map Port.reading) :
    (op.publication panel').map Publication.value = (op.publication panel).map Publication.value := by
  have hplace : panel'.endpoint = panel.endpoint := by
    funext name
    rw [Panel.endpoint, Panel.endpoint, hname]
  have hvalue : ∀ name, panel'.value? name = panel.value? name := Panel.value?_congr hread
  have hstarved : ∀ name, panel'.isStarved name = panel.isStarved name := Panel.isStarved_congr hread
  -- what is read off an input of the operation
  have hinput : ∀ (name : String) {q : Port},
      Port.named? name ((op.inputs 0).result.map Port.declared) = some q →
      (panel'.read .input name).map Packet.value = (panel.read .input name).map Packet.value ∧
      (∀ k, panel'.readAs .input name k = panel.readAs .input name k) ∧
      ∀ k, panel'.supplied? name k = panel.supplied? name k := by
    intro name q hq
    obtain ⟨p, hp, -⟩ := h.exists_input name hq
    obtain ⟨p', hp', -⟩ := h'.exists_input name hq
    refine ⟨?_, fun k ↦ ?_, fun k ↦ ?_⟩
    · rw [Panel.map_value_read hp, Panel.map_value_read hp', hvalue, hplace]
    · rw [Panel.readAs_eq hp, Panel.readAs_eq hp', hvalue, hplace]
    · rw [Panel.supplied?_eq hp, Panel.supplied?_eq hp', hvalue, hstarved, hplace]
  cases op with
  | source k value =>
    obtain ⟨hfrom, -⟩ := hinput "from" rfl
    rw [publication, publication]
    cases hr : panel.read .input "from" <;> cases hr' : panel'.read .input "from" <;>
      rw [hr, hr'] at hfrom
    · obtain rfl := Except.error.inj hfrom
      rfl
    · exact absurd hfrom (by simp [Except.map])
    · exact absurd hfrom (by simp [Except.map])
    · exact congrArg Except.ok (Except.ok.inj hfrom)
  | sink k =>
    obtain ⟨hfrom, -⟩ := hinput "from" rfl
    have hpublish : ∀ panel : Panel, ((sink k).publication panel).map Publication.value =
        (panel.read .input "from").map Packet.value := by
      intro panel
      rw [publication]
      cases panel.read .input "from" <;> rfl
    rw [hpublish, hpublish, hfrom]
  | unary k l f => rw [publication, publication, (hinput "in" rfl).2.1]
  | binary k l m f =>
    rw [publication, publication, (hinput "a" rfl).2.1, (hinput "b" rfl).2.1]
  | mapping e operator =>
    rw [publication, publication, (hinput "in" rfl).2.1, (hinput "f" rfl).2.2]
  | folding e operator init =>
    rw [publication, publication, (hinput "in" rfl).2.1, (hinput "f" rfl).2.2,
      (hinput "init" rfl).2.2]
  | increment => rw [publication, publication, (hinput "in" rfl).2.1]

/-- Executing an operation fails if there is nothing to publish, for that reason. -/
theorem execute_fst (h : op.Declares panel) (stamp : Nat) :
    (op.execute panel stamp).result.1 =
      ((op.publication panel).map fun _ ↦ ()).mapError NodeError.graph := by
  rcases hpub : op.publication panel with e | pub
  · rw [execute, hpub]
    rfl
  · rcases op.execute_spec h stamp with ⟨hnone, -⟩ | ⟨packet, -, heq⟩
    · rw [← publication_value h, hpub] at hnone
      exact absurd hnone (by simp [Except.toOption])
    · rw [heq]
      rfl

end Operation

/-! ## Served inputs -/

/-- What is read off an input is of its data type, and there is something to read unless the input
may do without. -/
structure Port.IsServed (p : Port) : Prop where
  /-- What is read off it is of its data type. -/
  typed : ∀ packet, p.data = some packet → packet.dataType = p.dataType
  /-- There is something to read if it must be supplied, is linked or has a default. -/
  present : p.isRequired = true ∨ p.isLinked = true ∨ p.default.isSome = true →
    p.data.isSome = true

namespace Operation

variable {op : Operation} {panel : Panel}

/-- The argument on a served input. -/
theorem Declares.value?_of_isServed (h : op.Declares panel) (hs : ∀ p ∈ panel.inputs, p.IsServed)
    (name : String) (k : Kind) {isRequired : Bool} {default : Option Packet}
    (hq : Port.named? name ((op.inputs 0).result.map Port.declared) =
      some { name, direction := .input, dataType := k.dataType, isRequired, default }) :
    panel.isStarved name = false ∧
      ((panel.value? name = none ∧ isRequired = false ∧ default = none) ∨
        ∃ x, panel.value? name = some ⟨k, x⟩) := by
  obtain ⟨p, hp, hmem, hdeclared⟩ := h.exists_input name hq
  have htype : p.dataType = k.dataType := congrArg Port.dataType hdeclared
  have hrequired : p.isRequired = isRequired := congrArg Port.isRequired hdeclared
  have hdefault : p.default.map Packet.unstamped = default := congrArg (·.default) hdeclared
  rw [Panel.isStarved_of_port? hp, Panel.value?_of_port? hp, Port.isStarved]
  cases hd : p.data with
  | none =>
    have hnot := mt (hs p hmem).present (by simp [hd])
    simp only [not_or, Bool.not_eq_true, Option.isSome_eq_false_iff, Option.isNone_iff_eq_none]
      at hnot
    obtain ⟨hr, hl, hn⟩ := hnot
    exact ⟨by simp [hl], .inl ⟨rfl, hrequired ▸ hr, by rw [← hdefault, hn]; rfl⟩⟩
  | some packet =>
    have hkind : packet.value.kind = k :=
      Kind.dataType_inj (((hs p hmem).typed packet hd).trans htype)
    obtain ⟨x, hx⟩ := Option.isSome_iff_exists.mp (Value.isSome_as?_iff.mpr hkind)
    exact ⟨by simp, .inr ⟨x, congrArg some (Value.as?_eq_some_iff.mp hx)⟩⟩

/-- **If every input is served, there is a result, and it is of the data type of the output.** -/
theorem compute_of_isServed (h : op.Declares panel) (hs : ∀ p ∈ panel.inputs, p.IsServed) :
    ∃ v, op.compute panel.value? panel.isStarved = some v ∧ v.dataType = op.output.dataType := by
  -- an argument that must be there
  have hneed : ∀ (name : String) (k : Kind) {isRequired : Bool} {default : Option Packet},
      Port.named? name ((op.inputs 0).result.map Port.declared) = some
        { name, direction := .input, dataType := k.dataType, isRequired, default } →
      (isRequired = true ∨ default.isSome = true) → ∃ x, panel.value? name = some ⟨k, x⟩ := by
    intro name k isRequired default hq hmust
    obtain ⟨-, ⟨-, rfl, rfl⟩ | hx⟩ := h.value?_of_isServed hs name k hq
    · exact absurd hmust (by simp)
    · exact hx
  -- an argument that may be there
  have hmay : ∀ (name : String) (k : Kind) {isRequired : Bool} {default : Option Packet},
      Port.named? name ((op.inputs 0).result.map Port.declared) = some
        { name, direction := .input, dataType := k.dataType, isRequired, default } →
      ∃ x, optional panel.value? panel.isStarved name k = some x := by
    intro name k isRequired default hq
    obtain ⟨hfed, ⟨hnone, -⟩ | ⟨x, hx⟩⟩ := h.value?_of_isServed hs name k hq
    · exact ⟨none, by simp [optional, hfed, hnone]⟩
    · exact ⟨some x, by simp [optional, hfed, hx]⟩
  cases op with
  | source k value =>
    obtain ⟨-, ⟨hx, -⟩ | ⟨x, hx⟩⟩ := h.value?_of_isServed hs "from" (.data k) rfl
    · exact ⟨⟨.data k, value⟩, by simp [compute, hx], rfl⟩
    · exact ⟨⟨.data k, x⟩, by simp [compute, hx], rfl⟩
  | sink k =>
    obtain ⟨x, hx⟩ := hneed "from" (.data k) rfl (.inl rfl)
    exact ⟨_, hx, rfl⟩
  | unary k l f =>
    obtain ⟨x, hx⟩ := hneed "in" k rfl (.inl rfl)
    exact ⟨⟨l, f x⟩, by simp [compute, hx], rfl⟩
  | binary k l m f =>
    obtain ⟨x, hx⟩ := hneed "a" k rfl (.inl rfl)
    obtain ⟨y, hy⟩ := hneed "b" l rfl (.inl rfl)
    exact ⟨⟨m, f x y⟩, by simp [compute, hx, hy], rfl⟩
  | mapping e operator =>
    obtain ⟨xs, hxs⟩ := hneed "in" (.list e) rfl (.inl rfl)
    obtain ⟨f, hf⟩ := hmay "f" (.mapping e) rfl
    exact ⟨⟨.list e, xs.map (f.getD operator)⟩, by simp [compute, hxs, hf], rfl⟩
  | folding e operator init =>
    obtain ⟨xs, hxs⟩ := hneed "in" (.list e) rfl (.inl rfl)
    obtain ⟨f, hf⟩ := hmay "f" (.folding e) rfl
    obtain ⟨start, hstart⟩ := hmay "init" (.scalar e) rfl
    exact ⟨⟨.scalar e, xs.foldl (f.getD operator) (start.getD init)⟩,
      by simp [compute, hxs, hf, hstart], rfl⟩
  | increment =>
    obtain ⟨x, hx⟩ := hneed "in" (.scalar .float) rfl (.inr rfl)
    exact ⟨⟨.scalar .float, x + 1⟩, by simp [compute, hx], rfl⟩

end Operation

end PortGraph
