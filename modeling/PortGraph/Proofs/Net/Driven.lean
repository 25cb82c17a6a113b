import PortGraph.Command.Run
import PortGraph.Proofs.Graph.Inputs
import PortGraph.Proofs.Net.Progress
import PortGraph.Proofs.Net.Stock

/-!
# Loaded nets run

A net that was loaded with the types that come with the library may be driven by its host: values
are put on its inputs, and it is compiled and executed, as often and in whichever order the host
likes (`Net.Driven`).  As long as the values are of the data types of the inputs, all that can go
wrong is found out when the net is compiled: if it compiles, no pass over it fails, after every pass
every output at every depth is filled, and a run from the command line succeeds
(`Net.runs_of_compile`).
-/

set_option autoImplicit false

namespace PortGraph

open PortGraph.Graph

/-- What becomes of a net when its host puts values of the right data types on its inputs, compiles
it and executes it. -/
inductive Net.Driven (g : Net) : Net → Prop
  /-- Nothing was done. -/
  | refl : Net.Driven g g
  /-- A packet was put on an input, unless the input has a link or there is none. -/
  | setInput {k : Net} {place : Endpoint} {packet : Packet} (h : Net.Driven g k)
      (typed : ∀ p, k.port? .input place = some p → packet.dataType = p.dataType) :
      Net.Driven g (k.setInput place packet).2
  /-- The net was compiled. -/
  | compile {k : Net} (h : Net.Driven g k) (stamp : Nat) : Net.Driven g (k.compile stamp).result.2
  /-- The net was executed. -/
  | execute {k : Net} (h : Net.Driven g k) (stamp : Nat) : Net.Driven g (k.execute stamp).result.2

/-! ## Defaults -/

/-- What the port falls back on is of its data type. -/
def Port.DefaultFits (p : Port) : Prop :=
  ∀ packet, p.default = some packet → packet.dataType = p.dataType

theorem Port.defaultFits_declared {p : Port} : p.declared.DefaultFits ↔ p.DefaultFits := by
  rw [DefaultFits, DefaultFits, declared_default, declared_dataType]
  cases p.default with
  | none => simp
  | some packet =>
    have hunstamped : packet.unstamped.dataType = packet.dataType := rfl
    simp [hunstamped]

theorem Operation.defaultFits_inputs (op : Operation) :
    ∀ p ∈ (op.inputs 0).result, p.DefaultFits := by
  cases op with
  | increment =>
    intro p hp packet hpacket
    rw [List.mem_singleton.mp hp] at hpacket ⊢
    rw [← Option.some.inj hpacket]
    rfl
  | _ => simp [Operation.inputs, inputOf, requiredInputOf, Port.require, Port.DefaultFits]

/-- What the inputs of a built-in node fall back on is of their data types. -/
theorem Node.IsBuiltin.defaultFits {n : Node Behaviour} (h : n.IsBuiltin) :
    ∀ p ∈ n.panel.inputs, p.DefaultFits := by
  induction h with
  | @operation n op _ h =>
    intro p hp
    have hmem : p.declared ∈ (op.inputs 0).result.map Port.declared :=
      h.inputs ▸ List.mem_map_of_mem hp
    obtain ⟨q, hq, hdeclared⟩ := List.mem_map.mp hmem
    rw [← Port.defaultFits_declared, ← hdeclared, Port.defaultFits_declared]
    exact op.defaultFits_inputs q hq
  | @nested n g inputs outputs _ h hb ih =>
    intro q hq
    obtain ⟨s, hs, p, hp, -, hdeclared⟩ := h.exists_open .input hq
    rw [← Port.defaultFits_declared, hdeclared]
    exact Port.defaultFits_declared.mpr (ih s hs p hp)

/-! ## Nets as their hosts have them -/

/-- **A net of built-in nodes as its host has it**: nothing feeds it from outside, and what can be
read off an input without a link is of the data type of the input. -/
structure Net.IsHosted (g : Net) : Prop where
  /-- It is coherent. -/
  coherent : g.Coherent
  /-- Its nodes are built-in. -/
  isBuiltin : g.IsBuiltin
  /-- Nothing feeds it from outside. -/
  isOutermost : g.IsOutermost
  /-- What can be read off inputs without links is of their data types. -/
  typed : ∀ e p, g.port? .input e = some p → p.isLinked = false →
    ∀ packet, p.data = some packet → packet.dataType = p.dataType

namespace Net

variable {g k : Net}

/-- The host has put no value on an input. -/
def IsUnfed (g : Net) : Prop :=
  ∀ s ∈ g.slots, ∀ p ∈ s.node.panel.inputs, p.isLinked = false → p.stored = none

theorem IsOutermost.congr (h : g.IsOutermost) (hk : through .form k = through .form g) :
    k.IsOutermost := by
  intro s hs p hp
  obtain ⟨s', hs', -, heq⟩ := exists_slot_of_form_eq hk hs
  have hexposed := Panel.map_eq_of_form_eq (f := Port.isExposed) (fun _ ↦ rfl)
    (Node.through_eq_iff.mp heq).1 .input
  have hmem : p.isExposed ∈ (s'.node.panel.ports .input).map Port.isExposed :=
    hexposed ▸ List.mem_map_of_mem hp
  obtain ⟨q, hq, hpq⟩ := List.mem_map.mp hmem
  exact hpq ▸ h s' hs' q hq

/-- **A net on whose inputs the host has put no values** is as hosts have nets. -/
theorem isHosted_of_isUnfed (hc : g.Coherent) (hb : g.IsBuiltin) (ho : g.IsOutermost)
    (hu : g.IsUnfed) : g.IsHosted where
  coherent := hc
  isBuiltin := hb
  isOutermost := ho
  typed e p hp hfree packet hpacket := by
    obtain ⟨s, hs, hmem, -⟩ := (coherent_iff.mp hc).1.exists_slot hp
    refine (hb s hs).defaultFits p hmem packet ?_
    have hdata := Port.data_of_free ((hb s hs).direction .input hmem) hfree (ho s hs p hmem)
    rw [hdata, hu s hs p hmem hfree] at hpacket
    exact hpacket

theorem isHosted_of_isStock (hc : g.Coherent) (h : Net.IsStock g) : g.IsHosted :=
  isHosted_of_isUnfed hc h.isBuiltin h.isOutermost fun s hs p hp _ ↦ h.isVacant s hs p hp

namespace IsHosted

/-- A ready net can be executed by its nodes, down to its depth. -/
theorem isLive (h : g.IsHosted) (hr : g.isReady = true) :
    g.IsLive (Behaviour.slotsDepth g.slots) :=
  ⟨h.coherent, hr, Nat.le_refl _, h.isBuiltin⟩

/-- All inputs without links are served once the net is ready. -/
theorem isServed (h : g.IsHosted) (hr : g.isReady = true) :
    ∀ s ∈ g.slots, ∀ p ∈ s.node.panel.inputs, p.isLinked = false → p.IsServed := by
  intro s hs p hp hfree
  have hwell := (h.isLive hr).wellLinked
  have hport := hwell.input?_of_mem hs hp
  refine ⟨h.typed _ p hport hfree, ?_⟩
  have hexposed := h.isOutermost s hs p hp
  rintro (hrequired | hlinked | hdefault)
  · -- a required input without a link keeps the net from being compiled
    obtain ⟨-, -, -, hnone, -⟩ := plan_eq_ok_iff.mp (h.isLive hr).plan
    have hsat := unsatisfied?_eq_none_iff.mp hnone s hs p hp hrequired
    rw [Port.isSatisfied, hfree, hexposed] at hsat
    exact absurd hsat (by simp)
  · exact absurd (hlinked.symm.trans hfree) (by simp)
  · rw [Port.data_of_free ((h.isBuiltin s hs).direction .input hp) hfree hexposed, Option.isSome_or,
      hdefault, Bool.or_true]

/-- **A pass over a net that is ready does not fail.** -/
theorem execute_filled (h : g.IsHosted) (hr : g.isReady = true) (stamp : Nat) :
    (Net.execute g stamp).result.1 = .ok () ∧ Net.IsFilled (Net.execute g stamp).result.2 :=
  (h.isLive hr).execute_filled (h.isServed hr) stamp

theorem setInput (h : g.IsHosted) {place : Endpoint} {packet : Packet}
    (typed : ∀ p, g.port? .input place = some p → packet.dataType = p.dataType) :
    Net.IsHosted (g.setInput place packet).2 := by
  have hwell := (coherent_iff.mp h.coherent).1
  rcases hwell.setInput_cases place packet with ⟨e, heq⟩ | ⟨-, heq⟩
  · rw [heq]
    exact h
  · have hform := form_eq_of_image_eq (image_modifyPort_store (T := Behaviour.through .form) g
      .input place (some packet))
    rw [heq]
    refine ⟨h.coherent.of_agrees (agrees_modifyPort_store g .input place (some packet))
      ((coherent_iff.mp h.coherent).2.2.modifyPort _ _ _), h.isBuiltin.congr hform,
      h.isOutermost.congr hform, fun e p hp hfree packet' hpacket ↦ ?_⟩
    rw [port?_modifyPort (f := fun p : Port ↦ p.store (some packet)) fun _ ↦ rfl] at hp
    split at hp
    · rename_i he
      obtain ⟨q, hq, rfl⟩ := Option.map_eq_some_iff.mp hp
      have hdata : (q.store (some packet)).data = some packet := by
        rw [Port.data, Port.store]
        cases q.direction <;> simp
      rw [hdata] at hpacket
      rw [← Option.some.inj hpacket]
      exact typed q hq
    · exact h.typed e p hp hfree packet' hpacket

theorem compile (h : g.IsHosted) (stamp : Nat) : Net.IsHosted (Net.compile g stamp).result.2 where
  coherent := (h.coherent.compileWith (Behaviour.keeps_life _) (Nat.le_succ _) stamp).1
  isBuiltin := h.isBuiltin.congr (form_compile _ g stamp)
  isOutermost := h.isOutermost.congr (form_compile _ g stamp)
  typed e p hp hfree := by
    have hinputs := inputs_compile (keepsInputs_life (Behaviour.slotsDepth g.slots + 1)) g stamp
    have hport : (Net.compile g stamp).result.2.port? .input e = g.port? .input e :=
      port?_of_inputs_eq hinputs e
    exact h.typed e p (hport ▸ hp) hfree

theorem execute (h : g.IsHosted) (stamp : Nat) : Net.IsHosted (Net.execute g stamp).result.2 := by
  cases hr : g.isReady with
  | false =>
    have hsame : (Net.execute g stamp).result.2 = g := by
      rw [Net.execute, Graph.execute, if_neg (by simp [hr])]
      rfl
    rw [hsame]
    exact h
  | true =>
    have hlive := h.isLive hr
    obtain ⟨k, hk⟩ : ∃ k, (Net.execute g stamp).result = (.ok (), k) :=
      ⟨_, Prod.ext (h.execute_filled hr stamp).1 rfl⟩
    have hlater := hlive.execute stamp
    have hform := form_execute (Behaviour.slotsDepth g.slots + 1) g stamp
    rw [show (Graph.execute (Behaviour.life (Behaviour.slotsDepth g.slots + 1)) g stamp).result =
      (.ok (), k) from hk] at hlater hform
    rw [hk]
    refine ⟨hlater.coherent, hlater.isBuiltin, h.isOutermost.congr hform, fun e p hp hfree ↦ ?_⟩
    exact h.typed e p (hlive.wellLinked.port?_of_execute hlive.plan hr (keepsOutline_life _)
      (keepsInputs_life _) (congrArg Prod.snd hk) hp hfree) hfree

end IsHosted

/-- A host keeps a net as hosts have nets, and its form. -/
theorem IsHosted.driven (h : g.IsHosted) (hk : g.Driven k) :
    k.IsHosted ∧ through .form k = through .form g := by
  induction hk with
  | refl => exact ⟨h, rfl⟩
  | @setInput k place packet _ typed ih =>
    refine ⟨ih.1.setInput typed, ?_⟩
    rcases (coherent_iff.mp ih.1.coherent).1.setInput_cases place packet with ⟨e, heq⟩ | ⟨-, heq⟩
    · rw [heq]
      exact ih.2
    · rw [heq, form_eq_of_image_eq (image_modifyPort_store k .input place (some packet)), ih.2]
  | compile _ stamp ih => exact ⟨ih.1.compile stamp, (form_compile _ _ stamp).trans ih.2⟩
  | execute _ stamp ih => exact ⟨ih.1.execute stamp, (form_execute _ _ stamp).trans ih.2⟩

theorem IsHosted.compile_verdict (h : g.IsHosted) (stamp : Nat) :
    (Net.compile g stamp).result.1 = g.verdict :=
  h.coherent.compile_verdict h.isBuiltin (Nat.le_refl _) stamp

theorem IsHosted.isReady_of_compile (h : g.IsHosted) {stamp : Nat}
    (hok : (Net.compile g stamp).result.1 = .ok ()) :
    (Net.compile g stamp).result.2.isReady = true :=
  Graph.isReady_of_compile (keepsOutline_life _) (coherent_iff.mp h.coherent).1 hok

/-- A net that compiles executes. -/
theorem IsHosted.exists_pass (h : g.IsHosted) {stamp : Nat}
    (hok : (Net.compile g stamp).result.1 = .ok ()) (stamp' : Nat) :
    ∃ k j, (Net.compile g stamp).result = (.ok (), k) ∧ (Net.execute k stamp').result = (.ok (), j) :=
  ⟨_, _, Prod.ext hok rfl,
    Prod.ext ((h.compile stamp).execute_filled (h.isReady_of_compile hok) stamp').1 rfl⟩

end Net

/-! ## Running from the command line -/

namespace Net

variable {g k : Net}

/-- A net that was executed is as hosts have nets, and ready again. -/
theorem IsHosted.of_execute (h : g.IsHosted) (hr : g.isReady = true) {stamp : Nat}
    (hok : (Net.execute g stamp).result = (.ok (), k)) : k.IsHosted ∧ k.isReady = true := by
  have hhosted := h.execute stamp
  have hready := (agrees_execute (keepsOutline_life (Behaviour.slotsDepth g.slots + 1)) g
    stamp).isReady
  rw [show (Graph.execute (Behaviour.life (Behaviour.slotsDepth g.slots + 1)) g stamp).result =
    (.ok (), k) from hok] at hready
  rw [hok] at hhosted
  exact ⟨hhosted, hready.trans hr⟩

/-- A run goes on with the net that its first pass leaves. -/
theorem passes_succ_of_ok {stamp : Nat} (hok : (Net.execute g stamp).result = (.ok (), k))
    (total left : Nat) : ∃ stamp', ((Command.passes total (left + 1) g).run stamp).result =
      ((Command.passes total left k).run stamp').result := by
  rw [Command.passes, Attempt.run_bind_of_ok (run_attempt_of_ok (congrArg Prod.fst hok)).1, hok]
  exact ⟨_, rfl⟩

/-- **No pass of a run fails.** -/
theorem IsHosted.passes (h : g.IsHosted) (hr : g.isReady = true) (total left stamp : Nat) :
    ∃ k, ((Command.passes total left g).run stamp).result = .ok k := by
  induction left generalizing g stamp with
  | zero => exact ⟨g, rfl⟩
  | succ left ih =>
    obtain ⟨k, hk⟩ : ∃ k, (Net.execute g stamp).result = (.ok (), k) :=
      ⟨_, Prod.ext (h.execute_filled hr stamp).1 rfl⟩
    obtain ⟨hhosted, hready⟩ := h.of_execute hr hk
    obtain ⟨stamp', hrun⟩ := passes_succ_of_ok hk total left
    rw [hrun]
    exact ih hhosted hready stamp'

/-- **A run succeeds** once the net compiled. -/
theorem IsHosted.runNet (h : g.IsHosted) {stamp : Nat}
    (hok : (Net.compile g stamp).result.1 = .ok ()) (iterations : Nat) :
    ((Command.runNet iterations g).run stamp).result = .ok () := by
  rw [Command.runNet, Attempt.run_bind_of_ok (run_attempt_of_ok hok).1]
  obtain ⟨k, hk⟩ := (h.compile stamp).passes (h.isReady_of_compile hok) iterations iterations _
  rw [Attempt.run_bind_of_ok (a := ()) rfl, Attempt.run_bind_of_ok hk]
  rfl

end Net

/-! ## Loaded nets -/

/-- The set of the types that come with the library. -/
theorem FactorySet.builtins_eq_ok (stamp : Nat) : (FactorySet.builtins.run stamp).result =
    .ok ⟨[⟨"nodeflow.builtins", builtinEntries⟩]⟩ := rfl

theorem FactorySet.isProbeless_builtins {set : FactorySet} {stamp : Nat}
    (h : (FactorySet.builtins.run stamp).result = .ok set) : set.IsProbeless := by
  obtain rfl := Except.ok.inj ((builtins_eq_ok stamp).symm.trans h)
  have hall : ∀ e ∈ builtinEntries, ∀ name plan, e.maker ≠ .probe name plan := by
    simp [builtinEntries, DataKind.all]
  simpa [IsProbeless] using hall

theorem Net.isStock_of_load {set : FactorySet} (hset : set.IsProbeless) {d : GraphDescription}
    {g : Net} {stamp : Nat} (h : ((Net.ofDescription set d).run stamp).result = .ok g) :
    Net.IsStock g :=
  isStock_of_ofDescription (fun _ _ _ ↦ FactorySet.isStock_of_createWithin hset _) h

theorem Net.isHosted_of_load {set : FactorySet} (hset : set.IsProbeless) {d : GraphDescription}
    {g : Net} {stamp : Nat} (h : ((Net.ofDescription set d).run stamp).result = .ok g) :
    g.IsHosted :=
  isHosted_of_isStock
    (coherent_of_ofDescription (fun _ _ _ ↦ FactorySet.isFresh_of_createWithin _ _) h)
    (isStock_of_load hset h)

/-- **A loaded net that compiles never fails when it is run.**  Whatever its host makes of it in the
meantime, it compiles again, every pass over it succeeds once it is ready, and after the pass every
output at every depth holds a value of its data type; and a run from the command line succeeds, for
any number of passes. -/
theorem Net.runs_of_compile {set : FactorySet} {d : GraphDescription} {g : Net}
    {stamp₀ stamp₁ stamp₂ : Nat} (hset : (FactorySet.builtins.run stamp₀).result = .ok set)
    (hg : ((Net.ofDescription set d).run stamp₁).result = .ok g)
    (hc : (g.compile stamp₂).result.1 = .ok ()) :
    (∀ k, g.Driven k →
      (∀ stamp, (k.compile stamp).result.1 = .ok ()) ∧
      (k.isReady = true → ∀ stamp, (k.execute stamp).result.1 = .ok () ∧
        (k.execute stamp).result.2.IsFilled)) ∧
    ∀ iterations stamp, ((Command.runNet iterations g).run stamp).result = .ok () := by
  have h := isHosted_of_load (FactorySet.isProbeless_builtins hset) hg
  have hverdict : ∀ k, g.Driven k → ∀ stamp, (k.compile stamp).result.1 = .ok () := by
    intro k hk stamp
    obtain ⟨hhosted, hform⟩ := h.driven hk
    have hshape := Net.through_after_eq (b := .shape) hform
    rw [Lens.shape_after_form] at hshape
    rw [hhosted.compile_verdict, verdict_congr hshape, ← h.compile_verdict stamp₂, hc]
  refine ⟨fun k hk ↦ ⟨hverdict k hk, fun hr ↦ (h.driven hk).1.execute_filled hr⟩,
    fun iterations stamp ↦ h.runNet (hverdict g .refl stamp) iterations⟩

/-! ## A number in a box -/

/-- A number, and a net that takes it in. -/
def sampleDescription : GraphDescription where
  name := "outer"
  nodes :=
    [⟨"number", "IntSource", some (.object [("value", .int 3)]), none⟩,
      ⟨"box", "Graph",
        some ({ name := "inner", nodes := [⟨"kept", "IntSink", none, none⟩] } :
          GraphDescription).toConfig, none⟩]
  links := [⟨"number", "to", "box", "from"⟩]

/-- Loading the description, with the types that come with the library. -/
def loadSample : Except GraphError Net :=
  ((Net.ofDescription ⟨[⟨"nodeflow.builtins", builtinEntries⟩]⟩ sampleDescription).run 0).result

theorem loadSample_ok : ∃ g, loadSample = .ok g ∧ (g.compile 0).result.1 = .ok () ∧
    (g.slots.any fun s ↦ s.node.inner?.isSome) = true := by
  have hall : (loadSample.toOption.any fun g ↦ (g.compile 0).result.1.isOk &&
      g.slots.any fun s ↦ s.node.inner?.isSome) = true := by
    decide +kernel
  cases hg : loadSample with
  | error e =>
    rw [hg] at hall
    exact absurd hall (by simp [Except.toOption])
  | ok g =>
    rw [hg] at hall
    obtain ⟨hok, hnested⟩ := (Bool.and_eq_true _ _).mp hall
    exact ⟨g, rfl, (exists_ok_of_isOk hok).elim fun _ h ↦ h, hnested⟩

theorem Net.runs_sample : ∃ g, loadSample = .ok g ∧
    (g.slots.any fun s ↦ s.node.inner?.isSome) = true ∧
    (∃ stamp, ((g.compile 0).result.2.execute stamp).result.2.IsFilled) ∧
    ∀ iterations stamp, ((Command.runNet iterations g).run stamp).result = .ok () := by
  obtain ⟨g, hg, hc, hnested⟩ := loadSample_ok
  obtain ⟨hdriven, hruns⟩ := runs_of_compile (FactorySet.builtins_eq_ok 0) hg hc
  have hhosted := isHosted_of_load (FactorySet.isProbeless_builtins (FactorySet.builtins_eq_ok 0)) hg
  have hfilled := ((hdriven _ (.compile .refl 0)).2 (hhosted.isReady_of_compile hc) 0).2
  exact ⟨g, hg, hnested, ⟨0, hfilled⟩, hruns⟩

end PortGraph
