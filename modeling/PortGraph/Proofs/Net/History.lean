import PortGraph.Proofs.Net.Fits
import PortGraph.Proofs.Net.Reachable

/-!
# What nodes have been called for

`Net.History` goes through the nets that come about once more, and keeps a chronicle of the calls that
each of their nodes has received, however deep.  A node takes its calls along when it is given a new
name, taken out, put back or wrapped up with the net around it (`Node.History`), and so every net that
comes about has a history (`Net.Reachable.exists_history`).

In every history the calls on a node are bracketed (`lifecycle_bracketed`): a node is initialised while
it is not, executed and destroyed while it is, and it shows that it is initialised just then.  When it
is taken out, or its net is cleared or thrown away, nothing is left to be given back.
-/

set_option autoImplicit false

namespace PortGraph

open PortGraph.Graph
open PortGraph.Event (callsAtAll)

/-! ## Nodes take their places -/

namespace Request

/-- The name that a request asks for, and the chronicle of the node that is to bear it: `new` if the
host brings the node along. -/
def incoming (new c : Chronicle) : Request Behaviour → Option (String × Chronicle)
  | .addNode n => some (n.name, new)
  | .createNode d => some (d.instanceName, fun _ ↦ [])
  | .renameNode old name => some (name, fun path ↦ c (old :: path))
  | _ => none

/-- The chronicle of a net after a request, but for the calls that are made meanwhile.  A name that
another node bears is refused. -/
def carry (r : Request Behaviour) (g : Net) (new c : Chronicle) : Chronicle :=
  match r.incoming new c with
  | some (name, node) => if g.contains name then c else c.put name node
  | none => c

end Request

/-! ## Histories -/

mutual

/-- The nets that come about, with the calls on their nodes. -/
inductive Net.History : Net → Chronicle → Prop
  /-- A new net is empty. -/
  | empty (name : String) (factories : FactorySet) :
      Net.History { name, factories } fun _ ↦ []
  /-- A net was made of a description. -/
  | described {factories : FactorySet} {d : GraphDescription} {stamp : Nat} {g : Net}
      (h : ((Net.ofDescription factories d).run stamp).result = .ok g) :
      Net.History g (callsAtAll ((Net.ofDescription factories d).run stamp).events)
  /-- The host asked for something.  The id of a link is new. -/
  | step {g : Net} {c new : Chronicle} {stamp : Nat} (r : Request Behaviour) (h : Net.History g c)
      (hnode : ∀ n, r = .addNode n → Node.History n new)
      (hfresh : ∀ source target, r = .addLink source target →
        ∀ l ∈ g.links, l.id ≠ (Act.newLinkId stamp).result) :
      Net.History (r.perform g.life FactorySet.createNode g stamp).result fun path ↦
        r.carry g new c path ++
          callsAtAll (r.perform g.life FactorySet.createNode g stamp).events path
  /-- The net was saved. -/
  | saved {g : Net} {c : Chronicle} (file : String) (stamp : Nat) (h : Net.History g c) :
      Net.History (g.markSaved file stamp).result fun path ↦
        c path ++ callsAtAll (g.markSaved file stamp).events path
  /-- It is in a node of a net that came about. -/
  | inner {g k : Net} {c : Chronicle} {s : Slot Behaviour} {inputs outputs : List Endpoint}
      (h : Net.History g c) (hs : s ∈ g.slots) (hb : s.node.behaviour = .nested k inputs outputs) :
      Net.History k fun path ↦ c (s.key :: path)
  /-- The node that holds it fed one of its inputs. -/
  | fed {g k : Net} {c : Chronicle} {place : Endpoint} {packet : Option Packet}
      (h : Net.History g c) (hk : g.feed place packet = .ok k) : Net.History k c

/-- The nodes that a host has to add, with the calls on them and on those inside. -/
inductive Node.History : Node Behaviour → Chronicle → Prop
  /-- A new node that holds no net. -/
  | plain {n : Node Behaviour} (hp : n.panel.IsFresh) (hn : n.inner? = none) :
      Node.History n fun _ ↦ []
  /-- A node that holds a net. -/
  | wrapped {g : Net} {c : Chronicle} {name : String} {stamp : Nat} {n : Node Behaviour}
      (h : Net.History g c) (hn : ((Net.wrap name g).run stamp).result = .ok n) :
      Node.History n (Chronicle.within fun path ↦
        c path ++ callsAtAll ((Net.wrap name g).run stamp).events path)
  /-- A node that was made by factories. -/
  | created {factories : FactorySet} {d : NodeDescription} {stamp : Nat} {n : Node Behaviour}
      (hn : ((factories.createNode d).run stamp).result = .ok n) :
      Node.History n (callsAtAll ((factories.createNode d).run stamp).events)
  /-- A node that was taken out of a net. -/
  | removed {g : Net} {c : Chronicle} {name : String} {stamp : Nat} {n : Node Behaviour}
      (h : Net.History g c) (hn : (g.removeNode name stamp).result.1 = .ok n) :
      Node.History n fun path ↦
        c (name :: path) ++ callsAtAll (g.removeNode name stamp).events (name :: path)
  /-- Such a node, whatever else the host wrote on its panel. -/
  | written {n m : Node Behaviour} {c : Chronicle} (h : Node.History n c) (hp : m.panel.IsFresh)
      (hb : m.behaviour = n.behaviour) : Node.History m c

end

mutual

/-- A net that has a history came about. -/
theorem Net.History.reachable : ∀ {g : Net} {c : Chronicle}, g.History c → g.Reachable
  | _, _, .empty name factories => .empty name factories
  | _, _, .described h => .described h
  | _, _, .step r h hnode hfresh =>
    .step r h.reachable (fun n hr ↦ (hnode n hr).offered) hfresh
  | _, _, .saved file stamp h => .saved file stamp h.reachable
  | _, _, .inner h hs hb => .inner h.reachable hs hb
  | _, _, .fed h hk => .fed h.reachable hk

/-- A node that has a history is one that a host has to add. -/
theorem Node.History.offered : ∀ {n : Node Behaviour} {c : Chronicle}, n.History c → n.Offered
  | _, _, .plain hp hn => .plain hp hn
  | _, _, .wrapped h hn => .wrapped h.reachable hn
  | _, _, .created hn => .created hn
  | _, _, .removed h hn => .removed h.reachable hn
  | _, _, .written h hp hb => .written h.offered hp hb

end

mutual

/-- **Every net that comes about has a history.** -/
theorem Net.Reachable.exists_history : ∀ {g : Net}, g.Reachable → ∃ c, g.History c
  | _, .empty name factories => ⟨_, .empty name factories⟩
  | _, .described h => ⟨_, .described h⟩
  | _, .step r h hnode hfresh => by
    obtain ⟨c, hc⟩ := h.exists_history
    have hall : ∀ n, r = .addNode n → ∃ new, n.History new := fun n hr ↦ (hnode n hr).exists_history
    have hnew : ∃ new, ∀ n, r = .addNode n → n.History new := by
      cases r with
      | addNode n => exact (hall n rfl).imp fun new hn m hm ↦ Request.addNode.inj hm ▸ hn
      | _ => exact ⟨fun _ ↦ [], fun n hr ↦ absurd hr (by simp)⟩
    obtain ⟨new, hnew⟩ := hnew
    exact ⟨_, .step r hc hnew hfresh⟩
  | _, .saved file stamp h => by
    obtain ⟨c, hc⟩ := h.exists_history
    exact ⟨_, .saved file stamp hc⟩
  | _, .inner h hs hb => by
    obtain ⟨c, hc⟩ := h.exists_history
    exact ⟨_, .inner hc hs hb⟩
  | _, .fed h hk => by
    obtain ⟨c, hc⟩ := h.exists_history
    exact ⟨_, .fed hc hk⟩

/-- So has every node that a host has to add. -/
theorem Node.Offered.exists_history : ∀ {n : Node Behaviour}, n.Offered → ∃ c, n.History c
  | _, .plain hp hn => ⟨_, .plain hp hn⟩
  | _, .wrapped h hn => by
    obtain ⟨c, hc⟩ := h.exists_history
    exact ⟨_, .wrapped hc hn⟩
  | _, .created hn => ⟨_, .created hn⟩
  | _, .removed h hn => by
    obtain ⟨c, hc⟩ := h.exists_history
    exact ⟨_, .removed hc hn⟩
  | _, .written h hp hb => by
    obtain ⟨c, hc⟩ := h.exists_history
    exact ⟨_, .written hc hp hb⟩

end

/-! ## Every history -/

/-- **Whatever is asked of a net, the calls on its nodes fit what becomes of them.** -/
theorem Net.Coherent.fits_perform {g : Net} (h : g.Coherent) (r : Request Behaviour)
    {c new : Chronicle} (hc : c.Fits (flagAt g)) (hnew : ∀ n, r = .addNode n → new.Fits n.flagAt)
    (stamp : Nat) :
    Chronicle.Fits (fun path ↦ r.carry g new c path ++
      callsAtAll (r.perform g.life FactorySet.createNode g stamp).events path)
      (flagAt (r.perform g.life FactorySet.createNode g stamp).result) := by
  obtain ⟨hg, hcached, -⟩ := coherent_iff.mp h
  have hb := Behaviour.brackets_life (Behaviour.slotsDepth g.slots + 1)
  have hk := keepsOutline_life (Behaviour.slotsDepth g.slots + 1)
  have hq := Behaviour.keeps_life (Behaviour.slotsDepth g.slots + 1)
  have hall : g.Every (Behaviour.SoundAt (Behaviour.slotsDepth g.slots + 1)) :=
    h.everyAt (Nat.le_succ _)
  cases r with
  | addNode n =>
    simp only [Request.perform, Act.bind_apply, Act.pure_apply, List.append_nil]
    exact fits_addNode n hc (hnew n rfl)
  | createNode d =>
    simp only [Request.perform, Act.bind_apply, Act.pure_apply, List.append_nil]
    exact fits_createNode d hc
  | removeNode name =>
    simp only [Request.perform, Act.bind_apply, Act.pure_apply, List.append_nil]
    exact fits_removeNode hg name hc
  | renameNode old name => exact (fits_renameNode hg old name hc).quiet fun _ ↦ rfl
  | compile =>
    simp only [Request.perform, Act.bind_apply, Act.pure_apply, List.append_nil]
    exact hc.tracks (tracks_compile hb hk hq hg hall stamp)
  | execute =>
    simp only [Request.perform, Act.bind_apply, Act.pure_apply, List.append_nil]
    exact hc.tracks (tracks_execute hb hk hq hg hcached hall stamp)
  | release => exact hc.tracks (tracks_release hb hg hall stamp)
  | clear =>
    simp only [Request.perform, Act.bind_apply, Act.pure_apply, List.append_nil]
    exact fits_clear hc
  | _ => exact fits_of_isLinking hg trivial hc

mutual

/-- **The calls on every node of a net fit**, however deep the node is and whatever the net has been
through. -/
theorem Net.History.fits : ∀ {g : Net} {c : Chronicle}, g.History c → c.Fits (Net.flagAt g)
  | _, _, .empty _ _ => Net.fits_of_slots_eq_nil rfl
  | _, _, @Net.History.described factories _ _ _ h =>
    (Net.fits_of_ofDescription (fun _ _ _ hn ↦ factories.fits_of_createNode hn) h).quiet
      (isQuiet_ofDescription factories.isQuiet_createNode factories _ _)
  | _, _, .step r h hnode _ =>
    h.reachable.coherent.fits_perform r h.fits (fun n hr ↦ (hnode n hr).fits) _
  | _, _, .saved _ _ h => h.fits.quiet fun path ↦ by cases path <;> rfl
  | _, _, @Net.History.inner _ _ _ s _ _ h hs hb => fun path flag hf ↦ by
    refine h.fits (s.key :: path) flag ?_
    rw [Net.flagAt_of_mem (Net.coherent_iff.mp h.reachable.coherent).1.keys_nodup hs]
    cases path with
    | nil => exact absurd hf (by simp [Net.flagAt])
    | cons name path =>
      rw [Node.flagAt_cons, Node.inside_nested hb]
      exact hf
  | _, _, .fed h hk => by
    obtain rfl := feed_eq_ok hk
    exact (Net.flagAt_modifyPort ..).symm ▸ h.fits

/-- So do the calls on a node that a host has to add, and on those inside. -/
theorem Node.History.fits : ∀ {n : Node Behaviour} {c : Chronicle}, n.History c → c.Fits n.flagAt
  | _, _, .plain hp hn => Node.fits_of_leaf hp.idle hn
  | _, _, .wrapped h hn => Net.fits_of_wrap h.reachable.coherent hn h.fits
  | _, _, @Node.History.created factories d _ _ hn =>
    (factories.fits_of_createNode hn).quiet (factories.isQuiet_createNode d _)
  | _, _, @Node.History.removed g _ _ _ _ h hn => by
    obtain ⟨hg, -, -⟩ := Net.coherent_iff.mp h.reachable.coherent
    exact Net.fits_of_removeNode (Behaviour.brackets_life (Behaviour.slotsDepth g.slots + 1)) hg
      (h.reachable.coherent.everyAt (Nat.le_succ _)) h.fits hn
  | _, _, @Node.History.written n m _ h hp hb => fun path flag hf ↦ h.fits path flag <| by
    have hidle := hp.idle.trans h.offered.isFresh.idle.symm
    exact (Node.flagAt_congr (m := m) (n := n) hidle hb path).symm.trans hf

end

/-- **The calls on the nodes of a net are bracketed.** -/
structure Net.Bracketed (g : Net) (c : Chronicle) : Prop where
  /-- Every node was initialised only while it was not, executed and destroyed only while it was, and
  shows now whether it is (`Call.leaves`). -/
  fits : c.Fits (Net.flagAt g)
  /-- Successful calls to get ready and calls to give back alternate, and a node is initialised if the
  last one was to get ready. -/
  alternates : ∀ path flag, g.flagAt path = some flag → Call.Alternates (c path) flag
  /-- When the net is cleared, nothing is left to be given back by any node. -/
  cleared : ∀ stamp, (g.clear stamp).result.1 = .ok () → ∀ path, (g.flagAt path).isSome →
    Call.leavesAll false (c path ++ callsAtAll (g.clear stamp).events path) = some false
  /-- Nor when it is thrown away. -/
  discarded : ∀ stamp path, (g.flagAt path).isSome →
    Call.leavesAll false (c path ++ callsAtAll (g.discard stamp).events path) = some false

/-- **The calls on a node that no net holds are bracketed**, and so are those on the nodes inside. -/
structure Node.Bracketed (n : Node Behaviour) (c : Chronicle) : Prop where
  /-- The node and those inside received calls that may be made in their order, and show what these
  left. -/
  fits : c.Fits n.flagAt
  /-- Successful calls to get ready and calls to give back alternate. -/
  alternates : ∀ path flag, n.flagAt path = some flag → Call.Alternates (c path) flag
  /-- As soon as no net holds the node, nothing is left to be given back by it. -/
  closed : Call.leavesAll false (c []) = some false
  /-- When the node is thrown away, nothing is left by any node inside. -/
  discarded : ∀ stamp path, (n.flagAt path).isSome →
    Call.leavesAll false (c path ++ callsAtAll (n.discard stamp).events path) = some false

/-- A net that is cleared without protection calls its nodes as if it were thrown away. -/
theorem Net.events_clear {g : Net} {stamp : Nat} (h : (g.clear stamp).result.1 = .ok ()) :
    (g.clear stamp).events = (g.discard stamp).events := by
  rw [clear, Graph.clear] at h ⊢
  split at h
  · exact absurd h (by simp)
  · rename_i hprotected
    rw [if_neg hprotected]
    simp only [Act.bind_apply, Act.pure_apply, List.append_nil]
    rfl

theorem Net.History.bracketed {g : Net} {c : Chronicle} (h : g.History c) : g.Bracketed c := by
  have hg := h.reachable.coherent
  have hthrown : ∀ stamp path, (g.flagAt path).isSome →
      Call.leavesAll false (c path ++ callsAtAll (g.discard stamp).events path) = some false :=
    fun stamp path ↦ h.fits.closed <|
      Net.tracks_discard (Behaviour.brackets_life _) (keepsOutline_life _) (Behaviour.keeps_life _)
        (Net.coherent_iff.mp hg).1 (hg.everyAt (Nat.le_succ _)) stamp
  refine ⟨h.fits, fun _ _ ↦ h.fits.alternates, fun stamp hok path ↦ ?_, hthrown⟩
  exact Net.events_clear hok ▸ hthrown stamp path

theorem Node.History.bracketed {n : Node Behaviour} {c : Chronicle} (h : n.History c) :
    n.Bracketed c := by
  have hfresh := h.offered.isFresh
  have hidle : n.flagAt [] = some false := congrArg some hfresh.idle
  refine ⟨h.fits, fun _ _ ↦ h.fits.alternates, h.fits [] false hidle, fun stamp path ↦ ?_⟩
  exact h.fits.closed <| (Behaviour.brackets_life (n.behaviour.depth + 1)).discarding
    ⟨Nat.le_succ _, hfresh.sound⟩ hfresh.idle stamp

/-- **The calls that nodes receive are bracketed**, whatever nets and nodes have been through: links
and names that were changed, compilations and passes that failed, nodes that were taken out, put back
and wrapped up, and nets that were cleared or thrown away. -/
theorem lifecycle_bracketed :
    (∀ {g : Net} {c : Chronicle}, g.History c → g.Bracketed c) ∧
      ∀ {n : Node Behaviour} {c : Chronicle}, n.History c → n.Bracketed c :=
  ⟨Net.History.bracketed, Node.History.bracketed⟩

/-! ## The box of a compiled net, taken out -/

theorem Net.history_withNode {n : Node Behaviour} {new : Chronicle} (h : n.History new)
    (name : String) :
    ∃ c, (Net.withNode name n).History c ∧ ∀ path, c (n.name :: path) = new path := by
  have hquiet : ∀ path, callsAtAll ((Request.addNode n).perform (Net.life { name })
      FactorySet.createNode { name } 0).events path = [] :=
    (isQuiet_addNode _ n).bind (fun _ ↦ Act.isQuiet_pure _) 0
  refine ⟨_, @Net.History.step _ _ new 0 (.addNode n) (.empty name {}) (fun m hm ↦ ?_)
    fun _ _ hr ↦ absurd hr (by simp), fun path ↦ ?_⟩
  · obtain rfl := Request.addNode.inj hm
    exact h
  · rw [hquiet, List.append_nil]
    exact if_pos rfl

theorem lifecycle_bracketed_sampleNet : ∃ c, sampleNet.History c ∧ sampleNet.Bracketed c ∧
    c ["box", "step"] = [(.init, true)] ∧
    callsAtAll (sampleNet.discard 0).events ["box", "step"] = [(.destroy, true)] ∧
    ∃ n c', (sampleNet.removeNode "box" 0).result.1 = .ok n ∧ n.History c' ∧ n.Bracketed c' ∧
      c' [] = [(.init, true), (.destroy, true)] := by
  obtain ⟨c₁, h₁, hc₁⟩ := Net.history_withNode
    (.plain ((Operation.increment.isNew_panel "step" 0).isFresh) rfl : sampleStep.History _) "inner"
  obtain ⟨c₂, h₂, hc₂⟩ := Net.history_withNode (.wrapped h₁ wrap_sampleBox) "outer"
  have hstep : sampleStep.name = "step" := by decide +kernel
  have hbox : sampleBox.name = "box" := by decide +kernel
  have hwrap : callsAtAll ((Net.wrap "box" (Net.withNode "inner" sampleStep)).run 0).events
      ["step"] = [] := Net.isQuiet_wrap ..
  have hinit : ∀ path ∈ [["box"], ["box", "step"]], callsAtAll (Request.compile.perform
      (Net.withNode "outer" sampleBox).life FactorySet.createNode (Net.withNode "outer" sampleBox)
      0).events path = [(.init, true)] := by decide +kernel
  have hdestroy : callsAtAll (sampleNet.removeNode "box" 0).events ["box"] = [(.destroy, true)] := by
    decide +kernel
  have h : sampleNet.History fun path ↦ c₂ path ++ callsAtAll (Request.compile.perform
      (Net.withNode "outer" sampleBox).life FactorySet.createNode (Net.withNode "outer" sampleBox)
      0).events path :=
    @Net.History.step _ _ (fun _ ↦ []) 0 .compile h₂ (fun _ hr ↦ absurd hr (by simp))
      fun _ _ hr ↦ absurd hr (by simp)
  rw [hstep] at hc₁
  rw [hbox] at hc₂
  obtain ⟨n, hn⟩ := exists_ok_of_isOk (x := (sampleNet.removeNode "box" 0).result.1)
    (by decide +kernel)
  have hout := Node.History.removed h hn
  refine ⟨_, h, lifecycle_bracketed.1 h, ?_, by decide +kernel, n, _, hn.symm ▸ rfl, hout,
    lifecycle_bracketed.2 hout, ?_⟩
  · rw [hinit _ (by simp), hc₂, Chronicle.within, hwrap, hc₁]
    rfl
  · rw [hinit _ (by simp), hc₂, hdestroy]
    rfl

end PortGraph
