import PortGraph.Proofs.Graph.Calls
import PortGraph.Proofs.Graph.Edits
import PortGraph.Proofs.Graph.Requests

/-!
# The schedule of a graph that is ready

A graph keeps its schedule from one compilation to the next change.  `Graph.Cached` says that
nothing is lost by that: while the graph is ready, planning anew would come to the same schedule,
and all nodes are initialised.  Changes of nodes and links take the schedule away; everything else
leaves the graph in agreement with what it was (`Graph.Agrees`).
-/

set_option autoImplicit false

namespace PortGraph

namespace Graph

variable {β : Type} {life : Lifecycle β} {g k : Graph β}

/-- **A schedule is the plan of the graph as it is.** -/
structure Cached (g : Graph β) : Prop where
  /-- Planning anew would make no difference. -/
  plan : g.isReady = true → g.plan = .ok g.schedule
  /-- All nodes are initialised. -/
  flags : g.isReady = true → ∀ b ∈ g.flags, b = true
  /-- A graph that is not ready has no schedule. -/
  idle : g.isReady = false → g.schedule = []

theorem cached_of_not_ready (h : g.isReady = false) (hs : g.schedule = []) : g.Cached where
  plan hr := absurd (h.symm.trans hr) (by simp)
  flags hr := absurd (h.symm.trans hr) (by simp)
  idle _ := hs

theorem Cached.of_agrees (h : g.Cached) (ha : g.Agrees k) : k.Cached where
  plan hr := by
    rw [plan_of_skeleton_eq ha.skeleton, ha.schedule]
    exact h.plan (ha.isReady ▸ hr)
  flags hr := by
    rw [ha.flags]
    exact h.flags (ha.isReady ▸ hr)
  idle hr := by
    rw [ha.schedule]
    exact h.idle (ha.isReady ▸ hr)

/-! ## Calls -/

theorem Cached.compile (h : g.Cached) (hk : life.KeepsOutline) (hg : g.WellLinked) (stamp : Nat) :
    (g.compile life stamp).result.2.Cached := by
  cases hr : g.isReady with
  | true => rw [compile_of_ready hr]; exact h
  | false =>
    rcases compile_cases hk hg hr stamp with
      ⟨e, -, heq⟩ | ⟨hskel, ⟨schedule, hp, -, hs, hready, hflags⟩ | ⟨-, -, -, hs, hready⟩⟩
    · rw [heq]
      exact h
    · exact ⟨fun _ ↦ by rw [plan_of_skeleton_eq hskel, hs, hp], fun _ ↦ hflags,
        fun hno ↦ absurd (hready.symm.trans hno) (by simp)⟩
    · exact cached_of_not_ready hready hs

/-- Compiling leaves the plan as the schedule, and none if it fails. -/
theorem Cached.schedule_compile (h : g.Cached) (hk : life.KeepsOutline) (hg : g.WellLinked)
    (stamp : Nat) :
    ((g.compile life stamp).result.1 = .ok () →
      g.plan = .ok (g.compile life stamp).result.2.schedule) ∧
    ∀ e, (g.compile life stamp).result.1 = .error e →
      (g.compile life stamp).result.2.schedule = [] := by
  cases hr : g.isReady with
  | true =>
    rw [compile_of_ready hr]
    exact ⟨fun _ ↦ h.plan hr, fun e he ↦ absurd he (by simp)⟩
  | false =>
    rcases compile_cases hk hg hr stamp with
      ⟨e, -, heq⟩ | ⟨-, ⟨schedule, hp, hok, hs, -⟩ | ⟨name, cause, herr, hs, -⟩⟩
    · rw [heq]
      exact ⟨fun hok ↦ absurd hok (by simp), fun _ _ ↦ h.idle hr⟩
    · exact ⟨fun _ ↦ hs ▸ hp, fun e he ↦ absurd (hok.symm.trans he) (by simp)⟩
    · exact ⟨fun hok ↦ absurd (hok.symm.trans herr) (by simp), fun _ _ ↦ hs⟩

/-! ## Ports -/

/-- Storing a packet makes no other outline. -/
theorem agrees_modifyPort_store (g : Graph β) (side : Direction) (place : Endpoint)
    (packet : Option Packet) : g.Agrees (g.modifyPort side place (·.store packet)) := by
  refine agrees_of_map_outline ?_
  rw [List.map_map]
  refine List.map_congr_left fun s _ ↦ ?_
  rw [Function.comp_apply]
  split
  · exact congrArg (s.key, ·)
      (Panel.outline_withPorts_of_map (Port.map_modifyNamed_of_eq fun _ ↦ rfl))
  · rfl

theorem modifyPanel_const_eq (hnd : g.nodeNames.Nodup) {place : Endpoint} {packet : Packet}
    {n : Node β} (hn : g.node? place.node = some n) :
    (g.modifyPanel place.node fun _ ↦
        n.panel.modifyPort .input place.port (·.store (some packet))) =
      g.modifyPort .input place (·.store (some packet)) := by
  rw [modifyPort, modifyPanel, modifyPanel, modifyNode, modifyNode]
  congr 1
  refine List.map_congr_left fun s hs ↦ ?_
  split
  · rename_i hkey
    have hmem : (⟨place.node, s.node⟩ : Slot β) ∈ g.slots := hkey ▸ hs
    obtain rfl : s.node = n := by
      rw [(node?_eq_some_iff hnd).mpr hmem] at hn
      exact Option.some.inj hn
    rfl
  · rfl

theorem changeInput_eq_ok {place : Endpoint} {f : Port → Port}
    (h : g.changeInput place f = .ok k) : k = g.modifyPort .input place f := by
  rw [changeInput] at h
  split at h
  · exact absurd h (by simp)
  · split at h
    · exact absurd h (by simp)
    · exact (Except.ok.inj h).symm

theorem feed_eq_ok {place : Endpoint} {packet : Option Packet} (h : g.feed place packet = .ok k) :
    k = g.modifyPort .input place (·.store packet) :=
  changeInput_eq_ok h

theorem expose_eq_ok {place : Endpoint} (h : g.expose place = .ok k) :
    k = (g.modifyPort .input place fun p ↦ { p with isExposed := true }).unschedule := by
  rw [expose] at h
  cases hc : g.changeInput place fun p ↦ { p with isExposed := true } with
  | error e => rw [hc] at h; exact absurd h (by simp [Except.map])
  | ok j =>
    rw [hc] at h
    obtain rfl := changeInput_eq_ok hc
    exact (Except.ok.inj h).symm

theorem nodeNames_expose {place : Endpoint} (hk : g.expose place = .ok k) :
    k.nodeNames = g.nodeNames := by
  obtain rfl := expose_eq_ok hk
  exact nodeNames_modifyPort g .input place fun p ↦ { p with isExposed := true }

theorem nodeNames_feed {place : Endpoint} {packet : Option Packet} (hk : g.feed place packet = .ok k) :
    k.nodeNames = g.nodeNames := by
  obtain rfl := feed_eq_ok hk
  exact nodeNames_modifyPort g .input place _

theorem WellLinked.expose (h : g.WellLinked) {k : Graph β} {place : Endpoint}
    (hk : g.expose place = .ok k) : k.WellLinked := by
  obtain rfl := expose_eq_ok hk
  have hport : (g.modifyPort .input place fun p ↦ { p with isExposed := true }).WellLinked :=
    h.modifyPort (fun _ ↦ rfl) (fun _ ↦ rfl) fun _ ↦ rfl
  exact hport.of_skeleton_eq rfl

/-- What a new link needs: two ports that carry the same, of which the input has no link. -/
theorem linkType_eq_ok {source target : Endpoint} {t : DataType}
    (h : g.linkType source target = .ok t) :
    ∃ p q, g.port? .output source = some p ∧ g.port? .input target = some q ∧ p.dataType = t ∧
      q.dataType = t ∧ q.linkCount = 0 := by
  have hport : ∀ {side : Direction} {e : Endpoint} {n : Node β} {p : Port},
      g.node e.node = .ok n → n.panel.port side e.port = .ok p → g.port? side e = some p := by
    intro side e n p hn hp
    rw [node] at hn
    rw [Panel.port] at hp
    cases hn' : g.node? e.node with
    | none => rw [hn'] at hn; exact absurd hn (by simp)
    | some m =>
      rw [hn'] at hn
      obtain rfl : m = n := Except.ok.inj hn
      cases hp' : m.panel.port? side e.port with
      | none => rw [hp'] at hp; exact absurd hp (by simp)
      | some q =>
        rw [hp'] at hp
        obtain rfl : q = p := Except.ok.inj hp
        rw [port?, hn', Option.bind_some, hp']
  rw [linkType] at h
  obtain ⟨m, hm, h⟩ := bind_eq_ok h
  obtain ⟨n, hn, h⟩ := bind_eq_ok h
  obtain ⟨p, hp, h⟩ := bind_eq_ok h
  obtain ⟨q, hq, h⟩ := bind_eq_ok h
  -- the ports are there; what is left is that the types agree and that the input is free
  split at h
  · exact absurd h (by simp [throw, throwThe, MonadExceptOf.throw])
  · rename_i htype
    split at h
    · exact absurd h (by simp [throw, throwThe, MonadExceptOf.throw])
    · rename_i hfree
      obtain rfl : p.dataType = t := Except.ok.inj h
      refine ⟨p, q, hport hm hp, hport hn hq, rfl, (not_not.mp htype).symm, ?_⟩
      simpa [Port.isLinked] using hfree

/-- A link may be made between ports that carry the same, of which the input has no link. -/
theorem linkType_of_ports {source target : Endpoint} {p q : Port} (hp : g.port? .output source = some p)
    (hq : g.port? .input target = some q) (ht : p.dataType = q.dataType)
    (hfree : q.isLinked = false) : g.linkType source target = .ok q.dataType := by
  obtain ⟨m, hm, hp⟩ := Option.bind_eq_some_iff.mp hp
  obtain ⟨n, hn, hq⟩ := Option.bind_eq_some_iff.mp hq
  rw [linkType, node, node, hm, hn]
  simp only [bind, Except.bind, Panel.port, hp, hq, ht, ne_eq, not_true_eq_false, if_false, hfree,
    Bool.false_eq_true]
  rfl

/-- **A link is put in** where one may be made. -/
theorem WellLinked.insertLink_of_linkType (h : g.WellLinked) {l : Link}
    (ht : g.linkType l.source l.target = .ok l.dataType) (hid : ∀ k ∈ g.links, k.id ≠ l.id) :
    (g.insertLink l).WellLinked := by
  obtain ⟨p, q, hp, hq, hpt, hqt, hfree⟩ := linkType_eq_ok ht
  refine h.insertLink hid (fun side ↦ ?_) ?_
  · cases side with
    | input => exact ⟨q, hq, hqt⟩
    | output => exact ⟨p, hp, hpt⟩
  · rw [← h.counted .input l.target q hq, hfree]

/-! ## Nodes -/

section Every

variable {Q : β → Bool → Prop}

theorem Every.pushNode (h : g.Every Q) {n : Node β} (hn : Q n.behaviour n.panel.isInitialized) :
    (g.pushNode n).Every Q := by
  intro s hs
  rcases List.mem_append.mp hs with hs | hs
  · exact h s hs
  · rw [List.mem_singleton.mp hs]
    exact hn

theorem Every.eraseNode (h : g.Every Q) (name : String) : (g.eraseNode name).Every Q :=
  fun s hs ↦ h s (List.mem_filter.mp hs).1

theorem Every.relabel (h : g.Every Q) (old new : String) : (g.relabel old new).Every Q := by
  refine List.forall_mem_map.mpr fun s hs ↦ ?_
  rw [Slot.rename]
  split
  · exact h s hs
  · exact h s hs

theorem Every.modifyPort (h : g.Every Q) (side : Direction) (e : Endpoint) (f : Port → Port) :
    (g.modifyPort side e f).Every Q := by
  refine List.forall_mem_map.mpr fun s hs ↦ ?_
  split
  · have hq := h s hs
    simpa [Slot.mapNode, Node.mapPanel, Panel.modifyPort] using hq
  · exact h s hs

theorem Every.insertLink (h : g.Every Q) (l : Link) : (g.insertLink l).Every Q :=
  Every.modifyPort (Every.modifyPort h .output l.source _) .input l.target _

theorem Every.dropLink (h : g.Every Q) (id : LinkId) : (g.dropLink id).Every Q := by
  rw [Graph.dropLink]
  split
  · exact h
  · rename_i l _
    exact Every.modifyPort (Every.modifyPort h .output l.source _) .input l.target _

theorem Every.dropLinksOf (h : g.Every Q) (name : String) : (g.dropLinksOf name).Every Q := by
  rw [Graph.dropLinksOf]
  generalize (g.links.filter (·.touches name)).map Link.id = ids
  induction ids generalizing g with
  | nil => exact h
  | cons id ids ih => exact ih (h.dropLink id)

end Every

/-! ## Requests -/

/-- **Whatever is asked of a graph, its links and ports go on belonging together.** -/
theorem WellLinked.of_mayLeave (h : g.WellLinked)
    {make : FactorySet → NodeDescription → Attempt (Node β)} {r : Request β} {stamp : Nat}
    (hk : life.KeepsOutline) (hnode : ∀ n, r.Brings make g n → n.panel.IsDetached)
    (hfresh : ∀ source target, r = .addLink source target →
      ∀ l ∈ g.links, l.id ≠ (Act.newLinkId stamp).result)
    (hr : r.MayLeave life make g stamp k) : k.WellLinked := by
  cases hr with
  | same => exact h
  | pushed brings new => exact h.pushNode (hnode _ brings) new
  | erased name => exact h.eraseNode_dropLinksOf name
  | relabelled hnew => exact h.relabel hnew
  | inserted ht => exact h.insertLink_of_linkType ht (hfresh _ _ rfl)
  | dropped r id => exact (h.dropLink id).of_skeleton_eq rfl
  | stored hn =>
    rw [modifyPanel_const_eq h.keys_nodup hn]
    exact h.of_skeleton_eq (agrees_modifyPort_store g _ _ _).skeleton
  | guarded b => exact h.of_skeleton_eq rfl
  | furnished _ factories => exact h.of_skeleton_eq rfl
  | compiled => exact h.of_skeleton_eq (skeleton_compile hk g stamp)
  | executed => exact h.of_skeleton_eq (agrees_execute hk g stamp).skeleton
  | released => exact h.of_skeleton_eq (skeleton_release hk g stamp)
  | cleared => exact (wellLinked_empty "" {}).of_skeleton_eq rfl

/-- **Whatever is asked of a graph, its schedule is the plan of what it has become.** -/
theorem Cached.of_mayLeave (h : g.Cached) (hg : g.WellLinked)
    {make : FactorySet → NodeDescription → Attempt (Node β)} {r : Request β} {stamp : Nat}
    (hk : life.KeepsOutline) (hr : r.MayLeave life make g stamp k) : k.Cached := by
  cases hr with
  | same => exact h
  | stored hn =>
    rw [modifyPanel_const_eq hg.keys_nodup hn]
    exact h.of_agrees (agrees_modifyPort_store g _ _ _)
  | guarded b => exact h.of_agrees ⟨rfl, rfl, rfl, rfl⟩
  | furnished _ factories => exact h.of_agrees ⟨rfl, rfl, rfl, rfl⟩
  | compiled => exact h.compile hk hg stamp
  | executed => exact h.of_agrees (agrees_execute hk g stamp)
  | _ => exact cached_of_not_ready rfl rfl

/-- **What calls keep is kept whatever is asked**, if the nodes brought along have it. -/
theorem Every.of_mayLeave {Q Q' : β → Bool → Prop} {E : NodeError → Prop}
    (hQ : ∀ b flag, Q b flag → Q' b flag) (h : g.Every Q) (hg : g.WellLinked)
    {make : FactorySet → NodeDescription → Attempt (Node β)} {r : Request β} {stamp : Nat}
    (hk : life.KeepsOutline) (hq : life.Keeps Q E)
    (hnode : ∀ n, r.Brings make g n → Q' n.behaviour n.panel.isInitialized)
    (hr : r.MayLeave life make g stamp k) : k.Every Q' := by
  have hle : ∀ {j : Graph β}, j.Every Q → j.Every Q' := fun hj s hs ↦ hQ _ _ (hj s hs)
  cases hr with
  | same => exact hle h
  | pushed brings new => exact (hle h).pushNode (hnode _ brings)
  | erased name => exact hle ((h.dropLinksOf name).eraseNode name)
  | relabelled hnew => exact hle (h.relabel _ _)
  | inserted ht => exact hle (h.insertLink _)
  | dropped r id => exact hle (h.dropLink id)
  | stored hn =>
    rw [modifyPanel_const_eq hg.keys_nodup hn]
    exact hle (h.modifyPort _ _ _)
  | guarded b => exact hle h
  | furnished _ factories => exact hle h
  | compiled => exact hle (h.compile hk hq hg stamp)
  | executed => exact hle (h.execute hk hq stamp)
  | released => exact hle (h.release hq stamp)
  | cleared => exact fun s hs ↦ absurd hs (by simp)

end Graph
end PortGraph
