import PortGraph.Graph.Edit
import PortGraph.Proofs.Graph.Ports

/-!
# Links and the ports they touch

`Graph.WellLinked` says how the links of a graph and the counts on its ports belong together.  It
is a property of the skeleton (`wellLinked_skeleton`), and each way in which a graph changes keeps
it: a node is added or taken out, a node takes a new name, a link is put in or taken out.
-/

set_option autoImplicit false

namespace PortGraph

/-- The end of a link on a side: links leave outputs and enter inputs. -/
def Link.place (l : Link) : Direction → Endpoint
  | .output => l.source
  | .input => l.target

/-- A node in its place: it bears the name it is kept under, and the ports of a side have different
names. -/
structure Slot.Regular {β : Type} (s : Slot β) : Prop where
  /-- The node bears the name it is kept under. -/
  name_eq : s.node.name = s.key
  /-- The ports of a side have different names. -/
  ports_nodup : ∀ side, ((s.node.panel.ports side).map Port.name).Nodup

/-- The panel of a node that no graph holds: no link touches it, and the ports of a side have
different names. -/
structure Panel.IsDetached (panel : Panel) : Prop where
  /-- The ports of a side have different names. -/
  ports_nodup : ∀ side, ((panel.ports side).map Port.name).Nodup
  /-- No link touches a port. -/
  unlinked : ∀ side, ∀ p ∈ panel.ports side, p.linkCount = 0

/-- Neither the values on the ports nor what else stands on a panel matters. -/
theorem Panel.IsDetached.of_ports_eq {panel panel' : Panel} (h : panel.IsDetached)
    (hp : ∀ side, (panel'.ports side).map (·.store none) =
      (panel.ports side).map (·.store none)) : panel'.IsDetached where
  ports_nodup side := by
    have hnames := congrArg (List.map Port.name) (hp side)
    rw [List.map_map, List.map_map] at hnames
    exact (show (panel'.ports side).map Port.name = (panel.ports side).map Port.name from hnames) ▸
      h.ports_nodup side
  unlinked side p hm := by
    have hstored : p.store none ∈ (panel.ports side).map (·.store none) :=
      hp side ▸ List.mem_map_of_mem hm
    obtain ⟨q, hq, heq⟩ := List.mem_map.mp hstored
    exact (congrArg Port.linkCount heq).symm.trans (h.unlinked side q hq)

namespace Graph

variable {β : Type} {g : Graph β}

/-- How many links touch an endpoint. -/
def degree (g : Graph β) (side : Direction) (e : Endpoint) : Nat :=
  g.links.countP (fun l ↦ l.place side = e)

/-- **How links and ports belong together.** -/
structure WellLinked (g : Graph β) : Prop where
  /-- No two nodes are kept under one name. -/
  keys_nodup : g.nodeNames.Nodup
  /-- The nodes are in their places. -/
  regular : ∀ s ∈ g.slots, s.Regular
  /-- No two links have one id. -/
  ids_nodup : (g.links.map Link.id).Nodup
  /-- Links end at ports that carry what they carry. -/
  ends : ∀ l ∈ g.links, ∀ side, ∃ p, g.port? side (l.place side) = some p ∧ p.dataType = l.dataType
  /-- Ports count the links that touch them. -/
  counted : ∀ side e p, g.port? side e = some p → p.linkCount = g.degree side e
  /-- No two links end at one input. -/
  once : ∀ e, g.degree .input e ≤ 1

theorem wellLinked_empty (name : String) (factories : FactorySet) :
    ({ name, factories } : Graph β).WellLinked where
  keys_nodup := List.nodup_nil
  regular := by simp
  ids_nodup := List.nodup_nil
  ends := by simp
  counted side e p h := by simp [port?, node?] at h
  once e := by simp [degree]

/-! ## The skeleton decides -/

theorem regular_skeleton_iff {s : Slot β} :
    (⟨s.key, ⟨s.node.panel.bare, ()⟩⟩ : Slot Unit).Regular ↔ s.Regular := by
  have hnames : ∀ side, (s.node.panel.bare.ports side).map Port.name =
      (s.node.panel.ports side).map Port.name := fun side ↦ by
    rw [Panel.ports_bare, List.map_map]
    rfl
  exact ⟨fun h ↦ ⟨h.name_eq, fun side ↦ hnames side ▸ h.ports_nodup side⟩,
    fun h ↦ ⟨h.name_eq, fun side ↦ (hnames side).symm ▸ h.ports_nodup side⟩⟩

theorem wellLinked_skeleton : g.skeleton.WellLinked ↔ g.WellLinked := by
  have hends : ∀ side e (k : DataType), (∃ p, g.skeleton.port? side e = some p ∧ p.dataType = k) ↔
      ∃ p, g.port? side e = some p ∧ p.dataType = k := by
    intro side e k
    rw [port?_skeleton]
    cases g.port? side e <;> simp
  have hcounted : ∀ side e (c : Nat),
      (∀ p, g.skeleton.port? side e = some p → p.linkCount = c) ↔
        ∀ p, g.port? side e = some p → p.linkCount = c := by
    intro side e c
    rw [port?_skeleton]
    cases g.port? side e <;> simp
  have hreg : (∀ s ∈ g.skeleton.slots, s.Regular) ↔ ∀ s ∈ g.slots, s.Regular := by
    rw [skeleton]
    exact List.forall_mem_map.trans (forall₂_congr fun _ _ ↦ regular_skeleton_iff)
  constructor
  · intro h
    exact ⟨nodeNames_skeleton g ▸ h.keys_nodup, hreg.mp h.regular, h.ids_nodup,
      fun l hl side ↦ (hends _ _ _).mp (h.ends l hl side),
      fun side e ↦ (hcounted side e _).mp (h.counted side e), h.once⟩
  · intro h
    exact ⟨(nodeNames_skeleton g).symm ▸ h.keys_nodup, hreg.mpr h.regular, h.ids_nodup,
      fun l hl side ↦ (hends _ _ _).mpr (h.ends l hl side),
      fun side e ↦ (hcounted side e _).mpr (h.counted side e), h.once⟩

theorem WellLinked.of_skeleton_eq {γ : Type} {k : Graph γ} (h : g.WellLinked)
    (hs : k.skeleton = g.skeleton) : k.WellLinked :=
  wellLinked_skeleton.mp (hs ▸ wellLinked_skeleton.mpr h)

/-! ## What follows -/

/-- Both ends of a link are counted on their ports. -/
theorem WellLinked.exists_port (h : g.WellLinked) {l : Link} (hl : l ∈ g.links)
    (side : Direction) : ∃ p, g.port? side (l.place side) = some p ∧ p.dataType = l.dataType ∧
      0 < p.linkCount := by
  obtain ⟨p, hp, ht⟩ := h.ends l hl side
  refine ⟨p, hp, ht, ?_⟩
  rw [h.counted side _ p hp]
  exact List.countP_pos_iff.mpr ⟨l, hl, by simp⟩

theorem WellLinked.linkCount_eq (h : g.WellLinked) {s : Slot β} (hs : s ∈ g.slots)
    {side : Direction} {p : Port} (hp : p ∈ s.node.panel.ports side) :
    p.linkCount = g.degree side ⟨s.key, p.name⟩ := by
  have hports : ∀ s ∈ g.slots, ((s.node.panel.ports side).map Port.name).Nodup := fun s hs ↦
    (h.regular s hs).ports_nodup side
  exact h.counted side _ p ((port?_eq_some_iff h.keys_nodup hports).mpr ⟨s, hs, rfl, hp, rfl⟩)

theorem WellLinked.node_mem (h : g.WellLinked) {l : Link} (hl : l ∈ g.links) (side : Direction) :
    (l.place side).node ∈ g.nodeNames := by
  obtain ⟨p, hp, -⟩ := h.ends l hl side
  obtain ⟨n, hn, -⟩ := Option.bind_eq_some_iff.mp hp
  exact List.mem_map_of_mem (mem_of_node? hn)

/-- Nodes and ports are told apart by their names, and each port counts the links that touch it. -/
structure IsTallied (g : Graph β) : Prop where
  /-- No two nodes are kept under one name. -/
  keys_nodup : g.nodeNames.Nodup
  /-- No two ports on a side of a node have one name. -/
  ports_nodup : ∀ s ∈ g.slots, ∀ side, ((s.node.panel.ports side).map Port.name).Nodup
  /-- Ports count the links that touch them. -/
  counted : ∀ side e p, g.port? side e = some p → p.linkCount = g.degree side e

theorem WellLinked.isTallied (h : g.WellLinked) : g.IsTallied :=
  ⟨h.keys_nodup, fun s hs ↦ (h.regular s hs).ports_nodup, h.counted⟩

theorem IsTallied.isLinked_iff (h : g.IsTallied) {side : Direction} {e : Endpoint} {p : Port}
    (hp : g.port? side e = some p) : p.isLinked = true ↔ ∃ l ∈ g.links, l.place side = e := by
  rw [Port.isLinked, decide_eq_true_eq, h.counted side e p hp, degree, List.countP_pos_iff]
  simp only [decide_eq_true_eq]

theorem WellLinked.isLinked_iff (h : g.WellLinked) {side : Direction} {e : Endpoint} {p : Port}
    (hp : g.port? side e = some p) : p.isLinked = true ↔ ∃ l ∈ g.links, l.place side = e :=
  h.isTallied.isLinked_iff hp

/-- No link touches the endpoints of a node that does not exist. -/
theorem WellLinked.degree_eq_zero (h : g.WellLinked) {side : Direction} {e : Endpoint}
    (hno : e.node ∉ g.nodeNames) : g.degree side e = 0 := by
  rw [degree, List.countP_eq_zero]
  intro l hl
  simp only [decide_eq_true_eq]
  rintro rfl
  exact hno (h.node_mem hl side)

/-! ## Changing a port -/

theorem regular_modifyPort {side : Direction} {e : Endpoint} {f : Port → Port}
    (hf : ∀ p, (f p).name = p.name) (h : ∀ s ∈ g.slots, s.Regular) :
    ∀ s ∈ (g.modifyPort side e f).slots, s.Regular := by
  intro s' hs'
  obtain ⟨s, hs, rfl⟩ := List.mem_map.mp hs'
  have hr := h s hs
  split
  · refine ⟨?_, fun side' ↦ ?_⟩
    · simpa [Slot.mapNode, Node.mapPanel, Node.name, Panel.modifyPort] using hr.name_eq
    · simp only [Slot.mapNode, Node.mapPanel, Panel.modifyPort, Panel.ports_withPorts]
      split
      · rename_i hside
        rw [Port.map_modifyNamed_of_eq hf, ← hside]
        exact hr.ports_nodup side'
      · exact hr.ports_nodup side'
  · exact hr

/-- Changing what no link depends on. -/
theorem WellLinked.modifyPort {side : Direction} {e : Endpoint} {f : Port → Port}
    (h : g.WellLinked) (hf : ∀ p, (f p).name = p.name) (ht : ∀ p, (f p).dataType = p.dataType)
    (hc : ∀ p, (f p).linkCount = p.linkCount) : (g.modifyPort side e f).WellLinked := by
  refine ⟨?_, regular_modifyPort hf h.regular, h.ids_nodup, fun l hl side' ↦ ?_,
    fun side' e' p hp ↦ ?_, h.once⟩
  · rw [nodeNames_modifyPort]; exact h.keys_nodup
  · obtain ⟨p, hp, hd⟩ := h.ends l hl side'
    rw [port?_modifyPort hf]
    split
    · rename_i hse
      obtain ⟨rfl, hse⟩ := hse
      exact ⟨f p, by rw [← hse, hp]; rfl, by rw [ht, hd]⟩
    · exact ⟨p, hp, hd⟩
  · rw [port?_modifyPort hf] at hp
    split at hp
    · rename_i hse
      obtain ⟨rfl, rfl⟩ := hse
      obtain ⟨q, hq, rfl⟩ := Option.map_eq_some_iff.mp hp
      rw [hc, h.counted _ _ q hq]
      rfl
    · exact h.counted _ _ p hp

/-! ## The ends of a link -/

/-- What happens to the port at an end of a link: the input is emptied as well. -/
def atEnd (f : Port → Port) : Direction → Port → Port
  | .output, p => f p
  | .input, p => (f p).store none

@[simp] theorem atEnd_linkCount (f : Port → Port) (side : Direction) (p : Port) :
    (atEnd f side p).linkCount = (f p).linkCount := by
  cases side <;> rfl

@[simp] theorem atEnd_dataType (f : Port → Port) (side : Direction) (p : Port) :
    (atEnd f side p).dataType = (f p).dataType := by
  cases side <;> rfl

theorem port?_changeEnds {f : Port → Port} (hf : ∀ p, (f p).name = p.name) (l : Link)
    (side : Direction) (e : Endpoint) :
    (changeEnds f l g).port? side e =
      if e = l.place side then (g.port? side e).map (atEnd f side) else g.port? side e := by
  have hsource : ∀ side e, (g.modifyPort .output l.source f).port? side e =
      if side = .output ∧ e = l.source then (g.port? .output l.source).map f
      else g.port? side e := fun side e ↦ Graph.port?_modifyPort hf g .output side l.source e
  rw [changeEnds, Graph.port?_modifyPort (by exact hf), hsource, hsource]
  cases side with
  | input =>
    by_cases he : e = l.target
    · simp only [he, Link.place, reduceCtorEq, false_and, and_self, if_true, if_false]
      rfl
    · simp [he, Link.place]
  | output =>
    by_cases he : e = l.source
    · simp only [he, Link.place, reduceCtorEq, false_and, and_self, if_true, if_false]
      rfl
    · simp [he, Link.place]

@[simp] theorem nodeNames_changeEnds (f : Port → Port) (l : Link) :
    (changeEnds f l g).nodeNames = g.nodeNames := by
  rw [changeEnds, nodeNames_modifyPort, nodeNames_modifyPort]

theorem regular_changeEnds {f : Port → Port} (hf : ∀ p, (f p).name = p.name) {l : Link}
    (h : ∀ s ∈ g.slots, s.Regular) : ∀ s ∈ (changeEnds f l g).slots, s.Regular :=
  regular_modifyPort (by exact hf) (regular_modifyPort hf h)

/-! ## Putting a link in -/

theorem degree_insertLink (l : Link) (side : Direction) (e : Endpoint) :
    (g.insertLink l).degree side e = g.degree side e + if l.place side = e then 1 else 0 := by
  rw [degree, insertLink, List.countP_append, List.countP_singleton, degree]
  simp

/-- **A link is put in** between ports that carry the same, of which the input has no link. -/
theorem WellLinked.insertLink (h : g.WellLinked) {l : Link} (hid : ∀ k ∈ g.links, k.id ≠ l.id)
    (hends : ∀ side, ∃ p, g.port? side (l.place side) = some p ∧ p.dataType = l.dataType)
    (hfree : g.degree .input l.target = 0) : (g.insertLink l).WellLinked := by
  have hport : ∀ side e, (g.insertLink l).port? side e =
      if e = l.place side then (g.port? side e).map (atEnd Port.attach side)
      else g.port? side e := port?_changeEnds Port.attach_name l
  refine ⟨?_, regular_changeEnds Port.attach_name h.regular, ?_, fun k hk side ↦ ?_,
    fun side e p hp ↦ ?_, fun e ↦ ?_⟩
  · exact (nodeNames_changeEnds (g := g) Port.attach l).symm ▸ h.keys_nodup
  · rw [Graph.insertLink, List.map_append, List.nodup_append]
    refine ⟨h.ids_nodup, by simp, fun a ha b hb ↦ ?_⟩
    obtain ⟨k, hk, rfl⟩ := List.mem_map.mp ha
    rw [List.map_singleton, List.mem_singleton] at hb
    exact hb ▸ hid k hk
  · obtain ⟨p, hp, ht⟩ : ∃ p, g.port? side (k.place side) = some p ∧ p.dataType = k.dataType := by
      rcases List.mem_append.mp hk with hk | hk
      · exact h.ends k hk side
      · rw [List.mem_singleton.mp hk]; exact hends side
    rw [hport, hp]
    split
    · exact ⟨_, rfl, by rw [atEnd_dataType]; exact ht⟩
    · exact ⟨p, rfl, ht⟩
  · rw [degree_insertLink]
    rw [hport] at hp
    split at hp
    · rename_i he
      obtain ⟨q, hq, rfl⟩ := Option.map_eq_some_iff.mp hp
      rw [if_pos he.symm, atEnd_linkCount, Port.attach, h.counted _ _ q hq]
    · rename_i he
      rw [if_neg (Ne.symm he), h.counted _ _ p hp, Nat.add_zero]
  -- an input with a link refuses another one, so the bound is not passed
  · rw [degree_insertLink]
    split
    · rename_i he
      have hzero : g.degree .input e = 0 := he ▸ hfree
      omega
    · exact h.once e

/-! ## Taking a link out -/

theorem filter_id_ne {pre post : List Link} {l : Link}
    (hnd : ((pre ++ l :: post).map Link.id).Nodup) :
    (pre ++ l :: post).filter (fun k ↦ k.id ≠ l.id) = pre ++ post := by
  rw [List.map_append, List.map_cons, List.nodup_middle, List.nodup_cons] at hnd
  have hne : ∀ k ∈ pre ++ post, k.id ≠ l.id := fun k hk he ↦
    hnd.1 (he ▸ List.map_append ▸ List.mem_map_of_mem hk)
  have hpre := List.filter_eq_self.mpr fun k hk ↦
    decide_eq_true (hne k (List.mem_append_left _ hk))
  have hpost := List.filter_eq_self.mpr fun k hk ↦
    decide_eq_true (hne k (List.mem_append_right _ hk))
  rw [List.filter_append, List.filter_cons, hpre, hpost]
  simp

theorem link?_eq_some {id : LinkId} {l : Link} (h : g.link? id = some l) :
    l ∈ g.links ∧ l.id = id :=
  ⟨List.mem_of_find?_eq_some h, by simpa using List.find?_some h⟩

@[simp] theorem links_dropLink (id : LinkId) :
    (g.dropLink id).links = g.links.filter (fun l ↦ l.id ≠ id) := by
  rw [dropLink]
  split
  · rename_i hno
    rw [eq_comm, List.filter_eq_self]
    intro l hl
    exact decide_eq_true (by simpa using List.find?_eq_none.mp hno l hl)
  · rfl

@[simp] theorem nodeNames_dropLink (id : LinkId) : (g.dropLink id).nodeNames = g.nodeNames := by
  rw [dropLink]
  split
  · rfl
  · exact nodeNames_changeEnds _ _

/-- **A link is taken out.**  The ports at its ends count it, so no count is lowered below zero. -/
theorem WellLinked.dropLink (h : g.WellLinked) (id : LinkId) : (g.dropLink id).WellLinked := by
  cases hl : g.link? id with
  | none => rw [Graph.dropLink, hl]; exact h
  | some l =>
    obtain ⟨hmem, rfl⟩ := link?_eq_some hl
    obtain ⟨pre, post, hsplit⟩ := List.append_of_mem hmem
    have hids := h.ids_nodup
    have hlinks := links_dropLink (g := g) l.id
    rw [hsplit] at hids
    rw [hsplit, filter_id_ne hids] at hlinks
    have hdeg : ∀ side e, g.degree side e =
        (g.dropLink l.id).degree side e + if l.place side = e then 1 else 0 := by
      intro side e
      rw [degree, degree, hlinks, hsplit, List.countP_append, List.countP_append, List.countP_cons]
      simp only [decide_eq_true_eq]
      omega
    have hport : ∀ side e, (g.dropLink l.id).port? side e =
        if e = l.place side then (g.port? side e).map (atEnd Port.detach side)
        else g.port? side e := by
      rw [Graph.dropLink, hl]
      exact port?_changeEnds Port.detach_name l
    have hsub : ∀ k ∈ (g.dropLink l.id).links, k ∈ g.links := by
      rw [links_dropLink]
      exact fun k hk ↦ (List.mem_filter.mp hk).1
    refine ⟨?_, ?_, ?_, fun k hk side ↦ ?_, fun side e p hp ↦ ?_, fun e ↦ ?_⟩
    · rw [nodeNames_dropLink]; exact h.keys_nodup
    · rw [Graph.dropLink, hl]
      exact regular_changeEnds Port.detach_name h.regular
    · rw [links_dropLink]
      exact h.ids_nodup.sublist (List.filter_sublist.map _)
    · obtain ⟨p, hp, ht⟩ := h.ends k (hsub k hk) side
      rw [hport, hp]
      split
      · exact ⟨_, rfl, by rw [atEnd_dataType]; exact ht⟩
      · exact ⟨p, rfl, ht⟩
    · rw [hport] at hp
      have hd := hdeg side e
      split at hp
      · rename_i he
        obtain ⟨q, hq, rfl⟩ := Option.map_eq_some_iff.mp hp
        rw [if_pos he.symm] at hd
        rw [atEnd_linkCount, Port.detach, h.counted _ _ q hq, hd, Nat.add_sub_cancel]
      · rename_i he
        rw [if_neg (Ne.symm he), Nat.add_zero] at hd
        rw [h.counted _ _ p hp, hd]
    · exact Nat.le_trans (Nat.le.intro (hdeg .input e).symm) (h.once e)

/-! ## Taking several links out -/

theorem WellLinked.foldl_dropLink (h : g.WellLinked) (ids : List LinkId) :
    (ids.foldl (fun g id ↦ g.dropLink id) g).WellLinked := by
  induction ids generalizing g with
  | nil => exact h
  | cons id ids ih => exact ih (h.dropLink id)

@[simp] theorem links_foldl_dropLink (ids : List LinkId) :
    (ids.foldl (fun g id ↦ g.dropLink id) g).links = g.links.filter (fun l ↦ l.id ∉ ids) := by
  induction ids generalizing g with
  | nil => simp
  | cons id ids ih =>
    rw [List.foldl_cons, ih, links_dropLink, List.filter_filter]
    refine List.filter_congr fun l _ ↦ ?_
    simp only [List.mem_cons, not_or, Bool.decide_and]
    exact Bool.and_comm _ _

@[simp] theorem nodeNames_foldl_dropLink (ids : List LinkId) :
    (ids.foldl (fun g id ↦ g.dropLink id) g).nodeNames = g.nodeNames := by
  induction ids generalizing g with
  | nil => rfl
  | cons id ids ih => rw [List.foldl_cons, ih, nodeNames_dropLink]

/-- The links that are left when all links of a node are taken out. -/
theorem links_dropLinksOf (h : (g.links.map Link.id).Nodup) (name : String) :
    (g.dropLinksOf name).links = g.links.filter (fun l ↦ !l.touches name) := by
  rw [dropLinksOf, links_foldl_dropLink]
  refine List.filter_congr fun l hl ↦ ?_
  rw [Bool.eq_iff_iff, decide_eq_true_eq, Bool.not_eq_true', ← Bool.not_eq_true]
  refine not_congr ⟨fun hm ↦ ?_, fun ht ↦ List.mem_map_of_mem (List.mem_filter.mpr ⟨hl, ht⟩)⟩
  obtain ⟨k, hk, hid⟩ := List.mem_map.mp hm
  obtain ⟨hk, ht⟩ := List.mem_filter.mp hk
  exact List.inj_on_of_nodup_map h hk hl hid ▸ ht

end Graph
end PortGraph
