import PortGraph.Proofs.Graph.Plan

/-!
# The order of the nodes of a graph

The positions of a plan are turned into names.  `Feeds` says between which nodes there are links.

* A plan is refused for a cycle exactly when the links lead round in one, and blames the nodes that
  lie on a cycle or behind one (`WellLinked.sorted_eq_error_iff`).
* The order of a compiled graph is an order of its nodes (`IsOrder`) and the least of all of them
  when nodes are compared by the position at which they were added (`WellLinked.lex_order`).  Which
  nodes there are and which feed which decides it (`WellLinked.order_eq_of_feeds`).
-/

set_option autoImplicit false

namespace PortGraph
namespace Graph

open Relation

variable {β : Type} {g : Graph β}

/-! ## Links between nodes -/

/-- A link leads from one node to another. -/
def Feeds (g : Graph β) (u v : String) : Prop :=
  ∃ l ∈ g.links, l.source.node = u ∧ l.target.node = v

theorem joins_edges {u v : Nat} :
    Edge.Joins g.edges u v ↔ ∃ a b, g.Feeds a b ∧ g.rank a = u ∧ g.rank b = v := by
  rw [Edge.Joins, edges, List.mem_map]
  constructor
  · rintro ⟨l, hl, he⟩
    exact ⟨_, _, ⟨l, hl, rfl, rfl⟩, congrArg Prod.fst he, congrArg Prod.snd he⟩
  · rintro ⟨_, _, ⟨l, hl, rfl, rfl⟩, rfl, rfl⟩
    exact ⟨l, hl, rfl⟩

theorem Feeds.mem (h : g.WellLinked) {a b : String} (hf : g.Feeds a b) :
    a ∈ g.nodeNames ∧ b ∈ g.nodeNames := by
  obtain ⟨l, hl, rfl, rfl⟩ := hf
  exact ⟨h.node_mem hl .output, h.node_mem hl .input⟩

/-! ## Chains of links -/

theorem transGen_joins {a b : String} (hr : TransGen g.Feeds a b) :
    TransGen (Edge.Joins g.edges) (g.rank a) (g.rank b) :=
  hr.lift g.rank fun a b hf ↦ joins_edges.mpr ⟨a, b, hf, rfl, rfl⟩

theorem transGen_feeds (h : g.WellLinked) {u v : Nat} (hr : TransGen (Edge.Joins g.edges) u v) :
    ∃ a b, g.rank a = u ∧ g.rank b = v ∧ TransGen g.Feeds a b := by
  induction hr with
  | single he =>
    obtain ⟨a, b, hf, ha, hb⟩ := joins_edges.mp he
    exact ⟨a, b, ha, hb, .single hf⟩
  | tail _ he ih =>
    obtain ⟨a, b, ha, hb, hr⟩ := ih
    obtain ⟨c, d, hf, hc, hd⟩ := joins_edges.mp he
    have hbc : c = b := rank_inj (hf.mem h).1 (hc.trans hb.symm)
    exact ⟨a, d, ha, hd, hr.tail (hbc ▸ hf)⟩

theorem transGen_mem (h : g.WellLinked) {a b : String} (hr : TransGen g.Feeds a b) :
    a ∈ g.nodeNames ∧ b ∈ g.nodeNames := by
  obtain ⟨c, hac, -⟩ := TransGen.head'_iff.mp hr
  obtain ⟨d, -, hdb⟩ := TransGen.tail'_iff.mp hr
  exact ⟨(hac.mem h).1, (hdb.mem h).2⟩

/-- A node lies on a cycle of links exactly when its position lies on a cycle of edges. -/
theorem transGen_rank_iff (h : g.WellLinked) {a b : String} (ha : a ∈ g.nodeNames)
    (hb : b ∈ g.nodeNames) :
    TransGen (Edge.Joins g.edges) (g.rank a) (g.rank b) ↔ TransGen g.Feeds a b := by
  refine ⟨fun hr ↦ ?_, transGen_joins⟩
  obtain ⟨c, d, hc, hd, hr⟩ := transGen_feeds h hr
  rw [rank_inj ha hc.symm, rank_inj hb hd.symm]
  exact hr

/-- The links of a graph lead round in a cycle. -/
def IsCyclic (g : Graph β) : Prop := ∃ v, TransGen g.Feeds v v

/-- A node lies on a cycle or behind one. -/
def Tangled (g : Graph β) (v : String) : Prop :=
  ∃ u, TransGen g.Feeds u u ∧ ReflTransGen g.Feeds u v

theorem isCyclic_iff (h : g.WellLinked) :
    g.IsCyclic ↔ ∃ v, TransGen (Edge.Joins g.edges) v v := by
  constructor
  · rintro ⟨v, hr⟩
    exact ⟨g.rank v, transGen_joins hr⟩
  · rintro ⟨v, hr⟩
    obtain ⟨a, b, rfl, hb, hab⟩ := transGen_feeds h hr
    have heq : a = b := rank_inj (transGen_mem h hab).1 hb.symm
    exact ⟨a, by simpa [← heq] using hab⟩

theorem Tangled.mem (h : g.WellLinked) {v : String} (hv : g.Tangled v) : v ∈ g.nodeNames := by
  obtain ⟨u, hc, hr⟩ := hv
  rcases reflTransGen_iff_eq_or_transGen.mp hr with rfl | hr
  · exact (transGen_mem h hc).1
  · exact (transGen_mem h hr).2

theorem tangled_iff (h : g.WellLinked) {v : String} (hv : v ∈ g.nodeNames) :
    g.Tangled v ↔ ∃ u, TransGen (Edge.Joins g.edges) u u ∧
      ReflTransGen (Edge.Joins g.edges) u (g.rank v) := by
  constructor
  · rintro ⟨u, hc, hr⟩
    exact ⟨g.rank u, transGen_joins hc,
      hr.lift g.rank fun a b hf ↦ joins_edges.mpr ⟨a, b, hf, rfl, rfl⟩⟩
  · rintro ⟨u, hc, hr⟩
    obtain ⟨a, b, rfl, hb, hab⟩ := transGen_feeds h hc
    have heq : a = b := rank_inj (transGen_mem h hab).1 hb.symm
    have hcycle : TransGen g.Feeds a a := by simpa [← heq] using hab
    refine ⟨a, hcycle, ?_⟩
    rcases reflTransGen_iff_eq_or_transGen.mp hr with hva | hr
    · rw [rank_inj hv hva]
    · exact ((transGen_rank_iff h (transGen_mem h hcycle).1 hv).mp hr).to_reflTransGen

/-! ## Cycles -/

theorem namesAt_eq_map {positions : List Nat} (h : ∀ i ∈ positions, i < g.slots.length) :
    g.namesAt positions = positions.map fun i ↦ g.nodeNames[i]?.getD "" := by
  rw [namesAt_eq, ← List.filterMap_eq_map]
  refine List.filterMap_congr fun i hi ↦ ?_
  have hlt : i < g.nodeNames.length := by rw [nodeNames, List.length_map]; exact h i hi
  simp [hlt]

theorem namesAt_range (g : Graph β) : g.namesAt (List.range g.slots.length) = g.nodeNames := by
  have hlen : g.slots.length = g.nodeNames.length := (List.length_map ..).symm
  rw [namesAt_eq_map fun i hi ↦ List.mem_range.mp hi]
  refine List.ext_getElem (by simp [hlen]) fun i _ hi ↦ ?_
  simp [hi]

theorem map_rank_namesAt (hnd : g.nodeNames.Nodup) {positions : List Nat}
    (h : ∀ i ∈ positions, i < g.slots.length) : (g.namesAt positions).map g.rank = positions := by
  rw [namesAt_eq, List.map_filterMap]
  have hid : ∀ i ∈ positions, (g.nodeNames[i]?).map g.rank = some i := by
    intro i hi
    have hlt : i < g.nodeNames.length := by rw [nodeNames, List.length_map]; exact h i hi
    have hname := List.getElem?_eq_getElem hlt
    rw [hname, Option.map_some, rank_eq_of_getElem? hnd hname]
  rw [List.filterMap_congr hid, List.filterMap_some]

theorem namesAt_map_rank {names : List String} (hs : ∀ v ∈ names, v ∈ g.nodeNames) :
    g.namesAt (names.map g.rank) = names := by
  rw [namesAt_eq, List.filterMap_map]
  exact (List.filterMap_congr fun v hv ↦ getElem?_rank (hs v hv)).trans List.filterMap_some

/-- The names at the positions that pass a test are the names whose positions pass it. -/
theorem namesAt_filter_range (hnd : g.nodeNames.Nodup) (test : Nat → Bool) :
    g.namesAt ((List.range g.slots.length).filter test) =
      g.nodeNames.filter fun v ↦ test (g.rank v) := by
  have hall : ∀ i ∈ List.range g.slots.length, i < g.slots.length := fun i hi ↦
    List.mem_range.mp hi
  have hranks := map_rank_namesAt hnd hall
  rw [namesAt_range] at hranks
  conv_lhs => rw [← hranks, List.filter_map]
  exact namesAt_map_rank fun v hv ↦ (List.mem_filter.mp hv).1

/-- **An order is refused exactly when the links lead round in a cycle**, and the nodes blamed are
those that lie on a cycle or behind one, in the order in which they were added. -/
theorem WellLinked.sorted_eq_error_iff (h : g.WellLinked) {e : GraphError} :
    g.sorted = .error e ↔
      g.IsCyclic ∧ ∃ names : List String, e = .cyclicGraph names ∧ names.Sublist g.nodeNames ∧
        ∀ v, v ∈ names ↔ g.Tangled v := by
  have hb := bounded_edges h
  have hcycle : g.traversal.taken.length < g.slots.length ↔ g.IsCyclic :=
    (Traversal.length_lt_iff hb).trans (isCyclic_iff h).symm
  have hstuck : g.namesAt g.traversal.stuck =
      g.nodeNames.filter fun v ↦ g.rank v ∉ g.traversal.taken := by
    rw [traversal, Traversal.stuck_complete hb, namesAt_filter_range h.keys_nodup]
  have hmem : ∀ v, v ∈ g.namesAt g.traversal.stuck ↔ g.Tangled v := by
    intro v
    rw [hstuck, List.mem_filter, decide_eq_true_eq]
    constructor
    · rintro ⟨hv, hnew⟩
      exact (tangled_iff h hv).mpr (((Traversal.greedy_complete hb).notMem_iff
        (Traversal.exhausted_complete hb) hb (rank_lt hv)).mp hnew)
    · intro ht
      have hv := ht.mem h
      exact ⟨hv, ((Traversal.greedy_complete hb).notMem_iff
        (Traversal.exhausted_complete hb) hb (rank_lt hv)).mpr ((tangled_iff h hv).mp ht)⟩
  have hsub : (g.namesAt g.traversal.stuck).Sublist g.nodeNames := hstuck ▸ List.filter_sublist
  rw [sorted_eq h]
  split
  · rename_i hlt
    rw [Except.error.injEq]
    constructor
    · rintro rfl
      exact ⟨hcycle.mp hlt, _, rfl, hsub, hmem⟩
    · rintro ⟨-, names, rfl, hnames, hiff⟩
      -- two sublists of a list without repetition are equal if they have the same members
      have heq : g.namesAt g.traversal.stuck = names := by
        refine (List.Nodup.perm_iff_eq_of_sublist h.keys_nodup hsub hnames).mp ?_
        refine (List.perm_ext_iff_of_nodup (h.keys_nodup.sublist hsub)
          (h.keys_nodup.sublist hnames)).mpr fun v ↦ ?_
        rw [hmem, hiff]
      rw [heq]
  · rename_i hge
    simp only [reduceCtorEq, false_iff, not_and]
    exact fun hc ↦ absurd (hcycle.mpr hc) hge

theorem WellLinked.exists_sorted_eq_error (h : g.WellLinked) (hc : g.IsCyclic) :
    ∃ names, g.sorted = .error (.cyclicGraph names) := by
  classical
  refine ⟨g.nodeNames.filter fun v ↦ decide (g.Tangled v),
    h.sorted_eq_error_iff.mpr ⟨hc, _, rfl, List.filter_sublist, fun v ↦ ?_⟩⟩
  rw [List.mem_filter, decide_eq_true_eq]
  exact ⟨fun hv ↦ hv.2, fun hv ↦ ⟨hv.mem h, hv⟩⟩

/-! ## The order -/

/-- All nodes in an order in which every link leads from an earlier node to a later one. -/
def IsOrder (g : Graph β) (names : List String) : Prop :=
  names.Perm g.nodeNames ∧ ∀ u v, g.Feeds u v → names.idxOf u < names.idxOf v

theorem idxOf_map_eq {α γ : Type} [DecidableEq α] [DecidableEq γ] {f : α → γ} {a : α}
    {l : List α} (h : ∀ b ∈ l, f b = f a → b = a) : (l.map f).idxOf (f a) = l.idxOf a := by
  induction l with
  | nil => rfl
  | cons b l ih =>
    have hrest := ih fun c hc ↦ h c (List.mem_cons_of_mem _ hc)
    rw [List.map_cons, List.idxOf_cons, List.idxOf_cons, hrest]
    by_cases hba : b = a
    · simp [hba]
    · have hfba : f b ≠ f a := fun hf ↦ hba (h b List.mem_cons_self hf)
      rw [show (f b == f a) = false by simpa using hfba, show (b == a) = false by simpa using hba]

theorem lex_of_lex_map {α : Type} {f : α → Nat} {l l' : List α}
    (hinj : ∀ a ∈ l, ∀ b, f a = f b → a = b) (h : List.Lex (· < ·) (l.map f) (l'.map f)) :
    List.Lex (fun a b ↦ f a < f b) l l' := by
  induction l generalizing l' with
  | nil =>
    cases l' with
    | nil => exact absurd h (by simp)
    | cons b l' => exact .nil
  | cons a l ih =>
    cases l' with
    | nil => exact absurd h (by simp)
    | cons b l' =>
      rw [List.map_cons, List.map_cons] at h
      rcases List.cons_lex_cons_iff.mp h with hlt | heq
      · exact .rel hlt
      · obtain rfl := hinj a List.mem_cons_self b heq.1
        exact .cons (ih (fun c hc ↦ hinj c (List.mem_cons_of_mem _ hc)) heq.2)

theorem namesAt_perm {positions : List Nat} (hp : positions.Perm (List.range g.slots.length)) :
    (g.namesAt positions).Perm g.nodeNames := by
  have := hp.filterMap (g.nodeNames[·]?)
  rwa [← namesAt_eq, ← namesAt_eq, namesAt_range] at this

/-- A node has the same place in a list of nodes as its position has among theirs. -/
theorem idxOf_rank {names : List String} (hs : ∀ v ∈ names, v ∈ g.nodeNames) (v : String) :
    (names.map g.rank).idxOf (g.rank v) = names.idxOf v :=
  idxOf_map_eq fun _ hw heq ↦ rank_inj (hs _ hw) heq

/-- Orders of the names are orders of the positions. -/
theorem topological_map_rank_iff {names : List String} (hs : ∀ v ∈ names, v ∈ g.nodeNames) :
    Edge.Topological g.edges (names.map g.rank) ↔
      ∀ u v, g.Feeds u v → names.idxOf u < names.idxOf v := by
  constructor
  · intro ht u v hf
    rw [← idxOf_rank hs u, ← idxOf_rank hs v]
    exact ht _ _ (joins_edges.mpr ⟨u, v, hf, rfl, rfl⟩)
  · intro hf u v he
    obtain ⟨a, b, hab, rfl, rfl⟩ := joins_edges.mp he
    rw [idxOf_rank hs a, idxOf_rank hs b]
    exact hf a b hab

/-- The order of a graph that keeps to its plan, as positions. -/
theorem WellLinked.order_eq (h : g.WellLinked) (hp : g.plan = .ok g.schedule) :
    g.order = g.namesAt g.traversal.taken ∧ g.order.map g.rank = g.traversal.taken ∧
      g.traversal.taken.Perm (List.range g.slots.length) := by
  obtain ⟨hnodes, hperm⟩ := h.map_node_of_plan hp
  rw [hnodes] at hperm
  refine ⟨by rw [order, hnodes], ?_, hperm⟩
  rw [order, hnodes]
  exact map_rank_namesAt h.keys_nodup fun i hi ↦ List.mem_range.mp (hperm.subset hi)

/-- **Every node has one turn, and every link leads forward**, in the order of a graph that keeps
to its plan. -/
theorem WellLinked.isOrder_order (h : g.WellLinked) (hp : g.plan = .ok g.schedule) :
    g.IsOrder g.order := by
  obtain ⟨horder, hranks, hperm⟩ := h.order_eq hp
  have hall : g.order.Perm g.nodeNames := horder ▸ namesAt_perm hperm
  refine ⟨hall, (topological_map_rank_iff fun v hv ↦ hall.subset hv).mp ?_⟩
  rw [hranks]
  refine (Traversal.greedy_complete (bounded_edges h)).topological fun u v he ↦ ?_
  exact hperm.symm.subset (List.mem_range.mpr (bounded_edges h _ he).2)

/-- **It is the least order**, when nodes are compared by the position at which they were added. -/
theorem WellLinked.lex_order (h : g.WellLinked) (hp : g.plan = .ok g.schedule)
    {names : List String} (ho : g.IsOrder names) (hne : names ≠ g.order) :
    List.Lex (fun u v ↦ g.rank u < g.rank v) g.order names := by
  obtain ⟨-, hranks, -⟩ := h.order_eq hp
  obtain ⟨hall, -⟩ := h.isOrder_order hp
  have hinj : ∀ u ∈ g.order, ∀ v, g.rank u = g.rank v → u = v := fun u hu v huv ↦
    rank_inj (hall.subset hu) huv
  have hperm : (names.map g.rank).Perm g.traversal.taken := by
    rw [← hranks]
    exact (ho.1.trans hall.symm).map _
  have hneq : names.map g.rank ≠ g.traversal.taken := by
    rw [← hranks]
    intro heq
    have hnames := congrArg g.namesAt heq
    rw [namesAt_map_rank fun v hv ↦ ho.1.subset hv,
      namesAt_map_rank fun v hv ↦ hall.subset hv] at hnames
    exact hne hnames
  have hgreedy : Edge.Greedy g.slots.length g.edges g.traversal.taken :=
    Traversal.greedy_complete (bounded_edges h)
  refine lex_of_lex_map hinj (hranks ▸ hgreedy.lex_of_topological hperm ?_ hneq)
  exact (topological_map_rank_iff fun v hv ↦ ho.1.subset hv).mpr ho.2

/-- **Which nodes there are and which feed which decides the order**: neither the order in which
links were made nor how many join two nodes has a part in it. -/
theorem WellLinked.order_eq_of_feeds {γ : Type} {k : Graph γ} (h : g.WellLinked)
    (hp : g.plan = .ok g.schedule) (h' : k.WellLinked) (hp' : k.plan = .ok k.schedule)
    (hnames : k.nodeNames = g.nodeNames) (hfeeds : ∀ u v, k.Feeds u v ↔ g.Feeds u v) :
    k.order = g.order := by
  obtain ⟨horder, -, hperm⟩ := h.order_eq hp
  obtain ⟨horder', -, hperm'⟩ := h'.order_eq hp'
  have hlen : k.slots.length = g.slots.length := by
    simpa [nodeNames] using congrArg List.length hnames
  have hjoins : ∀ u v, Edge.Joins g.edges u v ↔ Edge.Joins k.edges u v := by
    intro u v
    simp only [joins_edges, rank, hnames, hfeeds]
  have htaken : g.traversal.taken = k.traversal.taken := by
    have hk := Traversal.greedy_complete (bounded_edges h')
    rw [hlen] at hk hperm'
    refine (Traversal.greedy_complete (bounded_edges h)).eq_of_joins hjoins ?_
      (hperm'.trans hperm.symm) fun u v he ↦ ?_
    · rw [traversal, hlen]
      exact hk
    · exact hperm.symm.subset (List.mem_range.mpr (bounded_edges h _ he).2)
  rw [horder, horder', htaken, namesAt_eq, namesAt_eq, hnames]

end Graph
end PortGraph
