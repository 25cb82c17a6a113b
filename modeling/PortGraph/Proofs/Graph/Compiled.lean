import PortGraph.Proofs.Graph.Order
import PortGraph.Proofs.Graph.Reachable

/-!
# What compiling finds out

Two things a host learns when it compiles a graph.

* If the graph compiles, in which order its nodes run (`Reachable.order_canonical`): the least of
  the orders in which every link leads forward, whatever the graph went through before.
* If it does not, whether this is for a cycle and which nodes are to blame
  (`Reachable.compile_cyclic`).
-/

set_option autoImplicit false

namespace PortGraph
namespace Graph

open Relation

variable {β : Type} {life : Lifecycle β} {g k : Graph β}

/-! ## The order -/

theorem nodeNames_of_skeleton_eq (h : k.skeleton = g.skeleton) : k.nodeNames = g.nodeNames := by
  rw [← nodeNames_skeleton, h, nodeNames_skeleton]

theorem links_of_skeleton_eq (h : k.skeleton = g.skeleton) : k.links = g.links := by
  rw [← skeleton_links, h, skeleton_links]

theorem feeds_of_skeleton_eq (h : k.skeleton = g.skeleton) : k.Feeds = g.Feeds := by
  funext u v
  rw [Feeds, Feeds, links_of_skeleton_eq h]

theorem isOrder_of_skeleton_eq (h : k.skeleton = g.skeleton) : k.IsOrder = g.IsOrder := by
  funext names
  rw [IsOrder, IsOrder, nodeNames_of_skeleton_eq h, feeds_of_skeleton_eq h]

/-- What is known of a graph that was compiled. -/
theorem Reachable.compiled (h : g.Reachable) (hk : life.KeepsOutline) {stamp : Nat}
    (hok : (g.compile life stamp).result = (.ok (), k)) :
    k.WellLinked ∧ k.plan = .ok k.schedule ∧ k.skeleton = g.skeleton := by
  have hskel := skeleton_compile hk g stamp
  have hcached := h.cached.compile hk h.wellLinked stamp
  have hready := isReady_of_compile hk h.wellLinked (congrArg Prod.fst hok)
  rw [hok] at hskel hcached hready
  exact ⟨h.wellLinked.of_skeleton_eq hskel, hcached.plan hready, hskel⟩

/-- **The order of a compiled graph is canonical.**  Every node has one turn in it, every link
leads forward, and of all such orders it is the least when nodes are compared by the position at
which they were added.  So graphs of the same nodes, of which the same feed one another, come to
the same order, however they came about. -/
theorem Reachable.order_canonical (h : g.Reachable) (hk : life.KeepsOutline) {stamp : Nat}
    (hok : (g.compile life stamp).result = (.ok (), k)) :
    g.IsOrder k.order ∧
      (∀ names, g.IsOrder names → names ≠ k.order →
        List.Lex (fun u v ↦ g.rank u < g.rank v) k.order names) ∧
      ∀ (γ : Type) (life' : Lifecycle γ) (g' k' : Graph γ) (stamp' : Nat), g'.Reachable →
        life'.KeepsOutline → (g'.compile life' stamp').result = (.ok (), k') →
        g'.nodeNames = g.nodeNames → (∀ u v, g'.Feeds u v ↔ g.Feeds u v) → k'.order = k.order := by
  obtain ⟨hg, hp, hskel⟩ := h.compiled hk hok
  have hrank : ∀ v, k.rank v = g.rank v := fun v ↦ by
    rw [rank, rank, nodeNames_of_skeleton_eq hskel]
  refine ⟨isOrder_of_skeleton_eq hskel ▸ hg.isOrder_order hp, fun names ho hne ↦ ?_, ?_⟩
  · have hlex := hg.lex_order hp (isOrder_of_skeleton_eq hskel ▸ ho) hne
    simpa only [hrank] using hlex
  · intro γ life' g' k' stamp' h' hk' hok' hnames hfeeds
    obtain ⟨hg', hp', hskel'⟩ := h'.compiled hk' hok'
    refine hg.order_eq_of_feeds hp hg' hp' ?_ fun u v ↦ ?_
    · rw [nodeNames_of_skeleton_eq hskel', hnames, nodeNames_of_skeleton_eq hskel]
    · rw [feeds_of_skeleton_eq hskel', hfeeds, feeds_of_skeleton_eq hskel]

theorem order_canonical_sample : ∃ k, (sample.compile .idle 0).result = (.ok (), k) ∧
    sample.IsOrder k.order ∧ ∀ names, sample.IsOrder names → names ≠ k.order →
      List.Lex (fun u v ↦ sample.rank u < sample.rank v) k.order names := by
  obtain ⟨⟨⟩, hok⟩ := exists_ok_of_isOk (x := (sample.compile .idle 0).result.1) (by decide +kernel)
  obtain ⟨k, hk⟩ : ∃ k, (sample.compile .idle 0).result = (.ok (), k) := ⟨_, Prod.ext hok rfl⟩
  obtain ⟨horder, hleast, -⟩ := reachable_sample.order_canonical keepsOutline_idle hk
  exact ⟨k, hk, horder, hleast⟩

/-! ## Cycles -/

/-- A graph whose nodes all get ready does not compile for the reason for which it has no plan. -/
theorem compile_eq_error_iff (h : g.isReady = false) {e : GraphError}
    (he : ∀ name cause, e ≠ .initFailed name cause) (stamp : Nat) :
    (g.compile life stamp).result.1 = .error e ↔ g.plan = .error e := by
  refine ⟨fun h' ↦ ?_, fun hp ↦ congrArg Prod.fst (compile_of_error h hp stamp)⟩
  obtain ⟨-, ⟨hp, -⟩ | ⟨_, _, _, -, hinit⟩⟩ := compile_eq_error (Prod.ext h' rfl)
  · exact hp
  · obtain ⟨⟨name, cause, rfl⟩, -⟩ := initAll_error hinit
    exact absurd rfl (he name cause)

/-- **Compiling blames a cycle exactly when the links lead round in one**, and then names the nodes
that lie on a cycle or behind one, each once and in the order in which they were added.  While it
counts, no count of edges falls below zero. -/
theorem Reachable.compile_cyclic (h : g.Reachable) (hr : g.isReady = false)
    (life : Lifecycle β) (stamp : Nat) :
    ((∃ names, (g.compile life stamp).result.1 = .error (.cyclicGraph names)) ↔
        ∃ v, TransGen g.Feeds v v) ∧
      (∀ names, (g.compile life stamp).result.1 = .error (.cyclicGraph names) →
        names.Sublist g.nodeNames ∧ names.Nodup ∧
          ∀ v, v ∈ names ↔ ∃ u, TransGen g.Feeds u u ∧ ReflTransGen g.Feeds u v) ∧
      ∀ edges, g.links.mapM g.edge = .ok edges →
        ∀ t, Traversal.Reaches edges (.start g.slots.length edges) t → ∀ d ∈ t.degrees, 0 ≤ d := by
  have hg := h.wellLinked
  -- cycles are found before inputs are, so no missing input hides one
  have hiff : ∀ names, (g.compile life stamp).result.1 = .error (.cyclicGraph names) ↔
      g.IsCyclic ∧ names.Sublist g.nodeNames ∧ ∀ v, v ∈ names ↔ g.Tangled v := by
    intro names
    rw [compile_eq_error_iff hr (by simp), hg.plan_eq_error_iff, hg.sorted_eq_error_iff]
    constructor
    · rintro (⟨hc, names', heq, hnames⟩ | ⟨-, place, -, heq⟩)
      · obtain rfl := GraphError.cyclicGraph.inj heq
        exact ⟨hc, hnames⟩
      · exact absurd heq (by simp)
    · rintro ⟨hc, hnames⟩
      exact .inl ⟨hc, names, rfl, hnames⟩
  refine ⟨⟨?_, fun hc ↦ ?_⟩, ?_, ?_⟩
  · rintro ⟨names, hn⟩
    exact ((hiff names).mp hn).1
  · obtain ⟨names, hn⟩ := hg.exists_sorted_eq_error hc
    exact ⟨names, (compile_eq_error_iff hr (by simp) stamp).mpr
      (hg.plan_eq_error_iff.mpr (.inl hn))⟩
  · intro names hn
    obtain ⟨-, hsub, hmem⟩ := (hiff names).mp hn
    exact ⟨hsub, hg.keys_nodup.sublist hsub, hmem⟩
  · intro edges he t ht
    obtain rfl : g.edges = edges := Except.ok.inj ((mapM_edge hg).symm.trans he)
    exact Traversal.degrees_nonneg_of_reaches (bounded_edges hg) ht (Traversal.pending_start _ _)

/-- The graph of a node that feeds itself and one behind it. -/
def sampleRing : Graph Unit :=
  ((Request.addLink ⟨"a", "out"⟩ ⟨"a", "in"⟩).perform .idle makeNone sample 1).result

theorem reachable_sampleRing : sampleRing.Reachable :=
  reachable_sample.step _ keepsOutline_idle (fun _ hn ↦ hn.elim) fun _ _ _ ↦ by decide

theorem compile_cyclic_sampleRing : sampleRing.isReady = false ∧
    ∃ names, (sampleRing.compile .idle 0).result.1 = .error (.cyclicGraph names) ∧
      "a" ∈ names ∧ "b" ∈ names := by
  have hlinks : sampleRing.Feeds "a" "a" ∧ sampleRing.Feeds "a" "b" := by
    unfold Feeds
    decide
  obtain ⟨hiff, hnames, -⟩ := reachable_sampleRing.compile_cyclic (by decide) .idle 0
  obtain ⟨names, hn⟩ := hiff.mpr ⟨"a", .single hlinks.1⟩
  obtain ⟨-, -, hmem⟩ := hnames names hn
  refine ⟨by decide, names, hn, (hmem _).mpr ?_, (hmem _).mpr ?_⟩
  · exact ⟨"a", .single hlinks.1, .refl⟩
  · exact ⟨"a", .single hlinks.1, .single hlinks.2⟩

end Graph
end PortGraph
