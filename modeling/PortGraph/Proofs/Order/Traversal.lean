import PortGraph.Graph.Order
import Mathlib.Data.List.Nodup
import Mathlib.Data.List.Count
import Mathlib.Data.List.Perm.Basic

/-!
# What a traversal keeps true

A traversal is judged by `Edge.Greedy`, which does not mention degrees: a list is greedy when each
of its vertices is the least one that all edges into it leave from vertices before it.

* `Pending` ties the degrees and the free vertices of a traversal to the edges and to the vertices
  taken so far, also in the middle of a round, when some edges out of the vertex just taken are
  still to be dropped.
* `Pending.lower` and `Pending.pop` are the two things that happen, and `pending_run` is what
  comes of all rounds together: when the traversal ends, no vertex is free.
* `Reaches` lists the traversals that a run goes through one edge at a time, and
  `degrees_nonneg_of_reaches` says that no degree is ever lowered below zero.
-/

set_option autoImplicit false

namespace PortGraph

/-! ## Greedy lists -/

namespace Edge

/-- Every edge joins two vertices below `n`. -/
def Bounded (n : Nat) (edges : List Edge) : Prop := ∀ e ∈ edges, e.1 < n ∧ e.2 < n

/-- Every edge into `v` leaves one of the vertices that were taken. -/
def FreeAfter (edges : List Edge) (taken : List Nat) (v : Nat) : Prop :=
  ∀ e ∈ edges, e.2 = v → e.1 ∈ taken

/-- Each vertex of the list is the least that is free after those before it. -/
inductive Greedy (n : Nat) (edges : List Edge) : List Nat → Prop
  | nil : Greedy n edges []
  | snoc {taken : List Nat} {v : Nat} (h : Greedy n edges taken) (lt : v < n) (new : v ∉ taken)
      (free : FreeAfter edges taken v)
      (least : ∀ w, w < n → w ∉ taken → FreeAfter edges taken w → v ≤ w) :
      Greedy n edges (taken ++ [v])

theorem Greedy.lt {n : Nat} {edges : List Edge} {taken : List Nat} (h : Greedy n edges taken) :
    ∀ v ∈ taken, v < n := by
  induction h with
  | nil => simp
  | snoc _ lt _ _ _ ih =>
    intro v hv
    rcases List.mem_append.mp hv with hv | hv
    · exact ih v hv
    · rw [List.mem_singleton.mp hv]; exact lt

theorem Greedy.nodup {n : Nat} {edges : List Edge} {taken : List Nat} (h : Greedy n edges taken) :
    taken.Nodup := by
  induction h with
  | nil => exact List.nodup_nil
  | snoc _ _ new _ _ ih => rw [← List.concat_eq_append]; exact ih.concat new

end Edge

namespace Traversal

/-! ## Increasing lists -/

theorem mem_insert {v x : Nat} {ws : List Nat} : x ∈ insert v ws ↔ x = v ∨ x ∈ ws := by
  induction ws with
  | nil => simp [insert]
  | cons w ws ih =>
    rw [insert]
    split
    · rw [List.mem_cons]
    · split
      · rename_i hvw
        subst hvw
        rw [List.mem_cons]
        exact ⟨.inr, fun h ↦ h.elim .inl id⟩
      · rw [List.mem_cons, ih, List.mem_cons]
        exact or_left_comm

theorem pairwise_insert {v : Nat} {ws : List Nat} (h : ws.Pairwise (· < ·)) :
    (insert v ws).Pairwise (· < ·) := by
  induction ws with
  | nil => exact List.pairwise_singleton _ _
  | cons w ws ih =>
    obtain ⟨hw, hws⟩ := List.pairwise_cons.mp h
    rw [insert]
    split
    · rename_i hvw
      refine List.pairwise_cons.mpr ⟨fun x hx ↦ ?_, h⟩
      rcases List.mem_cons.mp hx with rfl | hx
      · exact hvw
      · exact Nat.lt_trans hvw (hw x hx)
    · split
      · exact h
      · refine List.pairwise_cons.mpr ⟨fun x hx ↦ ?_, ih hws⟩
        rcases mem_insert.mp hx with rfl | hx
        · omega
        · exact hw x hx

/-! ## Edges that still count -/

/-- How many edges still enter `w`: those from vertices that were not taken, and those out of the
vertex just taken that are still to be dropped, whose targets are `post`. -/
def owed (edges : List Edge) (taken post : List Nat) (w : Nat) : Nat :=
  edges.countP (fun e ↦ e.2 = w ∧ e.1 ∉ taken) + post.count w

theorem owed_nil_eq_zero_iff {edges : List Edge} {taken : List Nat} {w : Nat} :
    owed edges taken [] w = 0 ↔ Edge.FreeAfter edges taken w := by
  rw [owed, List.count_nil, Nat.add_zero, List.countP_eq_zero]
  refine forall₂_congr fun e _ ↦ ?_
  simp

theorem owed_cons (edges : List Edge) (taken post : List Nat) (u w : Nat) :
    owed edges taken (u :: post) w = owed edges taken post w + if u = w then 1 else 0 := by
  rw [owed, owed, List.count_cons, Nat.add_assoc]
  simp

/-- Taking a vertex moves the edges out of it from one count to the other. -/
theorem owed_pop {edges : List Edge} {taken : List Nat} {v : Nat} (hv : v ∉ taken) (w : Nat) :
    owed edges (taken ++ [v]) (Edge.successors edges v) w = owed edges taken [] w := by
  simp only [owed, List.count_nil, Nat.add_zero]
  induction edges with
  | nil => rfl
  | cons e edges ih =>
    simp only [Edge.successors, List.filter_cons, List.countP_cons] at ih ⊢
    by_cases he : e.1 = v
    · by_cases hw : e.2 = w
      · simp_all; omega
      · simp_all
    · simp_all; omega

/-! ## The invariant -/

/-- Where a traversal stands in the middle of a round, when one edge is still to be dropped for
each vertex of `post`. -/
structure Pending (n : Nat) (edges : List Edge) (post : List Nat) (t : Traversal) : Prop where
  /-- The degrees are the counts of edges. -/
  degrees : t.degrees = (List.range n).map fun w ↦ (owed edges t.taken post w : Int)
  /-- The free vertices increase. -/
  increasing : t.free.Pairwise (· < ·)
  /-- The free vertices are those left that nothing enters. -/
  mem_free : ∀ w, w ∈ t.free ↔ w < n ∧ w ∉ t.taken ∧ owed edges t.taken post w = 0
  /-- Nothing enters the vertices that were taken. -/
  settled : ∀ w ∈ t.taken, owed edges t.taken post w = 0
  /-- The vertices were taken greedily. -/
  greedy : Edge.Greedy n edges t.taken

theorem pending_start (n : Nat) (edges : List Edge) : Pending n edges [] (start n edges) where
  degrees := by simp [start, owed]
  increasing := List.Pairwise.filter _ List.pairwise_lt_range
  mem_free w := by simp [start, owed]
  settled w hw := by simp [start] at hw
  greedy := .nil

theorem modify_map_range (n u : Nat) (f : Nat → Int) (g : Int → Int) :
    ((List.range n).map f).modify u g =
      (List.range n).map fun w ↦ if u = w then g (f w) else f w := by
  refine List.ext_getElem? fun i ↦ ?_
  rw [List.getElem?_modify, List.getElem?_map, List.getElem?_map]
  by_cases hi : i < n
  · rw [List.getElem?_range hi]
    by_cases hu : u = i <;> simp [hu]
  · rw [List.getElem?_eq_none (by simpa using hi)]
    rfl

/-- **One edge less.** -/
theorem Pending.lower {n : Nat} {edges : List Edge} {u : Nat} {post : List Nat} {t : Traversal}
    (h : Pending n edges (u :: post) t) (hu : u < n) : Pending n edges post (t.lower u) := by
  have howed : ∀ w, owed edges t.taken (u :: post) w =
      owed edges t.taken post w + if u = w then 1 else 0 := owed_cons edges t.taken post u
  have hdeg : t.degrees.modify u (· - 1) =
      (List.range n).map fun w ↦ (owed edges t.taken post w : Int) := by
    rw [h.degrees, modify_map_range]
    refine List.map_congr_left fun w _ ↦ ?_
    rw [howed w]
    split <;> simp
  have hzero : (t.degrees.modify u (· - 1))[u]? = some 0 ↔ owed edges t.taken post u = 0 := by
    rw [hdeg, List.getElem?_map, List.getElem?_range hu]
    simp
  -- the edge that is dropped shows that `u` was neither taken nor free
  have hpos : owed edges t.taken (u :: post) u ≠ 0 := by rw [howed u, if_pos rfl]; omega
  have hnew : u ∉ t.taken := fun hm ↦ hpos (h.settled u hm)
  have hfree : u ∉ t.free := fun hm ↦ hpos ((h.mem_free u).mp hm).2.2
  have hother : ∀ w, w ≠ u → owed edges t.taken (u :: post) w = owed edges t.taken post w := by
    intro w hw
    rw [howed w, if_neg (Ne.symm hw), Nat.add_zero]
  refine ⟨hdeg, ?_, fun w ↦ ?_, fun w hw ↦ ?_, h.greedy⟩
  · rw [Traversal.lower]
    dsimp only
    split
    · exact pairwise_insert h.increasing
    · exact h.increasing
  · by_cases hw : w = u
    · subst hw
      rw [Traversal.lower]
      dsimp only
      split
      · rename_i hz
        simp [mem_insert, hu, hnew, hzero.mp hz]
      · rename_i hz
        have h0 : owed edges t.taken post w ≠ 0 := fun h0 ↦ hz (hzero.mpr h0)
        simp [hfree, h0]
    · have hmem : w ∈ (t.lower u).free ↔ w ∈ t.free := by
        rw [Traversal.lower]
        dsimp only
        split
        · rw [mem_insert]; simp [hw]
        · exact Iff.rfl
      rw [hmem, h.mem_free w, hother w hw]
      rfl
  · have hwu : w ≠ u := fun he ↦ hnew (he ▸ hw)
    exact (hother w hwu).symm.trans (h.settled w hw)

/-- **A free vertex is taken.** -/
theorem Pending.pop {n : Nat} {edges : List Edge} {t : Traversal} {v : Nat} {rest : List Nat}
    (h : Pending n edges [] t) (hf : t.free = v :: rest) :
    Pending n edges (Edge.successors edges v) (t.pop v rest) := by
  have hv := (h.mem_free v).mp (by rw [hf]; exact List.mem_cons_self)
  have hinc : (v :: rest).Pairwise (· < ·) := hf ▸ h.increasing
  obtain ⟨hvlt, hrest⟩ := List.pairwise_cons.mp hinc
  -- what the edges out of the vertex lead to is only promised, and not yet taken off the degrees
  have howed : ∀ w, owed edges (t.taken ++ [v]) (Edge.successors edges v) w =
      owed edges t.taken [] w := owed_pop hv.2.1
  have hmem : ∀ w, w ∈ rest ↔ w ∈ t.free ∧ w ≠ v := by
    intro w
    rw [hf, List.mem_cons]
    refine ⟨fun hw ↦ ⟨.inr hw, Nat.ne_of_gt (hvlt w hw)⟩, fun hw ↦ hw.1.resolve_left hw.2⟩
  refine ⟨?_, hrest, fun w ↦ ?_, fun w hw ↦ ?_, ?_⟩
  · rw [Traversal.pop, h.degrees]
    simp only [howed]
  · rw [show (t.pop v rest).free = rest from rfl, hmem w, h.mem_free w]
    simp only [Traversal.pop, howed, List.mem_append, List.mem_singleton, not_or]
    constructor
    · rintro ⟨⟨hlt, hnew, hzero⟩, hne⟩
      exact ⟨hlt, ⟨hnew, hne⟩, hzero⟩
    · rintro ⟨hlt, ⟨hnew, hne⟩, hzero⟩
      exact ⟨⟨hlt, hnew, hzero⟩, hne⟩
  · rw [show (t.pop v rest).taken = t.taken ++ [v] from rfl] at hw ⊢
    rw [howed w]
    rcases List.mem_append.mp hw with hw | hw
    · exact h.settled w hw
    · rw [List.mem_singleton.mp hw]; exact hv.2.2
  -- the first of the free vertices is the least one of those that nothing holds back
  · refine h.greedy.snoc hv.1 hv.2.1 (owed_nil_eq_zero_iff.mp hv.2.2) fun w hw hnew hfree ↦ ?_
    have hwf := (h.mem_free w).mpr ⟨hw, hnew, owed_nil_eq_zero_iff.mpr hfree⟩
    rw [hf, List.mem_cons] at hwf
    rcases hwf with rfl | hwf
    · exact Nat.le_refl _
    · exact Nat.le_of_lt (hvlt w hwf)

theorem mem_successors {edges : List Edge} {v w : Nat} :
    w ∈ Edge.successors edges v ↔ (v, w) ∈ edges := by
  simp only [Edge.successors, List.mem_map, List.mem_filter, decide_eq_true_eq]
  exact ⟨fun ⟨e, ⟨he, hv⟩, hw⟩ ↦ hv ▸ hw ▸ he, fun h ↦ ⟨(v, w), ⟨h, rfl⟩, rfl⟩⟩

theorem Pending.foldl_lower {n : Nat} {edges : List Edge} {pre post : List Nat} {t : Traversal}
    (h : Pending n edges (pre ++ post) t) (hlt : ∀ u ∈ pre, u < n) :
    Pending n edges post (pre.foldl Traversal.lower t) := by
  induction pre generalizing t with
  | nil => exact h
  | cons u pre ih =>
    exact ih (h.lower (hlt u List.mem_cons_self)) fun x hx ↦ hlt x (List.mem_cons_of_mem _ hx)

theorem Pending.take {n : Nat} {edges : List Edge} (hb : Edge.Bounded n edges) {t : Traversal}
    {v : Nat} {rest : List Nat} (h : Pending n edges [] t) (hf : t.free = v :: rest) :
    Pending n edges [] (t.take edges v rest) := by
  have hp : Pending n edges (Edge.successors edges v ++ []) (t.pop v rest) := by
    rw [List.append_nil]
    exact h.pop hf
  exact hp.foldl_lower fun u hu ↦ (hb _ (mem_successors.mp hu)).2

/-- **Running a traversal to its end** keeps the invariant. -/
theorem pending_run {n : Nat} {edges : List Edge} (hb : Edge.Bounded n edges) {t : Traversal}
    (h : Pending n edges [] t) : Pending n edges [] (t.run edges) := by
  induction t using Traversal.run.induct edges with
  | case1 t hf => rw [run]; split <;> simp_all
  | case2 t v rest hf ih =>
    rw [run]
    split
    · exact h
    · rename_i v' rest' hf'
      obtain ⟨rfl, rfl⟩ : v' = v ∧ rest' = rest := by rw [hf] at hf'; simpa using hf'.symm
      exact ih (h.take hb hf)

/-- A traversal ends when no vertex is free. -/
theorem free_run (edges : List Edge) (t : Traversal) : (t.run edges).free = [] := by
  induction t using Traversal.run.induct edges with
  | case1 t hf => rw [run]; split <;> simp_all
  | case2 t v rest hf ih =>
    rw [run]
    split
    · assumption
    · rename_i v' rest' hf'
      obtain ⟨rfl, rfl⟩ : v' = v ∧ rest' = rest := by rw [hf] at hf'; simpa using hf'.symm
      exact ih

/-! ## Degrees stay natural -/

/-- The traversals a run goes through, one dropped edge at a time. -/
inductive Reaches (edges : List Edge) : Traversal → Traversal → Prop
  /-- A run starts where it starts. -/
  | here (t : Traversal) : Reaches edges t t
  /-- Some of the edges out of the vertex just taken have been dropped. -/
  | within {t : Traversal} {v : Nat} {rest pre post : List Nat} (hf : t.free = v :: rest)
      (hs : Edge.successors edges v = pre ++ post) :
      Reaches edges t (pre.foldl lower (t.pop v rest))
  /-- A whole round is over. -/
  | next {t u : Traversal} {v : Nat} {rest : List Nat} (hf : t.free = v :: rest)
      (h : Reaches edges (t.take edges v rest) u) : Reaches edges t u

theorem Pending.nonneg {n : Nat} {edges : List Edge} {post : List Nat} {t : Traversal}
    (h : Pending n edges post t) : ∀ d ∈ t.degrees, 0 ≤ d := by
  rw [h.degrees]
  intro d hd
  obtain ⟨w, -, rfl⟩ := List.mem_map.mp hd
  exact Int.natCast_nonneg _

/-- **No degree is lowered below zero**, however many edges join the same two vertices. -/
theorem degrees_nonneg_of_reaches {n : Nat} {edges : List Edge} (hb : Edge.Bounded n edges)
    {t u : Traversal} (hr : Reaches edges t u) (h : Pending n edges [] t) :
    ∀ d ∈ u.degrees, 0 ≤ d := by
  induction hr with
  | here t => exact h.nonneg
  | @within t v rest pre post hf hs =>
    have hp : Pending n edges (pre ++ post) (t.pop v rest) := hs ▸ h.pop hf
    refine (hp.foldl_lower fun u hu ↦ ?_).nonneg
    exact (hb _ (mem_successors.mp (hs ▸ List.mem_append_left _ hu))).2
  | next hf _ ih => exact ih (h.take hb hf)

end Traversal

end PortGraph
