import PortGraph.Proofs.Order.Traversal
import Mathlib.Data.Finite.Defs
import Mathlib.Data.Set.Finite.Basic
import Mathlib.Logic.Relation
import Mathlib.Order.WellFoundedSet

/-!
# Greedy lists are canonical

What a greedy list says about the edges it was made from.

* It is topological (`Greedy.topological`), and every other topological list of the same vertices
  comes after it in lexicographic order (`Greedy.lex_of_topological`): where the two differ first,
  the greedy list has the least free vertex and the other one some free vertex.
* It depends on which vertices are joined, not on how often or in which order the edges are listed
  (`Greedy.eq_of_joins`).
* When it cannot be continued, the vertices it leaves out are those that lie on a cycle or behind
  one (`Greedy.notMem_iff`).
-/

set_option autoImplicit false

namespace PortGraph
namespace Edge

open Relation

variable {n : Nat} {edges edges' : List Edge} {taken : List Nat}

/-- An edge leads from `u` to `v`. -/
def Joins (edges : List Edge) (u v : Nat) : Prop := (u, v) ∈ edges

/-- Every edge leads from an earlier vertex of the list to a later one. -/
def Topological (edges : List Edge) (l : List Nat) : Prop :=
  ∀ u v, Joins edges u v → l.idxOf u < l.idxOf v

/-- A greedy list has taken every vertex that can be taken. -/
def Exhausted (n : Nat) (edges : List Edge) (taken : List Nat) : Prop :=
  ∀ v, v < n → v ∉ taken → ¬ FreeAfter edges taken v

/-! ## The order of a greedy list -/

/-- What is known of each vertex of a greedy list. -/
theorem Greedy.of_append {l post : List Nat} {v : Nat} (h : Greedy n edges l) :
    ∀ {pre : List Nat}, l = pre ++ v :: post →
      v ∉ pre ∧ FreeAfter edges pre v ∧
        ∀ w, w < n → w ∉ pre → FreeAfter edges pre w → v ≤ w := by
  induction h generalizing post with
  | nil => intro pre h; simp at h
  | @snoc taken x _ _ new free least ih =>
    intro pre h
    rcases List.eq_nil_or_concat post with rfl | ⟨post, z, rfl⟩
    · obtain ⟨rfl, hx⟩ := List.append_inj' h rfl
      obtain rfl : x = v := by simpa using hx
      exact ⟨new, free, least⟩
    · have h' : taken ++ [x] = (pre ++ v :: post) ++ [z] := by simpa using h
      exact ih (List.append_inj' h' rfl).1

theorem Greedy.split {v : Nat} (h : Greedy n edges taken) (hv : v ∈ taken) :
    ∃ pre post, taken = pre ++ v :: post ∧ taken.idxOf v = pre.length ∧
      FreeAfter edges pre v := by
  obtain ⟨pre, post, rfl⟩ := List.append_of_mem hv
  obtain ⟨hpre, hfree, -⟩ := h.of_append rfl
  refine ⟨pre, post, rfl, ?_, hfree⟩
  rw [List.idxOf_append_of_notMem hpre, List.idxOf_cons_self, Nat.add_zero]

/-- In a greedy list the edges into a vertex come from earlier vertices. -/
theorem Greedy.idxOf_lt {u v : Nat} (h : Greedy n edges taken) (hv : v ∈ taken)
    (he : Joins edges u v) : u ∈ taken ∧ taken.idxOf u < taken.idxOf v := by
  obtain ⟨pre, post, hsplit, hidx, hfree⟩ := h.split hv
  have hu : u ∈ pre := hfree (u, v) he rfl
  refine ⟨hsplit ▸ List.mem_append_left _ hu, ?_⟩
  rw [hidx, hsplit, List.idxOf_append_of_mem hu]
  exact List.idxOf_lt_length_of_mem hu

/-- Along a chain of edges, a greedy list has the first vertex before the last. -/
theorem Greedy.idxOf_lt_of_transGen {u v : Nat} (h : Greedy n edges taken) (hv : v ∈ taken)
    (hr : TransGen (Joins edges) u v) : u ∈ taken ∧ taken.idxOf u < taken.idxOf v := by
  induction hr with
  | single he => exact h.idxOf_lt hv he
  | tail _ he ih =>
    obtain ⟨hm, hlt⟩ := h.idxOf_lt hv he
    exact ⟨(ih hm).1, (ih hm).2.trans hlt⟩

/-! ## The least topological list -/

theorem Greedy.lex_of_topological_append {pre l l' : List Nat} (h : Greedy n edges (pre ++ l))
    (hp : l'.Perm l) (ht : Topological edges (pre ++ l')) (hne : l' ≠ l) :
    List.Lex (· < ·) l l' := by
  induction l generalizing pre l' with
  | nil => exact absurd hp.eq_nil hne
  | cons a l ih =>
    obtain _ | ⟨b, l'⟩ := l'
    · exact absurd hp.symm.eq_nil (by simp)
    obtain ⟨hnew, -, hleast⟩ := h.of_append rfl
    by_cases hab : a = b
    · subst hab
      have h' : Greedy n edges ((pre ++ [a]) ++ l) := by simpa using h
      have ht' : Topological edges ((pre ++ [a]) ++ l') := by simpa using ht
      exact .cons (ih h' hp.cons_inv ht' fun he ↦ hne (congrArg _ he))
    · have hmem : b ∈ a :: l := hp.subset List.mem_cons_self
      have hpre : b ∉ pre := fun hb ↦ List.disjoint_of_nodup_append h.nodup hb hmem
      have hidx : (pre ++ b :: l').idxOf b = pre.length := by
        rw [List.idxOf_append_of_notMem hpre, List.idxOf_cons_self, Nat.add_zero]
      -- the other list has only `pre` before `b`, so all edges into `b` leave vertices of `pre`
      have hfree : FreeAfter edges pre b := by
        rintro ⟨u, v⟩ he rfl
        have hlt := ht u v he
        rw [hidx] at hlt
        by_contra hu
        rw [List.idxOf_append_of_notMem hu] at hlt
        omega
      have hle := hleast b (h.lt b (List.mem_append_right _ hmem)) hpre hfree
      exact .rel (lt_of_le_of_ne hle hab)

/-- **A greedy list is the least topological one** among the orders of its vertices. -/
theorem Greedy.lex_of_topological {l : List Nat} (h : Greedy n edges taken) (hp : l.Perm taken)
    (ht : Topological edges l) (hne : l ≠ taken) : List.Lex (· < ·) taken l :=
  lex_of_topological_append (show Greedy n edges ([] ++ taken) from h) hp ht hne

theorem Greedy.congr (hj : ∀ u v, Joins edges u v ↔ Joins edges' u v)
    (h : Greedy n edges taken) : Greedy n edges' taken := by
  have hfree : ∀ l v, FreeAfter edges l v ↔ FreeAfter edges' l v := fun l v ↦
    ⟨fun hf e he hv ↦ hf e ((hj e.1 e.2).mpr he) hv, fun hf e he hv ↦ hf e ((hj e.1 e.2).mp he) hv⟩
  induction h with
  | nil => exact .nil
  | snoc _ lt new free least ih =>
    exact ih.snoc lt new ((hfree _ _).mp free)
      fun w hw hnew hf ↦ least w hw hnew ((hfree _ _).mpr hf)

theorem Greedy.topological (hb : ∀ u v, Joins edges u v → v ∈ taken) (h : Greedy n edges taken) :
    Topological edges taken :=
  fun u v he ↦ (h.idxOf_lt (hb u v he) he).2

/-- **Only which vertices are joined matters**: neither the order of the edges nor how often one
is repeated changes a greedy list of the same vertices. -/
theorem Greedy.eq_of_joins {taken' : List Nat} (hj : ∀ u v, Joins edges u v ↔ Joins edges' u v)
    (h : Greedy n edges taken) (h' : Greedy n edges' taken') (hp : taken'.Perm taken)
    (hb : ∀ u v, Joins edges u v → v ∈ taken) : taken = taken' := by
  have hb' : ∀ u v, Joins edges u v → v ∈ taken' := fun u v he ↦ hp.symm.subset (hb u v he)
  have h'' : Greedy n edges taken' := h'.congr fun u v ↦ (hj u v).symm
  by_contra hne
  exact Std.Asymm.asymm _ _ (h.lex_of_topological hp (h''.topological hb') (Ne.symm hne))
    (h''.lex_of_topological hp.symm (h.topological hb) hne)

/-! ## Cycles -/

/-- In a greedy list no vertex lies on a cycle or behind one. -/
theorem Greedy.notMem_of_cycle {u v : Nat} (h : Greedy n edges taken)
    (hc : TransGen (Joins edges) u u) (hr : ReflTransGen (Joins edges) u v) : v ∉ taken := by
  intro hv
  have hu : u ∈ taken := by
    rcases reflTransGen_iff_eq_or_transGen.mp hr with rfl | hr
    · exact hv
    · exact (h.idxOf_lt_of_transGen hv hr).1
  exact lt_irrefl _ (h.idxOf_lt_of_transGen hu hc).2

/-- A vertex that was left out and is not free has an edge from another one left out. -/
theorem Exhausted.exists_joins (he : Exhausted n edges taken) (hb : Bounded n edges) {v : Nat}
    (hv : v < n) (hnew : v ∉ taken) : ∃ u, u < n ∧ u ∉ taken ∧ Joins edges u v := by
  have h := he v hv hnew
  rw [FreeAfter] at h
  push Not at h
  obtain ⟨⟨u, w⟩, hmem, rfl, hu⟩ := h
  exact ⟨u, (hb _ hmem).1, hu, hmem⟩

/-- Walking back from a vertex that was left out leads to a cycle: there are finitely many
vertices, so without a cycle one of those left out behind which it lies would be the first. -/
theorem Exhausted.exists_cycle (he : Exhausted n edges taken) (hb : Bounded n edges) {v : Nat}
    (hv : v < n) (hnew : v ∉ taken) :
    ∃ u, TransGen (Joins edges) u u ∧ ReflTransGen (Joins edges) u v := by
  by_contra hno
  push Not at hno
  let above : Set Nat := {u | u < n ∧ u ∉ taken ∧ ReflTransGen (Joins edges) u v}
  have hfin : above.Finite := (Set.finite_lt_nat n).subset fun u hu ↦ hu.1
  have hwf : above.WellFoundedOn (TransGen (Joins edges)) := by
    have : Finite above := hfin
    have : IsTrans above (Subrel (TransGen (Joins edges)) (· ∈ above)) :=
      ⟨fun _ _ _ h h' ↦ TransGen.trans h h'⟩
    have : Std.Irrefl (Subrel (TransGen (Joins edges)) (· ∈ above)) :=
      ⟨fun u hu ↦ hno u hu u.2.2.2⟩
    exact Finite.wellFounded_of_trans_of_irrefl _
  obtain ⟨⟨m, hm⟩, -, hmin⟩ := hwf.has_min Set.univ ⟨⟨v, hv, hnew, .refl⟩, trivial⟩
  obtain ⟨u, hu, hunew, hum⟩ := he.exists_joins hb hm.1 hm.2.1
  exact hmin ⟨u, hu, hunew, .head hum hm.2.2⟩ trivial (.single hum)

/-- **What cannot be put in order**: a greedy list that cannot be continued leaves out the
vertices that lie on a cycle or behind one, and no others. -/
theorem Greedy.notMem_iff (h : Greedy n edges taken) (he : Exhausted n edges taken)
    (hb : Bounded n edges) {v : Nat} (hv : v < n) :
    v ∉ taken ↔ ∃ u, TransGen (Joins edges) u u ∧ ReflTransGen (Joins edges) u v :=
  ⟨he.exists_cycle hb hv, fun ⟨_, hc, hr⟩ ↦ h.notMem_of_cycle hc hr⟩

end Edge

/-! ## Complete traversals -/

namespace Traversal

open Edge

variable {n : Nat} {edges : List Edge}

theorem pending_complete (hb : Bounded n edges) : Pending n edges [] (complete n edges) :=
  pending_run hb (pending_start n edges)

theorem greedy_complete (hb : Bounded n edges) : Greedy n edges (complete n edges).taken :=
  (pending_complete hb).greedy

theorem owed_complete_ne_zero (hb : Bounded n edges) {v : Nat} (hv : v < n)
    (hnew : v ∉ (complete n edges).taken) : owed edges (complete n edges).taken [] v ≠ 0 := by
  intro h0
  have hfree := ((pending_complete hb).mem_free v).mpr ⟨hv, hnew, h0⟩
  rw [complete, free_run] at hfree
  exact absurd hfree (by simp)

theorem exhausted_complete (hb : Bounded n edges) :
    Exhausted n edges (complete n edges).taken :=
  fun _ hv hnew hf ↦ owed_complete_ne_zero hb hv hnew (owed_nil_eq_zero_iff.mpr hf)

/-- The vertices an edge still enters in the end are those that were not taken. -/
theorem stuck_complete (hb : Bounded n edges) :
    (complete n edges).stuck = (List.range n).filter (fun v ↦ v ∉ (complete n edges).taken) := by
  have hp := pending_complete hb
  have hlen : (complete n edges).degrees.length = n := by rw [hp.degrees]; simp
  rw [stuck, hlen]
  refine List.filter_congr fun v hv ↦ ?_
  rw [List.mem_range] at hv
  rw [hp.degrees, List.getElem?_map, List.getElem?_range hv, Bool.eq_iff_iff]
  simp only [Option.map_some, Option.any_some, decide_eq_true_eq, Int.natCast_pos]
  refine ⟨fun hpos hm ↦ ?_, fun hnew ↦ Nat.pos_of_ne_zero (owed_complete_ne_zero hb hv hnew)⟩
  rw [hp.settled v hm] at hpos
  exact absurd hpos (lt_irrefl 0)

/-- A traversal that took as many vertices as there are took all of them. -/
theorem perm_range_of_le_length (hb : Bounded n edges)
    (h : n ≤ (complete n edges).taken.length) : (complete n edges).taken.Perm (List.range n) := by
  have hg := greedy_complete hb
  refine (List.Nodup.subperm hg.nodup fun v hv ↦ ?_).perm_of_length_le (by simpa using h)
  exact List.mem_range.mpr (hg.lt v hv)

/-- **A traversal is cut short exactly by cycles.** -/
theorem length_lt_iff (hb : Bounded n edges) :
    (complete n edges).taken.length < n ↔ ∃ v, Relation.TransGen (Joins edges) v v := by
  have hg := greedy_complete hb
  constructor
  · intro hlt
    obtain ⟨v, hv, hnew⟩ : ∃ v, v < n ∧ v ∉ (complete n edges).taken := by
      by_contra hno
      push Not at hno
      have hsub := List.Nodup.subperm (List.nodup_range (n := n)) fun v hv ↦
        hno v (List.mem_range.mp hv)
      have := hsub.length_le
      rw [List.length_range] at this
      omega
    obtain ⟨u, hc, -⟩ := (exhausted_complete hb).exists_cycle hb hv hnew
    exact ⟨u, hc⟩
  · rintro ⟨v, hc⟩
    by_contra hge
    have hv : v < n := by
      obtain ⟨w, hw, -⟩ := (Relation.TransGen.head'_iff.mp hc)
      exact (hb _ hw).1
    have hm := (perm_range_of_le_length hb (not_lt.mp hge)).symm.subset (List.mem_range.mpr hv)
    exact hg.notMem_of_cycle hc .refl hm

end Traversal
end PortGraph
