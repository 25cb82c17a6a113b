/-!
# Topological orders

Vertices are naturals and an edge is a pair of them; edges may repeat.  A traversal counts for
every vertex the edges that still enter it, and takes the least vertex that none enters any more:
then one edge less enters each successor of it, a repeated edge counting once for each time.  What
is still entered when no vertex is free cannot be put in order.
-/

set_option autoImplicit false

namespace PortGraph

/-- An edge, from its source to its target. -/
abbrev Edge : Type := Nat × Nat

/-- The targets of the edges that leave a vertex, in the order of the edges. -/
def Edge.successors (edges : List Edge) (v : Nat) : List Nat :=
  (edges.filter (fun e ↦ e.1 = v)).map Prod.snd

/-- How far the vertices have been put in order. -/
structure Traversal where
  /-- How many edges enter each vertex from one that was not taken yet. -/
  degrees : List Int
  /-- The vertices that no such edge enters and that were not taken, the least first. -/
  free : List Nat
  /-- The vertices that were taken, in order. -/
  taken : List Nat
  deriving DecidableEq, Repr

namespace Traversal

/-- Put a natural in its place among increasing ones, unless it is there. -/
def insert (v : Nat) : List Nat → List Nat
  | [] => [v]
  | w :: ws => if v < w then v :: w :: ws else if v = w then w :: ws else w :: insert v ws

/-- The traversal of the vertices below `count` before any of them is taken. -/
def start (count : Nat) (edges : List Edge) : Traversal :=
  let degree (v : Nat) : Nat := edges.countP (fun e ↦ e.2 = v)
  { degrees := (List.range count).map fun v ↦ degree v
    free := (List.range count).filter (fun v ↦ degree v = 0)
    taken := [] }

/-- Count one edge less into a vertex, which is free if none is left. -/
def lower (t : Traversal) (v : Nat) : Traversal :=
  let degrees := t.degrees.modify v (· - 1)
  { t with degrees, free := if degrees[v]? = some 0 then insert v t.free else t.free }

/-- Move a vertex from the free ones, of which `rest` is left, to those taken. -/
def pop (t : Traversal) (v : Nat) (rest : List Nat) : Traversal :=
  { t with free := rest, taken := t.taken ++ [v] }

/-- Take a free vertex, after which `rest` is left: the edges that leave it count no longer. -/
def take (edges : List Edge) (t : Traversal) (v : Nat) (rest : List Nat) : Traversal :=
  (Edge.successors edges v).foldl lower (t.pop v rest)

/-- What a traversal may still take: the free vertices, and those an edge enters. -/
def outstanding (t : Traversal) : Nat := t.free.length + t.degrees.countP (0 < ·)

/-! ## Termination

A vertex becomes free at most when the last edge into it is dropped, and is not entered then. -/

theorem length_insert_le (v : Nat) (ws : List Nat) : (insert v ws).length ≤ ws.length + 1 := by
  induction ws with
  | nil => exact Nat.le_refl _
  | cons w ws ih =>
    rw [insert]
    split
    · exact Nat.le_refl _
    · split
      · exact Nat.le_succ _
      · exact Nat.succ_le_succ ih

theorem countP_modify_pred_le (v : Nat) (degrees : List Int) :
    (degrees.modify v (· - 1)).countP (0 < ·) ≤ degrees.countP (0 < ·) := by
  induction degrees generalizing v with
  | nil => simp
  | cons d ds ih =>
    cases v with
    | zero =>
      simp only [List.modify_zero_cons, List.countP_cons, decide_eq_true_eq]
      split <;> split <;> omega
    | succ v =>
      simp only [List.modify_succ_cons, List.countP_cons]
      exact Nat.add_le_add_right (ih v) _

theorem countP_modify_pred_lt {v : Nat} {degrees : List Int}
    (h : (degrees.modify v (· - 1))[v]? = some 0) :
    (degrees.modify v (· - 1)).countP (0 < ·) < degrees.countP (0 < ·) := by
  induction degrees generalizing v with
  | nil => simp at h
  | cons d ds ih =>
    cases v with
    | zero =>
      simp only [List.modify_zero_cons, List.getElem?_cons_zero, Option.some.injEq] at h
      simp only [List.modify_zero_cons, List.countP_cons, decide_eq_true_eq]
      split <;> split <;> omega
    | succ v =>
      simp only [List.modify_succ_cons, List.countP_cons]
      exact Nat.add_lt_add_right (ih (by simpa using h)) _

theorem outstanding_lower_le (t : Traversal) (v : Nat) :
    (t.lower v).outstanding ≤ t.outstanding := by
  simp only [outstanding, lower]
  split
  · rename_i h
    have hd := countP_modify_pred_lt h
    have hi := length_insert_le v t.free
    omega
  · exact Nat.add_le_add_left (countP_modify_pred_le v t.degrees) _

theorem outstanding_foldl_lower_le (vs : List Nat) (t : Traversal) :
    (vs.foldl lower t).outstanding ≤ t.outstanding := by
  induction vs generalizing t with
  | nil => exact Nat.le_refl _
  | cons v vs ih => exact Nat.le_trans (ih _) (outstanding_lower_le t v)

theorem outstanding_take_lt (edges : List Edge) {t : Traversal} {v : Nat} {rest : List Nat}
    (h : t.free = v :: rest) : (t.take edges v rest).outstanding < t.outstanding := by
  refine Nat.lt_of_le_of_lt (outstanding_foldl_lower_le _ _) ?_
  simp only [outstanding, pop, h, List.length_cons]
  omega

/-! ## Running -/

/-- Take the least free vertex as long as there is one. -/
def run (edges : List Edge) (t : Traversal) : Traversal :=
  match _h : t.free with
  | [] => t
  | v :: rest => run edges (t.take edges v rest)
termination_by t.outstanding
decreasing_by exact outstanding_take_lt edges _h

/-- The traversal of the vertices below `count`, run to its end. -/
def complete (count : Nat) (edges : List Edge) : Traversal := (start count edges).run edges

/-- The vertices that an edge still enters. -/
def stuck (t : Traversal) : List Nat :=
  (List.range t.degrees.length).filter (fun v ↦ t.degrees[v]?.any (0 < ·))

end Traversal

end PortGraph
