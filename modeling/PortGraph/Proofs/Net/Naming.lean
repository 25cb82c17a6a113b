import Mathlib.Data.List.Nodup
import PortGraph.Net.Nesting
import PortGraph.Proofs.Number.Written

/-!
# Names of mirrored ports

A port that stands for an inner one has its name, unless another port has it; then numbers are tried,
one after the other, until one is free.  Nothing in this search sets it a bound (`Tries`), yet it ends:
different numbers make different names, and there are only so many ports (`exists_numberedName_notMem`).

What it ends with is the name that is given (`findsName_freshName`).
-/

set_option autoImplicit false

namespace PortGraph

variable {taken : List String} {base : String}

/-! ## Numbered names -/

theorem numberedName_inj {j k : Nat} (h : numberedName base j = numberedName base k) : j = k := by
  have hrepr : Nat.repr j = Nat.repr k := (String.append_right_inj _).mp h
  have hdigits : Nat.toDigits 10 j = Nat.toDigits 10 k := by
    rw [← Nat.toList_repr, ← Nat.toList_repr, hrepr]
  rw [← naturalOfDigits_toDigits j, hdigits, naturalOfDigits_toDigits]

theorem numberedName_ne_self (base : String) (k : Nat) : numberedName base k ≠ base := by
  intro h
  have hlength := congrArg String.length h
  have hmark : "_".length = 1 := rfl
  simp only [numberedName, String.length_append] at hlength
  omega

/-- **One of the first numbers is free**: if all of them were taken, there would be more taken names
than there are, since `base` is taken too. -/
theorem exists_numberedName_notMem (hbase : base ∈ taken) :
    ∃ k < taken.length, numberedName base (k + 1) ∉ taken := by
  by_contra! hall
  have hnew : base ∉ (List.range taken.length).map fun k ↦ numberedName base (k + 1) := by
    intro hm
    obtain ⟨k, -, hk⟩ := List.mem_map.mp hm
    exact numberedName_ne_self base (k + 1) hk
  have hnd : (base :: (List.range taken.length).map fun k ↦ numberedName base (k + 1)).Nodup :=
    List.nodup_cons.mpr ⟨hnew, List.nodup_range.map fun _ _ h ↦
      Nat.succ.inj (numberedName_inj h)⟩
  have hsub : base :: (List.range taken.length).map (fun k ↦ numberedName base (k + 1)) ⊆ taken := by
    refine List.cons_subset.mpr ⟨hbase, fun name hm ↦ ?_⟩
    obtain ⟨k, hk, rfl⟩ := List.mem_map.mp hm
    exact hall k (List.mem_range.mp hk)
  have hlength := hnd.length_le_of_subset hsub
  rw [List.length_cons, List.length_map, List.length_range] at hlength
  omega

/-! ## The search -/

/-- **The search for a number that is free**: from `k` on, it tries `tries` numbers, one after the other,
and the last of them makes `name`. -/
inductive Tries (taken : List String) (base : String) : (k tries : Nat) → (name : String) → Prop
  /-- The name is free. -/
  | free {k : Nat} (h : numberedName base k ∉ taken) : Tries taken base k 1 (numberedName base k)
  /-- The name is taken, so the search goes on behind it. -/
  | next {k tries : Nat} {name : String} (h : numberedName base k ∈ taken)
      (hrest : Tries taken base (k + 1) tries name) : Tries taken base k (tries + 1) name

namespace Tries

/-- It can go in one way only. -/
theorem unique {k tries tries' : Nat} {name name' : String} (h : Tries taken base k tries name)
    (h' : Tries taken base k tries' name') : tries' = tries ∧ name' = name := by
  induction h generalizing tries' with
  | free hfree =>
    cases h' with
    | free => exact ⟨rfl, rfl⟩
    | next htaken => exact absurd htaken hfree
  | next htaken _ ih =>
    cases h' with
    | free hfree => exact absurd htaken hfree
    | next _ hrest =>
      obtain ⟨htries, hname⟩ := ih hrest
      exact ⟨congrArg (· + 1) htries, hname⟩

/-- It ends at the first number that is free. -/
theorem of_first {k m : Nat} (hkm : k ≤ m)
    (htaken : ∀ j, k ≤ j → j < m → numberedName base j ∈ taken) (hfree : numberedName base m ∉ taken) :
    Tries taken base k (m + 1 - k) (numberedName base m) := by
  induction hkm using Nat.decreasingInduction with
  | self =>
    rw [Nat.add_sub_cancel_left]
    exact .free hfree
  | of_succ k hk ih =>
    have hrest := ih fun j hj ↦ htaken j (Nat.le_of_succ_le hj)
    rw [show m + 1 - k = m + 1 - (k + 1) + 1 by omega]
    exact .next (htaken k (Nat.le_refl k) hk) hrest

end Tries

/-! ## The name that is given -/

theorem freshName_of_notMem (h : base ∉ taken) : freshName taken base = base :=
  if_neg (by simpa using h)

/-- A name that is taken is given the first number that is free. -/
theorem exists_freshName_of_mem (h : base ∈ taken) :
    ∃ k, 1 ≤ k ∧ k ≤ taken.length ∧ freshName taken base = numberedName base k ∧
      numberedName base k ∉ taken ∧ ∀ j, 1 ≤ j → j < k → numberedName base j ∈ taken := by
  obtain ⟨n, hn, hfree⟩ := exists_numberedName_notMem h
  obtain ⟨k, hk⟩ : ∃ k, (List.range taken.length).find?
      (fun k ↦ !taken.contains (numberedName base (k + 1))) = some k :=
    Option.isSome_iff_exists.mp (List.find?_isSome.mpr ⟨n, List.mem_range.mpr hn, by simpa using hfree⟩)
  obtain ⟨hknew, hkmem, hkfirst⟩ := List.find?_range_eq_some.mp hk
  refine ⟨k + 1, Nat.succ_pos k, List.mem_range.mp hkmem, ?_, by simpa using hknew, fun j hj hjk ↦ ?_⟩
  · rw [freshName, if_pos (by simpa using h)]
    dsimp only
    rw [List.find?_map, Function.comp_def, hk]
    rfl
  · obtain ⟨i, rfl⟩ := Nat.exists_eq_add_of_le' hj
    simpa using hkfirst i (Nat.lt_of_succ_lt_succ hjk)

/-- **The name that is found is new.** -/
theorem freshName_notMem (taken : List String) (base : String) : freshName taken base ∉ taken := by
  by_cases h : base ∈ taken
  · obtain ⟨k, -, -, hname, hfree, -⟩ := exists_freshName_of_mem h
    exact hname ▸ hfree
  · rwa [freshName_of_notMem h]

/-- **What a search for a name finds** where there are some ports. -/
structure FindsName (ports : List Port) (base name : String) : Prop where
  /-- No port has the name. -/
  new : ∀ p ∈ ports, p.name ≠ name
  /-- It is the name that was asked for if no port has that. -/
  kept : (∀ p ∈ ports, p.name ≠ base) → name = base
  /-- Otherwise numbers are tried from one on, at most as many as there are ports, up to the first that makes
  a name that is free. -/
  numbered : (∃ p ∈ ports, p.name = base) → ∃ k, Tries (ports.map Port.name) base 1 k name ∧
    1 ≤ k ∧ k ≤ ports.length ∧ name = numberedName base k ∧
    ∀ j, 1 ≤ j → j < k → ∃ p ∈ ports, p.name = numberedName base j

/-- **The search ends, and finds the name that is given.** -/
theorem findsName_freshName (ports : List Port) (base : String) :
    FindsName ports base (freshName (ports.map Port.name) base) where
  new p hp hname := freshName_notMem (ports.map Port.name) base (hname ▸ List.mem_map_of_mem hp)
  kept h := freshName_of_notMem fun hm ↦ by
    obtain ⟨p, hp, hname⟩ := List.mem_map.mp hm
    exact h p hp hname
  numbered h := by
    obtain ⟨k, hpos, hk, hname, hfree, hfirst⟩ := exists_freshName_of_mem (List.mem_map.mpr h)
    rw [hname]
    refine ⟨k, .of_first hpos hfirst hfree, hpos, List.length_map Port.name ▸ hk, rfl, fun j hj hjk ↦ ?_⟩
    exact List.mem_map.mp (hfirst j hj hjk)

example : freshName ["x", "x_1", "y", "x_3"] "x" = "x_2" := by decide

end PortGraph
