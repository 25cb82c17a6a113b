import Mathlib.Data.String.Basic
import PortGraph.Json.Basic

/-!
# Canonical JSON values

In canonical form the members of every object stand in the order of their names, each name once
(`Json.Sorted`).  Sorting members and putting their values into canonical form do not interfere
(`canonicalMembers_sortMembers`), so a value in canonical form is left as it is
(`canonical_canonical`).
-/

set_option autoImplicit false

namespace PortGraph.Json

/-! ## Sorted members -/

/-- Members in the order of their names, each name once. -/
def Sorted (members : List (String × Json)) : Prop := members.Pairwise fun m m' ↦ m.1 < m'.1

theorem mem_insertMember {name : String} {value : Json} {members : List (String × Json)}
    {m : String × Json} (h : m ∈ insertMember name value members) :
    m = (name, value) ∨ m ∈ members := by
  induction members with
  | nil => exact .inl (List.mem_singleton.mp h)
  | cons m' members ih =>
    rw [insertMember] at h
    split at h
    · exact List.mem_cons.mp h
    · split at h
      · exact (List.mem_cons.mp h).imp_right (List.mem_cons_of_mem _)
      · rcases List.mem_cons.mp h with rfl | h
        · exact .inr List.mem_cons_self
        · exact (ih h).imp_right (List.mem_cons_of_mem _)

theorem Sorted.insertMember {members : List (String × Json)} (h : Sorted members) (name : String)
    (value : Json) : Sorted (insertMember name value members) := by
  induction members with
  | nil => exact List.pairwise_singleton ..
  | cons m members ih =>
    obtain ⟨hm, hmembers⟩ := List.pairwise_cons.mp h
    rw [Json.insertMember]
    split
    · rename_i hlt
      refine List.pairwise_cons.mpr ⟨List.forall_mem_cons.mpr ⟨hlt, fun m' hm' ↦ ?_⟩, h⟩
      exact String.lt_trans hlt (hm m' hm')
    · rename_i hge
      split
      · rename_i hname
        exact List.pairwise_cons.mpr ⟨fun m' hm' ↦ hname ▸ hm m' hm', hmembers⟩
      · rename_i hne
        refine List.pairwise_cons.mpr ⟨fun m' hm' ↦ ?_, ih hmembers⟩
        rcases mem_insertMember hm' with rfl | hm'
        · exact lt_of_le_of_ne (not_lt.mp hge) hne
        · exact hm m' hm'

theorem sorted_foldl_insertMember (more : List (String × Json)) {members : List (String × Json)}
    (h : Sorted members) :
    Sorted (more.foldl (fun sorted m ↦ insertMember m.1 m.2 sorted) members) := by
  induction more generalizing members with
  | nil => exact h
  | cons m more ih => exact ih (h.insertMember m.1 m.2)

theorem sorted_sortMembers (members : List (String × Json)) : Sorted (sortMembers members) :=
  sorted_foldl_insertMember members List.Pairwise.nil

/-- A member whose name comes behind all others is put behind them. -/
theorem insertMember_eq_append {name : String} {value : Json} {members : List (String × Json)}
    (h : ∀ m ∈ members, m.1 < name) : insertMember name value members = members ++ [(name, value)] := by
  induction members with
  | nil => rfl
  | cons m members ih =>
    obtain ⟨hm, hmembers⟩ := List.forall_mem_cons.mp h
    rw [insertMember, if_neg (lt_asymm hm), if_neg hm.ne, ih hmembers, List.cons_append]

theorem foldl_insertMember_eq_append {members more : List (String × Json)}
    (h : Sorted (members ++ more)) :
    more.foldl (fun sorted m ↦ insertMember m.1 m.2 sorted) members = members ++ more := by
  induction more generalizing members with
  | nil => exact (List.append_nil _).symm
  | cons m more ih =>
    have hlast : ∀ m' ∈ members, m'.1 < m.1 := fun m' hm' ↦
      (List.pairwise_append.mp h).2.2 m' hm' m List.mem_cons_self
    have hsplit : members ++ m :: more = members ++ [m] ++ more := by simp
    rw [hsplit] at h ⊢
    rw [List.foldl_cons, insertMember_eq_append hlast]
    exact ih h

/-- Sorted members are left as they are. -/
theorem sortMembers_eq_self {members : List (String × Json)} (h : Sorted members) :
    sortMembers members = members :=
  foldl_insertMember_eq_append h

/-! ## Canonical form -/

theorem canonicalItems_eq_map (items : List Json) : canonicalItems items = items.map canonical := by
  induction items with
  | nil => rfl
  | cons j items ih => rw [canonicalItems, ih, List.map_cons]

theorem canonicalMembers_eq_map (members : List (String × Json)) :
    canonicalMembers members = members.map fun m ↦ (m.1, m.2.canonical) := by
  induction members with
  | nil => rfl
  | cons m members ih => rw [canonicalMembers, ih, List.map_cons]

theorem canonicalMembers_insertMember (name : String) (value : Json)
    (members : List (String × Json)) :
    canonicalMembers (insertMember name value members) =
      insertMember name (canonical value) (canonicalMembers members) := by
  induction members with
  | nil => rfl
  | cons m members ih =>
    obtain ⟨k, v⟩ := m
    rw [insertMember, canonicalMembers, insertMember]
    split
    · rfl
    · split
      · rfl
      · rw [canonicalMembers, ih]

/-- Sorting members and putting their values into canonical form do not interfere. -/
theorem canonicalMembers_sortMembers (members : List (String × Json)) :
    canonicalMembers (sortMembers members) = sortMembers (canonicalMembers members) := by
  have hfold : ∀ (more sorted : List (String × Json)),
      canonicalMembers (more.foldl (fun sorted m ↦ insertMember m.1 m.2 sorted) sorted) =
        (canonicalMembers more).foldl (fun sorted m ↦ insertMember m.1 m.2 sorted)
          (canonicalMembers sorted) := by
    intro more
    induction more with
    | nil => exact fun _ ↦ rfl
    | cons m more ih =>
      intro sorted
      rw [List.foldl_cons, ih, canonicalMembers_insertMember]
      rfl
  exact hfold members []

mutual

/-- **A value in canonical form is left as it is.** -/
theorem canonical_canonical : ∀ j : Json, j.canonical.canonical = j.canonical
  | .null | .bool _ | .int _ | .float _ | .string _ => rfl
  | .array items => by rw [canonical, canonical, canonicalItems_canonicalItems items]
  | .object members => by
    rw [canonical, canonical, canonicalMembers_sortMembers, canonicalMembers_canonicalMembers members,
      sortMembers_eq_self (sorted_sortMembers _)]

theorem canonicalItems_canonicalItems :
    ∀ items : List Json, canonicalItems (canonicalItems items) = canonicalItems items
  | [] => rfl
  | j :: items => by
    rw [canonicalItems, canonicalItems, canonical_canonical j, canonicalItems_canonicalItems items]

theorem canonicalMembers_canonicalMembers : ∀ members : List (String × Json),
    canonicalMembers (canonicalMembers members) = canonicalMembers members
  | [] => rfl
  | (k, v) :: members => by
    rw [canonicalMembers, canonicalMembers, canonical_canonical v,
      canonicalMembers_canonicalMembers members]

end

/-! ## Numbers -/

mutual

/-- The numbers in a value. -/
def numbers : Json → List Json
  | .int n => [.int n]
  | .float x => [.float x]
  | .array items => itemsNumbers items
  | .object members => membersNumbers members
  | _ => []

/-- The numbers in items. -/
def itemsNumbers : List Json → List Json
  | [] => []
  | j :: rest => numbers j ++ itemsNumbers rest

/-- The numbers in the values of members. -/
def membersNumbers : List (String × Json) → List Json
  | [] => []
  | (_, v) :: rest => numbers v ++ membersNumbers rest

end

mutual

theorem exists_of_mem_numbers : ∀ {j x : Json}, x ∈ j.numbers →
    (∃ n, x = .int n) ∨ ∃ y, x = .float y
  | .null, _, h | .bool _, _, h | .string _, _, h => absurd h (by simp [numbers])
  | .int n, _, h => .inl ⟨n, List.mem_singleton.mp h⟩
  | .float y, _, h => .inr ⟨y, List.mem_singleton.mp h⟩
  | .array _, _, h => exists_of_mem_itemsNumbers h
  | .object _, _, h => exists_of_mem_membersNumbers h

theorem exists_of_mem_itemsNumbers : ∀ {items : List Json} {x : Json}, x ∈ itemsNumbers items →
    (∃ n, x = .int n) ∨ ∃ y, x = .float y
  | [], _, h => absurd h (by simp [itemsNumbers])
  | _ :: _, _, h => (List.mem_append.mp h).elim exists_of_mem_numbers exists_of_mem_itemsNumbers

theorem exists_of_mem_membersNumbers : ∀ {members : List (String × Json)} {x : Json},
    x ∈ membersNumbers members → (∃ n, x = .int n) ∨ ∃ y, x = .float y
  | [], _, h => absurd h (by simp [membersNumbers])
  | _ :: _, _, h => (List.mem_append.mp h).elim exists_of_mem_numbers exists_of_mem_membersNumbers

end

/-- A value as it is kept in memory: in canonical form, with integers of at most 64 bits. -/
structure IsStored (j : Json) : Prop where
  /-- The members of its objects are sorted. -/
  canonical_eq : j.canonical = j
  /-- Its integers fit. -/
  fitsInteger : ∀ n, .int n ∈ j.numbers → Json.fitsInteger n = true

/-! ## Depth -/

theorem depth_le_itemsDepth {j : Json} {items : List Json} (h : j ∈ items) :
    j.depth ≤ itemsDepth items := by
  induction items with
  | nil => exact absurd h (by simp)
  | cons j' items ih =>
    rw [itemsDepth]
    rcases List.mem_cons.mp h with rfl | h
    · exact Nat.le_max_left _ _
    · exact (ih h).trans (Nat.le_max_right _ _)

theorem depth_le_membersDepth {name : String} {j : Json} {members : List (String × Json)}
    (h : (name, j) ∈ members) : j.depth ≤ membersDepth members := by
  induction members with
  | nil => exact absurd h (by simp)
  | cons m members ih =>
    obtain ⟨k, v⟩ := m
    rw [membersDepth]
    rcases List.mem_cons.mp h with heq | h
    · rw [← (Prod.mk.inj heq).2]
      exact Nat.le_max_left _ _
    · exact (ih h).trans (Nat.le_max_right _ _)

end PortGraph.Json
