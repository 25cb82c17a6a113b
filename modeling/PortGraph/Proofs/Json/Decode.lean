import Mathlib.Data.List.Nodup
import PortGraph.Json.Decode
import PortGraph.Proofs.Json.Canonical

/-!
# Reading back

What the readers of JSON values make of values that were written for them.
-/

set_option autoImplicit false

namespace PortGraph.Json.Decoder

theorem int64_toInt (n : Int64) : int64 (.int n.toInt) = .ok n := by
  have hlow : Int64.minValue.toInt ≤ n.toInt := n.minValue_le_toInt
  have hhigh : n.toInt < Int64.maxValue.toInt + 1 := Int.lt_add_one_of_le n.toInt_le
  rw [int64, integer, if_pos ⟨hlow, hhigh⟩]
  exact congrArg Except.ok n.ofInt_toInt

theorem word_toNat (w : UInt32) : word (.int w.toNat) = .ok w := by
  have hlow : (0 : Int) ≤ w.toNat := Int.natCast_nonneg _
  have hhigh : (w.toNat : Int) < UInt32.size := Int.ofNat_lt.mpr w.toNat_lt
  rw [word, integer, if_pos ⟨hlow, hhigh⟩]
  exact congrArg Except.ok w.ofNat_toNat

/-- A payload in canonical form is read as it is, except that null is read as an absent one. -/
theorem option_payload (j : Json) : option (fun j ↦ .ok j) j.canonical =
    .ok (((some j).filter (· ≠ .null)).map canonical) := by
  cases j <;> rfl

/-! ## Structures -/

/-- Fields of different names are looked up by their names. -/
theorem field?_of_getElem? {ρ : Type → Type} {R : Type} {record : Record ρ R}
    (hnd : (record.fields.map Field.name).Nodup) {i : Nat} {f : Field ρ R}
    (hf : record.fields[i]? = some f) : record.field? f.name = some f := by
  rw [Record.field?]
  cases hfound : record.fields.find? (fun f' ↦ f'.name = f.name) with
  | none => simpa using List.find?_eq_none.mp hfound f (List.mem_of_getElem? hf)
  | some f' =>
    have hname : f'.name = f.name := by simpa using List.find?_some hfound
    rw [List.inj_on_of_nodup_map hnd (List.mem_of_find?_eq_some hfound) (List.mem_of_getElem? hf)
      hname]

section Structures

variable {R α : Type} {record : Record Decoder R}

/-- A member of a field that was not seen is read. -/
theorem named_cons {seen : List String} {name : String} {j : Json} {rest : List (String × Json)}
    {acc : R} {f : Field Decoder R} {update : R → R} (hf : record.field? name = some f)
    (hseen : name ∉ seen) (hread : f.read j = .ok update) :
    named record seen ((name, j) :: rest) acc = named record (name :: seen) rest (update acc) := by
  rw [named, hf]
  simp [hseen, hread]

theorem read_mandatory {read : Decoder α} {j : Json} {a : α} (h : read j = .ok a) (name : String)
    (set : α → R → R) : (Field.mandatory name read set).read j = .ok (set a) :=
  congrArg (Except.map set) h

theorem read_defaulted {read : Decoder α} {j : Json} {a : α} (h : read j = .ok a) (name : String)
    (set : α → R → R) : (Field.defaulted name read set).read j = .ok (set a) :=
  congrArg (Except.map set) h

end Structures

/-- What a field changes is what was read of it. -/
theorem map_eq_ok {R α : Type} {read : Decoder α} {set : α → R → R} {j : Json} {update : R → R}
    (h : (set <$> read : Decoder (R → R)) j = .ok update) : ∃ a, read j = .ok a ∧ update = set a := by
  have h : (read j).map set = .ok update := h
  cases hread : read j with
  | error e =>
    rw [hread] at h
    exact absurd h (by simp [Except.map])
  | ok a =>
    rw [hread] at h
    exact ⟨a, rfl, (Except.ok.inj h).symm⟩

section Invariants

variable {R : Type} {record : Record Decoder R} {P : R → Prop} {Q : Json → Prop}

theorem positional_induction {size : Nat} {fs : List (Field Decoder R)}
    (field : ∀ f ∈ fs, ∀ j, Q j → ∀ update, f.read j = .ok update → ∀ acc, P acc → P (update acc))
    {js : List Json} (parts : ∀ j ∈ js, Q j) {position : Nat} {acc a : R} (hacc : P acc)
    (h : positional record size position fs js acc = .ok a) : P a := by
  induction fs generalizing js position acc with
  | nil =>
    cases js with
    | nil => exact Except.ok.inj h ▸ hacc
    | cons j js => exact absurd h (by simp [positional])
  | cons f fs ih =>
    obtain ⟨hf, hfs⟩ := List.forall_mem_cons.mp field
    cases js with
    | nil =>
      rw [positional] at h
      split at h
      · exact absurd h (by simp)
      · exact ih hfs parts hacc h
    | cons j js =>
      obtain ⟨hj, hjs⟩ := List.forall_mem_cons.mp parts
      rw [positional] at h
      cases hread : f.read j with
      | error e =>
        rw [hread] at h
        exact absurd h (by simp)
      | ok update =>
        rw [hread] at h
        exact ih hfs hjs (hf j hj update hread acc hacc) h

theorem named_induction
    (field : ∀ f ∈ record.fields, ∀ j, Q j → ∀ update, f.read j = .ok update →
      ∀ acc, P acc → P (update acc))
    {members : List (String × Json)} (parts : ∀ m ∈ members, Q m.2) {seen : List String}
    {acc a : R} (hacc : P acc) (h : named record seen members acc = .ok a) : P a := by
  induction members generalizing seen acc with
  | nil =>
    rw [named] at h
    split at h
    · exact absurd h (by simp)
    · exact Except.ok.inj h ▸ hacc
  | cons m members ih =>
    obtain ⟨hm, hmembers⟩ := List.forall_mem_cons.mp parts
    rw [named] at h
    cases hf : record.field? m.1 with
    | none =>
      rw [hf] at h
      exact ih hmembers hacc h
    | some f =>
      rw [hf] at h
      dsimp only at h
      split at h
      · exact absurd h (by simp)
      · cases hread : f.read m.2 with
        | error e =>
          rw [hread] at h
          exact absurd h (by simp)
        | ok update =>
          rw [hread] at h
          exact ih hmembers (field f (List.mem_of_find?_eq_some hf) m.2 hm update hread acc hacc) h

/-- **What is true of every structure that is read**: it is true of the blank one, and each field keeps
it, which is read off a value that nests less deeply than the whole. -/
theorem record_induction (blank : P record.blank) {j : Json}
    (field : ∀ f ∈ record.fields, ∀ j', j'.depth < j.depth → ∀ update, f.read j' = .ok update →
      ∀ acc, P acc → P (update acc))
    {a : R} (h : Decoder.record record j = .ok a) : P a := by
  cases j with
  | array js =>
    exact positional_induction (Q := fun j' ↦ j'.depth < itemsDepth js + 1) field
      (fun j' hj' ↦ Nat.lt_succ_of_le (depth_le_itemsDepth hj')) blank h
  | object members =>
    exact named_induction (Q := fun j' ↦ j'.depth < membersDepth members + 1) field
      (fun m hm ↦ Nat.lt_succ_of_le (depth_le_membersDepth hm)) blank h
  | _ => exact absurd h (by simp [Decoder.record])

end Invariants

/-! ## Items -/

theorem forall_mem_of_items {α : Type} {read : Decoder α} {js : List Json} {as : List α}
    (h : items read js = .ok as) : ∀ a ∈ as, ∃ j ∈ js, read j = .ok a := by
  induction js generalizing as with
  | nil =>
    obtain rfl := Except.ok.inj h
    simp
  | cons j js ih =>
    rw [items] at h
    cases hj : read j with
    | error e =>
      rw [hj] at h
      exact absurd h (by simp)
    | ok a =>
      rw [hj] at h
      cases hjs : items read js with
      | error e =>
        rw [hjs] at h
        exact absurd h (by simp [Except.map])
      | ok as' =>
        rw [hjs] at h
        obtain rfl := Except.ok.inj h
        refine List.forall_mem_cons.mpr ⟨⟨j, List.mem_cons_self, hj⟩, fun a' ha' ↦ ?_⟩
        obtain ⟨j', hj', hread⟩ := ih hjs a' ha'
        exact ⟨j', List.mem_cons_of_mem _ hj', hread⟩

/-- What is read of each item is read of all. -/
theorem items_map {α γ : Type} {read : Decoder γ} {write : α → Json} {f : α → γ} {as : List α}
    (h : ∀ a ∈ as, read (write a) = .ok (f a)) : items read (as.map write) = .ok (as.map f) := by
  induction as with
  | nil => rfl
  | cons a as ih =>
    obtain ⟨ha, has⟩ := List.forall_mem_cons.mp h
    rw [List.map_cons, items, ha, ih has]
    rfl

end PortGraph.Json.Decoder
