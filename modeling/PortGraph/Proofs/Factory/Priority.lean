import Mathlib.Data.List.Forall2
import Mathlib.Data.List.Induction
import Mathlib.Data.List.Nodup
import PortGraph.Factory.Basic

/-!
# Which factory has priority

A set of factories comes about by changes: factories are offered, which the set refuses if it has one of
their name, and factories are taken out.  Those that stay (`FactorySet.Stays`) are asked in the order in
which they were added (`exists_dated`), so the first of them that knows a type provides it
(`provider?_after_iff`), whatever was there in between.
-/

set_option autoImplicit false

namespace PortGraph

theorem Factory.mem_typeNames_iff {f : Factory} {t : String} :
    t ∈ f.typeNames ↔ f.contains t = true := by
  simp [typeNames, contains, find?]

/-- A change of a set of factories. -/
inductive FactoryChange where
  /-- A factory is offered. -/
  | add (factory : Factory)
  /-- The factory of a name is taken out, if there is one. -/
  | erase (name : String)

namespace FactorySet

/-- Change a set.  When it refuses a factory it stays as it is. -/
def perform (set : FactorySet) : FactoryChange → FactorySet
  | .add factory =>
    match set.add factory with
    | .ok set' => set'
    | .error _ => set
  | .erase name => set.erase name

/-- The set that some changes make of an empty one. -/
def after (changes : List FactoryChange) : FactorySet := changes.foldl perform {}

theorem after_concat (changes : List FactoryChange) (c : FactoryChange) :
    after (changes ++ [c]) = (after changes).perform c := by
  rw [after, List.foldl_concat, ← after]

/-- What is made of the set that comes with the library is made of an empty one that was offered a factory
first. -/
theorem exists_after_of_builtins {set : FactorySet} {stamp : Nat}
    (h : (builtins.run stamp).result = .ok set) (changes : List FactoryChange) :
    ∃ f, changes.foldl perform set = after (.add f :: changes) := by
  rw [builtins] at h
  obtain ⟨f, -, h⟩ := Attempt.of_bind_eq_ok h
  obtain rfl := Except.ok.inj h
  exact ⟨f, rfl⟩

/-! ## One change -/

section

variable {set : FactorySet}

/-- The factories of a set have different names. -/
def HasNames (set : FactorySet) : Prop := (set.factories.map Factory.name).Nodup

theorem factory?_eq_none_iff {name : String} :
    set.factory? name = none ↔ name ∉ set.factories.map Factory.name := by
  simp [factory?]

theorem perform_add_of_new {f : Factory} (h : set.factory? f.name = none) :
    set.perform (.add f) = ⟨set.factories ++ [f]⟩ := by
  rw [perform, add, h]
  rfl

theorem perform_add_of_taken {f : Factory} (h : set.factory? f.name ≠ none) :
    set.perform (.add f) = set := by
  rw [perform, add, if_pos (Option.isSome_iff_ne_none.mpr h)]

theorem filter_name_ne_eq_self {name : String} {l : List Factory} (h : name ∉ l.map Factory.name) :
    l.filter (fun f ↦ f.name ≠ name) = l :=
  List.filter_eq_self.mpr fun _ hf ↦ decide_eq_true fun hname ↦ h (hname ▸ List.mem_map_of_mem hf)

/-- As the names are different, no other factory goes with the one that is taken out. -/
theorem HasNames.erase_eq (h : set.HasNames) (name : String) :
    set.erase name = ⟨set.factories.filter fun f ↦ f.name ≠ name⟩ := by
  obtain ⟨factories⟩ := set
  refine congrArg FactorySet.mk ?_
  dsimp only
  induction factories with
  | nil => rfl
  | cons f rest ih =>
    obtain ⟨hf, hrest⟩ := List.nodup_cons.mp h
    by_cases hname : f.name = name
    · rw [List.eraseP_cons_of_pos (by simpa using hname),
        List.filter_cons_of_neg (by simpa using hname), filter_name_ne_eq_self (hname ▸ hf)]
    · rw [List.eraseP_cons_of_neg (by simpa using hname),
        List.filter_cons_of_pos (by simpa using hname), ih hrest]

theorem HasNames.perform (h : set.HasNames) (c : FactoryChange) : (set.perform c).HasNames := by
  cases c with
  | add f =>
    by_cases hf : set.factory? f.name = none
    · rw [perform_add_of_new hf, HasNames, List.map_append, List.map_singleton,
        ← List.concat_eq_append]
      exact h.concat (factory?_eq_none_iff.mp hf)
    · rwa [perform_add_of_taken hf]
  | erase name =>
    rw [FactorySet.perform, h.erase_eq]
    exact h.sublist (List.filter_sublist.map _)

/-- **Factories have different names**, whatever was offered and taken out. -/
theorem hasNames_after (changes : List FactoryChange) : (after changes).HasNames := by
  induction changes using List.reverseRecOn with
  | nil => exact List.nodup_nil
  | append_singleton changes c ih => exact after_concat changes c ▸ ih.perform c

end

/-! ## Who provides a type -/

section

variable {set : FactorySet} {f : Factory} {t : String}

/-- The first factory that knows a type. -/
def provider? (set : FactorySet) (t : String) : Option Factory :=
  set.factories.find? (·.contains t)

theorem contains_of_provider? (h : set.provider? t = some f) : f.contains t = true :=
  List.find?_some (p := fun f : Factory ↦ f.contains t) h

theorem isSome_provider? (set : FactorySet) (t : String) :
    (set.provider? t).isSome = set.contains t := List.isSome_find? ..

/-- A node is made as the first factory says that knows its type. -/
theorem find?_eq (set : FactorySet) (t : String) :
    set.find? t = (set.provider? t).bind (·.find? t) := by
  rw [find?, provider?]
  induction set.factories with
  | nil => rfl
  | cons f rest ih =>
    rw [List.findSome?_cons, List.find?_cons, Factory.contains]
    cases hf : f.find? t with
    | none => simpa using ih
    | some entry => simpa using hf.symm

theorem find?_of_provider? {entry : FactoryEntry} (hf : set.provider? t = some f)
    (hentry : f.find? t = some entry) : set.find? t = some entry := by
  rw [find?_eq, hf, Option.bind_some, hentry]

theorem exists_find?_of_contains (h : set.contains t = true) : ∃ f entry,
    set.provider? t = some f ∧ f.find? t = some entry := by
  rw [← isSome_provider?] at h
  obtain ⟨f, hf⟩ := Option.isSome_iff_exists.mp h
  obtain ⟨entry, hentry⟩ := Option.isSome_iff_exists.mp (contains_of_provider? hf)
  exact ⟨f, entry, hf, hentry⟩

theorem find?_of_not_contains (h : set.contains t = false) : set.find? t = none := by
  rw [← isSome_provider?] at h
  rw [find?_eq, Option.isSome_eq_false_iff.mp h |> Option.isNone_iff_eq_none.mp]
  rfl

/-- **A factory that is added takes no type over.** -/
theorem provider?_add (h : set.contains t = true) (f : Factory) :
    (set.perform (.add f)).provider? t = set.provider? t := by
  by_cases hf : set.factory? f.name = none
  · rw [← isSome_provider?] at h
    rw [perform_add_of_new hf, provider?, List.find?_append]
    exact Option.or_of_isSome h
  · rw [perform_add_of_taken hf]

/-- **A factory that is taken out uncovers the next one** for the types that it was the first to know. -/
theorem HasNames.provider?_erase_self (hset : set.HasNames) {before rest : List Factory}
    (hsplit : set.factories = before ++ f :: rest) (h : set.provider? t = some f) :
    (set.erase f.name).provider? t = rest.find? (·.contains t) := by
  have hnames : f.name ∉ before.map Factory.name ∧ f.name ∉ rest.map Factory.name := by
    rw [HasNames, hsplit, List.map_append, List.map_cons, List.nodup_middle] at hset
    simpa using (List.nodup_cons.mp hset).1
  have hbefore : before.find? (·.contains t) = none := by
    refine List.find?_eq_none.mpr fun g hg hknows ↦ ?_
    rw [provider?, hsplit, List.find?_append, Option.or_of_isSome
      (List.find?_isSome.mpr ⟨g, hg, hknows⟩)] at h
    exact hnames.1 (List.mem_map_of_mem (List.mem_of_find?_eq_some h))
  rw [provider?, hset.erase_eq, hsplit, List.filter_append, List.filter_cons_of_neg (by simp),
    filter_name_ne_eq_self hnames.1, filter_name_ne_eq_self hnames.2, List.find?_append, hbefore,
    Option.none_or]

/-- **No other type has another provider then.** -/
theorem HasNames.provider?_erase (hset : set.HasNames) {name : String}
    (h : ∀ f, set.provider? t = some f → f.name ≠ name) :
    (set.erase name).provider? t = set.provider? t := by
  rw [hset.erase_eq, provider?, List.find?_filter]
  cases hf : set.provider? t with
  | none =>
    refine List.find?_eq_none.mpr fun g hg hg' ↦ ?_
    exact List.find?_eq_none.mp hf g hg (of_decide_eq_true hg').2
  | some f =>
    obtain ⟨hknows, before, rest, hsplit, hbefore⟩ := List.find?_eq_some_iff_append.mp hf
    refine List.find?_eq_some_iff_append.mpr ⟨?_, before, rest, hsplit, fun g hg ↦ ?_⟩
    · exact decide_eq_true ⟨decide_eq_true (h f hf), hknows⟩
    · have hg := hbefore g hg
      simp only [Bool.not_eq_true'] at hg
      simp [hg]

end

/-! ## Many changes -/

variable {changes : List FactoryChange} {i : Nat} {f : Factory} {t : String}

/-- **A factory stays**: the change of a number added it, and it was not taken out later. -/
structure Stays (changes : List FactoryChange) (i : Nat) (f : Factory) : Prop where
  /-- It was offered then. -/
  offered : changes[i]? = some (.add f)
  /-- The set had none of its name. -/
  accepted : (after (changes.take i)).factory? f.name = none
  /-- None of its name was taken out since. -/
  kept : ∀ j, i < j → changes[j]? ≠ some (.erase f.name)

/-- One more change takes a factory out, or adds one, or neither. -/
theorem stays_concat_iff {c : FactoryChange} : Stays (changes ++ [c]) i f ↔
    Stays changes i f ∧ c ≠ .erase f.name ∨
      i = changes.length ∧ c = .add f ∧ (after changes).factory? f.name = none := by
  -- the last change is either the one that added the factory or one that came later
  have hlast : (changes ++ [c])[changes.length]? = some c := by simp
  have hfront : ∀ j < changes.length, (changes ++ [c])[j]? = changes[j]? := fun j hj ↦
    List.getElem?_append_left hj
  constructor
  · rintro ⟨hoffered, haccepted, hkept⟩
    have hlt := (List.getElem?_eq_some_iff.mp hoffered).1
    rw [List.length_append, List.length_singleton] at hlt
    rcases Nat.lt_succ_iff_lt_or_eq.mp hlt with hi | rfl
    · rw [hfront i hi] at hoffered
      rw [List.take_append_of_le_length (Nat.le_of_lt hi)] at haccepted
      refine .inl ⟨⟨hoffered, haccepted, fun j hij hj ↦ ?_⟩, ?_⟩
      · refine hkept j hij ?_
        rw [hfront j (List.getElem?_eq_some_iff.mp hj).1, hj]
      · rintro rfl
        exact hkept _ hi hlast
    · rw [hlast] at hoffered
      rw [List.take_left] at haccepted
      exact .inr ⟨rfl, Option.some.inj hoffered, haccepted⟩
  · rintro (⟨⟨hoffered, haccepted, hkept⟩, hc⟩ | ⟨rfl, rfl, haccepted⟩)
    · have hi := (List.getElem?_eq_some_iff.mp hoffered).1
      refine ⟨(hfront i hi).trans hoffered, ?_, fun j hij hj ↦ ?_⟩
      · rwa [List.take_append_of_le_length (Nat.le_of_lt hi)]
      · have hlt := (List.getElem?_eq_some_iff.mp hj).1
        rw [List.length_append, List.length_singleton] at hlt
        rcases Nat.lt_succ_iff_lt_or_eq.mp hlt with hlt | rfl
        · exact hkept j hij (hfront j hlt ▸ hj)
        · exact hc (Option.some.inj (hlast.symm.trans hj))
    · refine ⟨hlast, by rwa [List.take_left], fun j hij hj ↦ ?_⟩
      have hlt := (List.getElem?_eq_some_iff.mp hj).1
      rw [List.length_append, List.length_singleton] at hlt
      omega

/-- **The factories of a set are those that stay**, in the order in which they were added. -/
theorem exists_dated (changes : List FactoryChange) : ∃ dated : List (Nat × Factory),
    dated.map Prod.snd = (after changes).factories ∧ dated.Pairwise (fun x y ↦ x.1 < y.1) ∧
      ∀ i f, (i, f) ∈ dated ↔ Stays changes i f := by
  -- from the front to the back: a change adds at the end of the list or takes out of it
  induction changes using List.reverseRecOn with
  | nil =>
    exact ⟨[], rfl, .nil, fun i f ↦ ⟨fun h ↦ absurd h (by simp), fun h ↦ absurd h.offered (by simp)⟩⟩
  | append_singleton changes c ih =>
    obtain ⟨dated, hfactories, hsorted, hstays⟩ := ih
    simp only [after_concat, stays_concat_iff]
    cases c with
    | add f =>
      by_cases hf : (after changes).factory? f.name = none
      · rw [perform_add_of_new hf]
        refine ⟨dated ++ [(changes.length, f)], by simp [hfactories], ?_, fun i g ↦ ?_⟩
        · refine List.pairwise_append.mpr ⟨hsorted, List.pairwise_singleton .., ?_⟩
          rintro ⟨j, g⟩ hg y hy
          obtain rfl := List.mem_singleton.mp hy
          exact (List.getElem?_eq_some_iff.mp ((hstays j g).mp hg).offered).1
        · simp only [List.mem_append, List.mem_singleton, Prod.mk.injEq, hstays]
          refine or_congr (by simp) ⟨?_, ?_⟩
          · rintro ⟨rfl, rfl⟩
            exact ⟨rfl, rfl, hf⟩
          · rintro ⟨rfl, hc, -⟩
            exact ⟨rfl, (FactoryChange.add.inj hc).symm⟩
      · rw [perform_add_of_taken hf]
        refine ⟨dated, hfactories, hsorted, fun i g ↦ (hstays i g).trans ?_⟩
        refine ⟨fun h ↦ .inl ⟨h, by simp⟩, ?_⟩
        rintro (⟨h, -⟩ | ⟨-, hc, hnew⟩)
        · exact h
        · exact absurd (FactoryChange.add.inj hc ▸ hnew) hf
    | erase name =>
      rw [perform, (hasNames_after changes).erase_eq, ← hfactories]
      refine ⟨dated.filter (fun x ↦ x.2.name ≠ name), by rw [List.filter_map]; rfl,
        hsorted.sublist List.filter_sublist, fun i g ↦ ?_⟩
      rw [List.mem_filter, hstays]
      constructor
      · rintro ⟨h, hname⟩
        exact .inl ⟨h, fun hc ↦ of_decide_eq_true hname (FactoryChange.erase.inj hc).symm⟩
      · rintro (⟨h, hc⟩ | ⟨-, hc, -⟩)
        · exact ⟨h, decide_eq_true fun hname ↦ hc (congrArg FactoryChange.erase hname.symm)⟩
        · exact absurd hc (by simp)

/-- **A type is provided by the earliest-added factory** that knows it, of those that stay. -/
theorem provider?_after_iff : (after changes).provider? t = some f ↔
    ∃ i, Stays changes i f ∧ f.contains t = true ∧
      ∀ j g, Stays changes j g → g.contains t = true → i ≤ j := by
  obtain ⟨dated, hfactories, hsorted, hstays⟩ := exists_dated changes
  rw [provider?, ← hfactories, List.find?_map, Option.map_eq_some_iff]
  constructor
  · rintro ⟨⟨i, g⟩, hfind, rfl⟩
    obtain ⟨hknows, before, rest, rfl, hbefore⟩ := List.find?_eq_some_iff_append.mp hfind
    refine ⟨i, (hstays i g).mp (by simp), hknows, fun j k hk hknows' ↦ ?_⟩
    rcases List.mem_append.mp ((hstays j k).mpr hk) with hk | hk
    · exact absurd hknows' (by simpa using hbefore _ hk)
    · rcases List.mem_cons.mp hk with hk | hk
      · exact Nat.le_of_eq (congrArg Prod.fst hk).symm
      · exact Nat.le_of_lt ((List.pairwise_cons.mp (List.pairwise_append.mp hsorted).2.1).1 _ hk)
  · rintro ⟨i, hf, hknows, hfirst⟩
    obtain ⟨before, rest, hsplit⟩ := List.append_of_mem ((hstays i f).mpr hf)
    refine ⟨(i, f), List.find?_eq_some_iff_append.mpr ⟨hknows, before, rest, hsplit, ?_⟩, rfl⟩
    rintro ⟨j, g⟩ hg
    rw [hsplit] at hsorted hstays
    have hlt : j < i := (List.pairwise_append.mp hsorted).2.2 _ hg _ List.mem_cons_self
    by_contra hknows'
    have hle := hfirst j g ((hstays j g).mp (List.mem_append_left _ hg)) (by simpa using hknows')
    omega

/-- The second factory is refused, and the third one is uncovered when the first goes. -/
example :
    let set := after [.add ⟨"first", [⟨"Thing", "A", .increment⟩]⟩, .add ⟨"first", []⟩,
      .add ⟨"second", [⟨"Thing", "B", .nested⟩]⟩]
    ((set.provider? "Thing").map Factory.name,
      ((set.erase "first").provider? "Thing").map Factory.name) = (some "first", some "second") := by
  decide

/-! ## The types of a set -/

/-- The names of a list with repetitions, each where it stands first. -/
theorem exists_firsts {α ι : Type} [DecidableEq α] {lt : ι → ι → Prop} (l : List (α × ι))
    (h : l.Pairwise fun x y ↦ lt x.2 y.2) : ∃ firsts : List (α × ι), firsts.Sublist l ∧
      firsts.map Prod.fst = (l.map Prod.fst).eraseDups ∧ (firsts.map Prod.fst).Nodup ∧
        ∀ x ∈ firsts, ∀ y ∈ l, y.1 = x.1 → y = x ∨ lt x.2 y.2 := by
  match l with
  | [] => exact ⟨[], .slnil, rfl, List.nodup_nil, by simp⟩
  | x :: rest =>
    obtain ⟨hx, hrest⟩ := List.pairwise_cons.mp h
    obtain ⟨firsts, hsub, hmap, hnd, hfirst⟩ :=
      exists_firsts (rest.filter fun y ↦ y.1 ≠ x.1) (hrest.sublist List.filter_sublist)
    have hnew : ∀ y ∈ firsts, y.1 ≠ x.1 := fun y hy ↦
      of_decide_eq_true (List.mem_filter.mp (hsub.subset hy)).2
    refine ⟨x :: firsts, (hsub.trans List.filter_sublist).cons_cons x, ?_, ?_, ?_⟩
    · rw [List.map_cons, List.map_cons, List.eraseDups_cons, hmap, List.filter_map]
      congr 4
      funext y
      by_cases hy : y.1 = x.1 <;> simp [hy]
    · refine List.nodup_cons.mpr ⟨fun hm ↦ ?_, hnd⟩
      obtain ⟨y, hy, hname⟩ := List.mem_map.mp hm
      exact hnew y hy hname
    · refine List.forall_mem_cons.mpr ⟨fun y hy _ ↦ ?_, fun z hz y hy hname ↦ ?_⟩
      · exact (List.mem_cons.mp hy).imp_right (hx y)
      · have hne : y.1 ≠ x.1 := hname ▸ hnew z hz
        rcases List.mem_cons.mp hy with rfl | hy
        · exact absurd rfl hne
        · exact hfirst z hz y (List.mem_filter.mpr ⟨hy, decide_eq_true hne⟩) hname
termination_by l.length
decreasing_by exact Nat.lt_succ_of_le (List.length_filter_le ..)

/-- Places in factories come one before the other by the factory, and in a factory by what was registered
first. -/
def Precedes (p q : Nat × Nat) : Prop := p.1 < q.1 ∨ p.1 = q.1 ∧ p.2 < q.2

/-- **The first place of a type**: the change that added a factory that stays, and the position at which
the factory has the type. -/
structure IsFirstPlace (changes : List FactoryChange) (t : String) (p : Nat × Nat) : Prop where
  /-- The type is there. -/
  named : ∃ f, Stays changes p.1 f ∧ f.typeNames[p.2]? = some t
  /-- Wherever else it is, it comes later. -/
  first : ∀ i j f, Stays changes i f → f.typeNames[j]? = some t → p = (i, j) ∨ Precedes p (i, j)

/-- **All types are listed, each once, by their first places.** -/
theorem typeNames_after (changes : List FactoryChange) : (after changes).typeNames.Nodup ∧
    ∃ places : List (Nat × Nat), List.Forall₂ (IsFirstPlace changes) (after changes).typeNames places ∧
      places.Pairwise Precedes := by
  obtain ⟨dated, hfactories, hsorted, hstays⟩ := exists_dated changes
  -- every type with all its places
  let named : Nat × Factory → List (String × Nat × Nat) := fun x ↦
    x.2.typeNames.zipIdx.map fun y ↦ (y.1, x.1, y.2)
  have hmem : ∀ t i j, (t, i, j) ∈ dated.flatMap named ↔
      ∃ f, Stays changes i f ∧ f.typeNames[j]? = some t := by
    intro t i j
    simp only [named, List.mem_flatMap, List.mem_map, List.mem_zipIdx_iff_getElem?, Prod.exists,
      Prod.mk.injEq, hstays]
    constructor
    · rintro ⟨i, f, hf, t, j, ht, rfl, rfl, rfl⟩
      exact ⟨f, hf, ht⟩
    · rintro ⟨f, hf, ht⟩
      exact ⟨i, f, hf, t, j, ht, rfl, rfl, rfl⟩
  have hpairwise : (dated.flatMap named).Pairwise fun x y ↦ Precedes x.2 y.2 := by
    refine List.pairwise_flatMap.mpr ⟨fun x _ ↦ ?_, hsorted.imp fun {x y} hlt a ha b hb ↦ ?_⟩
    · refine List.pairwise_map.mpr (List.pairwise_iff_getElem.mpr fun i j hi hj hij ↦ ?_)
      exact .inr ⟨rfl, by simpa using hij⟩
    · obtain ⟨_, -, rfl⟩ := List.mem_map.mp ha
      obtain ⟨_, -, rfl⟩ := List.mem_map.mp hb
      exact .inl hlt
  have hnames : (dated.flatMap named).map Prod.fst =
      (after changes).factories.flatMap Factory.typeNames := by
    rw [List.map_flatMap, ← hfactories, List.flatMap_map]
    congr 1
    funext x
    simp only [named, List.map_map]
    exact List.zipIdx_map_fst ..
  obtain ⟨firsts, hsub, hmap, hnd, hfirst⟩ := exists_firsts _ hpairwise
  rw [typeNames, ← hnames, ← hmap]
  refine ⟨hnd, firsts.map Prod.snd, ?_, List.pairwise_map.mpr (hpairwise.sublist hsub)⟩
  refine List.forall₂_map_left_iff.mpr (List.forall₂_map_right_iff.mpr (List.forall₂_same.mpr ?_))
  rintro ⟨t, p⟩ hx
  refine ⟨(hmem t p.1 p.2).mp (hsub.subset hx), fun i j g hg ht ↦ ?_⟩
  exact (hfirst _ hx (t, i, j) ((hmem t i j).mpr ⟨g, hg, ht⟩) rfl).imp_left
    fun h ↦ (congrArg Prod.snd h).symm

theorem mem_typeNames_iff {set : FactorySet} : t ∈ set.typeNames ↔ set.contains t = true := by
  rw [typeNames, List.mem_eraseDups, List.mem_flatMap, contains, List.any_eq_true]
  simp only [Factory.mem_typeNames_iff]

end FactorySet

end PortGraph
