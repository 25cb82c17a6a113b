import PortGraph.Proofs.Description.Config
import PortGraph.Proofs.Factory.Priority
import PortGraph.Proofs.Net.Loading

/-!
# Nodes that a host makes

What is registered in a factory is up to its host: a creator makes a node of a description, and is handed
the set of factories as well, so that it can rebuild nets with it.  Here the creators of a host are taken
to be any functions (`Creators`); only nodes of the type that comes with the library for nets are made as
the library says.  The library's own creators are one case (`FactorySet.hosted_library`).

The configurations of the nodes inside nest less deeply (`NodeDescription.depth_lt`), so the levels that
are counted never run out, and a set makes a node with nets that it rebuilds itself
(`FactorySet.hosted_eq`).
-/

set_option autoImplicit false

namespace PortGraph

open PortGraph.Graph

/-! ## Descriptions inside -/

/-- How deeply the configuration of a node nests. -/
def NodeDescription.depth (d : NodeDescription) : Nat := (d.config.map Json.depth).getD 0

/-- The net in a node is described there. -/
def NodeDescription.Holds (d : NodeDescription) (inner : GraphDescription) : Prop :=
  ∃ config, d.config = some config ∧ GraphDescription.ofJson config = .ok inner

theorem NodeDescription.depth_lt {d n : NodeDescription} {inner : GraphDescription}
    (h : d.Holds inner) (hn : n ∈ inner.nodes) : n.depth < d.depth := by
  obtain ⟨config, hc, hread⟩ := h
  rw [depth, depth, hc]
  cases hn' : n.config with
  | none => exact GraphDescription.depth_pos_of_ofJson hread
  | some c => exact GraphDescription.depth_lt_of_ofJson hread hn hn'

/-- **What is true of all descriptions**: it is true of one if it is true of those in it. -/
theorem NodeDescription.inner_induction {P : NodeDescription → Prop}
    (step : ∀ d, (∀ inner, d.Holds inner → ∀ n ∈ inner.nodes, P n) → P d) (d : NodeDescription) :
    P d :=
  step d fun _ hinner n hn ↦
    have := depth_lt hinner hn
    inner_induction step n
termination_by d.depth

/-! ## Creators -/

/-- **The creators of a host**: what it registered for an entry of a factory.  A creator is handed the
description and the set that the factory is in. -/
abbrev Creators : Type :=
  Factory → FactoryEntry → NodeDescription → FactorySet → Attempt (Node Behaviour)

namespace Creators

/-- The creators that come with the library, but for the one of nodes that hold nets. -/
def library : Creators := fun _ entry d set ↦
  entry.maker.make set (fun _ ↦ throw (.unknownType d.model)) d

/-- Make a node as an entry says; `rebuild` makes a net of its description. -/
def make (host : Creators) (set : FactorySet) (rebuild : GraphDescription → Attempt Net) (f : Factory)
    (entry : FactoryEntry) (d : NodeDescription) : Attempt (Node Behaviour) :=
  match entry.maker with
  | .nested => Maker.nested.make set rebuild d
  | _ => host f entry d set

end Creators

namespace FactorySet

/-- Make the described node, where `make` says what the entry makes that the first factory has of those
that know the type. -/
def createBy (set : FactorySet)
    (make : Factory → FactoryEntry → NodeDescription → Attempt (Node Behaviour)) (d : NodeDescription) :
    Attempt (Node Behaviour) :=
  set.createWith (fun entry d ↦
    match set.provider? d.model with
    | none => throw (.unknownType d.model)
    | some f => make f entry d) d

/-- Make the described node with the creators of a host, and the nets inside it down to a level of
nesting. -/
def hostedWithin (set : FactorySet) (host : Creators) : Nat → NodeDescription → Attempt (Node Behaviour)
  | 0, d => set.createBy (host.make set fun _ ↦ throw (.unknownType d.model)) d
  | level + 1, d =>
    set.createBy (host.make set (Graph.ofDescription (set.hostedWithin host level) set)) d

/-- **Make the described node with the creators of a host.** -/
def hosted (set : FactorySet) (host : Creators) (d : NodeDescription) : Attempt (Node Behaviour) :=
  set.hostedWithin host d.depth d

end FactorySet

/-! ## No level is too deep -/

theorem Graph.addDescribed_congr {β : Type} {create create' : NodeDescription → Attempt (Node β)}
    {ds : List NodeDescription} (h : ∀ d ∈ ds, create d = create' d) :
    addDescribed create ds = addDescribed create' ds := by
  induction ds with
  | nil => rfl
  | cons d ds ih =>
    obtain ⟨hd, hds⟩ := List.forall_mem_cons.mp h
    funext g
    rw [addDescribed, addDescribed, hd, ih hds]

theorem Graph.ofDescription_congr {β : Type} {create create' : NodeDescription → Attempt (Node β)}
    {d : GraphDescription} (h : ∀ n ∈ d.nodes, create n = create' n) (factories : FactorySet) :
    ofDescription create factories d = ofDescription create' factories d := by
  rw [ofDescription, ofDescription, addDescribed_congr h]

/-- A maker rebuilds the net that is described, and no other. -/
theorem Maker.make_congr {maker : Maker} {factories : FactorySet}
    {rebuild rebuild' : GraphDescription → Attempt Net} {d : NodeDescription}
    (h : ∀ inner, d.Holds inner → rebuild inner = rebuild' inner) :
    maker.make factories rebuild d = maker.make factories rebuild' d := by
  cases maker with
  | nested =>
    rw [make, make]
    cases hc : d.config with
    | none => rfl
    | some config =>
      dsimp only
      cases hread : GraphDescription.ofJson config with
      | error e => rfl
      | ok inner =>
        exact congrArg (fun x : Attempt Net ↦ x >>= Net.wrap d.instanceName)
          (h inner ⟨config, hc, hread⟩)
  | _ => rfl

theorem Creators.make_of_ne {host : Creators} {set : FactorySet} {rebuild : GraphDescription → Attempt Net}
    {f : Factory} {entry : FactoryEntry} {d : NodeDescription} (h : entry.maker ≠ .nested) :
    host.make set rebuild f entry d = host f entry d set := by
  rw [make]
  split
  · rename_i hmaker
    exact absurd hmaker h
  · rfl

/-- What a host makes of an entry depends on the nets that are rebuilt just for the one described. -/
theorem Creators.make_congr {host : Creators} {set : FactorySet}
    {rebuild rebuild' : GraphDescription → Attempt Net} {f : Factory} {entry : FactoryEntry}
    {d : NodeDescription} (h : ∀ inner, d.Holds inner → rebuild inner = rebuild' inner) :
    host.make set rebuild f entry d = host.make set rebuild' f entry d := by
  rw [make, make]
  split
  · exact Maker.make_congr h
  · rfl

theorem Creators.make_library (set : FactorySet) (rebuild : GraphDescription → Attempt Net)
    (f : Factory) (entry : FactoryEntry) (d : NodeDescription) :
    library.make set rebuild f entry d = entry.maker.make set rebuild d := by
  rw [make, library]
  cases entry.maker <;> rfl

namespace FactorySet

variable {set : FactorySet} {host : Creators} {d : NodeDescription} {f : Factory} {entry : FactoryEntry}
  {make make' : Factory → FactoryEntry → NodeDescription → Attempt (Node Behaviour)}

theorem createBy_of_not_contains (h : set.contains d.model = false) :
    set.createBy make d = throw (.unknownType d.model) := by
  rw [createBy, createWith, find?_of_not_contains h]

theorem createBy_of_provider? (hf : set.provider? d.model = some f)
    (hentry : f.find? d.model = some entry) :
    set.createBy make d = (do
      let n ← make f entry d
      return n.labelled d) := by
  rw [createBy, createWith, find?_of_provider? hf hentry]
  dsimp only
  rw [hf]

/-- A set knows a type or not, and if it does, the first factory that does has an entry for it. -/
theorem provider?_cases (set : FactorySet) (t : String) : set.contains t = false ∨
    ∃ f entry, set.provider? t = some f ∧ f.find? t = some entry := by
  cases h : set.contains t with
  | false => exact .inl rfl
  | true => exact .inr (exists_find?_of_contains h)

theorem createBy_congr (h : ∀ f entry, make f entry d = make' f entry d) :
    set.createBy make d = set.createBy make' d := by
  rcases set.provider?_cases d.model with hno | ⟨f, entry, hf, hentry⟩
  · rw [createBy_of_not_contains hno, createBy_of_not_contains hno]
  · rw [createBy_of_provider? hf hentry, createBy_of_provider? hf hentry, h]

/-- From the depth of a description on all levels come to the same. -/
theorem hostedWithin_eq (set : FactorySet) (host : Creators) (d : NodeDescription) :
    ∀ level, d.depth ≤ level → set.hostedWithin host level d =
      set.createBy (host.make set (Graph.ofDescription (set.hosted host) set)) d := by
  induction d using NodeDescription.inner_induction with
  | step d ih =>
    intro level hlevel
    cases level with
    | zero =>
      refine createBy_congr fun f entry ↦ Creators.make_congr fun inner hinner ↦ ?_
      obtain ⟨config, hc, hread⟩ := hinner
      have hpos := GraphDescription.depth_pos_of_ofJson hread
      rw [NodeDescription.depth, hc] at hlevel
      exact absurd hpos (Nat.not_lt.mpr hlevel)
    | succ level =>
      refine createBy_congr fun f entry ↦ Creators.make_congr fun inner hinner ↦ ?_
      refine ofDescription_congr (fun n hn ↦ ?_) set
      have hlt := NodeDescription.depth_lt hinner hn
      have hsame := ih inner hinner n hn
      exact (hsame level (by omega)).trans (hsame n.depth (Nat.le_refl _)).symm

/-- **A set makes a node with nets that it rebuilds itself**, at whatever depth. -/
theorem hosted_eq (set : FactorySet) (host : Creators) : set.hosted host =
    set.createBy (host.make set (Graph.ofDescription (set.hosted host) set)) :=
  funext fun d ↦ hostedWithin_eq set host d d.depth (Nat.le_refl _)

theorem createBy_library (set : FactorySet) (rebuild : GraphDescription → Attempt Net)
    (d : NodeDescription) : set.createBy (Creators.library.make set rebuild) d =
      set.createWith (fun entry d ↦ entry.maker.make set rebuild d) d := by
  rcases set.provider?_cases d.model with hno | ⟨f, entry, hf, hentry⟩
  · rw [createBy_of_not_contains hno, createWith, find?_of_not_contains hno]
  · rw [createBy_of_provider? hf hentry, createWith, find?_of_provider? hf hentry,
      Creators.make_library]

/-- The creators of the library make the same on every level. -/
theorem hostedWithin_library (set : FactorySet) (level : Nat) :
    set.hostedWithin .library level = set.createWithin level := by
  rw [createWithin_eq_createWith]
  induction level with
  | zero => exact funext fun d ↦ set.createBy_library _ d
  | succ level ih =>
    funext d
    rw [hostedWithin, ih, ← createWithin_eq_createWith]
    exact set.createBy_library _ d

/-- **With the creators of the library a set makes what the library makes.** -/
theorem hosted_library (set : FactorySet) : set.hosted .library = set.createNode :=
  funext fun d ↦ congrFun (hostedWithin_library set d.depth) d

end FactorySet

end PortGraph
