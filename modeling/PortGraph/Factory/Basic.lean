import PortGraph.Node.Probe

/-!
# Factories

A factory knows node types by name and says how nodes of each are made.  A `FactorySet` asks its
factories in the order in which they were added: the first that knows a type makes the node.

What is kept here of a type is data, with a maker for each of the types that come with the library and for
nodes of the host's.  A host may register any other functions; which factory is asked does not depend on
them.
-/

set_option autoImplicit false

namespace PortGraph

/-- How the nodes of a type are made. -/
inductive Maker where
  /-- A source of data. -/
  | source (k : DataKind)
  /-- A sink of data. -/
  | sink (k : DataKind)
  /-- A node that maps a collection. -/
  | mapping (e : Element)
  /-- A node that folds a collection. -/
  | folding (e : Element)
  /-- A node that adds one. -/
  | increment
  /-- A node that holds a graph. -/
  | nested
  /-- A node of the host's, always of the same name if one is given. -/
  | probe (name : Option String) (plan : ProbePlan)

/-- A type known to a factory. -/
structure FactoryEntry where
  /-- The name of the type. -/
  typeName : String
  /-- The group under which it is presented. -/
  category : String
  /-- How its nodes are made. -/
  maker : Maker

/-- How an entry is shown. -/
def FactoryEntry.shown (entry : FactoryEntry) : String :=
  "CreatorEntry \x7b category: " ++ showText entry.category ++ ", .. \x7d"

/-- A registry of node types. -/
structure Factory where
  /-- Its name. -/
  name : String
  /-- The types it knows, in the order in which they were registered. -/
  entries : List FactoryEntry := []

namespace Factory

/-- The entry of a type. -/
def find? (factory : Factory) (typeName : String) : Option FactoryEntry :=
  factory.entries.find? (fun e ↦ e.typeName = typeName)

/-- Whether the factory knows a type. -/
def contains (factory : Factory) (typeName : String) : Bool := (factory.find? typeName).isSome

/-- The types it knows. -/
def typeNames (factory : Factory) : List String := factory.entries.map FactoryEntry.typeName

/-- The types it knows in a category. -/
def typesIn (factory : Factory) (category : String) : List String :=
  (factory.entries.filter (fun e ↦ e.category = category)).map FactoryEntry.typeName

/-- Register a type that the factory does not know. -/
def register (factory : Factory) (entry : FactoryEntry) : Attempt Factory :=
  if factory.contains entry.typeName then throw (.duplicateType factory.name entry.typeName)
  else do
    Act.log .debug .factory s!"Factory {factory.name} registers {entry.typeName}"
    return { factory with entries := factory.entries ++ [entry] }

end Factory

/-- An ordered set of factories, the first of which has priority. -/
structure FactorySet where
  /-- The factories, in the order of their priority. -/
  factories : List Factory := []

namespace FactorySet

/-- The factory of a name. -/
def factory? (set : FactorySet) (name : String) : Option Factory :=
  set.factories.find? (fun f ↦ f.name = name)

/-- Add a factory of a new name with the lowest priority. -/
def add (set : FactorySet) (factory : Factory) : Except GraphError FactorySet :=
  if (set.factory? factory.name).isSome then .error (.duplicateFactory factory.name)
  else .ok ⟨set.factories ++ [factory]⟩

/-- Take the factory of a name out. -/
def erase (set : FactorySet) (name : String) : FactorySet :=
  ⟨set.factories.eraseP (fun f ↦ f.name = name)⟩

/-- The entry of a type in the first factory that knows it. -/
def find? (set : FactorySet) (typeName : String) : Option FactoryEntry :=
  set.factories.findSome? (·.find? typeName)

/-- Whether a factory knows a type. -/
def contains (set : FactorySet) (typeName : String) : Bool :=
  set.factories.any (·.contains typeName)

/-- All types the factories know, each once. -/
def typeNames (set : FactorySet) : List String :=
  (set.factories.flatMap Factory.typeNames).eraseDups

/-- All categories in use, sorted, each once. -/
def categories (set : FactorySet) : List String :=
  ((set.factories.flatMap (·.entries.map FactoryEntry.category)).mergeSort (· ≤ ·)).eraseDups

end FactorySet

/-! ## The types that come with the library -/

/-- The type of the nodes that hold a graph. -/
def nestedType : String := "Graph"

/-- The types a factory can restore without being told about them. -/
def builtinEntries : List FactoryEntry :=
  DataKind.all.flatMap (fun k ↦
      [⟨k.label ++ "Source", "Sources", .source k⟩, ⟨k.label ++ "Sink", "Sinks", .sink k⟩])
    ++ [Element.float, Element.int].flatMap (fun e ↦
      [⟨e.label ++ "Transform", "Functionals", .mapping e⟩,
        ⟨e.label ++ "Reduce", "Functionals", .folding e⟩])
    ++ [⟨nestedType, "Graphs", .nested⟩]

/-- Register several types. -/
def Factory.registerAll (factory : Factory) : List FactoryEntry → Attempt Factory
  | [] => return factory
  | entry :: entries => do
    let factory ← factory.register entry
    factory.registerAll entries

/-- The factory of the types that come with the library. -/
def Factory.builtins : Attempt Factory := do
  let factory ← Factory.registerAll { name := "nodeflow.builtins" } builtinEntries
  Act.log .debug .builtins s!"Registered {factory.entries.length} built-in node types"
  return factory

/-- The set of that factory alone. -/
def FactorySet.builtins : Attempt FactorySet := do
  return ⟨[← Factory.builtins]⟩

end PortGraph
