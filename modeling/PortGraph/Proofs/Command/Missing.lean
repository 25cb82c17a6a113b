import PortGraph.Proofs.Command.Settings

/-!
# Runs without a graph

Settings must name a graph.  This is checked of the path that is left in the end, when the path in a
settings file was already taken as seen from the folder of the file.  So no graph is found missing in a
settings file unless the file itself is named without a folder (`Settings.tellsGraph_ofArguments`); in any
other file an empty path leads to its folder, and passes for a graph (`Settings.accepted_sampleStray`).
-/

set_option autoImplicit false

namespace PortGraph

/-! ## Folders -/

namespace Path

/-- A path that names no folder: behind its first part there is nothing that says anything. -/
def IsBare (path : String) : Prop := ∀ part ∈ (split path.toList).tail, isIdle part = true

instance (path : String) : Decidable (IsBare path) :=
  inferInstanceAs (Decidable (∀ part ∈ (split path.toList).tail, isIdle part = true))

theorem split_ne_nil (cs : List Char) : split cs ≠ [] := by
  cases cs with
  | nil => simp [split]
  | cons c cs =>
    rw [split]
    split
    · simp
    · split <;> simp

theorem unsplit_ne_empty {parts : List (List Char)} (h : parts ≠ []) : unsplit parts ≠ "" := by
  match parts with
  | [] => exact absurd rfl h
  | [[]] => decide
  | [c :: cs] => simp [unsplit, List.intercalate]
  | first :: second :: rest => simp [unsplit, List.intercalate]

theorem trimEnd_cons_eq_singleton_iff (first : List Char) (parts : List (List Char)) :
    trimEnd (first :: parts) = [first] ↔ ∀ part ∈ parts, isIdle part = true := by
  simp [trimEnd, List.dropWhile_eq_nil_iff]

/-- **A path has no folder just if it names none.** -/
theorem folder_eq_empty_iff (path : String) : folder path = "" ↔ IsBare path := by
  rw [folder, parent?, IsBare]
  cases hsplit : split path.toList with
  | nil => exact absurd hsplit (split_ne_nil _)
  | cons first parts =>
    rw [List.tail_cons, ← trimEnd_cons_eq_singleton_iff first]
    obtain ⟨kept, hkept⟩ : ∃ kept, trimEnd (first :: parts) = first :: kept := ⟨_, rfl⟩
    rw [hkept]
    cases kept with
    | nil => cases first <;> simp [trimEnd, unsplit]
    | cons part kept =>
      have hne : unsplit (trimEnd (first :: (part :: kept).dropLast)) ≠ "" :=
        unsplit_ne_empty (List.cons_ne_nil _ _)
      exact iff_of_false (by cases first <;> exact hne) (by simp)

/-- What is joined is empty only if both parts are. -/
theorem join_eq_empty_iff (folder path : String) : join folder path = "" ↔ folder = "" ∧ path = "" := by
  rw [join]
  split
  · rename_i habsolute
    have hne : path ≠ "" := by
      rintro rfl
      exact absurd habsolute (by decide)
    simp [hne]
  · split
    · simp
    · rename_i hslash
      have hne : folder ≠ "" := by
        rintro rfl
        exact hslash rfl
      simp [hne]

end Path

namespace Settings

open Arguments

/-! ## Settings files -/

/-- **The settings file that is read for arguments**, if there is one, and what it says. -/
inductive Consults (files : FileAccess Id) (args : Arguments) : Option (String × Settings) → Prop
  /-- It is given by the arguments. -/
  | given {file text : String} {s : Settings} (hfile : args.file = some file)
      (hread : files.read file = .ok text) (hs : Says text s) : Consults files args (some (file, s))
  /-- There are no arguments, and it lies in the working folder. -/
  | found {text : String} {s : Settings} (hfile : args.file = none) (hpositional : args.positional = [])
      (hpresent : files.isPresent localFile = true) (hread : files.read localFile = .ok text)
      (hs : Says text s) : Consults files args (some (localFile, s))
  /-- No file is given, and there are other arguments, or no file lies in the working folder. -/
  | nothing (hfile : args.file = none)
      (h : args.positional ≠ [] ∨ files.isPresent localFile = false) : Consults files args none

/-- The settings that a settings file leads to, or those without one. -/
def sourced : Option (String × Settings) → Settings
  | some (file, s) => s.resolve file
  | none => {}

theorem Consults.base_eq {files : FileAccess Id} {args : Arguments}
    {source : Option (String × Settings)} (h : Consults files args source) :
    base files args = Except.ok (sourced source) := by
  cases h with
  | given hfile hread hs =>
    rw [base_of_file files hfile, load_eq, hread]
    exact hs.ofText _
  | found hfile hpositional hpresent hread hs =>
    rw [base_of_nothing files hfile hpositional, hpresent]
    refine (load_eq files localFile).trans ?_
    rw [hread]
    exact hs.ofText _
  | nothing hfile h =>
    by_cases hpositional : args.positional = []
    · rw [base_of_nothing files hfile hpositional, h.resolve_left (· hpositional)]
      rfl
    · rw [base_of_positional files hfile hpositional]
      rfl

/-- **Whether there is a graph to run, and which one.** -/
structure TellsGraph (positional : List String) (source : Option (String × Settings))
    (result : Except SettingsError Settings) : Prop where
  /-- The graph is missing just if the positional argument for it is empty, or there is no such argument,
  and either no settings file was read, or one whose path is empty and which is named without a folder. -/
  missing_iff : result = .error .missingGraph ↔
    positional[0]? = some "" ∨ positional[0]? = none ∧
      (source = none ∨ ∃ file s, source = some (file, s) ∧ s.graph = "" ∧ Path.IsBare file)
  /-- A positional argument is the path of the graph as it stands. -/
  given : ∀ graph, positional[0]? = some graph → graph ≠ "" →
    ∃ s, result = .ok s ∧ s.graph = graph
  /-- Otherwise the path is that in the settings file, as seen from the folder of the file.  If it is empty,
  this is the folder. -/
  kept : ∀ file s, positional[0]? = none → source = some (file, s) →
    (s.graph ≠ "" ∨ ¬ Path.IsBare file) →
    ∃ s', result = .ok s' ∧ s'.graph = Path.join (Path.folder file) s.graph

/-- The path that is left in the end is empty just if no graph is given. -/
theorem overridden_graph_eq_empty_iff (positional : List String) (source : Option (String × Settings)) :
    (overridden positional (sourced source)).graph = "" ↔
      positional[0]? = some "" ∨ positional[0]? = none ∧
        (source = none ∨ ∃ file s, source = some (file, s) ∧ s.graph = "" ∧ Path.IsBare file) := by
  rw [overridden]
  cases positional[0]? with
  | some graph => simp
  | none =>
    cases source with
    | none => simp [sourced]
    | some source =>
      obtain ⟨file, s⟩ := source
      have hjoin : (sourced (some (file, s))).graph = "" ↔ s.graph = "" ∧ Path.IsBare file := by
        rw [sourced, resolve_eq, Path.join_eq_empty_iff, Path.folder_eq_empty_iff, and_comm]
      simp [hjoin, and_assoc]

/-- **Which graph is run**, where arguments are understood and the settings file that is read, if any, says
something. -/
theorem tellsGraph_ofArguments {files : FileAccess Id} {args : List String}
    {source : Option (String × Settings)} (hwords : refusal? (words args) = none)
    (hcount : miscount? (asked (words args)).positional = none)
    (hsource : Consults files (asked (words args)) source) :
    TellsGraph (asked (words args)).positional source (ofArguments files args).run := by
  obtain ⟨positional, hpositional⟩ : ∃ positional, (asked (words args)).positional = positional := ⟨_, rfl⟩
  have hresult : (ofArguments files args).run =
      if (overridden positional (sourced source)).graph = "" then .error .missingGraph
      else .ok (overridden positional (sourced source)) := by
    rw [ofArguments_of_asked files hwords, hsource.base_eq, hpositional]
    exact (override_eq _ _).trans (by rw [hpositional] at hcount; rw [hcount])
  have hempty := overridden_graph_eq_empty_iff positional source
  have hnonempty : (overridden positional (sourced source)).graph ≠ "" →
      (ofArguments files args).run = .ok (overridden positional (sourced source)) :=
    fun h ↦ hresult.trans (if_neg h)
  rw [hpositional]
  refine ⟨?_, fun graph hgraph hne ↦ ?_, fun file s hnone hfile hne ↦ ?_⟩
  · rw [hresult, ← hempty]
    split
    · simpa
    · simpa
  · have hg : (overridden positional (sourced source)).graph = graph := by rw [overridden, hgraph]; rfl
    exact ⟨_, hnonempty (hg ▸ hne), hg⟩
  · have hg : (overridden positional (sourced source)).graph = Path.join (Path.folder file) s.graph := by
      rw [overridden, hnone, hfile, sourced, resolve_eq]
      rfl
    refine ⟨_, hnonempty fun h ↦ ?_, hg⟩
    rw [hg, Path.join_eq_empty_iff, Path.folder_eq_empty_iff] at h
    exact hne.elim (· h.2) (· h.1)

/-- Two settings files whose path of the graph is empty, one of them in a folder. -/
def sampleStray : FileAccess Id where
  read path :=
    if path = localFile ∨ path = "deep/s.ron" then .ok "(version:1,graph:\"\")" else .error .notFound
  write _ _ := .ok ()
  isPresent path := decide (path = localFile ∨ path = "deep/s.ron")

theorem read_sampleStray {path : String} (h : path = localFile ∨ path = "deep/s.ron") :
    sampleStray.read path = Except.ok "(version:1,graph:\"\")" := if_pos h

theorem says_sampleStray : Says "(version:1,graph:\"\")" {} :=
  .of_toOption (by decide +kernel) (by decide)

theorem consults_sampleStray {args : Arguments} (h : args.file = some "deep/s.ron") :
    Consults sampleStray args (some ("deep/s.ron", {})) :=
  .given h (read_sampleStray (.inr rfl)) says_sampleStray

/-- **No graph is given** by the file of the working folder, nor by an empty argument, but by any other
one. -/
theorem tellsGraph_sampleStray :
    (ofArguments sampleStray []).run = .error .missingGraph ∧
      (ofArguments sampleStray ["-s", "deep/s.ron", ""]).run = .error .missingGraph ∧
      ∃ s, (ofArguments sampleStray ["g.ron", "-s", "deep/s.ron", "3"]).run = .ok s ∧
        s.graph = "g.ron" := by
  have hfound : Consults sampleStray (asked (words [])) (some (localFile, {})) :=
    .found rfl rfl rfl (read_sampleStray (.inl rfl)) says_sampleStray
  have hlocal := tellsGraph_ofArguments (by decide +kernel) (by decide +kernel) hfound
  have hempty : TellsGraph (asked (words ["-s", "deep/s.ron", ""])).positional _ _ :=
    tellsGraph_ofArguments (by decide +kernel) (by decide +kernel)
      (consults_sampleStray (by decide +kernel))
  have hgraph : TellsGraph (asked (words ["g.ron", "-s", "deep/s.ron", "3"])).positional _ _ :=
    tellsGraph_ofArguments (by decide +kernel) (by decide +kernel)
      (consults_sampleStray (by decide +kernel))
  refine ⟨hlocal.missing_iff.mpr (.inr ⟨rfl, .inr ⟨_, _, rfl, rfl, by decide +kernel⟩⟩),
    hempty.missing_iff.mpr (.inl (by decide +kernel)), ?_⟩
  exact hgraph.given "g.ron" (by decide +kernel) (by decide)

/-- **A folder passes for a graph**: the settings file gives none, and yet none is found missing. -/
theorem accepted_sampleStray :
    refusal? (words ["-s", "deep/s.ron"]) = none ∧
      Consults sampleStray (asked (words ["-s", "deep/s.ron"])) (some ("deep/s.ron", {})) ∧
      ({} : Settings).graph = "" ∧
      (ofArguments sampleStray ["-s", "deep/s.ron"]).run = .ok { graph := "deep/" } := by
  have hwords : refusal? (words ["-s", "deep/s.ron"]) = none := by decide +kernel
  have hasked : asked (words ["-s", "deep/s.ron"]) = { file := some "deep/s.ron" } := by decide +kernel
  have hsource : Consults sampleStray (asked (words ["-s", "deep/s.ron"])) (some ("deep/s.ron", {})) :=
    consults_sampleStray (by rw [hasked])
  have hjoin : Path.join (Path.folder "deep/s.ron") "" = "deep/" := by decide +kernel
  refine ⟨hwords, hsource, rfl, ?_⟩
  rw [ofArguments_of_asked sampleStray hwords, hsource.base_eq, sourced, resolve_eq, hasked, hjoin]
  rfl

end Settings
end PortGraph
