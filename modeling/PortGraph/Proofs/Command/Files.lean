import PortGraph.Command.Settings
import PortGraph.Proofs.Description.Ron

/-!
# What settings files say

A settings file that can be read, and is of a version that is understood, says what is to be run
(`Settings.Says`).  All settings of such a version can be said: they are read from the text that is
written of them, field by field (`Settings.says_toText`).  All that is made of the file is that the path
of the graph is taken as seen from its folder; any other file is reported (`Settings.tells_ofFile`).
-/

set_option autoImplicit false

namespace PortGraph

open Ron.Reader Ron.TextReader

/-- The folder of a path, as far as the path names one. -/
def Path.folder (path : String) : String := (Path.parent? path).getD ""

namespace Settings

theorem resolve_eq (s : Settings) (file : String) :
    s.resolve file = { s with graph := Path.join (Path.folder file) s.graph } := by
  rw [resolve, Path.folder]
  cases Path.parent? file with
  | none => simp [Path.join]
  | some folder =>
    dsimp only [Option.getD_some]
    split
    · rename_i habsolute
      rw [Path.join, if_pos habsolute]
    · rfl

/-! ## Texts -/

/-- **What a settings file says** that can be read, and is of a version that is understood. -/
structure Says (text : String) (s : Settings) : Prop where
  /-- The text holds the settings. -/
  read : Ron.TextReader.run (RecordReader.record (asRecord Ron.TextReader)) text = .ok s
  /-- Their version is no newer than the library. -/
  version : s.version ≤ formatVersion

theorem Says.of_toOption {text : String} {s : Settings}
    (hread : (Ron.TextReader.run (RecordReader.record (asRecord Ron.TextReader)) text).toOption =
      some s) (hversion : s.version ≤ formatVersion) : Says text s where
  read := by
    cases h : Ron.TextReader.run (RecordReader.record (asRecord Ron.TextReader)) text with
    | error e =>
      rw [h] at hread
      exact absurd hread (by simp [Except.toOption])
    | ok s' =>
      rw [h] at hread
      exact congrArg _ (Option.some.inj hread)
  version := hversion

theorem Says.ofText {text : String} {s : Settings} (h : Says text s) (file : String) :
    ofText file text = .ok (s.resolve file) := by
  rw [Settings.ofText, h.read]
  exact if_neg (UInt32.not_lt.mpr h.version)

/-- The tree of settings. -/
def toRon (s : Settings) : Ron :=
  .fields ([("version", .int s.version.toNat), ("graph", .text s.graph),
      ("iterations", .int s.iterations.toNat)]
    ++ presentField "log_filter" (fun filter ↦ .some (.text filter)) s.logFilter)

/-- The text of settings. -/
def toText (s : Settings) : String := Ron.write 0 s.toRon

theorem reads_toRon (s : Settings) (level budget : Nat) :
    Reads (Ron.TextReader.record (asRecord Ron.TextReader) { budget := budget + 3 })
      (Ron.write level s.toRon).toList s := by
  have hfields : List.Forall₂
      (ReadsField (asRecord Ron.TextReader) (level + 1) (budget + 1))
      ([("version", .int s.version.toNat), ("graph", .text s.graph),
          ("iterations", .int s.iterations.toNat)]
        ++ presentField "log_filter" (fun filter ↦ .some (.text filter)) s.logFilter)
      ([fun r ↦ { r with version := s.version }, fun r ↦ { r with graph := s.graph },
          fun r ↦ { r with iterations := s.iterations }]
        ++ s.logFilter.toList.map (fun filter r ↦ { r with logFilter := some filter })) := by
    refine List.rel_append ?_ ?_
    · exact .cons ⟨begins_int _ _, _, rfl, reads_map _ (reads_word s.version _ _)⟩ <|
        .cons ⟨begins_text _ _, _, rfl, reads_map _ (reads_text s.graph _ _)⟩ <|
        .cons ⟨begins_int _ _, _, rfl, reads_map _ (reads_word s.iterations _ _)⟩ .nil
    · refine forall₂_someField (fun filter (r : Settings) ↦ { r with logFilter := filter }) ?_
        fun filter _ ↦ ⟨begins_text _ _, reads_text filter _ _⟩
      rfl
  have hnames : ∀ filtered : Bool,
      let names := ["version", "graph", "iterations"] ++ if filtered then ["log_filter"] else []
      names.Nodup ∧ (∀ s ∈ names, IsName s) ∧
        (asRecord Ron.TextReader).missing? names.reverse = none := by decide +kernel
  obtain ⟨version, graph, iterations, _ | filter⟩ := s
  · obtain ⟨hnodup, hidentifiers, hall⟩ := hnames false
    exact reads_record hfields hidentifiers hnodup hall
  · obtain ⟨hnodup, hidentifiers, hall⟩ := hnames true
    exact reads_record hfields hidentifiers hnodup hall

/-- **Settings are read from the text that is written of them.** -/
theorem says_toText {s : Settings} (h : s.version ≤ formatVersion) : Says s.toText s where
  read := by
    obtain ⟨blanks, -, hbegins⟩ := exists_blanks_fields 0 ([("version", .int s.version.toNat),
      ("graph", .text s.graph), ("iterations", .int s.iterations.toNat)]
        ++ presentField "log_filter" (fun filter ↦ .some (.text filter)) s.logFilter)
    exact run_eq_ok hbegins (reads_toRon s 0 125)
  version := h

/-! ## Files -/

/-- The settings in a file that was tried to read. -/
def ofFile (file : String) : Except FileError String → Except SettingsError Settings
  | .error e => .error (.file e)
  | .ok text => ofText file text

/-- **What a settings file leads to** that was tried to read. -/
inductive Tells (file : String) : Except FileError String → Except SettingsError Settings → Prop
  /-- It cannot be read. -/
  | unreadable (e : FileError) : Tells file (.error e) (.error (.file e))
  /-- It holds no settings. -/
  | senseless {text : String} {e : Ron.ReadError}
      (h : Ron.TextReader.run (RecordReader.record (asRecord Ron.TextReader)) text = .error e) :
      Tells file (.ok text) (.error (.text e))
  /-- Its version is newer than the library. -/
  | newer {text : String} {s : Settings}
      (hread : Ron.TextReader.run (RecordReader.record (asRecord Ron.TextReader)) text = .ok s)
      (h : formatVersion < s.version) : Tells file (.ok text) (.error (.unsupportedVersion s.version))
  /-- It says what is to be run.  The path of the graph is seen from the folder of the file, and everything
  else is taken as it stands. -/
  | understood {text : String} {s : Settings} (h : Says text s) :
      Tells file (.ok text) (.ok { s with graph := Path.join (Path.folder file) s.graph })

theorem tells_ofFile (file : String) (read : Except FileError String) :
    Tells file read (ofFile file read) := by
  cases read with
  | error e => exact .unreadable e
  | ok text =>
    rw [ofFile, Settings.ofText]
    cases hread : Ron.TextReader.run (RecordReader.record (asRecord Ron.TextReader)) text with
    | error e => exact .senseless hread
    | ok s =>
      dsimp only
      split
      · rename_i hnewer
        exact .newer hread hnewer
      · rename_i hversion
        rw [resolve_eq]
        exact .understood ⟨hread, UInt32.not_lt.mp hversion⟩

end Settings
end PortGraph
