import PortGraph.Proofs.Command.Files
import PortGraph.Proofs.Command.Words
import PortGraph.Proofs.Number.Written

/-!
# Settings that are asked for

What comes of the arguments of a command line depends on the last settings file among them and on the
positional arguments, in their order, and on nothing else; so it does not matter between which words a
settings file is given, as long as the last one stays the last (`Settings.heeds_ofArguments`).

Files are taken in any monad, so that equal outcomes mean that the same is done with files, too: no file is
touched before all arguments were understood, and at most one is read then.  What that file says is kept,
but for what positional arguments take the place of.
-/

set_option autoImplicit false

namespace PortGraph

/-! ## Moving settings files -/

namespace Arguments

/-- The settings files that are given by arguments. -/
def settingsFiles (args : List String) : List String := (words args).filterMap Word.file?

/-- What words are refused for has nothing to do with settings files. -/
theorem refusal?_settings (front back : List Word) (flag file : String) :
    refusal? (front ++ .settings flag file :: back) = refusal? (front ++ back) := by
  rw [refusal?, refusal?, List.findSome?_append, List.findSome?_append,
    List.findSome?_cons_of_isNone rfl, List.filterMap_append, List.filterMap_append,
    List.filterMap_cons_none rfl]

/-- A settings file that is not the last one is not asked for. -/
theorem asked_settings_append {back : List Word} (h : back.filterMap Word.file? ≠ [])
    (front : List Word) (flag file : String) :
    asked (front ++ .settings flag file :: back) = asked (front ++ back) := by
  obtain ⟨last, hlast⟩ := Option.isSome_iff_exists.mp (List.getLast?_isSome.mpr h)
  have hpositional : (front ++ .settings flag file :: back).filterMap Word.positional? =
      (front ++ back).filterMap Word.positional? := by
    rw [List.filterMap_append, List.filterMap_append, List.filterMap_cons_none rfl]
  have hfile : ((front ++ .settings flag file :: back).filterMap Word.file?).getLast? =
      ((front ++ back).filterMap Word.file?).getLast? := by
    rw [List.filterMap_append, List.filterMap_append,
      List.filterMap_cons_some (Word.file?_settings flag file), List.getLast?_append,
      List.getLast?_append, List.getLast?_cons, hlast]
    rfl
  rw [asked, asked, hpositional, hfile]

/-- Behind a settings file there may be words that give none, or they may be in front of it. -/
theorem asked_settings_comm {mid : List Word} (h : mid.filterMap Word.file? = [])
    (front back : List Word) (flag file : String) :
    asked (front ++ .settings flag file :: (mid ++ back)) =
      asked (front ++ (mid ++ .settings flag file :: back)) := by
  simp only [asked, List.filterMap_append, List.filterMap_cons_some (Word.file?_settings flag file),
    List.filterMap_cons_none (Word.positional?_settings flag file), h, List.nil_append]

end Arguments

namespace Settings

open Arguments

/-! ## Positional arguments -/

/-- **Every number of passes can be asked for** by its digits. -/
theorem iterations?_toString (n : UInt32) : iterations? (toString n.toNat) = some n := by
  rw [iterations?, naturalOfText?_toString, Option.bind_some, if_pos n.toNat_lt, UInt32.ofNat_toNat]

/-- Settings in which the first positional argument, as it stands, is the path of the graph, and the second
one the number of passes. -/
def overridden (positional : List String) (s : Settings) : Settings where
  version := s.version
  graph := positional[0]?.getD s.graph
  iterations := (positional[1]?.bind iterations?).getD s.iterations
  logFilter := s.logFilter

/-- The second positional argument, if it is no number of passes. -/
def miscount? (positional : List String) : Option String :=
  positional[1]?.filter fun text ↦ (iterations? text).isNone

/-- **What positional arguments make of settings.** -/
theorem override_eq (positional : List String) (s : Settings) : override positional s =
    match miscount? positional with
    | some text => .error (.invalidArgument ("iteration count " ++ text))
    | none =>
      if (overridden positional s).graph = "" then .error .missingGraph
      else .ok (overridden positional s) := by
  have hgraph : ∀ s : Settings, (if s.graph.isEmpty then throw .missingGraph else return s :
      Except SettingsError Settings) = if s.graph = "" then .error .missingGraph else .ok s := by
    intro s
    by_cases h : s.graph = "" <;> simp [h] <;> rfl
  rw [override, miscount?, overridden]
  cases positional[1]? with
  | none =>
    cases positional[0]? with
    | none => exact hgraph s
    | some graph => exact hgraph { s with graph }
  | some text =>
    cases hn : iterations? text with
    | none =>
      have hmiscount : (some text).filter (fun text ↦ (iterations? text).isNone) = some text := by
        simp [hn]
      rw [hmiscount]
      simp only [hn]
      rfl
    | some n =>
      have hmiscount : (some text).filter (fun text ↦ (iterations? text).isNone) = none := by
        simp [hn]
      rw [hmiscount, Option.bind_some, hn]
      simp only [hn]
      cases positional[0]? with
      | none => exact hgraph { s with iterations := n }
      | some graph => exact hgraph { s with graph, iterations := n }

/-! ## Files -/

variable {m : Type → Type} [Monad m]

theorem load_eq [LawfulMonad m] (files : FileAccess m) (file : String) :
    load files file = ofFile file <$> files.read file := by
  rw [load, map_eq_pure_bind]
  exact congrArg _ (funext fun read ↦ by cases read <;> rfl)

theorem base_of_file (files : FileAccess m) {args : Arguments} {file : String}
    (h : args.file = some file) : base files args = load files file := by
  rw [base, h]

theorem base_of_nothing (files : FileAccess m) {args : Arguments} (hfile : args.file = none)
    (hpositional : args.positional = []) : base files args =
      files.isPresent localFile >>= fun found ↦
        if found then load files localFile else return .ok {} := by
  rw [base, hfile, hpositional]

theorem base_of_positional (files : FileAccess m) {args : Arguments} (hfile : args.file = none)
    (hpositional : args.positional ≠ []) : base files args = pure (.ok {}) := by
  cases hp : args.positional with
  | nil => exact absurd hp hpositional
  | cons arg rest => rw [base, hfile, hp]

theorem ofArguments_of_refused (files : FileAccess m) {args : List String} {report : String}
    (h : refusal? (words args) = some report) :
    ofArguments files args = pure (.error (.invalidArgument report)) := by
  rw [ofArguments, ofList_eq, h]

/-- What is made of arguments that are not refused. -/
theorem ofArguments_of_asked [LawfulMonad m] (files : FileAccess m) {args : List String}
    (h : refusal? (words args) = none) : ofArguments files args =
      (·.bind (override (asked (words args)).positional)) <$> base files (asked (words args)) := by
  rw [ofArguments, ofList_eq, h, map_eq_pure_bind]

/-- **Arguments whose words ask for the same** have the same outcome. -/
theorem ofArguments_congr [LawfulMonad m] (files : FileAccess m) {args args' : List String}
    (hrefusal : refusal? (words args') = refusal? (words args))
    (hasked : asked (words args') = asked (words args)) :
    ofArguments files args' = ofArguments files args := by
  cases h : refusal? (words args) with
  | some report =>
    rw [ofArguments_of_refused files h, ofArguments_of_refused files (hrefusal.trans h)]
  | none =>
    rw [ofArguments_of_asked files h, ofArguments_of_asked files (hrefusal.trans h), hasked]

/-! ## What comes of arguments -/

/-- **What comes of arguments**, whatever files there are. -/
structure Heeds (files : FileAccess m) (args : List String) : Prop where
  /-- They are read from left to right, word by word. -/
  spells : Spells (words args) args
  /-- The first word at fault is reported, or else the third positional argument, and no file is touched. -/
  refused : ∀ report, refusal? (words args) = some report →
    ofArguments files args = pure (.error (.invalidArgument report))
  /-- Otherwise the last settings file is read, and no other file is touched.  What it leads to is
  overridden by the positional arguments. -/
  read : ∀ file, refusal? (words args) = none → (asked (words args)).file = some file →
    ofArguments files args =
      (fun text ↦ (ofFile file text).bind (override (asked (words args)).positional)) <$>
        files.read file
  /-- What a settings file leads to is what it says, with the path of the graph seen from its folder, unless
  it cannot be read or understood. -/
  told : ∀ file read, Tells file read (ofFile file read)
  /-- A settings file can say any settings of a version that is understood. -/
  written : ∀ s : Settings, s.version ≤ formatVersion → Says s.toText s
  /-- Without one no file is touched if there are positional arguments. -/
  unread : refusal? (words args) = none → (asked (words args)).file = none →
    (asked (words args)).positional ≠ [] →
    ofArguments files args = pure (override (asked (words args)).positional {})
  /-- Without any arguments the file of the working folder is looked for, and read if there is one. -/
  alone : args = [] → ofArguments files args = do
    if ← files.isPresent localFile then
      (fun text ↦ (ofFile localFile text).bind (override [])) <$> files.read localFile
    else return override [] {}
  /-- The first positional argument takes the place of the graph's path, as it stands, and the second one
  that of the number of passes.  Everything else stays. -/
  overrides : ∀ s, override (asked (words args)).positional s =
    match miscount? (asked (words args)).positional with
    | some text => .error (.invalidArgument ("iteration count " ++ text))
    | none =>
      if (overridden (asked (words args)).positional s).graph = "" then .error .missingGraph
      else .ok (overridden (asked (words args)).positional s)
  /-- Every number of passes can be asked for by its digits. -/
  counts : ∀ n : UInt32, iterations? (toString n.toNat) = some n
  /-- Nothing but the last settings file and the positional arguments makes a difference. -/
  alike : ∀ args', refusal? (words args) = none → refusal? (words args') = none →
    asked (words args') = asked (words args) → ofArguments files args' = ofArguments files args
  /-- Between any two words a settings file may be put in, if there is one behind it. -/
  inserted : ∀ front back, front ++ back = args → IsWhole front → settingsFiles back ≠ [] →
    ∀ flag file, isFileFlag flag = true →
      ofArguments files (front ++ flag :: file :: back) = ofArguments files args
  /-- A settings file may be moved to any place between words, as long as the last one stays the last. -/
  moved : ∀ front mid back flag file, front ++ flag :: file :: (mid ++ back) = args →
    isFileFlag flag = true → IsWhole front → IsWhole mid →
    (settingsFiles mid = [] ∨ settingsFiles back ≠ []) →
      ofArguments files (front ++ (mid ++ flag :: file :: back)) = ofArguments files args

/-- **The outcome depends on the last settings file and the positional arguments alone**, wherever they
stand. -/
theorem heeds_ofArguments [LawfulMonad m] (files : FileAccess m) (args : List String) :
    Heeds files args where
  spells := spells_words args
  refused report := ofArguments_of_refused files
  read file hnone hfile := by
    rw [ofArguments_of_asked files hnone, base_of_file files hfile, load_eq, Functor.map_map]
  told := tells_ofFile
  written _ := says_toText
  unread hnone hfile hpositional := by
    rw [ofArguments_of_asked files hnone, base_of_positional files hfile hpositional, map_pure]
    rfl
  alone hargs := by
    rw [hargs, ofArguments_of_asked files rfl, base_of_nothing files rfl rfl, map_bind]
    refine congrArg _ (funext fun found ↦ ?_)
    cases found with
    | false => exact map_pure ..
    | true => exact (congrArg _ (load_eq files localFile)).trans (Functor.map_map ..)
  overrides := override_eq _
  counts := iterations?_toString
  alike args' hnone hnone' := ofArguments_congr files (hnone'.trans hnone.symm)
  -- In both of the last cases only the words matter, and those of complete parts are appended.
  inserted front back hargs hfront hback flag file hflag := by
    subst hargs
    have hwords := hfront.words_append (flag :: file :: back)
    rw [words_settings hflag] at hwords
    refine ofArguments_congr files ?_ ?_ <;> rw [hwords, hfront.words_append]
    · exact refusal?_settings ..
    · exact asked_settings_append hback ..
  moved front mid back flag file hargs hflag hfront hmid hlast := by
    subst hargs
    have hwords := hfront.words_append (flag :: file :: (mid ++ back))
    have hwords' := hfront.words_append (mid ++ flag :: file :: back)
    rw [words_settings hflag, hmid.words_append] at hwords
    rw [hmid.words_append, words_settings hflag] at hwords'
    refine ofArguments_congr files ?_ ?_ <;> rw [hwords, hwords']
    · rw [← List.append_assoc, refusal?_settings, refusal?_settings, List.append_assoc]
    · rcases hlast with hmid | hback
      · exact (asked_settings_comm hmid ..).symm
      · rw [← List.append_assoc, asked_settings_append hback, asked_settings_append, List.append_assoc]
        rw [List.filterMap_append]
        exact List.append_ne_nil_of_right_ne_nil _ hback

/-- Settings with nothing that is there by default. -/
def sampleSettings : Settings where
  graph := "g.ron"
  iterations := 4
  logFilter := some "debug"

/-- Files that note which of them are touched.  One of them holds settings. -/
def sampleFiles : FileAccess (StateM (List String)) where
  read path := fun touched ↦
    (if path = "runs/a.ron" then .ok sampleSettings.toText else .error .notFound, touched ++ [path])
  write path _ := fun touched ↦ (.ok (), touched ++ [path])
  isPresent path := fun touched ↦ (path = localFile, touched ++ [path])

/-- Two settings files, the first of which looks like a flag, and two positional arguments. -/
def sampleArguments : List String := ["b.ron", "-s", "--old", "--settings", "runs/a.ron", "9"]

/-- **One file is read for these arguments**, wherever the other one is given, and none if there is a flag
that is not known.  The log filter is that of the file, and so is all the rest if nothing else is given. -/
theorem heeds_sampleArguments :
    Says sampleSettings.toText sampleSettings ∧
      Tells "runs/a.ron" (.ok sampleSettings.toText)
        (ofFile "runs/a.ron" (.ok sampleSettings.toText)) ∧
      ((ofArguments sampleFiles ["--settings", "runs/a.ron"]).run []).1.toOption =
        some { graph := "runs/g.ron", iterations := 4, logFilter := some "debug" } ∧
      ((ofArguments sampleFiles sampleArguments).run []).1.toOption =
        some { graph := "b.ron", iterations := 9, logFilter := some "debug" } ∧
      ((ofArguments sampleFiles sampleArguments).run []).2 = ["runs/a.ron"] ∧
      ofArguments sampleFiles ["-s", "--old", "b.ron", "--settings", "runs/a.ron", "9"] =
        ofArguments sampleFiles sampleArguments ∧
      ofArguments sampleFiles ("-x" :: "--settings" :: sampleArguments) =
        pure (.error (.invalidArgument "-x")) := by
  have h := heeds_ofArguments sampleFiles sampleArguments
  have halone := heeds_ofArguments sampleFiles ["--settings", "runs/a.ron"]
  have hread := h.read "runs/a.ron" (by decide +kernel) (by decide +kernel)
  refine ⟨h.written _ (by decide), h.told _ _, ?_, ?_, ?_, ?_, ?_⟩
  · rw [halone.read "runs/a.ron" (by decide +kernel) (by decide +kernel)]
    decide +kernel
  · rw [hread]
    decide +kernel
  · rw [hread]
    rfl
  · have hmoved := heeds_ofArguments sampleFiles ["-s", "--old", "b.ron", "--settings", "runs/a.ron", "9"]
    exact (hmoved.moved [] ["b.ron"] ["--settings", "runs/a.ron", "9"] "-s" "--old" rfl (by decide +kernel)
      (by decide +kernel) (by decide +kernel) (.inr (by decide +kernel))).symm
  · exact (heeds_ofArguments sampleFiles ("-x" :: "--settings" :: sampleArguments)).refused "-x" (by decide +kernel)

end Settings
end PortGraph
