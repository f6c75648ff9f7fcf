import CellStitch.CommandLine.Run
import CellStitch.Proofs.CommandLine.Console
import CellStitch.Proofs.Cell.Order
import CellStitch.Proofs.Text.ControlSequence
import CellStitch.Proofs.Text.Integer
/-!
# The standard console does what is relied on

What is read names files that are there, and the words for a place are read as a place
(`Console.readsAsDeclared_standard`). What is written has lost its control sequences, and a style
code is one of them (`Console.hidesStyles_standard`).

Help is given before anything else is looked at (`request_help`).
-/

namespace CellStitch

/-! ### Styles -/

/-- A style code is a control sequence: numbers are parameters, and an `m` is a final character. -/
theorem Text.IsStyleCode.isControlSequence {s : Text} (h : IsStyleCode s) :
    IsControlSequence s := by
  obtain ⟨styles, rfl, hstyles⟩ := h
  refine ⟨styles, [], 'm', rfl, fun c hc ↦ ?_, by simp, rfl⟩
  rw [isParameter_iff]
  rcases hstyles c hc with hdigit | rfl
  · have hrange := toNat_of_isDigit hdigit
    omega
  · decide

/-- A text without escape characters has no control sequence. -/
theorem Text.not_hasControlSequence_of_notMem {t : Text} (h : escapeChar ∉ t) :
    ¬ HasControlSequence t := by
  rintro ⟨_, ⟨parameters, intermediates, final, rfl, -⟩, hinside⟩
  exact h (hinside.subset List.mem_cons_self)

namespace CommandLine

variable {isFile? : String → Option Bool}

/-- **Styles are hidden** by the standard console. -/
theorem Console.hidesStyles_standard : standard.HidesStyles where
  written_plain {s} h := by
    have hwhole := Text.withoutControlSequences_eq_self_iff.2
      (Text.not_hasControlSequence_of_notMem h)
    rw [standard]
    simp only [hwhole, String.ofList_toList]
  written_styled {s} h hwhole := by
    obtain ⟨code, hcode, hinside⟩ := h
    rw [standard, ← String.toList_inj, String.toList_ofList,
      Text.withoutControlSequences_eq_self_iff] at hwhole
    exact hwhole ⟨code, hcode.isControlSequence, hinside⟩

/-! ### Files -/

/-- A word passes the check exactly if it names a file. -/
theorem checkFile_eq_ok_iff {declared : Declaration} {word : String} :
    checkFile isFile? declared word = .ok () ↔ isFile? word = some true := by
  rw [checkFile]
  rcases isFile? word with - | _ | _ <;> simp

/-- The files of a command are checked when its values are read. -/
theorem isFile?_of_commandOf {name : String} {declared : Declaration} {words : Words} {c : Command}
    (h : commandOf isFile? name declared words = .ok c) :
    ∀ file ∈ c.files, isFile? file = some true := by
  unfold commandOf at h
  -- the arguments are read in the same way with and without settings that are named
  rcases hconfig : words.value? "config" with - | file <;> simp only [hconfig] at h
  case' some =>
    obtain ⟨⟨⟩, hfile, h⟩ := bind_eq_ok_iff.1 h
    rw [checkFile_eq_ok_iff] at hfile
  all_goals
    split at h
    · cases h
    · obtain ⟨⟨⟩, hnotebook, h⟩ := bind_eq_ok_iff.1 h
      rw [checkFile_eq_ok_iff] at hnotebook
      split at h
      · cases h
        simp [Command.files, *]
      · split at h <;> cases h
        simp [Command.files, *]
      · cases h
        simp [Command.files, *]
      · cases h

/-- What is read behind the name of a command is a page, or that command with its values. -/
theorem exists_commandOf_of_command {verbose verbose' : Bool} {name : String}
    {declared : Declaration} {args : List String} {c : Command}
    (h : command isFile? verbose name declared args = .ok (.command verbose' c)) :
    ∃ words, commandOf isFile? name declared words = .ok c := by
  unfold command at h
  split at h
  · cases h
  · rename_i words _
    split at h
    · cases h
    · refine ⟨words, ?_⟩
      rcases hcommand : commandOf isFile? name declared words with refusal | c'
      · rw [hcommand] at h
        cases h
      · rw [hcommand] at h
        cases h
        rfl

/-- **The files of a command that is read are there.** -/
theorem isFile?_of_request {args : List String} {verbose : Bool} {c : Command}
    (h : request isFile? args = .ok (.command verbose c)) :
    ∀ file ∈ c.files, isFile? file = some true := by
  unfold request at h
  dsimp only at h
  split at h
  · cases h
  · split at h
    · cases h
    · cases h
    · split at h
      · obtain ⟨words, hcommand⟩ := exists_commandOf_of_command h
        exact isFile?_of_commandOf hcommand
      · split at h <;> cases h

/-! ### Words of a query -/

/-- The words behind `map` are sorted as they are meant: nothing behind the two dashes is an
option. -/
theorem sort_mapWords (config : Option String) (arguments : List String) :
    mapDeclaration.options.sort (config.elim [] (["--config", ·]) ++ "--" :: arguments) =
      some ⟨[], config.elim [] fun file ↦ [("config", file)], arguments⟩ := by
  have hend : mapDeclaration.options.sort ("--" :: arguments) = some ⟨[], [], arguments⟩ := rfl
  rcases config with - | file
  · exact hend
  · have hword : mapDeclaration.options.sort ("--config" :: file :: "--" :: arguments) =
        (mapDeclaration.options.sort ("--" :: arguments)).map (·.withValue "config" file) := by
      rw [OptionTable.sort]
      rfl
    rw [Option.elim, List.cons_append, List.singleton_append, hword, hend]
    rfl

/-- **The words are read as a place**, if they are numbers and the files are there. -/
theorem request_mapWords {config : Option String} {notebook line character : String} {l c : Int}
    (hnotebook : isFile? notebook = some true)
    (hconfig : ∀ file ∈ config, isFile? file = some true)
    (hline : Text.integer? line.toList = some l)
    (hcharacter : Text.integer? character.toList = some c) :
    request isFile? (mapWords config notebook line character) =
      .ok (.command false (.map notebook l c config)) := by
  have hprogram : programDeclaration.options.sort (mapWords config notebook line character) =
      some ⟨[], [], mapWords config notebook line character⟩ := rfl
  have hvalues : commandOf isFile? "map" mapDeclaration
      ⟨[], config.elim [] fun file ↦ [("config", file)], [notebook, line, character]⟩ =
        .ok (.map notebook l c config) := by
    have hfile : checkFile isFile? mapDeclaration notebook = .ok () :=
      checkFile_eq_ok_iff.2 hnotebook
    rcases config with - | file
    · simp [commandOf, Words.value?, hfile, hline, hcharacter]
    · have hsettings : checkFile isFile? mapDeclaration file = .ok () :=
        checkFile_eq_ok_iff.2 (hconfig file rfl)
      simp [commandOf, Words.value?, hfile, hsettings, hline, hcharacter]
  have hcommand : command isFile? false "map" mapDeclaration
      (config.elim [] (["--config", ·]) ++ ["--", notebook, line, character]) =
        .ok (.command false (.map notebook l c config)) := by
    rw [command, sort_mapWords]
    simp only [Declaration.page?, List.findSome?_nil, hvalues]
    rfl
  rw [request, hprogram]
  exact hcommand

/-- **Words are read as they are declared** by the standard console. -/
theorem Console.readsAsDeclared_standard : standard.ReadsAsDeclared where
  files_exist := isFile?_of_request
  request_mapWords := CommandLine.request_mapWords

/-! ### Help -/

/-- **Help comes first**: no file is looked at, and no command has to be named. -/
theorem request_help {args : List String} (h : (programDeclaration.options.sort args).isSome) :
    request isFile? ("--help" :: args) = .ok (.page programDeclaration.helpPage) := by
  obtain ⟨words, hwords⟩ := Option.isSome_iff_exists.1 h
  have hsort : programDeclaration.options.sort ("--help" :: args) =
      some { words with flags := "help" :: words.flags } := by
    rw [OptionTable.sort, hwords]
    rfl
  rw [request, hsort]
  rfl

example : (run (.ofFiles [] []) ["--help"]).toOption.map Output.exitCode = some 0 := by
  decide +kernel

end CommandLine

end CellStitch
