import CellStitch.CommandLine.Answer
import CellStitch.Proofs.Cell.OpenedInTurn
import CellStitch.Proofs.Document.Determined
import CellStitch.Proofs.Document.Lines
import CellStitch.Proofs.Document.Mirror
import CellStitch.Proofs.Document.Operations
import CellStitch.Proofs.NotebookFile
/-!
# Opening a notebook

Every command opens the cells of a notebook one after another. Each of the cells that the document
takes comes behind those before it (`openAll_eq`), because no two of them have the same URI and none
is an input box; the document has the whole text anew each time. The others are only logged.

Together with what is known of the cells of a file, this says what document a command works with
(`exists_documentFor`). There is none if the notebook has no address (`documentFor_eq_error`).
-/

namespace CellStitch

open Document (Reachable)

/-- Settings of the usual kinds. -/
def Settings.plain (disabled : Bool) (header language : String) : Settings :=
  ⟨.bool disabled, fun _ ↦ .text header, .text language⟩

namespace CommandLine

variable {d : Document} {cells : List Cell} {language : String}

/-! ### One cell after another -/

theorem accepts_eq {c : Cell} (hlanguage : d.settings.language = .text language)
    (hinput : c.isInput = .ok false) : d.accepts c = .ok (decide (c.language = language)) := by
  rw [Document.accepts, hlanguage, hinput, Value.isText]
  by_cases h : c.language = language
  · simp [h]
  · simp [h, Ne.symm h]

/-- A cell that is taken comes behind the others. -/
theorem exists_openCell (hd : Reachable d) {c : Cell} (hc : d.accepts c = .ok true)
    (hinput : ∀ x ∈ d.cells, x.isInput = .ok false) (hcinput : c.isInput = .ok false)
    (hnew : c.uri ∉ d.cells.map Cell.uri) :
    ∃ d' update, d.openCell c = .ok (d', update) ∧ Reachable d' ∧ d.SameSetup d' ∧
      d'.cells = d.cells ++ [c] := by
  have hnone : CellList.cell? (d.cells ++ []) c.uri = none := by
    rw [List.append_nil]
    exact CellList.cell?_eq_none_iff.2 fun x hx heq ↦ hnew (List.mem_map.2 ⟨x, hx, heq⟩)
  have hnobox : ∀ b ∈ ([] : CellList), b.isBox = true := by simp
  obtain ⟨i, hopen⟩ :=
    CellList.openCell_append hnobox (Nat.zero_le 1) hinput hnone hcinput
  rw [List.append_nil, List.append_nil] at hopen
  obtain ⟨d', update, hhandle, hcells⟩ := Document.exists_handle_opened hd.readable hc hopen
  have hreach := hd.handle (.opened c)
  rw [hhandle] at hreach
  exact ⟨d', update, Document.eq_ok_of_orKeep hhandle, hreach,
    (hd.settled.soundStep_of_handle hhandle).sameSetup, hcells⟩

/-- **Cells that are opened one after another** come one behind the other, in their order, if they
are taken. The others are logged. -/
theorem openAll_eq (hd : Reachable d) (hlanguage : d.settings.language = .text language)
    (hinput : ∀ c ∈ d.cells ++ cells, c.isInput = .ok false)
    (hnodup : ((d.cells ++ cells).map Cell.uri).Nodup) :
    ∃ d', openAll d cells =
        ((cells.filter (·.language ≠ language)).map skippedLine, .ok d') ∧
      Reachable d' ∧ d.SameSetup d' ∧ d'.cells = d.cells ++ cells.filter (·.language = language) := by
  induction cells generalizing d with
  | nil => exact ⟨d, rfl, hd, .refl d, (List.append_nil _).symm⟩
  | cons c cells ih =>
    have hcinput := hinput c (List.mem_append_right _ List.mem_cons_self)
    have hc := accepts_eq hlanguage hcinput
    rw [openAll, hc]
    by_cases htaken : c.language = language
    · rw [decide_eq_true htaken] at hc ⊢
      have hnew : c.uri ∉ d.cells.map Cell.uri := by
        rw [List.map_append, List.map_cons, List.nodup_middle, List.nodup_cons] at hnodup
        exact fun hmem ↦ hnodup.1 (List.mem_append_left _ hmem)
      obtain ⟨d₁, update, hopen, hd₁, hsame₁, hcells₁⟩ := exists_openCell hd hc
        (fun x hx ↦ hinput x (List.mem_append_left _ hx)) hcinput hnew
      have happend : d.cells ++ c :: cells = d₁.cells ++ cells := by
        rw [hcells₁, List.append_assoc, List.singleton_append]
      obtain ⟨d', hall, hd', hsame, hcells⟩ := ih hd₁ (hsame₁.settings_eq ▸ hlanguage)
        (happend ▸ hinput) (happend ▸ hnodup)
      refine ⟨d', ?_, hd', hsame₁.trans hsame, ?_⟩
      · simp [hopen, hall, htaken]
      · simp [hcells, hcells₁, htaken]
    · rw [decide_eq_false htaken] at hc ⊢
      have hopen : d.openCell c = .ok (d, none) := by
        rw [Document.openCell, hc]
        rfl
      have hsub : (d.cells ++ cells).Sublist (d.cells ++ c :: cells) :=
        (List.sublist_cons_self c cells).append_left d.cells
      obtain ⟨d', hall, hd', hsame, hcells⟩ := ih hd hlanguage
        (fun x hx ↦ hinput x (hsub.subset hx)) (hnodup.sublist (hsub.map Cell.uri))
      refine ⟨d', ?_, hd', hsame, ?_⟩
      · simp [hopen, hall, htaken]
      · simp [hcells, htaken]

/-! ### The document of a notebook -/

/-- A document of cells of a notebook, none of which is an input box. -/
structure Holds (d : Document) (disabled : Bool) (h : String) (cells : CellList) : Prop where
  reachable : Reachable d
  cells_eq : d.cells = cells
  marks_eq : d.settings.marks = !disabled
  headerText_eq : d.headerText = Rendering.header h.toList
  nodup_cellUris : d.cellUris.Nodup
  isInput_eq : ∀ c ∈ cells, c.isInput = .ok false

/-- The text of such a document, line by line. -/
def stitched (disabled : Bool) (h : String) (cells : CellList) : Text :=
  Rendering.document h.toList (!disabled) (cells.map Cell.text)

theorem Holds.text_eq {disabled : Bool} {h : String} (hd : Holds d disabled h cells) :
    d.text = stitched disabled h cells := by
  have hinput : ∀ c ∈ d.cells, c.isInput = .ok false := hd.cells_eq ▸ hd.isInput_eq
  rw [hd.reachable.settled.text_eq_document hd.headerText_eq hinput, hd.marks_eq, hd.cells_eq,
    stitched]

section Notebook

variable {t : FileTree} {notebook : String} {config header : Option String} {noMarks : Bool}
  {disabled : Bool} {h : String}
  (hsettings : settingsFor t (Path.ofString notebook) config noMarks header =
    .ok (.plain disabled h language))
include hsettings

/-- **A notebook without an address** has no document. -/
theorem documentFor_eq_error {f : Failure}
    (haddress : documentOf (NotebookFile.notebookUri (t.resolve (Path.ofString notebook))) =
      .error f) :
    documentFor t notebook config noMarks header = ([], .error (.crash (.document f))) := by
  have hempty : emptyDocument t (Path.ofString notebook) (.plain disabled h language) =
      .error f := by
    rw [emptyDocument, haddress]
    rfl
  rw [documentFor]
  simp only [hsettings, hempty, mapError_error, ok_bind, error_bind]

/-- **The document of a notebook** has the cells of its language, in their order, and the header of
the settings. The other cells are logged. -/
theorem exists_documentFor (hcells : NotebookFile.load t (Path.ofString notebook) = .ok cells)
    {uri : String}
    (haddress : documentOf (NotebookFile.notebookUri (t.resolve (Path.ofString notebook))) =
      .ok uri) :
    ∃ d, documentFor t notebook config noMarks header =
        ((cells.filter (·.language ≠ language)).map skippedLine, .ok d) ∧
      Holds d disabled h (cells.filter (·.language = language)) := by
  set settings := Settings.plain disabled h language
  have hheader : settings.header uri = .text h := rfl
  obtain ⟨d, hnew⟩ := Document.exists_new hheader
  obtain ⟨-, hnone, -, -, -⟩ := Document.settled_of_new hnew
  have hdsettings : d.settings = settings := by
    obtain ⟨_, -, hd⟩ := bind_eq_ok_iff.1 hnew
    obtain rfl := Except.ok.inj hd
    rfl
  -- the URIs are numbered, so that they are distinct and none is that of an input box
  have hinput : ∀ c ∈ cells, c.isInput = .ok false := by
    obtain ⟨n, huris⟩ := NotebookFile.uris_of_load hcells
    intro c hc
    obtain ⟨i, -, hi⟩ := List.mem_map.1 (huris ▸ List.mem_map_of_mem hc)
    rw [Cell.isInput, ← hi]
    exact NotebookFile.isInput_cellUri haddress i
  have hnodup := NotebookFile.nodup_uris_of_load hcells
  have hlanguage : d.settings.language = .text language := by
    rw [hdsettings]
    rfl
  obtain ⟨d', hall, hd', hsame, hcells'⟩ := openAll_eq (.new hnew) hlanguage
    (by rwa [hnone]) (by rwa [hnone])
  rw [hnone, List.nil_append] at hcells'
  have hempty : emptyDocument t (Path.ofString notebook) settings = .ok d := by
    rw [emptyDocument, haddress, ok_bind, hnew]
  refine ⟨d', ?_, hd', hcells', ?_, ?_, ?_, fun c hc ↦ hinput c (List.mem_filter.1 hc).1⟩
  · rw [documentFor]
    simp only [hsettings, hempty, hcells, mapError_ok, ok_bind]
    exact hall
  · rw [hsame.settings_eq, hdsettings]
    rfl
  · rw [Document.headerText, hsame.header_eq]
    exact Document.headerText_of_new hheader hnew
  · rw [Document.cellUris, hcells']
    exact hnodup.sublist (List.filter_sublist.map _)

end Notebook

/-! ### The log -/

/-- What is logged of a notebook, if anything is: the cells that are not of the language. -/
def logOf (verbose : Bool) (language : String) (cells : List Cell) : String :=
  if verbose then String.join ((cells.filter (·.language ≠ language)).map skippedLine) else ""

/-! ### A folder with one notebook -/

/-- The working folder with a notebook in it. -/
def folderOf (contents : String) : FileTree :=
  .ofFiles ["work"] [("n.ipynb", some contents.toUTF8)]

theorem read_folderOf (contents : String) :
    (folderOf contents).read (Path.ofString "n.ipynb") = .ok contents.toUTF8 := rfl

/-- No settings are found there, and the usual ones are taken. -/
theorem settingsFor_folderOf (contents : String) (header : Option String) :
    settingsFor (folderOf contents) (Path.ofString "n.ipynb") none false header =
      .ok (.plain false (header.getD "") "python") := by
  rcases header with - | text <;> rfl

theorem load_folderOf {contents : String} {v : Value} (hv : Json.read contents.toList = .ok v)
    (hcells : NotebookFile.cellsOf (NotebookFile.cellUri ["work", "n.ipynb"]) v = .ok cells) :
    NotebookFile.load (folderOf contents) (Path.ofString "n.ipynb") = .ok cells := by
  have hplace : (folderOf contents).resolve (Path.ofString "n.ipynb") = ["work", "n.ipynb"] := rfl
  rw [NotebookFile.load_eq_of_read (read_folderOf contents) hv, hplace, hcells]
  rfl

end CommandLine

end CellStitch
