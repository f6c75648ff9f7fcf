import CellStitch.Address.Notebook
import CellStitch.Proofs.Address.Scheme
import Mathlib.Data.List.Basic
/-!
# Notebooks that share a document

Cells belong to one document exactly if the paths of their URIs are the same
(`documentOfCell_eq_iff`). On the way from a cell to its document a URI is read, written with
the scheme of a notebook or of an interactive window, read again, and taken apart at its last slash.
Which of the two schemes it is depends on the fragment as well, so that cells of one notebook may go
through different notebooks; but the document is made from the path alone.

The paths are those that an editor writes (`SlashPath.IsCanonical`). Such a path is read as it was
written (`Url.parse_addressOf`), and the folder and the name that it is cut into tell it
(`SlashPath.name_append_cons`, `SlashPath.folder_append_cons`).
-/

namespace CellStitch

/-! ### Cutting at a character -/

namespace Text

variable {t : Text} {sep : Char}

/-- A text without a character is not cut at it. -/
theorem cutAt_of_not_mem (h : sep ∉ t) : t.cutAt sep = (t, []) := by
  have hall : ∀ c ∈ t, decide (c ≠ sep) = true := fun c hc ↦ by
    simpa using ne_of_mem_of_not_mem hc h
  rw [cutAt, List.takeWhile_eq_self_iff.2 hall, List.dropWhile_eq_nil_iff.2 hall]
  rfl

/-- A text is cut at the first place where the character stands. -/
theorem cutAt_append_cons (h : sep ∉ t) (u : Text) : (t ++ sep :: u).cutAt sep = (t, u) := by
  have hall : ∀ c ∈ t, decide (c ≠ sep) = true := fun c hc ↦ by
    simpa using ne_of_mem_of_not_mem hc h
  rw [cutAt, List.takeWhile_append_of_pos hall, List.dropWhile_append_of_pos hall]
  simp

end Text

/-! ### Folder and name -/

namespace SlashPath

section Cut

variable {front t : Text}

/-- A name has no slash, from whichever end it is read. -/
theorem reverse_ne_slash (h : '/' ∉ t) : ∀ c ∈ t.reverse, decide (c ≠ '/') = true := fun c hc ↦ by
  simpa using ne_of_mem_of_not_mem (List.mem_reverse.1 hc) h

/-- The name stands behind the last slash. -/
theorem name_append_cons (front : Text) (h : '/' ∉ t) : name (front ++ '/' :: t) = t := by
  rw [name, List.reverse_append, List.reverse_cons, List.append_assoc,
    List.takeWhile_append_of_pos (reverse_ne_slash h)]
  simp

/-- The folder stands in front of the last slash, unless there is nothing in front. -/
theorem folder_append_cons (hfront : front.getLast? ≠ some '/') (h : '/' ∉ t) :
    folder (front ++ '/' :: t) = if front.isEmpty then ['/'] else front := by
  have hdrop : (front ++ '/' :: t).reverse.dropWhile (· ≠ '/') = '/' :: front.reverse := by
    rw [List.reverse_append, List.reverse_cons, List.append_assoc,
      List.dropWhile_append_of_pos (reverse_ne_slash h)]
    simp
  rw [folder, hdrop]
  rcases List.eq_nil_or_concat' front with rfl | ⟨init, c, rfl⟩
  · rfl
  · have hc : c ≠ '/' := by simpa using hfront
    simp [hc]

/-- A name that is put into the folder of a path takes the place of the name there. -/
theorem join_folder (hfront : front.getLast? ≠ some '/') (h : '/' ∉ t) (new : Text) :
    join (folder (front ++ '/' :: t)) new = front ++ '/' :: new := by
  rw [folder_append_cons hfront h, join]
  rcases front with - | ⟨c, front⟩
  · rfl
  · have hlast : Text.endsWith (c :: front) '/' = false := by simpa [Text.endsWith] using hfront
    simp [hlast]

end Cut

/-- A path that begins with a slash, has no two slashes side by side, and has no character at which
a path ends or that does not count. -/
structure IsCanonical (path : Text) : Prop where
  head?_eq : path.head? = some '/'
  not_slashes : ¬ ['/', '/'] <:+: path
  plain : ∀ c ∈ path, c ≠ '?' ∧ c ≠ '#' ∧ Url.counts c = true

namespace IsCanonical

variable {path : Text} (h : IsCanonical path)
include h

/-- Every character of the path counts. -/
theorem filter_counts : path.filter Url.counts = path :=
  List.filter_eq_self.2 fun c hc ↦ (h.plain c hc).2.2

/-- No query begins in the path. -/
theorem not_mem_question : '?' ∉ path := fun hc ↦ (h.plain _ hc).1 rfl

/-- No fragment begins in the path. -/
theorem not_mem_hash : '#' ∉ path := fun hc ↦ (h.plain _ hc).2.1 rfl

/-- Whatever stands behind the path, it is not read as a host. -/
theorem not_slashes_prefix {t : Text} (ht : t.head? ≠ some '/') : ¬ ['/', '/'] <+: path ++ t := by
  rcases path with - | ⟨a, - | ⟨b, path⟩⟩
  · cases h.head?_eq
  · rcases t with - | ⟨c, t⟩
    · simp
    · simpa [eq_comm] using fun _ ↦ ht
  · intro hslashes
    refine h.not_slashes (List.IsPrefix.isInfix ?_)
    simpa using hslashes

/-- A folder, a slash and a name. -/
theorem exists_eq : ∃ front t, path = front ++ '/' :: t ∧ front.getLast? ≠ some '/' ∧ '/' ∉ t := by
  have hmem : '/' ∈ path.reverse := List.mem_reverse.2 (List.mem_of_head? h.head?_eq)
  obtain ⟨t, front, hsplit, ht⟩ := List.eq_append_cons_of_mem hmem
  have hpath : path = front.reverse ++ '/' :: t.reverse := by
    rw [← List.reverse_reverse path, hsplit, List.reverse_append, List.reverse_cons,
      List.append_assoc, List.singleton_append]
  refine ⟨front.reverse, t.reverse, hpath, ?_, by simpa using ht⟩
  -- a slash at the end of the folder would stand beside the one that is cut at
  rw [List.getLast?_reverse]
  intro hlast
  obtain ⟨rest, rfl⟩ : ∃ rest, front = '/' :: rest := List.head?_eq_some_iff.1 hlast
  exact h.not_slashes ⟨rest.reverse, t.reverse, by simp [hpath]⟩

end IsCanonical

/-- The path of the document that belongs to a path: a name of its own in the same folder. -/
def documentPath (path : Text) : Text :=
  join (folder path) (documentMark ++ name path ++ ".py".toList)

section DocumentPath

variable {front t : Text}

/-- The name of a document is the name of the notebook with a mark in front and an ending behind. -/
theorem documentPath_append_cons (hfront : front.getLast? ≠ some '/') (h : '/' ∉ t) :
    documentPath (front ++ '/' :: t) = front ++ '/' :: (documentMark ++ t ++ ".py".toList) := by
  rw [documentPath, join_folder hfront h, name_append_cons front h]

/-- The name of a document has no slash if the name of the notebook has none. -/
theorem not_mem_documentName (h : '/' ∉ t) : '/' ∉ documentMark ++ t ++ ".py".toList := by
  have hmark : '/' ∉ documentMark := by decide
  have hend : '/' ∉ ".py".toList := by decide
  simp only [List.mem_append, not_or]
  exact ⟨⟨hmark, h⟩, hend⟩

/-- The name of the document is what stands behind the last slash of its path. -/
theorem name_documentPath (hfront : front.getLast? ≠ some '/') (h : '/' ∉ t) :
    name (documentPath (front ++ '/' :: t)) = documentMark ++ t ++ ".py".toList := by
  rw [documentPath_append_cons hfront h, name_append_cons front (not_mem_documentName h)]

end DocumentPath

/-- The path of a document begins with a slash, and no second one follows. -/
theorem IsCanonical.documentPath_head {path : Text} (h : IsCanonical path) :
    (documentPath path).head? = some '/' ∧ ¬ ['/', '/'] <+: documentPath path := by
  obtain ⟨front, t, rfl, hfront, ht⟩ := h.exists_eq
  rw [documentPath_append_cons hfront ht]
  rcases front with - | ⟨a, - | ⟨b, front⟩⟩
  · refine ⟨rfl, fun hslashes ↦ not_mem_documentName ht ?_⟩
    exact (List.cons_prefix_cons.1 hslashes).2.subset List.mem_cons_self
  · -- a folder does not end with a slash
    obtain rfl : a = '/' := by simpa using h.head?_eq
    exact absurd rfl hfront
  · refine ⟨h.head?_eq, fun hslashes ↦ h.not_slashes (List.IsPrefix.isInfix ?_)⟩
    simpa using hslashes

/-- **The path of a document tells the path that it belongs to.** -/
theorem IsCanonical.documentPath_inj {p q : Text} (hp : IsCanonical p) (hq : IsCanonical q) :
    documentPath p = documentPath q ↔ p = q := by
  refine ⟨fun h ↦ ?_, congrArg documentPath⟩
  obtain ⟨front, t, rfl, hfront, ht⟩ := hp.exists_eq
  obtain ⟨front', t', rfl, hfront', ht'⟩ := hq.exists_eq
  have hname := congrArg name h
  rw [name_documentPath hfront ht, name_documentPath hfront' ht', List.append_cancel_right_eq,
    List.append_cancel_left_eq] at hname
  subst hname
  rw [documentPath_append_cons hfront ht, documentPath_append_cons hfront' ht,
    List.append_cancel_right_eq] at h
  rw [h]

end SlashPath

/-! ### Reading -/

namespace Url

/-- A fragment as it stands behind a path, or nothing. -/
def fragmentMark : Option Text → Text
  | none => []
  | some t => '#' :: t

/-- A fragment begins with its mark and not with a slash. -/
theorem head?_fragmentMark_ne (fragment : Option Text) :
    (fragmentMark fragment).head? ≠ some '/' := by
  rcases fragment with - | t <;> simp [fragmentMark]

/-- The mark of a fragment counts, and of the fragment some characters may not. -/
theorem filter_fragmentMark (fragment : Option Text) :
    (fragmentMark fragment).filter counts = fragmentMark (fragment.map (·.filter counts)) := by
  rcases fragment with - | t
  · rfl
  · exact List.filter_cons_of_pos (by decide)

/-- A path without a mark is cut from its fragment where the fragment begins. -/
theorem cutAt_append_fragmentMark {path : Text} (h : '#' ∉ path) (fragment : Option Text) :
    (path ++ fragmentMark fragment).cutAt '#' = (path, fragment.getD []) := by
  rcases fragment with - | t
  · rw [fragmentMark, List.append_nil, Text.cutAt_of_not_mem h]
    rfl
  · exact Text.cutAt_append_cons h t

/-- A URI of a scheme and a path, perhaps with a fragment behind them. -/
def addressOf (scheme path : Text) (fragment : Option Text) : String :=
  String.ofList (scheme ++ ':' :: (path ++ fragmentMark fragment))

variable {scheme path : Text}

/-- **A canonical path is read as it was written**, behind a scheme whose paths have no parameters.
There is no host, and of the fragment that stays which counts. -/
theorem parse_addressOf (hscheme : IsScheme scheme) (hparams : scheme ∉ schemesWithParams)
    (hpath : SlashPath.IsCanonical path) (fragment : Option Text) :
    parse (addressOf scheme path fragment) =
      .ok ⟨scheme, [], path, (fragment.map (·.filter counts)).getD []⟩ := by
  have hhost : cutHost (path ++ fragmentMark (fragment.map (·.filter counts))) =
      ([], path ++ fragmentMark (fragment.map (·.filter counts))) :=
    cutHost_of_no_slashes (hpath.not_slashes_prefix (head?_fragmentMark_ne _))
  rw [parse, addressOf, String.toList_ofList, clean_of_isScheme hscheme,
    cutScheme_of_isScheme hscheme, List.filter_append, hpath.filter_counts, filter_fragmentMark]
  simp only [hhost, cutAt_append_fragmentMark hpath.not_mem_hash,
    Text.cutAt_of_not_mem hpath.not_mem_question]
  simp [hparams, hostOk, bracketsOk]

/-! ### Writing -/

/-- Without a host the path stands right behind the scheme, except in some schemes. -/
theorem render_of_no_host (hscheme : alwaysHasHost scheme = false) (path : Text) :
    render scheme [] path = scheme ++ ':' :: path := by
  simp [render, hscheme]

/-- A URL without a host whose path begins with a single slash. -/
theorem render_file (hpath : path.head? = some '/') (hslashes : ¬ ['/', '/'] <+: path) :
    render "file".toList [] path = "file://".toList ++ path := by
  have htake : path.take 2 ≠ ['/', '/'] := by
    intro htake
    exact hslashes ⟨path.drop 2, by rw [← htake, List.take_append_drop]⟩
  simp [render, alwaysHasHost, htake, hpath]

end Url

/-! ### Documents -/

section Documents

variable {path p q scheme scheme' : Text}

/-- The folder of a canonical path is never empty. -/
theorem folder_isEmpty (h : SlashPath.IsCanonical path) :
    (SlashPath.folder path).isEmpty = false := by
  obtain ⟨front, t, rfl, hfront, ht⟩ := h.exists_eq
  rw [SlashPath.folder_append_cons hfront ht]
  rcases front with - | ⟨c, front⟩ <;> rfl

/-- **The document of a notebook** is made from its path. -/
theorem documentOf_addressOf (hscheme : Url.IsScheme scheme)
    (hparams : scheme ∉ Url.schemesWithParams) (hpath : SlashPath.IsCanonical path) :
    documentOf (Url.addressOf scheme path none) =
      .ok (String.ofList ("file://".toList ++ SlashPath.documentPath path)) := by
  obtain ⟨hhead, hslashes⟩ := hpath.documentPath_head
  have hne : path.isEmpty = false := by
    rcases path with - | ⟨c, path⟩
    · cases hpath.head?_eq
    · rfl
  rw [documentOf, Url.parse_addressOf hscheme hparams hpath]
  show Except.ok (String.ofList (Url.document ⟨scheme, [], path, []⟩)) = _
  simp only [Url.document, hne, folder_isEmpty hpath, Bool.false_eq_true, if_false]
  rw [← SlashPath.documentPath, Url.render_file hhead hslashes]

/-- **The notebook of a cell** has the path of the cell, under one of two schemes. -/
theorem notebookOf_addressOf (hscheme : Url.IsScheme scheme)
    (hparams : scheme ∉ Url.schemesWithParams) (hpath : SlashPath.IsCanonical path)
    (fragment : Option Text) : ∃ notebook ∈ [notebookScheme, interactiveScheme],
      notebookOf (Url.addressOf scheme path fragment) = .ok (Url.addressOf notebook path none) := by
  have hwritten : ∀ notebook ∈ [notebookScheme, interactiveScheme],
      String.ofList (Url.render notebook [] path) = Url.addressOf notebook path none := by
    have hhost : ∀ notebook ∈ [notebookScheme, interactiveScheme],
        Url.alwaysHasHost notebook = false := by
      decide
    intro notebook hnotebook
    rw [Url.render_of_no_host (hhost notebook hnotebook), Url.addressOf, Url.fragmentMark,
      List.append_nil]
  rw [notebookOf, Url.parse_addressOf hscheme hparams hpath]
  refine ⟨_, ?_, congrArg Except.ok (hwritten _ ?_)⟩ <;> split <;> simp

/-- The document of a cell: that of the notebook that its URI tells. -/
def documentOfCell (cell : String) : Except Failure String := notebookOf cell >>= documentOf

/-- The document of a cell with a canonical path is a file with the path of the document. -/
theorem documentOfCell_addressOf (hscheme : Url.IsScheme scheme)
    (hparams : scheme ∉ Url.schemesWithParams) (hpath : SlashPath.IsCanonical path)
    (fragment : Option Text) : documentOfCell (Url.addressOf scheme path fragment) =
      .ok (String.ofList ("file://".toList ++ SlashPath.documentPath path)) := by
  obtain ⟨notebook, hnotebook, hcell⟩ := notebookOf_addressOf hscheme hparams hpath fragment
  have hknown : ∀ notebook ∈ [notebookScheme, interactiveScheme],
      Url.IsScheme notebook ∧ notebook ∉ Url.schemesWithParams := by
    decide
  obtain ⟨hscheme', hparams'⟩ := hknown notebook hnotebook
  rw [documentOfCell, hcell, ok_bind, documentOf_addressOf hscheme' hparams' hpath]

/-- **Cells share a document exactly if they have the same path**, whether they are cells of a
notebook or input boxes, and whatever their fragments are. It is the document of the notebook with
that path. -/
theorem documentOfCell_eq_iff (hp : SlashPath.IsCanonical p) (hq : SlashPath.IsCanonical q)
    (hscheme : scheme ∈ [cellScheme, inputScheme]) (hscheme' : scheme' ∈ [cellScheme, inputScheme])
    (fragment fragment' : Option Text) :
    ∃ uri uri', documentOfCell (Url.addressOf scheme p fragment) = .ok uri ∧
      documentOfCell (Url.addressOf scheme' q fragment') = .ok uri' ∧ (uri = uri' ↔ p = q) ∧
      documentOf (Url.addressOf notebookScheme p none) = .ok uri := by
  have hknown : ∀ scheme ∈ [cellScheme, inputScheme],
      Url.IsScheme scheme ∧ scheme ∉ Url.schemesWithParams := by
    decide
  have hnotebook : Url.IsScheme notebookScheme ∧ notebookScheme ∉ Url.schemesWithParams := by
    decide
  obtain ⟨his, hparams⟩ := hknown scheme hscheme
  obtain ⟨his', hparams'⟩ := hknown scheme' hscheme'
  refine ⟨_, _, documentOfCell_addressOf his hparams hp fragment,
    documentOfCell_addressOf his' hparams' hq fragment', ?_,
    documentOf_addressOf hnotebook.1 hnotebook.2 hp⟩
  rw [String.ofList_inj, List.append_cancel_left_eq, hp.documentPath_inj hq]

/-- A cell and an input box go through the notebooks of two schemes to the same document. With a
slash behind the path it is another one. -/
theorem documentOfCell_eq_iff_input :
    let p := "/w; a:b/1.ipynb".toList
    let q := "/w; a:b/1.ipynb/".toList
    let cell := Url.addressOf cellScheme p none
    let box := Url.addressOf inputScheme p (some "?#\tx".toList)
    let other := Url.addressOf cellScheme q (some "vscode-interactive".toList)
    notebookOf cell ≠ notebookOf box ∧ documentOfCell cell = documentOfCell box ∧
      documentOfCell cell ≠ documentOfCell other ∧
      documentOfCell cell = .ok "file:///w; a:b/_NotebookConcat_1.ipynb.py" := by
  intro p q cell box other
  have hplain : q.all (fun c ↦ c ≠ '?' && c ≠ '#' && Url.counts c) = true := by decide +kernel
  have hq : SlashPath.IsCanonical q :=
    ⟨rfl, by decide +kernel, fun c hc ↦ by simpa [and_assoc] using List.all_eq_true.1 hplain c hc⟩
  have hp : SlashPath.IsCanonical p :=
    ⟨rfl, by decide +kernel, fun c hc ↦ hq.plain c (List.mem_append_left ['/'] hc)⟩
  have hcell : cellScheme ∈ [cellScheme, inputScheme] := List.mem_cons_self
  have hinput : inputScheme ∈ [cellScheme, inputScheme] :=
    List.mem_cons_of_mem _ List.mem_cons_self
  obtain ⟨uri, uri', hfrom, hto, hsame, -⟩ :=
    documentOfCell_eq_iff hp hp hcell hinput none (some "?#\tx".toList)
  obtain ⟨uri₁, uri₂, hfrom', hto', hother, -⟩ :=
    documentOfCell_eq_iff hp hq hcell hcell none (some "vscode-interactive".toList)
  refine ⟨by decide +kernel, ?_, ?_, by decide +kernel⟩
  · rw [hfrom, hto, hsame.2 rfl]
  · rw [hfrom', hto']
    intro h
    have hpath : p ≠ q := by decide +kernel
    exact hpath (hother.1 (Except.ok.inj h))

end Documents

end CellStitch
