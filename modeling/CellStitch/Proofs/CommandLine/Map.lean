import CellStitch.Proofs.CommandLine.Render
import CellStitch.Proofs.Document.Characters
import CellStitch.Proofs.Text.Integer
/-!
# What `map` finds

Where `render` prints the copy of a character, `map` finds the character (`run_map_copyPosition`).
Both commands make a document of their own, of the same cells and with the same header, so that the
place of the copy is the same in both.

This is about the document. What is printed of it may have lost its styles, and then the characters
behind them stand elsewhere. `map` does not know of that.
-/

namespace CellStitch

/-- The line at which the cells behind others begin. -/
theorem CommandLine.Holds.baseLine_eq {d : Document} {disabled : Bool} {h : String}
    {before after : CellList} {c : Cell} (hd : Holds d disabled h (before ++ c :: after)) :
    d.baseLine before.length =
      (Rendering.header h.toList).count '\n' + CellList.lineCount before := by
  have hheader : d.headerLines = (Rendering.header h.toList).count '\n' := by
    have hfirst : d.cells.head?.map Cell.isInput = some (.ok false) := by
      obtain ⟨first, rest, hcons⟩ : ∃ first rest, before ++ c :: after = first :: rest :=
        List.exists_cons_of_ne_nil (by simp)
      rw [hd.cells_eq, hcons, List.head?_cons, Option.map_some,
        hd.isInput_eq first (hcons ▸ List.mem_cons_self)]
    rw [Document.headerLines, hfirst, ← hd.headerText_eq]
  rw [Document.baseLine, hheader, hd.cells_eq, List.take_left]

namespace CommandLine

/-! ### Places -/

/-- A number that a position may have is read again. -/
theorem integer?_toString_of_le {n : Nat} (h : (n : Int) ≤ Position.bound) :
    Text.integer? (toString n).toList = some (n : Int) := by
  rw [Position.bound] at h
  have hdigits : (Nat.toDigits 10 n).length ≤ 10 :=
    (Nat.length_toDigits_le_iff (by decide) (by decide)).2 (by omega)
  exact Text.integer?_toString (Nat.le_trans hdigits (by decide))

/-- **The place that is printed** is the one that the way back leads to. -/
theorem mapped_eq_ok {d : Document} {p q : Position} {uri : String}
    (hline : (p.line : Int) ≤ Position.bound) (hcharacter : (p.character : Int) ≤ Position.bound)
    (hback : d.notebookLocationAt ⟨p, p⟩ = .ok ⟨uri, ⟨q, q⟩⟩) :
    mapped d p.line p.character = .ok (uri ++ " " ++ q.render ++ "\n") := by
  have hp : Position.ofInts? p.line p.character = some p := by
    rw [Position.ofInts?,
      if_pos ⟨Int.natCast_nonneg _, hline, Int.natCast_nonneg _, hcharacter⟩]
    rfl
  rw [mapped, hp]
  simp only [hback]

/-- A number is shown by digits only, and an escape character is none. -/
theorem escapeChar_notMem_toString (n : Nat) : Text.escapeChar ∉ (toString n).toList := by
  intro hmem
  rw [Nat.toString_eq_ofList_toDigits, String.toList_ofList] at hmem
  exact absurd (Nat.isDigit_of_mem_toDigits (by decide) (by decide) hmem) (by decide)

/-- A line with a place is written as it is if no escape character stands in the URI. -/
theorem written_place {console : Console} (hprints : console.HidesStyles) {uri : String}
    (huri : Text.escapeChar ∉ uri.toList) (p : Position) :
    console.written (uri ++ " " ++ p.render ++ "\n") = uri ++ " " ++ p.render ++ "\n" := by
  refine hprints.written_plain ?_
  simp only [Position.render, String.toList_append, List.mem_append, not_or]
  exact ⟨⟨⟨huri, by decide⟩, ⟨⟨escapeChar_notMem_toString _, by decide⟩,
    escapeChar_notMem_toString _⟩⟩, by decide⟩

/-! ### Characters and their copies -/

section Map

variable {console : Console} {t : FileTree} {args : List String} {verbose disabled : Bool}
  {notebook h language : String} {config : Option String} {cells : List Cell}
  {before after : CellList} {c : Cell} {k : Nat}
  (hsettings : settingsFor t (Path.ofString notebook) config false none =
    .ok (.plain disabled h language))
  (hcells : NotebookFile.load t (Path.ofString notebook) = .ok cells)
  (htaken : cells.filter (·.language = language) = before ++ c :: after) (hk : k < c.text.length)
include hsettings hcells htaken hk

section Address

variable {uri : String}
  (haddress : documentOf (NotebookFile.notebookUri (t.resolve (Path.ofString notebook))) = .ok uri)
include haddress

/-- The copy of a character stands on its line and in its column. -/
theorem exists_copy_of_stitched : ∃ o : Nat,
    (stitched disabled h (before ++ c :: after)).positionAt o = copyPosition (!disabled)
      ((Rendering.header h.toList).count '\n' + CellList.lineCount before) c.text k ∧
    (stitched disabled h (before ++ c :: after))[o]? = c.text[k]? := by
  obtain ⟨d, -, hd⟩ := exists_documentFor hsettings hcells haddress
  rw [htaken] at hd
  obtain ⟨o, ho, hcopy, -⟩ := Document.notebookLocationAt_copyPosition hd.reachable
    hd.nodup_cellUris hd.cells_eq hk
  rw [hd.marks_eq, hd.baseLine_eq, hd.text_eq] at ho
  exact ⟨o, ho, hd.text_eq ▸ hcopy⟩

/-- There, `map` finds the character. -/
theorem run_map_eq_written {p : Position} (hp : p = copyPosition (!disabled)
      ((Rendering.header h.toList).count '\n' + CellList.lineCount before) c.text k)
    (hline : (p.line : Int) ≤ Position.bound) (hcharacter : (p.character : Int) ≤ Position.bound)
    (hargs : console.request t.isFile? args =
      .ok (.command verbose (.map notebook p.line p.character config))) :
    console.run t args =
      .ok ⟨0, console.written (c.uri ++ " " ++ (c.text.positionAt k).render ++ "\n"),
        logOf verbose language cells, none⟩ := by
  obtain ⟨d, hdocument, hd⟩ := exists_documentFor hsettings hcells haddress
  rw [htaken] at hd
  obtain ⟨-, -, -, hback⟩ := Document.notebookLocationAt_copyPosition hd.reachable
    hd.nodup_cellUris hd.cells_eq hk
  rw [hd.marks_eq, hd.baseLine_eq, ← hp] at hback
  refine run_of_answer_eq_ok hargs ?_
  rw [answer, hdocument]
  simp only [Except.bind, mapped_eq_ok hline hcharacter hback]
  rfl

end Address

end Map

end CommandLine

end CellStitch
