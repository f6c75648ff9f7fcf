import CellStitch.NotebookFile
import CellStitch.Proofs.Address.Scheme
import Mathlib.Data.List.Nodup
/-!
# The cells of a notebook file

Every cell that is read from a file has a URI of its own (`uris_of_load`, `cellUri_injective`), none
is an input box, and all of them can be read if the notebook has an address (`isInput_cellUri`).

There are notebooks without an address: a name at the top of the tree that is made of tabs and line
breaks does not count, and what follows is read as a host. Under any other name there is one
(`exists_documentOf_notebookUri`).
-/

namespace CellStitch

namespace NotebookFile

variable {place : List String}

/-! ### URIs of cells -/

/-- **A number is found again from its digits**, with zeros in front of them. -/
theorem eightDigits_injective : Function.Injective eightDigits := by
  have hread : ∀ n, Nat.ofDigitChars 10 (eightDigits n).toList 0 = n := by
    intro n
    rw [eightDigits, String.toList_ofList, Nat.ofDigitChars_append, Nat.ofDigitChars_replicate_zero,
      Nat.mul_zero, Nat.ofDigitChars_ten_toDigits]
  intro n n' h
  rw [← hread n, ← hread n', h]

/-- **Cells at different places of a notebook have different URIs.** -/
theorem cellUri_injective (place : List String) : Function.Injective (cellUri place) := by
  intro i j h
  rw [cellUri, cellUri, String.append_right_inj] at h
  exact eightDigits_injective h

theorem notebookUri_eq (place : List String) : notebookUri place =
    String.ofList (notebookScheme ++ ':' :: (FileTree.render place).toList) := by
  rw [notebookUri, ← String.toList_inj]
  simp

theorem cellUri_eq (place : List String) (i : Nat) : cellUri place i =
    String.ofList (cellScheme ++ ':' ::
      ((FileTree.render place).toList ++ '#' :: ("ch".toList ++ (eightDigits i).toList))) := by
  rw [cellUri, ← String.toList_inj]
  simp

/-! ### Addresses -/

theorem isScheme_notebookScheme : Url.IsScheme notebookScheme := by decide

theorem isScheme_cellScheme : Url.IsScheme cellScheme := by decide

/-- A notebook has a document exactly if its host is in order. -/
theorem exists_documentOf_iff : (∃ uri, documentOf (notebookUri place) = .ok uri) ↔
    Url.hostOk (Url.hostOf (FileTree.render place).toList) = true := by
  rw [← Url.exists_parse_iff isScheme_notebookScheme, ← notebookUri_eq, documentOf]
  rcases Url.parse (notebookUri place) with f | url <;> simp [Except.map]

/-- **The cells of a notebook with an address can be read**, and are no input boxes. -/
theorem isInput_cellUri {uri : String} (h : documentOf (notebookUri place) = .ok uri) (i : Nat) :
    isInput (cellUri place i) = .ok false := by
  have hhost := exists_documentOf_iff.1 ⟨uri, h⟩
  rw [← Url.hostOf_append_fragment _ ("ch".toList ++ (eightDigits i).toList),
    ← Url.exists_parse_iff isScheme_cellScheme, ← cellUri_eq] at hhost
  obtain ⟨url, hurl⟩ := hhost
  have hscheme : url.scheme = cellScheme := by
    rw [cellUri_eq] at hurl
    exact Url.scheme_of_parse isScheme_cellScheme hurl
  rw [isInput, hurl]
  show Except.ok (url.scheme == inputScheme) = _
  rw [hscheme]
  rfl

/-- The path of a place begins with a slash and the first name. -/
theorem exists_render_cons (name : String) (rest : List String) :
    ∃ tail, (FileTree.render (name :: rest)).toList = '/' :: (name.toList ++ tail) := by
  rcases rest with - | ⟨next, rest⟩
  · exact ⟨[], by simp [FileTree.render]⟩
  · exact ⟨_, by simp [FileTree.render, String.intercalate_cons_cons]; rfl⟩

/-- **A notebook has an address** if the first name of its place has a character that counts. -/
theorem exists_documentOf_notebookUri (h : ∀ name ∈ place.head?,
    '/' ∉ name.toList ∧ ∃ c ∈ name.toList, Url.counts c = true) :
    ∃ uri, documentOf (notebookUri place) = .ok uri := by
  -- there is no second slash right behind the first one
  have hslashes : ¬ ['/', '/'] <+: (FileTree.render place).toList.filter Url.counts := by
    rcases place with - | ⟨name, rest⟩
    · decide
    · obtain ⟨hslash, c, hc, hcounts⟩ := h name rfl
      obtain ⟨tail, htail⟩ := exists_render_cons name rest
      have hne : name.toList.filter Url.counts ≠ [] :=
        List.ne_nil_of_mem (List.mem_filter.2 ⟨hc, hcounts⟩)
      obtain ⟨x, xs, hxs⟩ := List.exists_cons_of_ne_nil hne
      have hx : x ∈ name.toList := (List.mem_filter.1 (hxs ▸ List.mem_cons_self)).1
      rw [htail, List.filter_cons_of_pos (by decide), List.filter_append, hxs]
      rintro hfront
      rw [List.cons_append, List.cons_prefix_cons, List.cons_prefix_cons] at hfront
      exact hslash (hfront.2.1 ▸ hx)
  rw [exists_documentOf_iff, Url.hostOf, Url.cutHost_of_no_slashes hslashes]
  rfl

/-! ### Reading a file -/

theorem uri_of_cellOf {uri language : String} {index : Nat} {v : Value} {c : Cell}
    (h : cellOf uri language index v = .ok c) : c.uri = uri := by
  unfold cellOf at h
  split at h
  · split at h
    · obtain ⟨source, -, h⟩ := bind_eq_ok_iff.1 h
      obtain rfl := Except.ok.inj h
      rfl
    · cases h
  · cases h

/-- The cells of a list have their URIs by their places, counted on from where the list begins. -/
theorem uris_of_cellsFrom {uri : Nat → String} {language : String} {index : Nat} {vs : List Value}
    {cells : List Cell} (h : cellsFrom uri language index vs = .ok cells) :
    cells.map Cell.uri = (List.range' index vs.length).map uri := by
  induction vs generalizing index cells with
  | nil =>
    obtain rfl := Except.ok.inj h
    rfl
  | cons v vs ih =>
    obtain ⟨c, hc, h⟩ := bind_eq_ok_iff.1 h
    obtain ⟨rest, hrest, h⟩ := bind_eq_ok_iff.1 h
    obtain rfl := Except.ok.inj h
    rw [List.map_cons, uri_of_cellOf hc, ih hrest, List.length_cons, List.range'_succ,
      List.map_cons]

theorem uris_of_cellsOf {uri : Nat → String} {v : Value} {cells : List Cell}
    (h : cellsOf uri v = .ok cells) : ∃ n, cells.map Cell.uri = (List.range n).map uri := by
  unfold cellsOf at h
  split at h
  · split at h
    · rename_i items _
      obtain ⟨language, -, h⟩ := bind_eq_ok_iff.1 h
      exact ⟨items.length, by rw [uris_of_cellsFrom h, List.range_eq_range']⟩
    · cases h
  · cases h

theorem fromUTF8?_toUTF8 (s : String) : String.fromUTF8? s.toUTF8 = some s := dif_pos s.isValidUTF8

/-- What is in a file in UTF-8 is what is in its text. -/
theorem load_eq_of_file {t : FileTree} {p : Path} {s : String} (hfile : t.read p = .ok s.toUTF8) :
    load t p = (cellsIn (cellUri (t.resolve p)) s.toList).mapError fun flaw ↦ ⟨p, flaw⟩ := by
  simp only [load, hfile, mapError_ok, ok_bind, fromUTF8?_toUTF8]

/-- A file in UTF-8 with a value in it is read as that value. -/
theorem load_eq_of_read {t : FileTree} {p : Path} {s : String} {v : Value}
    (hfile : t.read p = .ok s.toUTF8) (hv : Json.read s.toList = .ok v) :
    load t p = (cellsOf (cellUri (t.resolve p)) v).mapError fun flaw ↦ ⟨p, flaw⟩ := by
  rw [load_eq_of_file hfile, cellsIn, hv]

/-- A file in UTF-8 that is refused for a number with too many digits is not looked at further. -/
theorem load_eq_error_of_numberTooLong {t : FileTree} {p : Path} {s : String}
    (hfile : t.read p = .ok s.toUTF8) (hlong : Json.read s.toList = .error .numberTooLong) :
    load t p = .error ⟨p, .numberTooLong⟩ := by
  rw [load_eq_of_file hfile, cellsIn, hlong]
  rfl

/-- Cells that are found in a text are those of a value. -/
theorem exists_cellsOf_of_cellsIn {uri : Nat → String} {t : Text} {cells : List Cell}
    (h : cellsIn uri t = .ok cells) : ∃ v, cellsOf uri v = .ok cells := by
  unfold cellsIn at h
  split at h
  case h_1 v _ => exact ⟨v, h⟩
  -- a text with half of a surrogate pair is never read
  case h_2 =>
    obtain ⟨v, -, h⟩ := bind_eq_ok_iff.1 h
    obtain ⟨_, -, h⟩ := bind_eq_ok_iff.1 h
    cases h
  case h_3 => cases h

/-- **The cells of a file have their URIs by their places.** -/
theorem uris_of_load {t : FileTree} {p : Path} {cells : List Cell} (h : load t p = .ok cells) :
    ∃ n, cells.map Cell.uri = (List.range n).map (cellUri (t.resolve p)) := by
  obtain ⟨contents, -, h⟩ := bind_eq_ok_iff.1 (mapError_eq_ok_iff.1 h)
  split at h
  · cases h
  · obtain ⟨v, hcells⟩ := exists_cellsOf_of_cellsIn h
    exact uris_of_cellsOf hcells

/-- No two cells of a file have the same URI. -/
theorem nodup_uris_of_load {t : FileTree} {p : Path} {cells : List Cell}
    (h : load t p = .ok cells) : (cells.map Cell.uri).Nodup := by
  obtain ⟨n, huris⟩ := uris_of_load h
  rw [huris]
  exact List.nodup_range.map (cellUri_injective _)

end NotebookFile

end CellStitch
