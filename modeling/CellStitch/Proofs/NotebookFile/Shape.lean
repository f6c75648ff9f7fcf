import CellStitch.Proofs.CommandLine.Opening
import CellStitch.Proofs.Json.WholeNumber
import Mathlib
/-!
# What a notebook must look like

A notebook is read exactly if it is in order, and otherwise the first of its flaws is reported
(`NotebookFile.load_iff_wellFormed`). What is in order, and which flaws there are, is said by paths
into the value (`Value.at?`) and not by the checks, which go through it step by step and put a
default in place of what is missing.

Which flaw is first is a matter of their numbers (`NotebookFlaw.turn`). For checks one after the
other it is enough that those of the first one have smaller numbers (`Checks.bind`); this is used
for the metadata in front of the cells, and for every cell in front of the next one.

Nothing of this is asked of a text that is no value for the reader. A whole number with too many
digits, under any key, keeps a notebook from being read although it is in order
(`NotebookFile.load_longNumber`).
-/

namespace CellStitch

/-! ### Parts of a value -/

namespace Value

/-- What keys lead to, one after another, through objects inside one another. -/
def at? : Value → List String → Option Value
  | v, [] => some v
  | table entries, key :: keys => (Value.entry? entries key).bind (at? · keys)
  | _, _ :: _ => none

@[simp] theorem at?_nil (v : Value) : v.at? [] = some v := by cases v <;> rfl

@[simp] theorem at?_table (entries : List (String × Value)) (key : String) (keys : List String) :
    (table entries).at? (key :: keys) = (Value.entry? entries key).bind (at? · keys) := rfl

/-- A value is an object. -/
def IsTable (v : Value) : Prop := ∃ entries, v = .table entries

/-- A value is a text. -/
def IsSomeText (v : Value) : Prop := ∃ s, v = .text s

/-- A value is a text or a list of texts. -/
def IsSource (v : Value) : Prop := v.IsSomeText ∨ ∃ parts : List String, v = .list (parts.map .text)

/-- Only in an object is anything found by a key. -/
theorem at?_cons_eq_none {v : Value} (h : ¬ v.IsTable) (key : String) (keys : List String) :
    v.at? (key :: keys) = none := by
  cases v with
  | table entries => exact absurd ⟨entries, rfl⟩ h
  | _ => rfl

/-- Values are texts all together exactly if each of them is one. -/
theorem texts?_eq_some_iff {items : List Value} {parts : List String} :
    texts? items = some parts ↔ items = parts.map .text := by
  induction items generalizing parts with
  | nil => simp [texts?, eq_comm]
  | cons item items ih =>
    cases item with
    | text s => cases parts <;> simp [texts?, ih, and_comm]
    | _ => cases parts <;> simp [texts?]

/-! ### Defaults -/

variable {entries : List (String × Value)} {key : String} {v w : Value}

/-- What is not the default stands there. -/
theorem at?_eq_some_of_getD (entries : List (String × Value)) (key : String)
    (h : (Value.entry? entries key).getD v = w) (hne : w ≠ v) :
    (table entries).at? [key] = some w := by
  rcases Option.getD_eq_iff.1 h with hsome | ⟨-, rfl⟩
  · simp [hsome]
  · exact absurd rfl hne

/-- What stands there takes the place of the default. -/
theorem eq_of_mem_at? (h : (Value.entry? entries key).getD v = w) {x : Value}
    (hx : x ∈ (table entries).at? [key]) : x = w := by
  have hentry : entry? entries key = some x := by simpa using hx
  rw [← h, hentry, Option.getD_some]

/-- An object that is missing is like one without entries. -/
theorem at?_cons_of_getD (h : (Value.entry? entries key).getD (.table []) = w) (key' : String)
    (keys : List String) : (table entries).at? (key :: key' :: keys) = w.at? (key' :: keys) := by
  rcases Option.getD_eq_iff.1 h with hsome | ⟨hnone, rfl⟩
  · simp [hsome]
  · rw [at?_table, at?_table, hnone]
    rfl

end Value

/-- When a flaw is looked for: the list of cells first, then the metadata, then three things at
every cell. -/
def NotebookFlaw.turn : NotebookFlaw → Nat
  | metadataNotObject => 1
  | languageInfoNotObject => 2
  | cellNotObject index => 3 * index + 3
  | malformedCellType index => 3 * index + 4
  | malformedSource index => 3 * index + 5
  | _ => 0

namespace NotebookFile

open Value

/-! ### Notebooks that are in order -/

/-- A cell that is in order. -/
structure WellFormedItem (item : Value) : Prop where
  isTable : item.IsTable
  kind : ∀ kind ∈ item.at? ["cell_type"], kind.IsSomeText
  source : ∀ source ∈ item.at? ["source"], source.IsSource

/-- A notebook that is in order. -/
structure WellFormed (v : Value) : Prop where
  isTable : v.IsTable
  cells : ∃ items, v.at? ["cells"] = some (.list items) ∧ ∀ item ∈ items, WellFormedItem item
  metadata : ∀ metadata ∈ v.at? ["metadata"], metadata.IsTable
  languageInfo : ∀ info ∈ v.at? ["metadata", "language_info"], info.IsTable

/-- The flaws of the metadata. -/
inductive MetadataHasFlaw (v : Value) : NotebookFlaw → Prop where
  | metadata {metadata : Value} (hmetadata : v.at? ["metadata"] = some metadata)
      (h : ¬ metadata.IsTable) : MetadataHasFlaw v .metadataNotObject
  | languageInfo {info : Value} (hinfo : v.at? ["metadata", "language_info"] = some info)
      (h : ¬ info.IsTable) : MetadataHasFlaw v .languageInfoNotObject

/-- The flaw of the source of an item. -/
inductive SourceHasFlaw (item : Value) (index : Nat) : NotebookFlaw → Prop where
  | source {source : Value} (hsource : item.at? ["source"] = some source)
      (h : ¬ source.IsSource) : SourceHasFlaw item index (.malformedSource index)

/-- The flaws of the item at an index of the list of cells. -/
inductive ItemHasFlaw (item : Value) (index : Nat) : NotebookFlaw → Prop where
  | item (h : ¬ item.IsTable) : ItemHasFlaw item index (.cellNotObject index)
  | kind {kind : Value} (hkind : item.at? ["cell_type"] = some kind) (h : ¬ kind.IsSomeText) :
      ItemHasFlaw item index (.malformedCellType index)
  | source {flaw : NotebookFlaw} (h : SourceHasFlaw item index flaw) : ItemHasFlaw item index flaw

/-- The flaws of a notebook. -/
inductive HasFlaw (v : Value) : NotebookFlaw → Prop where
  | noCells (h : ∀ items, v.at? ["cells"] ≠ some (.list items)) : HasFlaw v .noCells
  | metadata {flaw : NotebookFlaw} (h : MetadataHasFlaw v flaw) : HasFlaw v flaw
  | item {flaw : NotebookFlaw} {items : List Value} {item : Value} {index : Nat}
      (hitems : v.at? ["cells"] = some (.list items)) (hitem : (item, index) ∈ items.zipIdx)
      (h : ItemHasFlaw item index flaw) : HasFlaw v flaw

/-- A cell is in order exactly if it has no flaw. -/
theorem wellFormedItem_iff {item : Value} (index : Nat) :
    WellFormedItem item ↔ ∀ flaw, ¬ ItemHasFlaw item index flaw := by
  constructor
  · rintro h flaw (hitem | ⟨hkind, hnot⟩ | ⟨⟨hsource, hnot⟩⟩)
    · exact hitem h.isTable
    · exact hnot (h.kind _ hkind)
    · exact hnot (h.source _ hsource)
  · intro h
    refine ⟨?_, fun kind hkind ↦ ?_, fun source hsource ↦ ?_⟩ <;> by_contra hnot
    · exact h _ (.item hnot)
    · exact h _ (.kind hkind hnot)
    · exact h _ (.source (.source hsource hnot))

/-- **A notebook is in order exactly if it has no flaw.** -/
theorem wellFormed_iff {v : Value} : WellFormed v ↔ ∀ flaw, ¬ HasFlaw v flaw := by
  constructor
  · rintro h flaw (hcells | ⟨⟨hmetadata, hnot⟩ | ⟨hinfo, hnot⟩⟩ | ⟨hitems, hitem, hflaw⟩)
    · obtain ⟨items, hitems, -⟩ := h.cells
      exact hcells items hitems
    · exact hnot (h.metadata _ hmetadata)
    · exact hnot (h.languageInfo _ hinfo)
    · obtain ⟨items, hitems', hwell⟩ := h.cells
      obtain rfl := Value.list.inj (Option.some.inj (hitems'.symm.trans hitems))
      exact (wellFormedItem_iff _).1 (hwell _ (List.fst_mem_of_mem_zipIdx hitem)) _ hflaw
  · intro h
    have hcells : ∃ items, v.at? ["cells"] = some (.list items) := by
      by_contra hnot
      exact h _ (.noCells fun items hitems ↦ hnot ⟨items, hitems⟩)
    obtain ⟨items, hitems⟩ := hcells
    refine ⟨?_, ⟨items, hitems, fun item hitem ↦ ?_⟩, fun metadata hmetadata ↦ ?_,
      fun info hinfo ↦ ?_⟩
    · by_contra hnot
      rw [at?_cons_eq_none hnot] at hitems
      cases hitems
    · obtain ⟨index, hindex⟩ := List.mem_iff_getElem?.1 hitem
      rw [← List.mk_mem_zipIdx_iff_getElem?] at hindex
      exact (wellFormedItem_iff index).2 fun flaw hflaw ↦ h flaw (.item hitems hindex hflaw)
    · by_contra hnot
      exact h _ (.metadata (.metadata hmetadata hnot))
    · by_contra hnot
      exact h _ (.metadata (.languageInfo hinfo hnot))

/-- A flaw is one of those there are, and none of them is looked for earlier. -/
def IsFirst (HasFlaw : NotebookFlaw → Prop) (flaw : NotebookFlaw) : Prop :=
  HasFlaw flaw ∧ ∀ flaw', HasFlaw flaw' → flaw.turn ≤ flaw'.turn

/-- No two flaws of a notebook are looked for at a time. -/
theorem HasFlaw.eq_of_turn_eq {v : Value} {flaw flaw' : NotebookFlaw} (h : HasFlaw v flaw)
    (h' : HasFlaw v flaw') (hturn : flaw.turn = flaw'.turn) : flaw = flaw' := by
  rcases h with - | (- | -) | ⟨-, -, - | - | ⟨⟨-, -⟩⟩⟩ <;>
    rcases h' with - | (- | -) | ⟨-, -, - | - | ⟨⟨-, -⟩⟩⟩ <;>
      simp only [NotebookFlaw.turn] at hturn <;> grind

/-- Flaws with the same turn are the same one, so that only one can be first. -/
theorem IsFirst.eq {v : Value} {flaw flaw' : NotebookFlaw} (h : IsFirst (HasFlaw v) flaw)
    (h' : IsFirst (HasFlaw v) flaw') : flaw = flaw' :=
  h.1.eq_of_turn_eq h'.1 (Nat.le_antisymm (h.2 flaw' h'.1) (h'.2 flaw h.1))

/-! ### Cells of a notebook -/

/-- The language that the metadata name for code cells, or else Python. -/
inductive IsKernelLanguage (v : Value) : String → Prop where
  | named {name : String} (hname : v.at? ["metadata", "language_info", "name"] = some (.text name))
      (h : name ≠ "") : IsKernelLanguage v name
  | unnamed
      (h : ∀ name, v.at? ["metadata", "language_info", "name"] = some (.text name) → name = "") :
      IsKernelLanguage v "python"

/-- The language of a cell, given that of code cells. -/
inductive HasLanguage (language : String) (item : Value) : String → Prop where
  | code (h : ∀ kind ∈ item.at? ["cell_type"], kind = .text "code") :
      HasLanguage language item language
  | other {kind : String} (hkind : item.at? ["cell_type"] = some (.text kind)) (h : kind ≠ "code") :
      HasLanguage language item kind

/-- The text of a cell. -/
inductive HasText (item : Value) : Text → Prop where
  | missing (h : item.at? ["source"] = none) : HasText item []
  | whole {s : String} (h : item.at? ["source"] = some (.text s)) : HasText item s.toList
  | inParts {parts : List String} (h : item.at? ["source"] = some (.list (parts.map .text))) :
      HasText item (parts.flatMap String.toList)

/-- The cell with a URI that an item of the list of cells stands for. -/
structure StandsFor (language : String) (item : Value) (uri : String) (c : Cell) : Prop where
  uri : c.uri = uri
  language : HasLanguage language item c.language
  version : c.version = 1
  text : HasText item c.text

/-- The cells that a notebook stands for: one for each item of its list of cells, in order. -/
inductive HasCells (v : Value) (uri : Nat → String) (cells : List Cell) : Prop where
  | of_items {items : List Value} {language : String}
      (hitems : v.at? ["cells"] = some (.list items)) (hlanguage : IsKernelLanguage v language)
      (hcells : List.Forall₂ (fun x c ↦ StandsFor language x.1 (uri x.2) c) items.zipIdx cells) :
      HasCells v uri cells

/-! ### Checks one after the other -/

/-- An outcome of checks: the first of the bad flaws, or if there are none a good result. -/
inductive Checks {α : Type} (Bad : NotebookFlaw → Prop) (Good : α → Prop) :
    Except NotebookFlaw α → Prop where
  | ok {a : α} (hnone : ∀ flaw, ¬ Bad flaw) (h : Good a) : Checks Bad Good (.ok a)
  | error {flaw : NotebookFlaw} (h : IsFirst Bad flaw) : Checks Bad Good (.error flaw)

namespace Checks

variable {α β : Type} {Bad Bad' : NotebookFlaw → Prop} {Good : α → Prop} {Good' : β → Prop}
  {x : Except NotebookFlaw α}

/-- A check succeeds exactly where there is no flaw. -/
theorem exists_eq_ok_iff (hx : Checks Bad Good x) : (∃ a, x = .ok a) ↔ ∀ flaw, ¬ Bad flaw := by
  cases hx with
  | ok hnone _ => exact iff_of_true ⟨_, rfl⟩ hnone
  | error hflaw => exact iff_of_false (by simp) fun hnone ↦ hnone _ hflaw.1

/-- What a check that succeeds gives is as it should be. -/
theorem of_eq_ok {a : α} (hx : Checks Bad Good x) (h : x = .ok a) : Good a := by
  subst h
  cases hx with
  | ok _ ha => exact ha

/-- A check fails with a flaw exactly if it is the first one, where only one can be. -/
theorem eq_error_iff {flaw : NotebookFlaw} (hx : Checks Bad Good x)
    (hunique : ∀ flaw', IsFirst Bad flaw' → IsFirst Bad flaw → flaw' = flaw) :
    x = .error flaw ↔ IsFirst Bad flaw := by
  cases hx with
  | ok hnone _ => exact iff_of_false (by simp) fun hfirst ↦ hnone flaw hfirst.1
  | error hflaw =>
    rw [Except.error.injEq]
    refine ⟨?_, hunique _ hflaw⟩
    rintro rfl
    exact hflaw

/-- Flaws may be described in another way. -/
theorem of_iff (hx : Checks Bad Good x) (h : ∀ flaw, Bad flaw ↔ Bad' flaw) :
    Checks Bad' Good x := by
  obtain rfl : Bad = Bad' := funext fun flaw ↦ propext (h flaw)
  exact hx

/-- What is found may be described with less. -/
theorem imp {Better : α → Prop} (hx : Checks Bad Good x) (h : ∀ a, Good a → Better a) :
    Checks Bad Better x := by
  cases hx with
  | ok hnone ha => exact .ok hnone (h _ ha)
  | error hflaw => exact .error hflaw

/-- What is found may be made into something else. -/
theorem map {g : α → β} (hx : Checks Bad Good x) (h : ∀ a, Good a → Good' (g a)) :
    Checks Bad Good' (x >>= fun a ↦ pure (g a)) := by
  cases hx with
  | ok hnone ha => exact .ok hnone (h _ ha)
  | error hflaw => exact .error hflaw

/-- Checks one after the other find the first of all flaws, if those that the first checks look for
have their turn earlier. -/
theorem bind {f : α → Except NotebookFlaw β} (hx : Checks Bad Good x)
    (hf : ∀ a, Good a → Checks Bad' Good' (f a))
    (hturn : ∀ flaw flaw', Bad flaw → Bad' flaw' → flaw.turn ≤ flaw'.turn) :
    Checks (fun flaw ↦ Bad flaw ∨ Bad' flaw) Good' (x >>= f) := by
  cases hx with
  | ok hnone ha => exact (hf _ ha).of_iff fun flaw ↦ (or_iff_right (hnone flaw)).symm
  | @error flaw hflaw =>
    refine .error ⟨.inl hflaw.1, fun flaw' hflaw' ↦ ?_⟩
    rcases hflaw' with hflaw' | hflaw'
    · exact hflaw.2 flaw' hflaw'
    · exact hturn flaw flaw' hflaw.1 hflaw'

end Checks

section Checks

variable (entries : List (String × Value))

/-- An empty name stands for the default, as a missing one does. -/
theorem isKernelLanguage_of_name {v : Value} {name : String}
    (hname : v.at? ["metadata", "language_info", "name"] = some (.text name)) :
    IsKernelLanguage v (if name.isEmpty then Settings.defaultLanguage else name) := by
  by_cases hempty : name = ""
  · subst hempty
    refine .unnamed fun name' hname' ↦ ?_
    rw [hname] at hname'
    exact (Value.text.inj (Option.some.inj hname')).symm
  · rw [if_neg (by simpa using hempty)]
    exact .named hname hempty

/-- **The metadata are checked in two steps**, and what they name is the language. -/
theorem checks_languageOf : Checks (MetadataHasFlaw (.table entries))
    (IsKernelLanguage (.table entries)) (languageOf entries) := by
  unfold languageOf
  split
  case h_1 metadata hmetadata =>
    have htable {x : Value} (hx : x ∈ (table entries).at? ["metadata"]) : x.IsTable :=
      ⟨metadata, eq_of_mem_at? hmetadata hx⟩
    split
    case h_1 info hinfo =>
      have hnone : ∀ flaw, ¬ MetadataHasFlaw (.table entries) flaw := by
        rintro flaw (⟨hx, hnot⟩ | ⟨hx, hnot⟩)
        · exact hnot (htable hx)
        · rw [at?_cons_of_getD hmetadata] at hx
          exact hnot ⟨info, eq_of_mem_at? hinfo hx⟩
      have hpath : (table entries).at? ["metadata", "language_info", "name"] =
          entry? info "name" := by
        rw [at?_cons_of_getD hmetadata, at?_cons_of_getD hinfo, at?_table]
        simp
      split
      case h_1 name hname => exact .ok hnone (isKernelLanguage_of_name (hpath.trans hname))
      case h_2 hname =>
        refine .ok hnone (.unnamed fun name hname' ↦ ?_)
        exact absurd (hpath.symm.trans hname') (hname name)
    case h_2 hinfo =>
      have hat := at?_eq_some_of_getD metadata "language_info" rfl fun hw ↦ hinfo [] hw
      rw [← at?_cons_of_getD hmetadata] at hat
      refine .error ⟨.languageInfo hat fun ⟨info, hw⟩ ↦ hinfo info hw, ?_⟩
      rintro flaw (⟨hx, hnot⟩ | -)
      · exact absurd (htable hx) hnot
      · exact Nat.le_refl _
  case h_2 hmetadata =>
    have hat := at?_eq_some_of_getD entries "metadata" rfl fun hw ↦ hmetadata [] hw
    refine .error ⟨.metadata hat fun ⟨metadata, hw⟩ ↦ hmetadata metadata hw, ?_⟩
    rintro flaw (- | -) <;> decide

/-- The text of a cell is found after one check. -/
theorem checks_sourceOf (index : Nat) : Checks (SourceHasFlaw (.table entries) index)
    (HasText (.table entries)) (sourceOf index entries) := by
  have hfirst {source : Value} (hat : (table entries).at? ["source"] = some source)
      (hnot : ¬ source.IsSource) :
      IsFirst (SourceHasFlaw (.table entries) index) (.malformedSource index) := by
    refine ⟨.source hat hnot, ?_⟩
    rintro flaw ⟨-, -⟩
    exact Nat.le_refl _
  unfold sourceOf
  split
  case h_1 s hs =>
    refine .ok ?_ ?_
    · rintro flaw ⟨hsource, hnot⟩
      exact hnot (.inl ⟨s, eq_of_mem_at? hs hsource⟩)
    · rcases Option.getD_eq_iff.1 hs with hsome | ⟨hnone, hempty⟩
      · exact .whole (by simp [hsome])
      · obtain rfl := Value.text.inj hempty
        exact .missing (by simp [hnone])
  case h_2 items hitems =>
    have hat := at?_eq_some_of_getD entries "source" hitems (by simp)
    split
    case h_1 parts hparts =>
      rw [texts?_eq_some_iff] at hparts
      subst hparts
      refine .ok ?_ (.inParts hat)
      rintro flaw ⟨hsource, hnot⟩
      exact hnot (.inr ⟨parts, eq_of_mem_at? hitems hsource⟩)
    case h_2 hparts =>
      refine .error (hfirst hat ?_)
      rintro (⟨s, hs⟩ | ⟨parts, hlist⟩)
      · cases hs
      · rw [texts?_eq_some_iff.2 (Value.list.inj hlist)] at hparts
        cases hparts
  case h_3 htext hlist =>
    refine .error (hfirst (at?_eq_some_of_getD entries "source" rfl fun hw ↦ htext "" hw) ?_)
    rintro (⟨s, hw⟩ | ⟨parts, hw⟩)
    · exact htext s hw
    · exact hlist _ hw

/-- **A cell is found after three checks of its item.** -/
theorem checks_cellOf (uri language : String) (index : Nat) (item : Value) :
    Checks (ItemHasFlaw item index) (StandsFor language item uri)
      (cellOf uri language index item) := by
  unfold cellOf
  split
  case h_1 entries =>
    split
    case h_1 kind hkind =>
      have htext {x : Value} (hx : x ∈ (table entries).at? ["cell_type"]) : x = .text kind :=
        eq_of_mem_at? hkind hx
      have hlanguage : HasLanguage language (.table entries)
          (if kind = "code" then language else kind) := by
        by_cases hcode : kind = "code"
        · subst hcode
          exact .code fun x ↦ htext
        · rw [if_neg hcode]
          exact .other (at?_eq_some_of_getD entries _ hkind (by simpa using hcode)) hcode
      refine ((checks_sourceOf entries index).map fun source hsource ↦
        (⟨rfl, hlanguage, rfl, hsource⟩ : StandsFor language _ uri _)).of_iff fun flaw ↦ ?_
      refine ⟨.source, ?_⟩
      rintro (hnot | ⟨hx, hnot⟩ | hsource)
      · exact absurd ⟨entries, rfl⟩ hnot
      · exact absurd ⟨kind, htext hx⟩ hnot
      · exact hsource
    case h_2 hkind =>
      have hat := at?_eq_some_of_getD entries "cell_type" rfl fun hw ↦ hkind "code" hw
      refine .error ⟨.kind hat fun ⟨kind, hw⟩ ↦ hkind kind hw, ?_⟩
      rintro flaw (hnot | - | ⟨⟨-, -⟩⟩)
      · exact absurd ⟨entries, rfl⟩ hnot
      · exact Nat.le_refl _
      · exact Nat.le_succ _
  case h_2 hitem =>
    refine .error ⟨.item fun ⟨entries, h⟩ ↦ hitem entries h, ?_⟩
    rintro flaw (- | - | ⟨⟨-, -⟩⟩) <;> simp only [NotebookFlaw.turn] <;> omega

/-- **The items are checked one after the other**, and each is found to stand for its cell. -/
theorem checks_cellsFrom (uri : Nat → String) (language : String) (index : Nat)
    (items : List Value) :
    Checks (fun flaw ↦ ∃ x ∈ items.zipIdx index, ItemHasFlaw x.1 x.2 flaw)
      (List.Forall₂ (fun x c ↦ StandsFor language x.1 (uri x.2) c) (items.zipIdx index))
      (cellsFrom uri language index items) := by
  induction items generalizing index with
  | nil => exact .ok (by simp) .nil
  | cons item items ih =>
    have hturn : ∀ flaw flaw', ItemHasFlaw item index flaw →
        (∃ x ∈ items.zipIdx (index + 1), ItemHasFlaw x.1 x.2 flaw') → flaw.turn ≤ flaw'.turn := by
      rintro flaw flaw' hflaw ⟨⟨item', index'⟩, hx, hflaw'⟩
      have hindex : index + 1 ≤ index' := List.le_snd_of_mem_zipIdx hx
      -- three turns at each index
      rcases hflaw with - | - | ⟨⟨-, -⟩⟩ <;> rcases hflaw' with - | - | ⟨⟨-, -⟩⟩ <;>
        simp only [NotebookFlaw.turn] <;> omega
    refine ((checks_cellOf (uri index) language index item).bind
      (fun c hc ↦ (ih (index + 1)).map fun cells hcells ↦ ?_) hturn).of_iff fun flaw ↦ ?_
    · rw [List.zipIdx_cons]
      exact .cons hc hcells
    · rw [List.zipIdx_cons, List.exists_mem_cons_iff]

/-- **A notebook is found to stand for its cells**, or the first of its flaws is found. -/
theorem checks_cellsOf (uri : Nat → String) (v : Value) :
    Checks (HasFlaw v) (HasCells v uri) (cellsOf uri v) := by
  unfold cellsOf
  split
  case h_1 entries =>
    split
    case h_1 items hitems =>
      have hat : (table entries).at? ["cells"] = some (.list items) := by simp [hitems]
      have hturn : ∀ flaw flaw', MetadataHasFlaw (table entries) flaw →
          (∃ x ∈ items.zipIdx, ItemHasFlaw x.1 x.2 flaw') → flaw.turn ≤ flaw'.turn := by
        rintro flaw flaw' hflaw ⟨x, -, hflaw'⟩
        rcases hflaw with - | - <;> rcases hflaw' with - | - | ⟨⟨-, -⟩⟩ <;>
          simp only [NotebookFlaw.turn] <;> omega
      have hcells language (hlanguage : IsKernelLanguage (table entries) language) :=
        (checks_cellsFrom uri language 0 items).imp fun _ ↦ HasCells.of_items hat hlanguage
      refine ((checks_languageOf entries).bind hcells hturn).of_iff fun flaw ↦ ?_
      constructor
      · rintro (hflaw | ⟨⟨item, index⟩, hitem, hflaw⟩)
        · exact .metadata hflaw
        · exact .item hat hitem hflaw
      · rintro (hnot | hflaw | ⟨hitems', hitem, hflaw⟩)
        · exact absurd hat (hnot items)
        · exact .inl hflaw
        · obtain rfl := Value.list.inj (Option.some.inj (hat.symm.trans hitems'))
          exact .inr ⟨_, hitem, hflaw⟩
    case h_2 hitems =>
      refine .error ⟨.noCells fun items hat ↦ hitems items (by simpa using hat), ?_⟩
      exact fun flaw _ ↦ Nat.zero_le _
  case h_2 htable =>
    refine .error ⟨.noCells fun items hat ↦ ?_, fun flaw _ ↦ Nat.zero_le _⟩
    rw [at?_cons_eq_none fun ⟨entries, h⟩ ↦ htable entries h] at hat
    cases hat

end Checks

/-! ### Reading a file -/

/-- A notebook in Julia: code in two parts, and a raw cell without a source. -/
def juliaNotebook : String :=
  "\x7b\"cells\": [\x7b\"source\": [\"x\", \"y\"]\x7d, \x7b\"cell_type\": \"raw\"\x7d], " ++
    "\"metadata\": \x7b\"language_info\": \x7b\"name\": \"julia\"\x7d\x7d\x7d"

/-- The value of this notebook. -/
def juliaValue : Value :=
  .table [("cells", .list [.table [("source", .list [.text "x", .text "y"])],
      .table [("cell_type", .text "raw")]]),
    ("metadata", .table [("language_info", .table [("name", .text "julia")])])]

/-- The notebook in Julia is in order. -/
theorem wellFormed_juliaValue : WellFormed juliaValue where
  isTable := ⟨_, rfl⟩
  cells := by
    refine ⟨_, rfl, List.forall_mem_cons.2 ⟨⟨⟨_, rfl⟩, ?_, ?_⟩, List.forall_mem_singleton.2
      ⟨⟨_, rfl⟩, ?_, ?_⟩⟩⟩
    · rintro _ ⟨⟩
    · rintro _ ⟨⟩
      exact .inr ⟨["x", "y"], rfl⟩
    · rintro _ ⟨⟩
      exact ⟨"raw", rfl⟩
    · rintro _ ⟨⟩
  metadata := by
    rintro _ ⟨⟩
    exact ⟨_, rfl⟩
  languageInfo := by
    rintro _ ⟨⟩
    exact ⟨_, rfl⟩

/-- A notebook with three flaws: the kind and the source of its second cell, and its third cell. -/
def flawedNotebook : String :=
  "\x7b\"cells\": [\x7b\x7d, \x7b\"source\": 1, \"cell_type\": null\x7d, 2]\x7d"

/-- The value of this notebook. -/
def flawedValue : Value :=
  .table [("cells", .list [.table [], .table [("source", .int 1), ("cell_type", .null)], .int 2])]

/-- A text of an object with the key `n`, up to what is under it. -/
def behindKey (t : Text) : Text := '\x7b' :: '"' :: 'n' :: '"' :: ':' :: t

/-- The end of a text of an object: an empty list of cells. -/
def noItems : Text := ['"', 'c', 'e', 'l', 'l', 's', '"', ':', '[', ']', '\x7d']

/-- A notebook with an empty list of cells, and with a number made of ones under another key. -/
def longNumber (ones : Nat) : String :=
  String.ofList (behindKey (List.replicate ones '1' ++ ',' :: noItems))

/-- The value of such a notebook. -/
def longNumberValue (ones : Nat) : Value :=
  .table [("n", .int (Numeral.valueOf 10 (List.replicate ones '1'))), ("cells", .list [])]

/-- The notebook is in order, however long the number is. -/
theorem wellFormed_longNumberValue (ones : Nat) : WellFormed (longNumberValue ones) where
  isTable := ⟨_, rfl⟩
  cells := ⟨[], rfl, by simp⟩
  metadata := by simp [longNumberValue, entry?, List.lookup]
  languageInfo := by simp [longNumberValue, entry?, List.lookup]

section BehindKey

variable {u : Text}

/-- The key is taken as it stands. -/
theorem takeString_key (u : Text) :
    Json.takeString none ('n' :: '"' :: u) =
      .ok ⟨"n", u, Nat.lt_succ_of_lt (Nat.lt_succ_self u.length)⟩ := by
  cbv

/-- A fault of the number is the fault of the whole text. -/
theorem read_behindKey_eq_error {f : Json.Fault} (h : Json.takeValue none ('1' :: u) = .error f) :
    Json.read (behindKey ('1' :: u)) = .error f := by
  have hentries : Json.takeEntries none ('"' :: 'n' :: '"' :: ':' :: '1' :: u) = .error f := by
    rw [Json.takeEntries, takeString_key]
    change (Json.takeValue none ('1' :: u) >>= _) = _
    rw [h]
    rfl
  have hvalue : Json.takeValue none (behindKey ('1' :: u)) = .error f := by
    rw [Json.takeValue.eq_def]
    change (Json.takeEntries none ('"' :: 'n' :: '"' :: ':' :: '1' :: u) >>= _) = _
    rw [hentries]
    rfl
  change (Json.takeValue none (behindKey ('1' :: u)) >>= _) = _
  rw [hvalue]
  rfl

/-- If the number is read, so is the whole text. -/
theorem read_behindKey_eq_ok {v : Value} {hshorter}
    (h : Json.takeValue none ('1' :: u) = .ok ⟨v, ',' :: noItems, hshorter⟩) :
    Json.read (behindKey ('1' :: u)) = .ok (.table [("n", v), ("cells", .list [])]) := by
  have hcells : Json.takeEntries none noItems =
      .ok ⟨[("cells", .list [])], [], by decide⟩ := by
    cbv
  have hentries : Json.takeEntries none ('"' :: 'n' :: '"' :: ':' :: '1' :: u) =
      .ok ⟨[("n", v), ("cells", .list [])], [], by simp⟩ := by
    rw [Json.takeEntries, takeString_key]
    change (Json.takeValue none ('1' :: u) >>= _) = _
    rw [h]
    change (Json.takeEntries none noItems >>= _) = _
    rw [hcells]
    rfl
  have hvalue : Json.takeValue none (behindKey ('1' :: u)) =
      .ok ⟨.table [("n", v), ("cells", .list [])], [], by simp [behindKey]⟩ := by
    rw [Json.takeValue.eq_def]
    change (Json.takeEntries none ('"' :: 'n' :: '"' :: ':' :: '1' :: u) >>= _) = _
    rw [hentries]
    rfl
  change (Json.takeValue none (behindKey ('1' :: u)) >>= _) = _
  rw [hvalue]
  rfl

end BehindKey

/-- The number is read as long as it has no more than 4300 digits. -/
theorem read_longNumber (ones : Nat) : Json.read (longNumber (ones + 1)).toList =
    if Numeral.maxDigits < ones + 1 then .error .numberTooLong
    else .ok (longNumberValue (ones + 1)) := by
  have hdigits : ∀ d ∈ List.replicate ones '1', d.isDigit = true := by simp
  have hcomma : Numeral.EndsWhole ',' := ⟨rfl, by decide, by decide⟩
  have hnumber := Json.takeValue_digits (d := '1') rfl (by decide) hdigits hcomma none noItems
  rw [longNumber, String.toList_ofList, List.replicate_succ, List.cons_append]
  by_cases hlong : Numeral.maxDigits < ones + 1
  · rw [if_pos (by rwa [List.length_replicate])] at hnumber
    rw [if_pos hlong, read_behindKey_eq_error hnumber]
  · rw [if_neg (by rwa [List.length_replicate])] at hnumber
    rw [if_neg hlong, read_behindKey_eq_ok hnumber, longNumberValue, List.replicate_succ]

end NotebookFile

end CellStitch
