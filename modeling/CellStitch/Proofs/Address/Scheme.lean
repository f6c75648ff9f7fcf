import CellStitch.Address.Notebook
import CellStitch.Proofs.Cell.Order
import Mathlib.Data.List.TakeWhile
/-!
# URIs with a given scheme

A URI that is written with a scheme in front is read with that scheme (`Url.scheme_of_parse`).
Whether it can be read at all is decided by its host (`Url.exists_parse_iff`), which is what stands
behind two slashes once the characters are gone that do not count. What stands behind a `#` has no
part in that (`Url.hostOf_append_fragment`), so that a URI can be read with a fragment exactly if it
can be read without.
-/

namespace CellStitch.Url

/-- Whether a character of a URL counts. Tabs and line breaks do not. -/
def counts (c : Char) : Bool := c ≠ '\t' && c ≠ '\r' && c ≠ '\n'

/-- What is a scheme in lower case. -/
def IsScheme (scheme : Text) : Prop :=
  (scheme.head?.map Char.isAlpha).getD false = true ∧ (∀ c ∈ scheme, isSchemeChar c = true) ∧
    scheme.map Char.toLower = scheme

-- the characters of the scheme are looked at, and not all characters there are
instance (scheme : Text) : Decidable (IsScheme scheme) :=
  letI := List.decidableBAll (fun c ↦ isSchemeChar c = true) scheme
  inferInstanceAs (Decidable (_ ∧ _ ∧ _))

/-- The host of what stands behind a scheme and its colon. -/
def hostOf (t : Text) : Text := (cutHost (t.filter counts)).1

variable {scheme t : Text} {url : Url}

/-! ### The scheme -/

theorem counts_of_isSchemeChar {c : Char} (h : isSchemeChar c = true) : counts c = true := by
  rw [counts]
  simp only [Bool.and_eq_true, decide_eq_true_eq]
  refine ⟨⟨?_, ?_⟩, ?_⟩ <;> (rintro rfl; cases h)

theorem ne_colon_of_isSchemeChar {c : Char} (h : isSchemeChar c = true) : c ≠ ':' := by
  rintro rfl
  cases h

/-- Letters stand behind the blank and the control characters. -/
theorem not_le_of_isAlpha {c : Char} (h : c.isAlpha = true) : ¬ c.toNat ≤ 0x20 := by
  have hle : 0x41 ≤ c.toNat := by
    have hcase : c.isUpper = true ∨ c.isLower = true := (Bool.or_eq_true _ _).mp h
    rcases hcase with hupper | hlower
    · exact (of_decide_eq_true hupper).1
    · exact Nat.le_trans (by decide) (of_decide_eq_true ((Bool.and_eq_true _ _).mp hlower).1)
  omega

/-- A scheme stays when a URL is cleaned. -/
theorem clean_of_isScheme (h : IsScheme scheme) (t : Text) :
    clean (scheme ++ ':' :: t) = scheme ++ ':' :: t.filter counts := by
  obtain ⟨hhead, hchars, -⟩ := h
  obtain ⟨c, rest, rfl⟩ : ∃ c rest, scheme = c :: rest := by
    exact List.exists_cons_of_ne_nil (by rintro rfl; cases hhead)
  have hfirst : ¬ c.toNat ≤ 0x20 := not_le_of_isAlpha (by simpa using hhead)
  have hkept : (c :: rest).filter counts = c :: rest :=
    List.filter_eq_self.2 fun x hx ↦ counts_of_isSchemeChar (hchars x hx)
  show ((c :: rest ++ ':' :: t).dropWhile _).filter counts = _
  rw [List.cons_append, List.dropWhile_cons_of_neg (by simpa using hfirst), ← List.cons_append,
    List.filter_append, hkept]
  rfl

theorem cutScheme_of_isScheme (h : IsScheme scheme) (t : Text) :
    cutScheme (scheme ++ ':' :: t) = (scheme, t) := by
  obtain ⟨hhead, hchars, hlower⟩ := h
  have hcolon : ∀ c ∈ scheme, decide (c ≠ ':') = true := fun c hc ↦
    decide_eq_true (ne_colon_of_isSchemeChar (hchars c hc))
  have hcut : Text.cutAt (scheme ++ ':' :: t) ':' = (scheme, t) := by
    rw [Text.cutAt, List.takeWhile_append_of_pos hcolon, List.dropWhile_append_of_pos hcolon]
    simp
  rw [cutScheme, hcut]
  simp [hhead, hlower, List.all_eq_true.2 hchars]

/-! ### The host -/

/-- **What is written with a scheme is read with it**, if its host is in order. -/
theorem parse_of_isScheme (h : IsScheme scheme) (t : Text) :
    ∃ path fragment, parse (String.ofList (scheme ++ ':' :: t)) =
      if hostOk (hostOf t) then .ok ⟨scheme, hostOf t, path, fragment⟩
      else .error (.malformedUri (String.ofList (scheme ++ ':' :: t))) := by
  rw [parse, String.toList_ofList, clean_of_isScheme h, cutScheme_of_isScheme h]
  exact ⟨_, _, rfl⟩

/-- A URI with a scheme can be read exactly if its host is in order. -/
theorem exists_parse_iff (h : IsScheme scheme) : (∃ url,
    parse (String.ofList (scheme ++ ':' :: t)) = .ok url) ↔ hostOk (hostOf t) = true := by
  obtain ⟨path, fragment, hparse⟩ := parse_of_isScheme h t
  rw [hparse]
  split <;> simp [*]

example : (parse "vscode-notebook-cell://h\u2100/n.ipynb#a").isOk = false := by decide +kernel

/-- The scheme that is written is the one that is read. -/
theorem scheme_of_parse (h : IsScheme scheme)
    (hparse : parse (String.ofList (scheme ++ ':' :: t)) = .ok url) : url.scheme = scheme := by
  obtain ⟨path, fragment, hparse'⟩ := parse_of_isScheme h t
  rw [hparse'] at hparse
  split at hparse
  · obtain rfl := Except.ok.inj hparse
    rfl
  · cases hparse

/-- Without two slashes in front there is no host. -/
theorem cutHost_of_no_slashes (h : ¬ ['/', '/'] <+: t) : cutHost t = ([], t) := by
  unfold cutHost
  split
  · exact absurd ⟨_, rfl⟩ h
  · rfl

/-- What is passed over ends at the first character that does not pass. -/
theorem takeWhile_append_cons_of_neg {p : Char → Bool} {c : Char} (hc : ¬ p c = true)
    (t u : Text) : (t ++ c :: u).takeWhile p = t.takeWhile p := by
  induction t with
  | nil => exact List.takeWhile_cons_of_neg hc
  | cons x t ih => simp only [List.cons_append, List.takeWhile_cons, ih]

/-- The host ends at a `#` at the latest. -/
theorem cutHost_append_fragment (t fragment : Text) :
    (cutHost (t ++ '#' :: fragment)).1 = (cutHost t).1 := by
  by_cases hslashes : ['/', '/'] <+: t
  · obtain ⟨t, rfl⟩ := hslashes
    exact takeWhile_append_cons_of_neg (by decide) t fragment
  · have hslashes' : ¬ ['/', '/'] <+: t ++ '#' :: fragment := by
      rcases t with - | ⟨c, - | ⟨x, t⟩⟩
      · simp
      · simp
      · simpa using hslashes
    rw [cutHost_of_no_slashes hslashes, cutHost_of_no_slashes hslashes']

/-- **A fragment has no part in the host.** -/
theorem hostOf_append_fragment (t fragment : Text) : hostOf (t ++ '#' :: fragment) = hostOf t := by
  have hmark : (t ++ '#' :: fragment).filter counts =
      t.filter counts ++ '#' :: fragment.filter counts := by
    rw [List.filter_append, List.filter_cons_of_pos (by decide)]
  rw [hostOf, hostOf, hmark, cutHost_append_fragment]

end CellStitch.Url
