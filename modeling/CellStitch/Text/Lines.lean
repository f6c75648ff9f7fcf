/-!
# Texts and their lines

A text is a list of code points, so that an offset into it is an index of a list. A line break is
the single character `'\n'`; a carriage return is an ordinary character of its line.

`Text.splitOn` cuts a text at a character and always yields at least one part; `Text.lines` cuts at
the line breaks. `Text.joinWith_splitOn` says that nothing is lost. `Text.lineStarts` lists the
offsets at which lines begin.
-/

namespace CellStitch

/-- A text, as the list of its code points. -/
abbrev Text := List Char

namespace Text

/-! ### Cutting at a character -/

/-- The parts of a text between the occurrences of a character. The empty text has one part. -/
def splitOn (sep : Char) : Text → List Text
  | [] => [[]]
  | c :: t =>
    if c = sep then [] :: splitOn sep t
    else
      match splitOn sep t with
      | [] => [[c]]
      | part :: parts => (c :: part) :: parts

/-- Joins parts with a character between each two of them. -/
def joinWith (sep : Char) : List Text → Text
  | [] => []
  | [part] => part
  | part :: parts => part ++ sep :: joinWith sep parts

@[simp] theorem splitOn_nil (sep : Char) : splitOn sep [] = [[]] := rfl

@[simp] theorem splitOn_cons_self (sep : Char) (t : Text) :
    splitOn sep (sep :: t) = [] :: splitOn sep t := by
  simp [splitOn]

theorem splitOn_ne_nil (sep : Char) (t : Text) : splitOn sep t ≠ [] := by
  cases t with
  | nil => simp
  | cons c t =>
    unfold splitOn
    split
    · simp
    · split <;> simp

theorem splitOn_cons_of_ne {sep c : Char} (hc : c ≠ sep) {t part : Text} {parts : List Text}
    (h : splitOn sep t = part :: parts) : splitOn sep (c :: t) = (c :: part) :: parts := by
  simp [splitOn, hc, h]

/-- Cutting a text loses nothing. -/
theorem joinWith_splitOn (sep : Char) (t : Text) : joinWith sep (splitOn sep t) = t := by
  induction t with
  | nil => rfl
  | cons c t ih =>
    obtain ⟨part, parts, h⟩ := List.exists_cons_of_ne_nil (splitOn_ne_nil sep t)
    by_cases hc : c = sep
    · subst hc
      rw [splitOn_cons_self, h, joinWith, ← h, ih] <;> simp
    · rw [splitOn_cons_of_ne hc h]
      rw [h] at ih
      cases parts <;> simp_all [joinWith]

/-! ### Lines -/

/-- The lines of a text, without their breaks. The empty text has one empty line. -/
def lines (t : Text) : List Text := splitOn '\n' t

/-- Joins lines with a break between each two of them. -/
def unlines (ls : List Text) : Text := joinWith '\n' ls

theorem lines_ne_nil (t : Text) : lines t ≠ [] := splitOn_ne_nil '\n' t

/-- Cutting a text into lines loses nothing. -/
theorem unlines_lines (t : Text) : unlines (lines t) = t := joinWith_splitOn '\n' t

/-! ### Line starts -/

/-- The offsets just behind the breaks of a text that begins at offset `i`. -/
def breaksFrom (i : Nat) : Text → List Nat
  | [] => []
  | c :: t => if c = '\n' then (i + 1) :: breaksFrom (i + 1) t else breaksFrom (i + 1) t

/-- The offsets at which the lines of a text begin, in increasing order. -/
def lineStarts (t : Text) : List Nat := 0 :: breaksFrom 0 t

theorem length_breaksFrom (i : Nat) (t : Text) : (breaksFrom i t).length = t.count '\n' := by
  induction t generalizing i with
  | nil => rfl
  | cons c t ih => by_cases hc : c = '\n' <;> simp [breaksFrom, hc, ih]

/-! ### Splicing -/

/-- Replaces the characters from offset `start` up to `stop` by another text. -/
def splice (t : Text) (start stop : Nat) (new : Text) : Text :=
  t.take start ++ new ++ t.drop stop

/-- Cuts an integer offset to the range from 0 to `length`. -/
def clamp (length : Nat) (offset : Int) : Nat := min offset.toNat length

/-! ### Parts of a text -/

/-- Whether the last character of a text is the given one. -/
def endsWith (t : Text) (c : Char) : Bool := t.getLast? == some c

/-- Whether one text stands somewhere in another. -/
def occursIn (part : Text) : Text → Bool
  | [] => part.isEmpty
  | c :: t => part.isPrefixOf (c :: t) || occursIn part t

/-- What stands before the first occurrence of a character, and what stands behind it; the whole
text and nothing if the character does not occur. -/
def cutAt (t : Text) (sep : Char) : Text × Text :=
  (t.takeWhile (· ≠ sep), (t.dropWhile (· ≠ sep)).drop 1)

end Text

end CellStitch
