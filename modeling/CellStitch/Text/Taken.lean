import CellStitch.Text.Lines
/-!
# Reading from the front of a text

A reader takes something from the front of a text and leaves a shorter rest. The proof that the rest
is shorter travels with it, so that readers that call one another end with the text.
-/

namespace CellStitch

/-- What is left of a text when characters at its front are passed over, or none are. -/
structure Ending (s : Text) where
  text : Text
  length_le : text.length ≤ s.length

/-- What was taken from the front of a text, and the rest of the text. -/
structure Taken (s : Text) (α : Type) where
  value : α
  rest : Text
  shorter : rest.length < s.length

theorem Text.length_dropWhile_le (p : Char → Bool) (t : Text) :
    (t.dropWhile p).length ≤ t.length :=
  (List.dropWhile_sublist p).length_le

/-! ### Endings -/

namespace Ending

variable {s : Text}

/-- The whole text. -/
def whole : Ending s := ⟨s, Nat.le_refl _⟩

/-- What is left behind the characters at the front that pass a test. -/
def afterWhile (p : Char → Bool) : Ending s := ⟨s.dropWhile p, Text.length_dropWhile_le p s⟩

/-- What is left, seen from a text with one more character at the front. -/
def behind {c : Char} (x : Ending s) : Ending (c :: s) := ⟨x.text, Nat.le_succ_of_le x.length_le⟩

/-- What is left of what is left. -/
def trans (x : Ending s) (y : Ending x.text) : Ending s :=
  ⟨y.text, Nat.le_trans y.length_le x.length_le⟩

end Ending

/-! ### Reading -/

namespace Taken

variable {s t : Text} {α β γ : Type}

/-- Changes what was taken. -/
def map (f : α → β) (x : Taken s α) : Taken s β := ⟨f x.value, x.rest, x.shorter⟩

/-- What was taken from a text was taken from a text that is as long or longer. -/
def widen (x : Taken t α) (h : t.length ≤ s.length) : Taken s α :=
  ⟨x.value, x.rest, Nat.lt_of_lt_of_le x.shorter h⟩

/-- What was taken, seen from a text with one more character at the front. -/
def behind {c : Char} (x : Taken s α) : Taken (c :: s) α := x.widen (Nat.le_succ _)

/-- Takes the character at the front, which is read as the given value. -/
def next {c : Char} (value : α) : Taken (c :: s) α := ⟨value, s, Nat.lt_succ_self _⟩

/-- What is left of the text. -/
def ending (x : Taken s α) : Ending s := ⟨x.rest, Nat.le_of_lt x.shorter⟩

/-- Passes over more of the text. -/
def pass (x : Taken s α) (y : Ending x.rest) : Taken s α :=
  ⟨x.value, y.text, Nat.lt_of_le_of_lt y.length_le x.shorter⟩

/-- Passes over the characters behind what was taken that pass a test. -/
def passWhile (p : Char → Bool) (x : Taken s α) : Taken s α := x.pass (.afterWhile p)

/-- Joins what was taken with what was taken behind it. -/
def andThen (f : α → β → γ) (x : Taken s α) (y : Taken x.rest β) : Taken s γ :=
  ⟨f x.value y.value, y.rest, Nat.lt_trans y.shorter x.shorter⟩

/-- Takes a number of characters, which must not be 0. -/
def ofLength? (s : Text) (n : Nat) (value : α) : Option (Taken s α) :=
  if h : 0 < n ∧ 0 < s.length then
    some ⟨value, s.drop n, by rw [List.length_drop]; omega⟩
  else none

end Taken

/-- Takes the next character of what is left, if it passes a test. -/
def Ending.takeIf? {s : Text} (p : Char → Bool) (x : Ending s) : Option (Taken s Unit) :=
  match h : x.text with
  | [] => none
  | c :: rest =>
    if p c then some ⟨(), rest, Nat.lt_of_lt_of_le (h ▸ Nat.lt_succ_self _) x.length_le⟩
    else none

/-- Takes a character, if it is the next one of what is left. -/
def Ending.take? {s : Text} (c : Char) (x : Ending s) : Option (Taken s Unit) :=
  x.takeIf? (· = c)

/-- Takes a character, if it stands right behind what was taken. -/
def Taken.before? {s : Text} {α : Type} (c : Char) (x : Taken s α) : Option (Taken s α) :=
  (x.ending.take? c).map fun y ↦ y.map fun _ ↦ x.value

end CellStitch
