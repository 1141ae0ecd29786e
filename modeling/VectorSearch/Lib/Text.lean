import Mathlib.Data.List.DropRight

namespace VectorSearch

/-!
# Texts

The string methods of Python on texts as lists of characters, and what they
keep: the characters that are not whitespace, in their order.
-/

/-- A Python string, one `Char` for each code point. -/
abbrev Text := List Char

namespace Text

/-- `str.isspace` of one character, and `\s` in a regular expression. -/
def isSpace (c : Char) : Bool :=
  let n := c.toNat
  (9 ≤ n && n ≤ 13) || (0x1c ≤ n && n ≤ 0x20) || n == 0x85 || n == 0xa0 || n == 0x1680 ||
    (0x2000 ≤ n && n ≤ 0x200a) || n == 0x2028 || n == 0x2029 || n == 0x202f || n == 0x205f || n == 0x3000

/-- The characters at which `str.splitlines` breaks. -/
def isLineBreak (c : Char) : Bool :=
  let n := c.toNat
  (10 ≤ n && n ≤ 13) || (0x1c ≤ n && n ≤ 0x1e) || n == 0x85 || n == 0x2028 || n == 0x2029

/-- `str.lstrip`. -/
def lstrip (text : Text) : Text := text.dropWhile isSpace

/-- `str.rstrip`. -/
def rstrip (text : Text) : Text := text.rdropWhile isSpace

/-- `str.strip`. -/
def strip (text : Text) : Text := (lstrip text).rstrip

/-- `str.strip(c)` for one character. -/
def stripChar (c : Char) (text : Text) : Text := (text.dropWhile (· == c)).rdropWhile (· == c)

/-- `separator.join(texts)`. -/
def join (separator : Text) : List Text → Text
  | [] => []
  | [text] => text
  | text :: other :: texts => text ++ separator ++ join separator (other :: texts)

/-- How `repr` shows a character between quotes.  Beyond ASCII every character is
shown as it is, which `repr` does with the printable ones. -/
def reprChar (quote c : Char) : Text :=
  if c = quote || c = '\\' then ['\\', c]
  else if c = '\n' then ['\\', 'n']
  else if c = '\r' then ['\\', 'r']
  else if c = '\t' then ['\\', 't']
  else if c.toNat < 32 || c.toNat = 127 then
    ['\\', 'x', Nat.digitChar (c.toNat / 16), Nat.digitChar (c.toNat % 16)]
  else [c]

/-- `repr` of a string: in single quotes, unless it has some and no double ones. -/
def repr (text : String) : String :=
  let quote := if text.toList.contains (Char.ofNat 39) && !text.toList.contains '"' then '"' else Char.ofNat 39
  String.ofList (quote :: (text.toList.flatMap (reprChar quote) ++ [quote]))

/-- A list of strings, as an f-string prints it. -/
def reprList (texts : List String) : String := "[" ++ ", ".intercalate (texts.map repr) ++ "]"

/-- `f"{number:,}"`. -/
def grouped (number : Nat) : String :=
  let digits := Nat.toDigits 10 number
  String.ofList ((List.range digits.length).flatMap fun place =>
    (if place ≠ 0 && (digits.length - place) % 3 = 0 then [','] else []) ++ (digits[place]?).toList)

example : (repr "it's", repr "\"it's\"", grouped 1234567) =
  ("\"it's\"", "'\"it\\'s\"'", "1,234,567") := by decide

/-- The lines of a text behind what is known of the current line. -/
def splitlinesFrom (line : Text) : Text → List Text
  | [] => if line = [] then [] else [line]
  | '\r' :: '\n' :: rest => line :: splitlinesFrom [] rest
  | c :: rest => if isLineBreak c then line :: splitlinesFrom [] rest else splitlinesFrom (line ++ [c]) rest

/-- `str.splitlines`. -/
def splitlines (text : Text) : List Text := splitlinesFrom [] text

/-- `text.rfind(c, start, stop)`, with `none` for -1. -/
def rfind (c : Char) (start stop : Nat) (text : Text) : Option Nat :=
  (List.range stop).reverse.find? fun i => start ≤ i && text[i]? == some c

theorem rfind_bounds {c : Char} {start stop i : Nat} {text : Text} (found : rfind c start stop text = some i) :
    start ≤ i ∧ i < stop := by
  have atLeast := List.find?_some found
  have below := List.mem_of_find?_eq_some found
  rw [List.mem_reverse, List.mem_range] at below
  rw [Bool.and_eq_true, decide_eq_true_eq] at atLeast
  exact ⟨atLeast.1, below⟩

/-! ## What is not whitespace -/

/-- The characters that are not whitespace. -/
def ink (text : Text) : Text := text.filter fun c => !isSpace c

@[simp]
theorem ink_nil : ink [] = [] := rfl

@[simp]
theorem ink_append (first second : Text) : ink (first ++ second) = ink first ++ ink second :=
  List.filter_append first second

theorem ink_eq_nil {text : Text} (blank : ∀ c ∈ text, isSpace c = true) : ink text = [] := by
  unfold ink
  rw [List.filter_eq_nil_iff]
  intro c member
  simp only [blank c member, Bool.not_true, Bool.false_eq_true, not_false_eq_true]

theorem ink_dropWhile {p : Char → Bool} (space : ∀ c, p c = true → isSpace c = true) (text : Text) :
    ink (text.dropWhile p) = ink text := by
  have split := List.takeWhile_append_dropWhile (p := p) (l := text)
  have blank : ink (text.takeWhile p) = [] :=
    ink_eq_nil fun c member => space c (List.mem_takeWhile_imp member)
  calc
    ink (text.dropWhile p) = ink (text.takeWhile p) ++ ink (text.dropWhile p) := by rw [blank, List.nil_append]
    _ = ink text := by rw [← ink_append, split]

theorem ink_reverse (text : Text) : ink text.reverse = (ink text).reverse :=
  List.filter_reverse

theorem ink_rdropWhile {p : Char → Bool} (space : ∀ c, p c = true → isSpace c = true) (text : Text) :
    ink (text.rdropWhile p) = ink text := by
  unfold List.rdropWhile
  rw [ink_reverse, ink_dropWhile space, ink_reverse, List.reverse_reverse]

@[simp]
theorem ink_lstrip (text : Text) : ink text.lstrip = ink text := ink_dropWhile (fun _ => id) text

@[simp]
theorem ink_rstrip (text : Text) : ink text.rstrip = ink text := ink_rdropWhile (fun _ => id) text

@[simp]
theorem ink_strip (text : Text) : ink text.strip = ink text := by
  unfold strip
  rw [ink_rstrip, ink_lstrip]

/-- A text is blank when stripping leaves nothing of it. -/
theorem strip_eq_nil_iff {text : Text} : text.strip = [] ↔ ink text = [] := by
  constructor
  · intro nothing
    rw [← ink_strip, nothing, ink_nil]
  · intro blank
    have left : text.lstrip = [] := by
      unfold lstrip
      rw [List.dropWhile_eq_nil_iff]
      intro c member
      by_contra notSpace
      have inked : c ∈ ink text := List.mem_filter.mpr ⟨member, by rw [Bool.eq_false_iff.mpr notSpace]; rfl⟩
      rw [blank] at inked
      cases inked
    unfold strip
    rw [left]
    rfl

end Text
end VectorSearch
