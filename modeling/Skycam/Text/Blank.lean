/-!
# Blank characters, words and lines

Texts are cut the same way everywhere: a character is blank when it has the Unicode property
White_Space, a word is a maximal run of characters that are not blank, and a line ends at a line
feed, a carriage return right before it included. All of it is stated on lists of characters, and
every cut goes through `pieces`.
-/

namespace Skycam.Text

/-- The characters with the Unicode property White_Space. -/
def isBlank (c : Char) : Bool :=
  let n := c.toNat
  (0x09 ≤ n && n ≤ 0x0D) || n == 0x20 || n == 0x85 || n == 0xA0 || n == 0x1680 ||
    (0x2000 ≤ n && n ≤ 0x200A) || n == 0x2028 || n == 0x2029 || n == 0x202F || n == 0x205F ||
    n == 0x3000

/-- Drops the blank characters at the front. -/
def trimStart (cs : List Char) : List Char := cs.dropWhile isBlank

/-- Drops the blank characters at the end. -/
def trimEnd (cs : List Char) : List Char := (cs.reverse.dropWhile isBlank).reverse

/-- Drops the blank characters at both ends. -/
def trim (cs : List Char) : List Char := trimEnd (trimStart cs)

/-- Cuts at every separator; there is one piece more than there are separators. -/
def pieces (isSeparator : Char → Bool) : List Char → List (List Char)
  | [] => [[]]
  | c :: rest =>
    if isSeparator c then [] :: pieces isSeparator rest
    else
      match pieces isSeparator rest with
      | [] => [[c]]
      | piece :: more => (c :: piece) :: more

/-- The words of a text: what is left between blank characters. -/
def words (cs : List Char) : List (List Char) := (pieces isBlank cs).filter (· ≠ [])

/-- Drops one carriage return at the end. -/
def dropReturn (line : List Char) : List Char :=
  if line.getLast? = some '\r' then line.dropLast else line

/-- The lines of a text. The line feed and a carriage return right before it belong to no line,
and no line follows a line feed at the very end. -/
def lines (cs : List Char) : List (List Char) :=
  let all := pieces (· == '\n') cs
  let last := all.getLast?.getD []
  all.dropLast.map dropReturn ++ if last = [] then [] else [last]

/-- Trims a string. -/
def trimmed (s : String) : String := String.ofList (trim s.toList)

/-- Whether a string has blank characters only. -/
def isBlankText (s : String) : Bool := s.toList.all isBlank

/-- Replaces the capital letters `A` to `Z` by small ones. -/
def lowerAscii (cs : List Char) : List Char := cs.map Char.toLower

/-- There is always a first piece. -/
theorem pieces_ne_nil (p : Char → Bool) (cs : List Char) : pieces p cs ≠ [] := by
  cases cs with
  | nil => simp [pieces]
  | cons c rest =>
    simp only [pieces]
    split
    · simp
    · split <;> simp

end Skycam.Text
