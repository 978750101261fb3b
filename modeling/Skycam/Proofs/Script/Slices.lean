import Skycam.Proofs.Text.Lines
import Skycam.Script.Reader

/-!
# The name of a player is cut out of its line at a character

The name of a player to look at is what follows the command word in its line, which is cut off by
its number of bytes. A cut beyond the end or in the middle of a character gives nothing
(`Text.dropBytes?`). It never comes to that: a trimmed line begins with its first word, and the cut
lies right behind it, whatever the text (`Script.report?_eq`).
-/

namespace Skycam

namespace Text

/-- The number of bytes of a text. -/
def byteLength : List Char → Nat
  | [] => 0
  | c :: cs => c.utf8Size + byteLength cs

/-- What follows the first bytes of a text, if there are so many and they end with a character. -/
def dropBytes? : Nat → List Char → Option (List Char)
  | 0, cs => some cs
  | _ + 1, [] => none
  | n + 1, c :: cs => if c.utf8Size ≤ n + 1 then dropBytes? (n + 1 - c.utf8Size) cs else none

/-- A cut behind a front leaves the rest. -/
theorem dropBytes?_append (front rest : List Char) :
    dropBytes? (byteLength front) (front ++ rest) = some rest := by
  induction front with
  | nil => cases rest <;> rfl
  | cons c front ih =>
    have hpos : 0 < c.utf8Size := c.utf8Size_pos
    have hlength : byteLength (c :: front) = c.utf8Size + byteLength front := rfl
    obtain ⟨n, hn⟩ : ∃ n, c.utf8Size + byteLength front = n + 1 :=
      Nat.exists_eq_add_one.mpr (by omega)
    have hfits : c.utf8Size ≤ n + 1 := by omega
    have hleft : n + 1 - c.utf8Size = byteLength front := by omega
    rw [hlength, hn, List.cons_append, dropBytes?, if_pos hfits, hleft]
    exact ih

end Text

namespace Script

open Text (isBlank)

/-- Reads a line. The rest of the line is cut off behind the command word. -/
def readLine? (line : List Char) : Option LineReading :=
  let line := Text.trim line
  match Text.words line with
  | [] => some ⟨none, []⟩
  | head :: args => do
    let rest ← Text.dropBytes? (Text.byteLength head) line
    return readCommand (String.ofList (Text.lowerAscii head)) head (Text.trim rest) args

/-- Reads a script text with its problems. -/
def report? (text : String) : Option Report := do
  let readings ← (Text.lines text.toList).mapM readLine?
  let lines := readings.zipIdx 1
  let draft := lines.foldl Draft.takeLine Draft.start
  return ⟨draft.script, lines.flatMap lineProblems ++ draft.unterminated⟩

variable {line head rest : List Char} {args : List (List Char)}

/-- What is behind the first word of a line begins with a blank character, and its words are the
arguments. -/
theorem words_behind_head (hwords : Text.words line = head :: args) :
    ∃ rest, Text.trim line = head ++ rest ∧ Text.words rest = args ∧
      ∀ c ∈ rest.head?, isBlank c = true := by
  rw [← Text.words_trim] at hwords
  cases htrim : Text.trim line with
  | nil =>
    rw [htrim] at hwords
    cases hwords
  | cons c behind =>
    have hc : isBlank c = false := Text.isBlank_of_trim_eq_cons htrim
    rw [htrim, Text.words_of_head_not_blank hc] at hwords
    obtain ⟨rfl, hargs⟩ := List.cons.inj hwords
    exact ⟨_, List.takeWhile_append_dropWhile.symm, hargs,
      Text.isBlank_of_head?_behind (c :: behind)⟩

theorem afterHead_eq (hwords : Text.words line = head :: args)
    (hsplit : Text.trim line = head ++ rest) : afterHead (Text.trim line) = Text.trim rest := by
  have hhead : headWord (Text.trim line) = head :=
    (Text.head_of_words_trim ((Text.words_trim line).trans hwords)).symm
  rw [afterHead, hhead, hsplit, List.drop_left]

/-- The cut behind the command word of a line gives something, and what the reader takes. -/
theorem readLine?_eq (line : List Char) : readLine? line = some (readLine line) := by
  cases hwords : Text.words (Text.trim line) with
  | nil => simp [readLine?, readLine, hwords]
  | cons head args =>
    have hline : Text.words line = head :: args := (Text.words_trim line).symm.trans hwords
    obtain ⟨rest, hsplit, -, -⟩ := words_behind_head hline
    have hcut : Text.dropBytes? (Text.byteLength head) (Text.trim line) = some rest := by
      rw [hsplit]
      exact Text.dropBytes?_append head rest
    simp [readLine?, readLine, hwords, hcut, afterHead_eq hline hsplit]

/-- Reading a script text cuts no line in a wrong place. -/
theorem report?_eq (text : String) : report? text = some (report text) := by
  have hlines : (Text.lines text.toList).mapM readLine? =
      some ((Text.lines text.toList).map readLine) := by
    rw [funext readLine?_eq]
    exact List.mapM_pure
  simp [report?, report, readLines, hlines]

end Script

end Skycam
