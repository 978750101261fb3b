import Skycam.Proofs.Script.Slices

/-!
# The name of a player to look at

A line that looks at a player is cut twice: into words, the first of which is the command and the
others its arguments, and behind the bytes of the command word, where the name begins. Both cuts
take the same characters for blank. So the name is what stands in the line from the start of the
first argument to the end of the last one, whatever blank characters there are between them
(`Script.Spans`), and without arguments there is no name (`Script.readLine_playerName`).
-/

namespace Skycam

namespace Script

open Text (isBlank)

/-- In the line `line` there is the word `head` and, behind blank characters, the name, which begins
with the first of the arguments and ends with the last one. Nothing else in the line is other than
blank. -/
structure Spans (line head : List Char) (args : List (List Char)) (name : List Char) : Prop where
  /-- Where the name stands. -/
  stands : ∃ before gap after, line = before ++ head ++ gap ++ name ++ after ∧ gap ≠ [] ∧
    ∀ c ∈ before ++ gap ++ after, isBlank c = true
  /-- The name begins with the first argument. -/
  first : ∀ arg ∈ args.head?, arg <+: name
  /-- The name ends with the last argument. -/
  last : ∀ arg ∈ args.getLast?, arg <:+ name

/-- The word of the commands that look at a player. -/
def lookWord (smooth : Bool) : String := if smooth then "smoothlookatplayer" else "lookatplayer"

variable {line head rest : List Char} {args : List (List Char)}

/-- The trimmed rest of a line spans its arguments. -/
theorem spans_trim (hargs : args ≠ []) (hsplit : Text.trim line = head ++ rest)
    (hwords : Text.words rest = args) (hblank : ∀ c ∈ rest.head?, isBlank c = true) :
    Spans line head args (Text.trim rest) := by
  have hname : Text.words (Text.trim rest) = args := (Text.words_trim rest).trans hwords
  refine ⟨?_, fun arg harg => ?_, fun arg harg => ?_⟩
  · obtain ⟨before, after, hline, houter⟩ := Text.exists_trim line
    obtain ⟨gap, behind, hrest, hinner⟩ := Text.exists_trim rest
    have hgap : gap ≠ [] := by
      rintro rfl
      cases htrim : Text.trim rest with
      | nil => exact hargs (hname.symm.trans (Text.words_trim_eq_nil_iff.mpr htrim))
      | cons c more =>
        have hc : isBlank c = false := Text.isBlank_of_trim_eq_cons htrim
        rw [htrim] at hrest
        rw [hblank c (by rw [hrest]; rfl)] at hc
        cases hc
    refine ⟨before, gap, behind ++ after, ?_, hgap, fun c hc => ?_⟩
    · rw [hline, hsplit]
      nth_rewrite 1 [hrest]
      simp only [List.append_assoc]
    · simp only [List.mem_append] at hc houter hinner
      rcases hc with (hc | hc) | hc | hc
      · exact houter c (Or.inl hc)
      · exact hinner c (Or.inl hc)
      · exact hinner c (Or.inr hc)
      · exact houter c (Or.inr hc)
  · obtain ⟨more, hmore⟩ := List.head?_eq_some_iff.mp harg
    rw [Text.head_of_words_trim (hname.trans hmore)]
    exact List.takeWhile_prefix _
  · rw [← hname] at harg
    exact Text.suffix_of_getLast?_words_trim harg

/-- The bytes of the command word end with a character of the trimmed line. What is behind them,
trimmed, is the name of the player, which consists of the arguments: it has the same words, is empty
if there are none, and otherwise spans them in the line. Without a name the origin is looked at, and
an argument is missing. -/
theorem readLine_playerName {smooth : Bool} (hwords : Text.words line = head :: args)
    (hhead : String.ofList (Text.lowerAscii head) = lookWord smooth) :
    ∃ rest, Text.dropBytes? (Text.byteLength head) (Text.trim line) = some rest ∧
      Text.trim line = head ++ rest ∧ Text.words (Text.trim rest) = args ∧
      (Text.trim rest = [] ↔ args = []) ∧
      (args ≠ [] → Spans line head args (Text.trim rest)) ∧
      readLine line =
        if args = [] then
          ⟨some (.lookAt (.point Vec3.zero smooth)),
            [.missingArguments (lookWord smooth) 1 0]⟩
        else ⟨some (.lookAt (.player (String.ofList (Text.trim rest)) smooth)), []⟩ := by
  obtain ⟨rest, hsplit, hargs, hblank⟩ := words_behind_head hwords
  have hname : Text.words (Text.trim rest) = args := (Text.words_trim rest).trans hargs
  have hempty : Text.trim rest = [] ↔ args = [] := by
    rw [← hname, Text.words_trim_eq_nil_iff]
  have hreading : readLine line = playerLine (lookWord smooth) (Text.trim rest) args smooth := by
    unfold readLine
    dsimp only
    rw [Text.words_trim, hwords]
    dsimp only
    rw [hhead, afterHead_eq hwords hsplit]
    cases smooth <;> rfl
  refine ⟨rest, ?_, hsplit, hname, hempty, fun hne => spans_trim hne hsplit hargs hblank, ?_⟩
  · rw [hsplit]
    exact Text.dropBytes?_append head rest
  · rw [hreading, playerLine]
    by_cases hnone : args = []
    · rw [if_pos (hempty.mpr hnone), if_pos hnone, hnone]
      rfl
    · rw [if_neg (mt hempty.mp hnone), if_neg hnone]

/-- Blank characters and letters of several bytes stand around and in the name. -/
theorem readLine_playerName_wide :
    let line := "\u3000SmoothLookAtPlayer\u2003\u2003Zoë \u00a0Ünal\u0085".toList
    let head := "SmoothLookAtPlayer".toList
    let args := ["Zoë".toList, "Ünal".toList]
    let name := "Zoë \u00a0Ünal".toList
    Text.words line = head :: args ∧ String.ofList (Text.lowerAscii head) = lookWord true ∧
      Text.dropBytes? 18 (Text.trim line) = some ('\u2003' :: '\u2003' :: name) ∧
      Spans line head args name ∧
      readLine line = ⟨some (.lookAt (.player (String.ofList name) true)), []⟩ := by
  intro line head args name
  have hwords : Text.words line = head :: args := by decide +kernel
  have hhead : String.ofList (Text.lowerAscii head) = lookWord true := by decide +kernel
  have hcut : Text.dropBytes? (Text.byteLength head) (Text.trim line) =
      some ('\u2003' :: '\u2003' :: name) := by decide +kernel
  obtain ⟨rest, hrest, -, -, -, hspans, hreading⟩ := readLine_playerName hwords hhead
  obtain rfl := Option.some.inj (hrest.symm.trans hcut)
  have hname : Text.trim ('\u2003' :: '\u2003' :: name) = name := by decide +kernel
  have hargs : args ≠ [] := List.cons_ne_nil _ _
  rw [hname, if_neg hargs] at hreading
  rw [hname] at hspans
  exact ⟨hwords, hhead, hcut, hspans hargs, hreading⟩

end Script

end Skycam
