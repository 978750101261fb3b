import Mathlib.Data.List.DropRight
import Skycam.Text.Blank

/-!
# Cutting texts into words and lines

Whatever is cut falls apart at each separator (`pieces_append_cons`), and all that is known about
words and lines follows from this: the blank characters around a text do not matter for its words,
and lines that are written one below the other are read again, up to a carriage return at their
ends.
-/

namespace Skycam.Text

variable {isSeparator : Char → Bool} {c : Char}

/-- A text falls apart at each separator. -/
theorem pieces_append_cons (hc : isSeparator c = true) (before after : List Char) :
    pieces isSeparator (before ++ c :: after) =
      pieces isSeparator before ++ pieces isSeparator after := by
  induction before with
  | nil => simp [pieces, hc]
  | cons b before ih =>
    rw [List.cons_append, pieces, pieces, ih]
    split
    · rfl
    · cases hfirst : pieces isSeparator before with
      | nil => exact absurd hfirst (pieces_ne_nil _ _)
      | cons piece more => rfl

/-- A text without separators is one piece. -/
theorem pieces_eq_singleton {cs : List Char} (h : ∀ c ∈ cs, isSeparator c = false) :
    pieces isSeparator cs = [cs] := by
  induction cs with
  | nil => rfl
  | cons c rest ih =>
    have hrest := ih fun d hd => h d (List.mem_cons_of_mem _ hd)
    rw [pieces, h c List.mem_cons_self, hrest]
    rfl

/-- Without its separator a text stays whole. -/
theorem pieces_of_not_mem {cs : List Char} (h : c ∉ cs) : pieces (· == c) cs = [cs] :=
  pieces_eq_singleton fun d hd => by
    simpa using fun heq : d = c => h (heq ▸ hd)

/-- There is one piece more than there are separators. -/
theorem length_pieces (cs : List Char) :
    (pieces isSeparator cs).length = cs.countP isSeparator + 1 := by
  induction cs with
  | nil => rfl
  | cons c rest ih =>
    rw [pieces]
    cases hc : isSeparator c with
    | true => simp [hc, ih]
    | false =>
      rw [if_neg Bool.false_ne_true, List.countP_cons_of_neg (by simp [hc]), ← ih]
      cases hrest : pieces isSeparator rest with
      | nil => exact absurd hrest (pieces_ne_nil _ _)
      | cons piece more => rfl

/-- A text that was put together with separators falls apart into the pieces of its parts. -/
theorem pieces_intercalate (hc : isSeparator c = true) {parts : List (List Char)}
    (hne : parts ≠ []) :
    pieces isSeparator ([c].intercalate parts) = parts.flatMap (pieces isSeparator) := by
  induction parts with
  | nil => exact absurd rfl hne
  | cons part rest ih =>
    cases rest with
    | nil => simp
    | cons next more =>
      rw [List.intercalate_cons_cons, List.append_assoc, List.singleton_append,
        pieces_append_cons hc, ih (List.cons_ne_nil _ _)]
      exact List.flatMap_cons.symm

/-- No piece has a separator in it. -/
theorem eq_false_of_mem_pieces {cs piece : List Char} (h : piece ∈ pieces isSeparator cs) :
    ∀ c ∈ piece, isSeparator c = false := by
  induction cs generalizing piece with
  | nil =>
    rw [List.mem_singleton.mp h]
    exact fun _ hc => absurd hc List.not_mem_nil
  | cons d rest ih =>
    rw [pieces] at h
    cases hd : isSeparator d with
    | true =>
      rw [if_pos hd] at h
      rcases List.mem_cons.mp h with rfl | hlater
      · exact fun _ hc => absurd hc List.not_mem_nil
      · exact ih hlater
    | false =>
      rw [if_neg (by simp [hd])] at h
      cases hrest : pieces isSeparator rest with
      | nil => exact absurd hrest (pieces_ne_nil _ _)
      | cons first more =>
        rw [hrest] at h ih
        rcases List.mem_cons.mp h with rfl | hlater
        · intro c hc
          rcases List.mem_cons.mp hc with rfl | hc
          · exact hd
          · exact ih List.mem_cons_self c hc
        · exact ih (List.mem_cons_of_mem _ hlater)

/-! ## Words -/

theorem words_append_cons (hc : isBlank c = true) (before after : List Char) :
    words (before ++ c :: after) = words before ++ words after := by
  rw [words, pieces_append_cons hc, List.filter_append]
  rfl

theorem words_eq_nil {cs : List Char} (h : ∀ c ∈ cs, isBlank c = true) : words cs = [] := by
  induction cs with
  | nil => rfl
  | cons c rest ih =>
    have hrest := ih fun d hd => h d (List.mem_cons_of_mem _ hd)
    exact (words_append_cons (h c List.mem_cons_self) [] rest).trans hrest

theorem words_trimStart (cs : List Char) : words (trimStart cs) = words cs := by
  induction cs with
  | nil => rfl
  | cons c rest ih =>
    unfold trimStart at ih ⊢
    rw [List.dropWhile_cons]
    split
    · next hc => exact ih.trans (words_append_cons hc [] rest).symm
    · rfl

theorem words_trimEnd (cs : List Char) : words (trimEnd cs) = words cs := by
  -- the characters at the end come first in the reversed text
  obtain ⟨back, rfl⟩ : ∃ back, cs = back.reverse := ⟨cs.reverse, cs.reverse_reverse.symm⟩
  unfold trimEnd
  rw [List.reverse_reverse]
  induction back with
  | nil => rfl
  | cons c rest ih =>
    rw [List.dropWhile_cons]
    split
    · next hc =>
      have hwords := words_append_cons hc rest.reverse []
      rw [List.reverse_cons, hwords, ih]
      exact (List.append_nil _).symm
    · rfl

theorem words_trim (cs : List Char) : words (trim cs) = words cs :=
  (words_trimEnd _).trans (words_trimStart cs)

/-- Nothing is trimmed of a text whose first and last characters are not blank. -/
theorem trim_eq_self {cs : List Char} (hfirst : ∀ c ∈ cs.head?, isBlank c = false)
    (hlast : ∀ c ∈ cs.getLast?, isBlank c = false) : trim cs = cs := by
  have hstart : trimStart cs = cs := by
    cases cs with
    | nil => rfl
    | cons c rest =>
      have hc : isBlank c = false := hfirst c rfl
      simp [trimStart, hc]
  have hend : trimEnd cs = cs := by
    unfold trimEnd
    rw [← List.head?_reverse] at hlast
    cases hback : cs.reverse with
    | nil => simpa using hback.symm
    | cons c rest =>
      have hc : isBlank c = false := hlast c (by simp [hback])
      rw [List.dropWhile_cons_of_neg (by simp [hc]), ← hback, List.reverse_reverse]
  rw [trim, hstart, hend]

/-- A trimmed text does not begin with a blank character. -/
theorem isBlank_of_trim_eq_cons {cs rest : List Char} {c : Char} (h : trim cs = c :: rest) :
    isBlank c = false := by
  have hprefix : trim cs <+: cs.dropWhile isBlank := List.rdropWhile_prefix isBlank _
  obtain ⟨more, hmore⟩ := hprefix
  rw [h, List.cons_append] at hmore
  have hne : cs.dropWhile isBlank ≠ [] := by simp [← hmore]
  have hhead := List.head_dropWhile_not isBlank hne
  simpa [← hmore] using hhead

theorem mem_of_mem_trim {cs : List Char} (h : c ∈ trim cs) : c ∈ cs := by
  have hstart : c ∈ trimStart cs := (List.rdropWhile_prefix isBlank _).subset h
  exact (List.dropWhile_suffix isBlank).subset hstart

/-- A trimmed text has nothing left to be trimmed. -/
theorem trim_trim (cs : List Char) : trim (trim cs) = trim cs := by
  refine trim_eq_self (fun c hfirst => ?_) (fun c hlast => ?_)
  · obtain ⟨rest, hcons⟩ := List.head?_eq_some_iff.mp hfirst
    exact isBlank_of_trim_eq_cons hcons
  · obtain ⟨hne, hback⟩ := List.mem_getLast?_eq_getLast hlast
    rw [hback]
    exact Bool.eq_false_iff.mpr (List.rdropWhile_last_not isBlank (trimStart cs) hne)

theorem trim_eq_self_of_forall {cs : List Char} (h : ∀ c ∈ cs, isBlank c = false) :
    trim cs = cs :=
  trim_eq_self (fun c hc => h c (List.mem_of_mem_head? hc))
    fun c hc => h c (List.mem_of_getLast? hc)

/-- Nothing is trimmed of a text that begins and ends with characters that are not blank. -/
theorem trim_eq_self_of_ends {front middle back : List Char} (hfront : front ≠ [])
    (hback : back ≠ []) (hfirst : ∀ c ∈ front, isBlank c = false)
    (hlast : ∀ c ∈ back, isBlank c = false) :
    trim (front ++ middle ++ back) = front ++ middle ++ back := by
  apply trim_eq_self
  · intro c hc
    rw [List.append_assoc, List.head?_append_of_ne_nil _ hfront] at hc
    exact hfirst c (List.mem_of_mem_head? hc)
  · intro c hc
    rw [List.getLast?_append_of_ne_nil _ hback] at hc
    exact hlast c (List.mem_of_getLast? hc)

/-- A blank at the end of a text is trimmed away. -/
theorem trim_concat (hc : isBlank c = true) (cs : List Char) : trim (cs ++ [c]) = trim cs := by
  have hend : ∀ front : List Char, trimEnd (front ++ [c]) = trimEnd front := by
    intro front
    simp [trimEnd, hc]
  unfold trim trimStart
  rw [List.dropWhile_append]
  split
  · next hall =>
    have hnil : cs.dropWhile isBlank = [] := by simpa using hall
    simp [hnil, hc]
  · exact hend _

theorem trim_dropReturn (line : List Char) : trim (dropReturn line) = trim line := by
  unfold dropReturn
  split
  · next hlast =>
    obtain ⟨front, rfl⟩ := List.getLast?_eq_some_iff.mp hlast
    rw [List.dropLast_concat]
    exact (trim_concat (by decide) front).symm
  · rfl

section

/-! ## The words at the ends of a text -/

variable {cs word last rest : List Char}

/-- Only blank characters are trimmed off. -/
theorem exists_trim (cs : List Char) : ∃ before after,
    cs = before ++ trim cs ++ after ∧ ∀ c ∈ before ++ after, isBlank c = true := by
  refine ⟨cs.takeWhile isBlank, (trimStart cs).rtakeWhile isBlank, ?_, fun c hc => ?_⟩
  · have hend : trim cs ++ (trimStart cs).rtakeWhile isBlank = trimStart cs :=
      List.rdropWhile_append_rtakeWhile
    rw [List.append_assoc, hend]
    exact List.takeWhile_append_dropWhile.symm
  · rcases List.mem_append.mp hc with hbefore | hafter
    · exact List.all_eq_true.mp List.all_takeWhile c hbefore
    · exact List.mem_rtakeWhile_imp hafter

theorem words_eq_singleton (hword : ∀ c ∈ word, isBlank c = false) (hne : word ≠ []) :
    words word = [word] := by
  rw [words, pieces_eq_singleton hword]
  simpa using hne

/-- A word at the start of a text is its first one. -/
theorem words_append_of_blank (hword : ∀ c ∈ word, isBlank c = false) (hne : word ≠ [])
    (hrest : ∀ c ∈ rest.head?, isBlank c = true) : words (word ++ rest) = word :: words rest := by
  cases rest with
  | nil => rw [List.append_nil, words_eq_singleton hword hne, words_eq_nil (by simp)]
  | cons c rest =>
    have hc : isBlank c = true := hrest c rfl
    have hcut : words (c :: rest) = words rest := words_append_cons hc [] rest
    rw [words_append_cons hc, words_eq_singleton hword hne, hcut]
    rfl

/-- Behind the first word of a text a blank character is next. -/
theorem isBlank_of_head?_behind (cs : List Char) :
    ∀ c ∈ (cs.dropWhile fun c => !isBlank c).head?, isBlank c = true := by
  intro c hc
  have hnot := List.head?_dropWhile_not (fun c => !isBlank c) cs
  rw [hc] at hnot
  simpa using hnot

/-- A text that does not begin with a blank character is its first word and what is behind it. -/
theorem words_of_head_not_blank (hc : isBlank c = false) :
    words (c :: rest) = (c :: rest).takeWhile (fun c => !isBlank c) ::
      words ((c :: rest).dropWhile fun c => !isBlank c) := by
  have hsplit := List.takeWhile_append_dropWhile (p := fun c => !isBlank c) (l := c :: rest)
  have hword : ∀ d ∈ (c :: rest).takeWhile (fun c => !isBlank c), isBlank d = false := by
    intro d hd
    simpa using List.all_eq_true.mp List.all_takeWhile d hd
  have hwords := words_append_of_blank hword (by simp [hc]) (isBlank_of_head?_behind (c :: rest))
  rwa [hsplit] at hwords

/-- A trimmed text begins with its first word. -/
theorem head_of_words_trim {first : List Char} {more : List (List Char)}
    (h : words (trim cs) = first :: more) :
    first = (trim cs).takeWhile fun c => !isBlank c := by
  cases htrim : trim cs with
  | nil =>
    rw [htrim] at h
    cases h
  | cons c rest =>
    rw [htrim, words_of_head_not_blank (isBlank_of_trim_eq_cons htrim)] at h
    exact (List.cons.inj h).1.symm

theorem words_trim_eq_nil_iff : words (trim cs) = [] ↔ trim cs = [] := by
  cases htrim : trim cs with
  | nil => exact iff_of_true (words_eq_nil (by simp)) rfl
  | cons c rest =>
    rw [words_of_head_not_blank (isBlank_of_trim_eq_cons htrim)]
    exact iff_of_false (List.cons_ne_nil _ _) (List.cons_ne_nil _ _)

/-- A trimmed text ends with its last word. -/
theorem suffix_of_getLast?_words_trim (hlast : (words (trim cs)).getLast? = some last) :
    last <:+ trim cs := by
  let front := (trim cs).rdropWhile fun c => !isBlank c
  let back := (trim cs).rtakeWhile fun c => !isBlank c
  have hsplit : front ++ back = trim cs := List.rdropWhile_append_rtakeWhile
  have hback : ∀ c ∈ back, isBlank c = false := fun c hc => by
    simpa using List.mem_rtakeWhile_imp hc
  have hne : back ≠ [] := by
    intro hnil
    have hwhole : trim cs ≠ [] := by
      rintro hempty
      simp [hempty, words, pieces] at hlast
    have hend := List.rtakeWhile_eq_nil_iff.mp hnil hwhole
    have hblank : ¬isBlank ((trim cs).getLast hwhole) = true :=
      List.rdropWhile_last_not isBlank (trimStart cs) hwhole
    exact hblank (by simpa using hend)
  have hends : (words (trim cs)).getLast? = some back := by
    rw [← hsplit]
    cases hfront : front.getLast? with
    | none =>
      rw [List.getLast?_eq_none_iff.mp hfront, List.nil_append, words_eq_singleton hback hne]
      rfl
    | some c =>
      obtain ⟨hfrontNe, hc⟩ := List.mem_getLast?_eq_getLast hfront
      have hblank : isBlank c = true := by
        rw [hc]
        simpa using List.rdropWhile_last_not (fun c => !isBlank c) (trim cs) hfrontNe
      obtain ⟨start, hstart⟩ := List.getLast?_eq_some_iff.mp hfront
      rw [hstart, List.append_assoc, List.singleton_append, words_append_cons hblank,
        words_eq_singleton hback hne, List.getLast?_concat]
  rw [hends] at hlast
  obtain rfl := Option.some.inj hlast
  exact List.rtakeWhile_suffix _ _

end

/-! ## Lines -/

/-- Lines written one below the other, each of them with a line feed at its end. -/
def unlines (ls : List (List Char)) : List Char := ls.flatMap (· ++ ['\n'])

/-- No line has a line feed in it. -/
theorem lineFeed_not_mem_of_mem_lines {cs line : List Char} (h : line ∈ lines cs) :
    '\n' ∉ line := by
  have hpieces : ∀ piece ∈ pieces (· == '\n') cs, '\n' ∉ piece := by
    intro piece hpiece hmem
    simpa using eq_false_of_mem_pieces hpiece _ hmem
  rcases List.mem_append.mp h with hended | hlast
  · obtain ⟨piece, hpiece, rfl⟩ := List.mem_map.mp hended
    have hpiece := hpieces piece (List.dropLast_subset _ hpiece)
    unfold dropReturn
    split
    · exact fun hmem => hpiece (List.dropLast_subset _ hmem)
    · exact hpiece
  · cases hend : (pieces (· == '\n') cs).getLast? with
    | none => exact absurd (List.getLast?_eq_none_iff.mp hend) (pieces_ne_nil _ _)
    | some last =>
      rw [hend, Option.getD_some] at hlast
      have hline : line = last := by
        split at hlast
        · cases hlast
        · exact List.mem_singleton.mp hlast
      rw [hline]
      exact hpieces last (List.mem_of_getLast? hend)

/-- Lines that are written one below the other are read again, but for carriage returns at their
ends. -/
theorem lines_unlines {ls : List (List Char)} (h : ∀ line ∈ ls, '\n' ∉ line) :
    lines (unlines ls) = ls.map dropReturn := by
  have hpieces : pieces (· == '\n') (unlines ls) = ls ++ [[]] := by
    induction ls with
    | nil => rfl
    | cons line rest ih =>
      have hline : pieces (· == '\n') line = [line] :=
        pieces_of_not_mem (h line List.mem_cons_self)
      have hrest := ih fun other hother => h other (List.mem_cons_of_mem _ hother)
      have hcut : pieces (· == '\n') (line ++ '\n' :: unlines rest) = _ :=
        pieces_append_cons rfl line (unlines rest)
      rw [hline, hrest] at hcut
      simpa [unlines] using hcut
  simp [lines, hpieces]

end Skycam.Text
