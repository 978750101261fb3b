import Mathlib.Data.List.Induction
import Skycam.Proofs.Roster.Changes
import Skycam.Roster.Record

/-!
# A roster is told by its history

What a roster holds can be read off the changes that led to it, without running them. A change
stands as long as no later one undoes it (`Roster.Stands`): the players are the last ones pushed
under their names, in the order in which the names came in, and the poses are the last ones set
(`Roster.Told`). Each change keeps this true (`Roster.Told.concat`), so it is true of every history
(`Roster.ofChanges_told`).

Removing a player is the one change that touches both players and poses: which anchors it takes
along depends on the player that the history tells at that moment.
-/

namespace Skycam

variable {α : Type}

namespace Roster

/-! ## Changes and histories -/

/-- A change of a roster. -/
inductive Change (α : Type) where
  /-- Pushes a player. -/
  | push (e : Entry)
  /-- Removes the player of a name. -/
  | remove (username : String)
  /-- Sets the pose of an anchor. -/
  | setAnchor (h : Handle) (pose : Pose α)
  /-- Clears the pose of an anchor. -/
  | clearAnchor (h : Handle)
  /-- Clears the roster. -/
  | clear

/-- The roster after a change. -/
def change (r : Roster α) : Change α → Roster α
  | .push e => r.push e
  | .remove username => r.remove username
  | .setAnchor h pose => r.setAnchor h pose
  | .clearAnchor h => r.clearAnchor h
  | .clear => empty

/-- The roster after changes, the first of which was made to the roster without players. -/
def ofChanges (changes : List (Change α)) : Roster α := changes.foldl change empty

/-- The change leaves no player of the name. -/
def Change.Drops (u : String) (c : Change α) : Prop := c = .remove u ∨ c = .clear

/-- The change pushes a player of the name. -/
def Change.Pushes (u : String) (c : Change α) : Prop := ∃ e, c = .push e ∧ e.username = u

/-- The change `c` was made behind the changes `before`, and none of those since then undoes it.
Whether a change undoes it may depend on the changes before that one. -/
inductive Stands (undoes : List (Change α) → Change α → Prop) (before : List (Change α))
    (c : Change α) : List (Change α) → Prop where
  /-- No other change has been made since. -/
  | made : Stands undoes before c (before ++ [c])
  /-- One more change has been made. -/
  | kept (changes : List (Change α)) (d : Change α) (stood : Stands undoes before c changes)
      (notUndone : ¬undoes changes d) : Stands undoes before c (changes ++ [d])

/-- The player was pushed last under the name, which was not dropped since. -/
def Enrolled (changes : List (Change α)) (e : Entry) : Prop :=
  ∃ before, Stands (fun _ c => c.Drops e.username ∨ c.Pushes e.username) before (.push e) changes

/-- No player of the name is enrolled. -/
def Absent (changes : List (Change α)) (u : String) : Prop :=
  ∀ e, Enrolled changes e → e.username ≠ u

/-- The name was absent after the changes `before`; a player of that name was pushed then, and the
name was not dropped since. -/
def CameBehind (changes : List (Change α)) (u : String) (before : List (Change α)) : Prop :=
  Absent before u ∧ ∃ e : Entry, e.username = u ∧
    Stands (fun _ c => c.Drops u) before (.push e) changes

/-- The change sets or clears the pose of the anchor, or removes the player of its live entity. -/
def Change.Overrides (h : Handle) (past : List (Change α)) : Change α → Prop
  | .push _ => False
  | .remove u => ∃ e, Enrolled past e ∧ e.username = u ∧ e.live = some h.live
  | .setAnchor k _ => k = h
  | .clearAnchor k => k = h
  | .clear => True

/-- The pose was set last for the anchor, which was not cleared or removed since. -/
def Posed (changes : List (Change α)) (h : Handle) (pose : Pose α) : Prop :=
  ∃ before, Stands (Change.Overrides h) before (.setAnchor h pose) changes

/-- The names are those that have come in and stayed, in the order in which they came. -/
structure InOrder (changes : List (Change α)) (names : List String) : Prop where
  /-- No name is there twice. -/
  distinct : names.Nodup
  /-- Every name has come in. -/
  came : ∀ u ∈ names, ∃ before, CameBehind changes u before
  /-- Of two names the first one came in earlier. -/
  earlier : names.Pairwise fun u v =>
    ∀ m n, CameBehind changes u m → CameBehind changes v n → m.length < n.length

/-- The roster holds what its history tells. -/
structure Told (changes : List (Change α)) (r : Roster α) : Prop where
  /-- The names stand in the order in which they came in. -/
  names : InOrder changes r.usernames
  /-- The players are those that were pushed last under their names. -/
  players : ∀ e, e ∈ r.entries ↔ Enrolled changes e
  /-- The poses are those that were set last. -/
  poses : ∀ h pose, r.pose? h = some pose ↔ Posed changes h pose

/-! ## One more change -/

variable {undoes : List (Change α) → Change α → Prop} {changes before : List (Change α)}
  {c d : Change α} {e : Entry} {u : String} {h : Handle} {pose : Pose α} {r : Roster α}
  {names : List String}

/-- A change that stands after one more is that one, or stood before and was not undone by it. -/
theorem stands_concat : Stands undoes before c (changes ++ [d]) ↔
    before = changes ∧ c = d ∨ Stands undoes before c changes ∧ ¬undoes changes d := by
  constructor
  · intro hstands
    generalize hall : changes ++ [d] = all at hstands
    cases hstands with
    | made =>
      obtain ⟨rfl, hlast⟩ := List.append_inj' hall rfl
      exact Or.inl ⟨rfl, (List.singleton_inj.mp hlast).symm⟩
    | kept earlier last stood notUndone =>
      obtain ⟨rfl, hlast⟩ := List.append_inj' hall rfl
      obtain rfl := List.singleton_inj.mp hlast
      exact Or.inr ⟨stood, notUndone⟩
  · rintro (⟨rfl, rfl⟩ | ⟨stood, notUndone⟩)
    · exact .made
    · exact .kept changes d stood notUndone

theorem not_stands_nil : ¬Stands undoes before c [] := by
  intro hstands
  generalize hall : ([] : List (Change α)) = all at hstands
  cases hstands with
  | made => simp at hall
  | kept => simp at hall

/-- What stands behind some changes was made after them. -/
theorem Stands.length_lt (hstands : Stands undoes before c changes) :
    before.length < changes.length := by
  induction hstands with
  | made => simp
  | kept _ _ _ _ ih =>
    rw [List.length_append]
    exact Nat.lt_add_right _ ih

/-- What stands is the last change, or stood before and is not undone by it. -/
theorem exists_stands_concat : (∃ before, Stands undoes before c (changes ++ [d])) ↔
    d = c ∨ (∃ before, Stands undoes before c changes) ∧ ¬undoes changes d := by
  simp only [stands_concat]
  constructor
  · rintro ⟨before, ⟨-, rfl⟩ | ⟨stood, notUndone⟩⟩
    · exact Or.inl rfl
    · exact Or.inr ⟨⟨before, stood⟩, notUndone⟩
  · rintro (rfl | ⟨⟨before, stood⟩, notUndone⟩)
    · exact ⟨changes, Or.inl ⟨rfl, rfl⟩⟩
    · exact ⟨before, Or.inr ⟨stood, notUndone⟩⟩

theorem enrolled_concat : Enrolled (changes ++ [c]) e ↔
    c = .push e ∨ Enrolled changes e ∧ ¬c.Drops e.username ∧ ¬c.Pushes e.username := by
  unfold Enrolled
  rw [exists_stands_concat, not_or]

/-- Which poses stand after one more change: the one set by it, and those it does not override. -/
theorem posed_concat : Posed (changes ++ [c]) h pose ↔
    c = .setAnchor h pose ∨ Posed changes h pose ∧ ¬c.Overrides h changes :=
  exists_stands_concat

/-- A name that came in and was not dropped is there. -/
theorem Stands.exists_enrolled
    (hstands : Stands (fun _ c => c.Drops u) before (.push e) changes) (hu : e.username = u) :
    ∃ last, Enrolled changes last ∧ last.username = u := by
  induction hstands with
  | made => exact ⟨e, enrolled_concat.mpr (Or.inl rfl), hu⟩
  | kept changes d _ notDropped ih =>
    by_cases hpushes : d.Pushes u
    · obtain ⟨next, rfl, hnext⟩ := hpushes
      exact ⟨next, enrolled_concat.mpr (Or.inl rfl), hnext⟩
    · obtain ⟨last, hlast, rfl⟩ := ih
      exact ⟨last, enrolled_concat.mpr (Or.inr ⟨hlast, notDropped, hpushes⟩), rfl⟩

/-- A name that came in either does so now, or was there and is not dropped. -/
theorem cameBehind_concat : CameBehind (changes ++ [c]) u before ↔
    (before = changes ∧ Absent changes u ∧ c.Pushes u) ∨
      CameBehind changes u before ∧ ¬c.Drops u := by
  unfold CameBehind
  constructor
  · rintro ⟨habsent, e, hu, hstands⟩
    rcases stands_concat.mp hstands with ⟨rfl, hc⟩ | ⟨stood, notDropped⟩
    · exact Or.inl ⟨rfl, habsent, e, hc.symm, hu⟩
    · exact Or.inr ⟨⟨habsent, e, hu, stood⟩, notDropped⟩
  · rintro (⟨rfl, habsent, e, rfl, hu⟩ | ⟨⟨habsent, e, hu, stood⟩, notDropped⟩)
    · exact ⟨habsent, e, hu, .made⟩
    · exact ⟨habsent, e, hu, .kept changes c stood notDropped⟩

/-- A name that was there and was not dropped came in before the last change. -/
theorem cameBehind_concat_of_not_absent (hthere : ¬Absent changes u) (hkept : ¬c.Drops u) :
    CameBehind (changes ++ [c]) u before ↔ CameBehind changes u before := by
  rw [cameBehind_concat]
  constructor
  · rintro (⟨-, habsent, -⟩ | ⟨hcame, -⟩)
    · exact absurd habsent hthere
    · exact hcame
  · exact fun hcame => Or.inr ⟨hcame, hkept⟩

theorem CameBehind.not_absent (hcame : CameBehind changes u before) : ¬Absent changes u := by
  obtain ⟨-, e, hu, hstands⟩ := hcame
  obtain ⟨last, hlast, hname⟩ := hstands.exists_enrolled hu
  exact fun habsent => habsent last hlast hname

theorem CameBehind.length_lt (hcame : CameBehind changes u before) :
    before.length < changes.length := by
  obtain ⟨-, e, -, hstands⟩ := hcame
  exact hstands.length_lt

/-! ### Names -/

/-- Names that are not dropped stay in order. -/
theorem InOrder.keep (hnames : InOrder changes names) {left : List String}
    (hleft : left.Sublist names) (hkept : ∀ u ∈ left, ¬c.Drops u) :
    InOrder (changes ++ [c]) left := by
  have hsame : ∀ u ∈ left, ∀ before,
      CameBehind (changes ++ [c]) u before ↔ CameBehind changes u before := by
    intro u hu before
    obtain ⟨behind, hcame⟩ := hnames.came u (hleft.subset hu)
    exact cameBehind_concat_of_not_absent hcame.not_absent (hkept u hu)
  refine ⟨hnames.distinct.sublist hleft, fun u hu => ?_, ?_⟩
  · obtain ⟨before, hcame⟩ := hnames.came u (hleft.subset hu)
    exact ⟨before, (hsame u hu before).mpr hcame⟩
  · refine (hnames.earlier.sublist hleft).imp_of_mem fun hu hv hlt m n hm hn => ?_
    exact hlt m n ((hsame _ hu m).mp hm) ((hsame _ hv n).mp hn)

/-- A name that comes in is the last one. -/
theorem InOrder.enter (hnames : InOrder changes names) (habsent : Absent changes e.username) :
    InOrder (changes ++ [.push e]) (names ++ [e.username]) := by
  have hkeeps : ∀ u, ¬(Change.push e : Change α).Drops u := by
    rintro u (hdrop | hdrop) <;> cases hdrop
  have hnew : ∀ before, CameBehind (changes ++ [.push e]) e.username before →
      before = changes := by
    intro before hcame
    rcases cameBehind_concat.mp hcame with ⟨hbefore, -⟩ | ⟨hold, -⟩
    · exact hbefore
    · exact absurd habsent hold.not_absent
  have hnotMem : e.username ∉ names := by
    intro hmem
    obtain ⟨before, hcame⟩ := hnames.came _ hmem
    exact hcame.not_absent habsent
  have hold := hnames.keep (List.Sublist.refl names) fun u _ => hkeeps u
  refine ⟨?_, fun u hu => ?_, ?_⟩
  · exact List.nodup_append.mpr ⟨hnames.distinct, List.nodup_singleton _, by
      rintro u hu v hv rfl
      exact hnotMem (List.mem_singleton.mp hv ▸ hu)⟩
  · rcases List.mem_append.mp hu with hu | hu
    · exact hold.came u hu
    · obtain rfl := List.mem_singleton.mp hu
      exact ⟨changes, cameBehind_concat.mpr (Or.inl ⟨rfl, habsent, e, rfl, rfl⟩)⟩
  · refine List.pairwise_append.mpr ⟨hold.earlier, List.pairwise_singleton _ _, ?_⟩
    intro u hu v hv m n hm hn
    obtain rfl := List.mem_singleton.mp hv
    obtain ⟨before, hcame⟩ := hnames.came u hu
    rw [hnew n hn]
    exact ((cameBehind_concat_of_not_absent hcame.not_absent (hkeeps u)).mp hm).length_lt

/-! ### Each change -/

theorem Told.mem_usernames_iff (told : Told changes r) : u ∈ r.usernames ↔ ¬Absent changes u := by
  unfold Absent
  push Not
  refine List.mem_map.trans (exists_congr fun e => ?_)
  rw [told.players]

theorem Told.entry?_iff (told : Told changes r) :
    r.entry? u = some e ↔ Enrolled changes e ∧ e.username = u := by
  rw [entry?_eq_some_iff told.names.distinct, told.players]

/-- An empty history tells of a roster without players. -/
theorem told_nil : Told [] (empty : Roster α) where
  names := ⟨List.nodup_nil, fun _ hu => absurd hu List.not_mem_nil, .nil⟩
  players e := by
    refine iff_of_false List.not_mem_nil ?_
    rintro ⟨before, hstands⟩
    exact not_stands_nil hstands
  poses h pose := by
    refine iff_of_false (by simp [pose?, empty]) ?_
    rintro ⟨before, hstands⟩
    exact not_stands_nil hstands

/-- A change of an anchor leaves the names and the players alone. -/
theorem Told.anchor (told : Told changes r) {s : Roster α} (hentries : s.entries = r.entries)
    (hdrops : ∀ u, ¬c.Drops u) (hpushes : ∀ u, ¬c.Pushes u)
    (hposes : ∀ h pose, s.pose? h = some pose ↔ Posed (changes ++ [c]) h pose) :
    Told (changes ++ [c]) s where
  names := by
    have hnames : s.usernames = r.usernames := by rw [usernames, hentries, usernames]
    rw [hnames]
    exact told.names.keep (List.Sublist.refl _) fun u _ => hdrops u
  players e := by
    have hkeeps : c ≠ .push e := fun hc => hpushes e.username ⟨e, hc, rfl⟩
    rw [hentries, told.players, enrolled_concat]
    simp [hkeeps, hdrops, hpushes]
  poses := hposes

/-- A pose that is set takes the place of the one before. -/
theorem Told.setAnchor (told : Told changes r) (h : Handle) (pose : Pose α) :
    Told (changes ++ [.setAnchor h pose]) (r.setAnchor h pose) := by
  refine told.anchor (entries_setAnchor pose) (by simp [Change.Drops])
    (by simp [Change.Pushes]) fun k other => ?_
  rw [pose?_setAnchor, posed_concat, ← told.poses]
  by_cases hk : k = h
  · simp [hk, Change.Overrides]
  · simp [hk, Ne.symm hk, Change.Overrides]

theorem Told.clearAnchor (told : Told changes r) (h : Handle) :
    Told (changes ++ [.clearAnchor h]) (r.clearAnchor h) := by
  refine told.anchor entries_clearAnchor (by simp [Change.Drops])
    (by simp [Change.Pushes]) fun k other => ?_
  rw [pose?_clearAnchor, posed_concat, ← told.poses]
  by_cases hk : k = h
  · simp [hk, Change.Overrides]
  · simp [hk, Ne.symm hk, Change.Overrides]

/-- A player who is pushed is enrolled, in the place of its name if that is there. -/
theorem Told.push (told : Told changes r) (e : Entry) :
    Told (changes ++ [.push e]) (r.push e) where
  names := by
    rw [usernames_push]
    split
    · refine told.names.keep (List.Sublist.refl _) fun u _ => ?_
      simp [Change.Drops]
    · next hnotMem =>
      rw [told.mem_usernames_iff, not_not] at hnotMem
      exact told.names.enter hnotMem
  players x := by
    rw [mem_entries_push, told.players, enrolled_concat]
    simp [Change.Drops, Change.Pushes, eq_comm]
  poses h pose := by
    rw [pose?_push, posed_concat, told.poses]
    simp [Change.Overrides]

/-- A name that is removed is absent, and the poses of its live entity are gone. -/
theorem Told.remove (told : Told changes r) (u : String) :
    Told (changes ++ [.remove u]) (r.remove u) where
  names := by
    rw [usernames_remove]
    refine told.names.keep List.filter_sublist fun v hv => ?_
    have hne : v ≠ u := of_decide_eq_true (List.mem_filter.mp hv).2
    simp [Change.Drops, Ne.symm hne]
  players e := by
    rw [mem_entries_remove, told.players, enrolled_concat]
    simp [Change.Drops, Change.Pushes, eq_comm]
  poses h pose := by
    have htaken : (∃ e ∈ r.entry? u, e.live = some h.live) ↔
        Change.Overrides h changes (.remove u) := by
      simp only [Option.mem_def, told.entry?_iff, and_assoc, Change.Overrides]
    have hnotSet : (.remove u : Change α) ≠ .setAnchor h pose := nofun
    rw [pose?_remove, posed_concat, or_iff_right hnotSet, ← told.poses, ← htaken]
    split
    · next htakes => exact iff_of_false nofun fun hold => hold.2 htakes
    · next hleaves => exact (and_iff_left hleaves).symm

/-- After clearing nothing stands. -/
theorem Told.clear (told : Told changes r) : Told (changes ++ [.clear]) empty where
  names := told.names.keep (List.nil_sublist _) fun _ hu => absurd hu List.not_mem_nil
  players e := by
    rw [enrolled_concat]
    simp [Change.Drops, empty]
  poses h pose := by
    rw [posed_concat]
    simp [Change.Overrides, pose?, empty]

/-- Every change keeps a roster to what its history tells. -/
theorem Told.concat (told : Told changes r) (c : Change α) :
    Told (changes ++ [c]) (r.change c) := by
  cases c with
  | push e => exact told.push e
  | remove u => exact told.remove u
  | setAnchor h pose => exact told.setAnchor h pose
  | clearAnchor h => exact told.clearAnchor h
  | clear => exact told.clear

theorem ofChanges_told (changes : List (Change α)) : Told changes (ofChanges changes) := by
  induction changes using List.reverseRecOn with
  | nil => exact told_nil
  | append_singleton changes c ih =>
    rw [ofChanges, List.foldl_concat]
    exact ih.concat c

/-- A player who is pushed again stays in place, one who was removed before goes to the end. -/
example : (ofChanges (α := Float32)
    [.push ⟨"Ann", false, none⟩, .push ⟨"Bob", false, none⟩, .push ⟨"Ann", true, none⟩,
      .remove "Bob", .push ⟨"Cid", false, none⟩, .push ⟨"Bob", false, none⟩]).usernames =
    ["Ann", "Cid", "Bob"] := by decide +kernel

end Roster

end Skycam
