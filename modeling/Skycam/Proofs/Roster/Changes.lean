import Mathlib.Data.List.Basic
import Mathlib.Data.List.Nodup
import Skycam.Roster.Basic

/-!
# What a change does to a roster

Players and poses are kept apart: pushing a player leaves every pose alone, an anchor that is set or
cleared leaves the players alone, and only a player that is removed takes poses along. Each change
is described here by the names that are left in their order, by the players, and by the pose of
every anchor.
-/

namespace Skycam.Roster

variable {α : Type} {r : Roster α} {e x : Entry} {u : String} {h k : Handle}

/-! ## Looking up -/

theorem entry?_eq_none_iff : r.entry? u = none ↔ u ∉ r.usernames := by
  simp [usernames, entry?, List.find?_eq_none]

theorem mem_of_entry?_eq_some (hfound : r.entry? u = some e) : e ∈ r.entries ∧ e.username = u := by
  have hname := List.find?_some hfound
  exact ⟨List.mem_of_find?_eq_some hfound, by simpa using hname⟩

/-- If no name is there twice, every player is found under its name. -/
theorem entry?_eq_some_iff (hn : r.usernames.Nodup) :
    r.entry? u = some e ↔ e ∈ r.entries ∧ e.username = u := by
  refine ⟨mem_of_entry?_eq_some, ?_⟩
  rintro ⟨he, rfl⟩
  cases hfound : r.entry? e.username with
  | none => exact absurd (List.mem_map_of_mem he) (entry?_eq_none_iff.mp hfound)
  | some other =>
    obtain ⟨hmem, hname⟩ := mem_of_entry?_eq_some hfound
    rw [List.inj_on_of_nodup_map hn hmem he hname]

/-- The players are those that are found under the names. -/
theorem filterMap_entry?_usernames (hn : r.usernames.Nodup) :
    r.usernames.filterMap r.entry? = r.entries := by
  have hfound : ∀ e ∈ r.entries, r.entry? e.username = some e :=
    fun e he => (entry?_eq_some_iff hn).mpr ⟨he, rfl⟩
  unfold usernames
  rw [List.filterMap_map]
  exact (List.filterMap_congr hfound).trans List.filterMap_some

/-- Anchors that are taken away by their handles have no pose, and the others keep theirs. -/
theorem lookup_filter {β : Type} (p : Handle → Bool) (anchors : List (Handle × β)) :
    (anchors.filter fun a => p a.1).lookup k = if p k then anchors.lookup k else none := by
  induction anchors with
  | nil => simp
  | cons a rest ih =>
    obtain ⟨other, value⟩ := a
    by_cases hsame : k = other
    · subst hsame
      cases hp : p k <;> simp [hp, ih]
    · have hne : (k == other) = false := by simpa using hsame
      cases hp : p other <;> simp [hp, ih, List.lookup_cons, hne]

/-! ## Pushing a player -/

/-- A player whose name is there takes the place of the one who has it. -/
theorem push_of_mem (hmem : e.username ∈ r.usernames) :
    r.push e =
      { r with entries := r.entries.map fun x => if x.username = e.username then e else x } := by
  have hany : r.entries.any (·.username == e.username) = true := by
    simpa [usernames] using hmem
  rw [push, if_pos hany]

/-- A player whose name is not there comes last. -/
theorem push_of_notMem (hmem : e.username ∉ r.usernames) :
    r.push e = { r with entries := r.entries ++ [e] } := by
  have hany : ¬r.entries.any (·.username == e.username) = true := by
    simpa [usernames] using hmem
  rw [push, if_neg hany]

/-- A new name goes to the end; a name that is there stays where it is. -/
theorem usernames_push : (r.push e).usernames =
    if e.username ∈ r.usernames then r.usernames else r.usernames ++ [e.username] := by
  split
  · next hmem =>
    rw [push_of_mem hmem]
    unfold usernames
    rw [List.map_map]
    refine List.map_congr_left fun x _ => ?_
    dsimp only [Function.comp]
    split
    · next hname => exact hname.symm
    · rfl
  · next hmem =>
    rw [push_of_notMem hmem]
    exact List.map_append

/-- A player who is pushed is there, and so are those of other names. -/
theorem mem_entries_push :
    x ∈ (r.push e).entries ↔ x = e ∨ x ∈ r.entries ∧ x.username ≠ e.username := by
  by_cases hmem : e.username ∈ r.usernames
  · rw [push_of_mem hmem]
    constructor
    · intro hx
      obtain ⟨y, hy, rfl⟩ := List.mem_map.mp hx
      split
      · exact Or.inl rfl
      · next hname => exact Or.inr ⟨hy, hname⟩
    · rintro (rfl | ⟨hx, hname⟩)
      · obtain ⟨y, hy, hname⟩ := List.mem_map.mp hmem
        exact List.mem_map.mpr ⟨y, hy, if_pos hname⟩
      · exact List.mem_map.mpr ⟨x, hx, if_neg hname⟩
  · have hother : x ∈ r.entries → x.username ≠ e.username :=
      fun hx hname => hmem (hname ▸ List.mem_map_of_mem hx)
    rw [push_of_notMem hmem, List.mem_append, List.mem_singleton, or_comm]
    exact or_congr_right ⟨fun hx => ⟨hx, hother hx⟩, And.left⟩

/-- A player who is pushed is found under its name. -/
theorem entry?_push : entry? (r.push e) u =
    if u = e.username then some e else r.entry? u := by
  by_cases hmem : e.username ∈ r.usernames
  · have hsame : ((fun x : Entry => x.username == u) ∘
        fun x => if x.username = e.username then e else x) = fun x => x.username == u := by
      funext x
      dsimp only [Function.comp]
      split
      · next hname => rw [hname]
      · rfl
    rw [push_of_mem hmem, entry?, List.find?_map, hsame, entry?]
    cases hfound : r.entries.find? (·.username == u) with
    | none =>
      have hne : u ≠ e.username := fun hu => entry?_eq_none_iff.mp hfound (hu ▸ hmem)
      simp [hne]
    | some x =>
      obtain ⟨-, hname⟩ := mem_of_entry?_eq_some hfound
      simp only [Option.map_some, hname]
      split <;> rfl
  · rw [push_of_notMem hmem, entry?, List.find?_append, entry?]
    by_cases hu : u = e.username
    · have hnone : r.entries.find? (·.username == u) = none :=
        entry?_eq_none_iff.mpr (hu ▸ hmem)
      rw [hnone]
      simp [hu]
    · simp [hu, Ne.symm hu]

theorem anchors_push : (r.push e).anchors = r.anchors := by
  by_cases hmem : e.username ∈ r.usernames
  · rw [push_of_mem hmem]
  · rw [push_of_notMem hmem]

theorem pose?_push : (r.push e).pose? h = r.pose? h := by rw [pose?, anchors_push, pose?]

/-! ## Setting and clearing an anchor -/

theorem pose?_clearAnchor : (r.clearAnchor h).pose? k = if k = h then none else r.pose? k := by
  have hfilter := lookup_filter (k := k) (fun other => decide (other ≠ h)) r.anchors
  rw [pose?, clearAnchor, hfilter]
  by_cases hsame : k = h
  · simp [hsame]
  · simp [hsame, pose?]

/-- An anchor that is set has the pose it is given. -/
theorem pose?_setAnchor (pose : Pose α) :
    (r.setAnchor h pose).pose? k = if k = h then some pose else r.pose? k := by
  by_cases hsame : k = h
  · simp [setAnchor, pose?, hsame]
  · have hne : (k == h) = false := by simpa using hsame
    have hclear := pose?_clearAnchor (r := r) (h := h) (k := k)
    rw [if_neg hsame] at hclear ⊢
    rw [← hclear, pose?, setAnchor, List.lookup_cons, hne]
    rfl

theorem entries_setAnchor (pose : Pose α) : (r.setAnchor h pose).entries = r.entries := rfl

theorem entries_clearAnchor : (r.clearAnchor h).entries = r.entries := rfl

/-! ## Removing a player -/

theorem remove_of_notMem (hmem : u ∉ r.usernames) : r.remove u = r := by
  rw [remove, entry?_eq_none_iff.mpr hmem]

/-- Removing a name takes its players away and leaves the others in their order. -/
theorem entries_remove : (r.remove u).entries = r.entries.filter (·.username ≠ u) := by
  unfold remove
  split
  · next hnone =>
    have hmem : u ∉ r.usernames := entry?_eq_none_iff.mp hnone
    refine (List.filter_eq_self.mpr fun x hx => ?_).symm
    exact decide_eq_true fun hname : x.username = u => hmem (hname ▸ List.mem_map_of_mem hx)
  · rfl

theorem mem_entries_remove : x ∈ (r.remove u).entries ↔ x ∈ r.entries ∧ x.username ≠ u := by
  rw [entries_remove, List.mem_filter, decide_eq_true_iff]

theorem usernames_remove : (r.remove u).usernames = r.usernames.filter (· ≠ u) := by
  rw [usernames, entries_remove, usernames, List.filter_map]
  rfl

/-- The poses of the live entity of a player that is removed go with the player. -/
theorem pose?_remove : (r.remove u).pose? h =
    if ∃ e ∈ r.entry? u, e.live = some h.live then none else r.pose? h := by
  cases hfound : r.entry? u with
  | none => simp [remove, hfound]
  | some e =>
    have hfilter := lookup_filter (k := h) (fun other => decide (some other.live ≠ e.live))
      r.anchors
    rw [remove, hfound, pose?, hfilter]
    by_cases hlive : e.live = some h.live
    · simp [hlive]
    · have hne : some h.live ≠ e.live := Ne.symm hlive
      simp [hlive, hne, pose?]

/-- A player that is removed goes alone. -/
theorem entries_remove_of_split (hn : r.usernames.Nodup) {front back : List Entry}
    (hsplit : r.entries = front ++ e :: back) :
    (r.remove e.username).entries = front ++ back := by
  rw [usernames, hsplit, List.map_append, List.map_cons, List.nodup_middle, List.nodup_cons] at hn
  have hothers : ∀ x ∈ front ++ back, decide (x.username ≠ e.username) = true := by
    intro x hx
    refine decide_eq_true fun hname => hn.1 ?_
    rw [← List.map_append, ← hname]
    exact List.mem_map_of_mem hx
  rw [entries_remove, hsplit, List.filter_append, List.filter_cons_of_neg (by simp),
    ← List.filter_append, List.filter_eq_self.mpr hothers]

/-- A player who is removed takes along the poses of its live entity. -/
theorem pose?_remove_of_mem (hn : r.usernames.Nodup) (he : e ∈ r.entries) :
    (r.remove e.username).pose? h = if e.live = some h.live then none else r.pose? h := by
  rw [pose?_remove, (entry?_eq_some_iff hn).mpr ⟨he, rfl⟩]
  simp

end Skycam.Roster
