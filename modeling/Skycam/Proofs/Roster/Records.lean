import Skycam.Proofs.Roster.History

/-!
# Rosters that are made from records

Records are entered one after the other into a roster without players: first the anchors of a
record, if it has a live entity, then its player. So the players are listed by the first record of
their name and are as the last one has them, and the pose of an anchor is the last one of its kind
among all records of its live entity, those included that a later record of the same name replaces
(`Roster.Records`). In a history, making a roster from records is clearing it and then setting and
pushing what they hold (`Edit.changes`), so its history tells any roster (`Roster.ofEdits_told`).
-/

namespace Skycam

namespace RosterRecord

/-- The player of a record. -/
def player (record : RosterRecord) : Entry := ⟨record.username, record.isLocal, record.live⟩

/-- The changes by which a record is entered. -/
def changes (record : RosterRecord) : List (Roster.Change Float32) :=
  (match record.live with
    | some live => record.anchors.map fun a => .setAnchor ⟨live, a.kind⟩ a.pose
    | none => []) ++ [.push record.player]

end RosterRecord

namespace Roster

open RosterRecord (player)

/-- The last record of a name. -/
def lastNamed? (rs : List RosterRecord) (u : String) : Option RosterRecord :=
  (rs.filter (·.username = u)).getLast?

/-- The last anchor of a kind among the records of a live entity. -/
def lastAnchor? (rs : List RosterRecord) (live : LiveId) (kind : Anchor) : Option AnchorRecord :=
  (((rs.filter (·.live = some live)).flatMap (·.anchors)).filter (·.kind = kind)).getLast?

/-- The roster is the one that the records describe. -/
structure Records (rs : List RosterRecord) (r : Roster Float32) : Prop where
  /-- Each name stands once, where it occurs first. -/
  names : r.usernames = (rs.map (·.username)).eraseDups
  /-- Each player is as the last record of the name has it. -/
  players : r.entries = r.usernames.filterMap fun u => (lastNamed? rs u).map player
  /-- The pose of an anchor is the last one of its kind and its live entity. -/
  poses : ∀ live kind, r.pose? ⟨live, kind⟩ = (lastAnchor? rs live kind).map AnchorRecord.pose

/-! ## Entering a record -/

variable {r : Roster Float32} {rs : List RosterRecord} {record : RosterRecord} {u : String}
  {live : LiveId} {kind : Anchor}

/-- The roster with the anchors of a live entity. -/
def withAnchors (r : Roster Float32) (live : LiveId) (anchors : List AnchorRecord) :
    Roster Float32 :=
  anchors.foldl (fun r a => r.setAnchor ⟨live, a.kind⟩ a.pose) r

/-- The roster with the anchors of a record. -/
def anchored (r : Roster Float32) (record : RosterRecord) : Roster Float32 :=
  match record.live with
  | some live => r.withAnchors live record.anchors
  | none => r

theorem enter_eq : r.enter record = (r.anchored record).push record.player := rfl

theorem withAnchors_concat (anchors : List AnchorRecord) (a : AnchorRecord) :
    r.withAnchors live (anchors ++ [a]) =
      (r.withAnchors live anchors).setAnchor ⟨live, a.kind⟩ a.pose := List.foldl_concat _ _ _ _

/-- The anchors of a record leave the players alone. -/
theorem entries_anchored : (r.anchored record).entries = r.entries := by
  unfold anchored
  split
  · next live _ =>
    induction record.anchors using List.reverseRecOn with
    | nil => rfl
    | append_singleton anchors a ih => rwa [withAnchors_concat, entries_setAnchor]
  · rfl

/-- Of the anchors of one kind the last one counts, and without any the pose stays. -/
theorem pose?_withAnchors (anchors : List AnchorRecord) :
    (r.withAnchors live anchors).pose? ⟨live, kind⟩ =
      ((anchors.filter (·.kind = kind)).getLast?.map AnchorRecord.pose).or
        (r.pose? ⟨live, kind⟩) := by
  induction anchors using List.reverseRecOn with
  | nil => rfl
  | append_singleton anchors a ih =>
    rw [withAnchors_concat, pose?_setAnchor, ih, List.filter_append]
    by_cases hkind : a.kind = kind
    · simp [hkind]
    · simp [hkind, Ne.symm hkind]

/-- The anchors of another live entity stay as they are. -/
theorem pose?_withAnchors_of_ne {other : LiveId} (hne : other ≠ live)
    (anchors : List AnchorRecord) :
    (r.withAnchors live anchors).pose? ⟨other, kind⟩ = r.pose? ⟨other, kind⟩ := by
  induction anchors using List.reverseRecOn with
  | nil => rfl
  | append_singleton anchors a ih =>
    rw [withAnchors_concat, pose?_setAnchor, ih, if_neg]
    exact fun hsame => hne (congrArg Handle.live hsame)

/-- The anchors of the last record come before those of the records in front of it. -/
theorem lastAnchor?_concat : lastAnchor? (rs ++ [record]) live kind =
    if record.live = some live then
      (record.anchors.filter (·.kind = kind)).getLast?.or (lastAnchor? rs live kind)
    else lastAnchor? rs live kind := by
  unfold lastAnchor?
  by_cases hlive : record.live = some live
  · have hlast : [record].filter (·.live = some live) = [record] := by simp [hlive]
    rw [if_pos hlive, List.filter_append, hlast, List.flatMap_append, List.flatMap_singleton,
      List.filter_append, List.getLast?_append]
  · have hlast : [record].filter (·.live = some live) = [] := by simp [hlive]
    rw [if_neg hlive, List.filter_append, hlast, List.append_nil]

theorem lastNamed?_concat : lastNamed? (rs ++ [record]) u =
    if u = record.username then some record else lastNamed? rs u := by
  unfold lastNamed?
  by_cases hname : u = record.username
  · simp [hname]
  · simp [hname, Ne.symm hname]

theorem ofRecords_concat (rs : List RosterRecord) (record : RosterRecord) :
    ofRecords (rs ++ [record]) = ((ofRecords rs).anchored record).push record.player :=
  List.foldl_concat _ _ _ _

/-- A name is listed where it occurs first. -/
theorem usernames_ofRecords (rs : List RosterRecord) :
    (ofRecords rs).usernames = (rs.map (·.username)).eraseDups := by
  induction rs using List.reverseRecOn with
  | nil => rfl
  | append_singleton rs record ih =>
    have hanchored : ((ofRecords rs).anchored record).usernames = (ofRecords rs).usernames := by
      rw [usernames, entries_anchored, usernames]
    have hname : record.player.username = record.username := rfl
    rw [ofRecords_concat, usernames_push, hanchored, ih, hname, List.map_append,
      List.map_singleton, List.eraseDups_append]
    by_cases hmem : record.username ∈ rs.map (·.username)
    · have hlast : [record.username].removeAll (rs.map (·.username)) = [] :=
        List.filter_eq_nil_iff.mpr (by simpa using hmem)
      rw [if_pos (List.mem_eraseDups.mpr hmem), hlast]
      exact (List.append_nil _).symm
    · have hlast : [record.username].removeAll (rs.map (·.username)) = [record.username] :=
        List.filter_eq_self.mpr (by simpa using hmem)
      rw [if_neg fun h => hmem (List.mem_eraseDups.mp h), hlast]
      rfl

/-- A player is as the last record of its name has it. -/
theorem entry?_ofRecords (rs : List RosterRecord) (u : String) :
    entry? (ofRecords rs) u = (lastNamed? rs u).map player := by
  induction rs using List.reverseRecOn with
  | nil => rfl
  | append_singleton rs record ih =>
    have hanchored : entry? ((ofRecords rs).anchored record) u = entry? (ofRecords rs) u := by
      unfold entry?
      rw [entries_anchored]
    have hname : record.player.username = record.username := rfl
    rw [ofRecords_concat, entry?_push, hanchored, ih, hname, lastNamed?_concat]
    split <;> rfl

/-- A pose is the last one of its kind among all records of the live entity. -/
theorem pose?_ofRecords (rs : List RosterRecord) (live : LiveId) (kind : Anchor) :
    (ofRecords rs).pose? ⟨live, kind⟩ = (lastAnchor? rs live kind).map AnchorRecord.pose := by
  induction rs using List.reverseRecOn with
  | nil => rfl
  | append_singleton rs record ih =>
    rw [ofRecords_concat, pose?_push, lastAnchor?_concat]
    cases hrecord : record.live with
    | none => simp [anchored, hrecord, ih]
    | some other =>
      have hanchored : (ofRecords rs).anchored record =
          (ofRecords rs).withAnchors other record.anchors := by rw [anchored, hrecord]
      rw [hanchored]
      by_cases hlive : other = live
      · rw [hlive, pose?_withAnchors, ih, if_pos rfl, Option.map_or]
      · rw [pose?_withAnchors_of_ne (Ne.symm hlive), ih, if_neg (by simpa using hlive)]

/-! ## Histories with records -/

/-- What can be done to a roster. -/
inductive Edit where
  /-- Makes a change. -/
  | change (c : Change Float32)
  /-- Puts the roster that is made from records in its place. -/
  | records (rs : List RosterRecord)

/-- The roster after an edit. -/
def edit (r : Roster Float32) : Edit → Roster Float32
  | .change c => r.change c
  | .records rs => ofRecords rs

/-- The roster after edits, the first of which was made to the roster without players. -/
def ofEdits (edits : List Edit) : Roster Float32 := edits.foldl edit empty

/-- The changes that an edit stands for. -/
def Edit.changes : Edit → List (Change Float32)
  | .change c => [c]
  | .records rs => .clear :: rs.flatMap RosterRecord.changes

/-- The changes of a record enter it. -/
theorem foldl_change_enter (record : RosterRecord) :
    record.changes.foldl change r = r.enter record := by
  rw [enter_eq, RosterRecord.changes, List.foldl_concat, anchored]
  cases record.live with
  | none => rfl
  | some live =>
    dsimp only
    rw [List.foldl_map]
    rfl

/-- The changes of an edit make it. -/
theorem foldl_change_edit (e : Edit) : e.changes.foldl change r = r.edit e := by
  cases e with
  | change c => rfl
  | records rs =>
    rw [Edit.changes, List.foldl_cons, List.foldl_flatMap]
    simp only [foldl_change_enter]
    rfl

theorem ofEdits_eq (edits : List Edit) :
    ofEdits edits = ofChanges (edits.flatMap Edit.changes) := by
  rw [ofChanges, List.foldl_flatMap]
  simp only [foldl_change_edit]
  rfl

/-- A roster remembers each name once, in the order in which the names came in, each player as
pushed last, and each pose as set last, unless it was cleared or its player was removed since. A
player that is removed goes alone and takes the poses of the live entity along, if there is one. A
roster that is made from records lists each name once, in the order of the first records, as the
last record has it, and the pose of an anchor is the last one among the records of its live
entity. -/
theorem ofEdits_told (edits : List Edit) :
    Told (edits.flatMap Edit.changes) (ofEdits edits) ∧
      (∀ front e back, (ofEdits edits).entries = front ++ e :: back →
        ((ofEdits edits).remove e.username).entries = front ++ back ∧
        ∀ h, ((ofEdits edits).remove e.username).pose? h =
          if e.live = some h.live then none else (ofEdits edits).pose? h) ∧
      (∀ u, u ∉ (ofEdits edits).usernames → (ofEdits edits).remove u = ofEdits edits) ∧
      ∀ rs, Records rs (ofRecords rs) := by
  have told : Told (edits.flatMap Edit.changes) (ofEdits edits) := by
    rw [ofEdits_eq]
    exact ofChanges_told _
  refine ⟨told, fun front e back hsplit => ?_, fun u => remove_of_notMem, fun rs => ?_⟩
  · have he : e ∈ (ofEdits edits).entries := hsplit ▸ List.mem_append_right _ List.mem_cons_self
    exact ⟨entries_remove_of_split told.names.distinct hsplit,
      fun h => pose?_remove_of_mem told.names.distinct he⟩
  · have toldRecords := ofChanges_told (Edit.records rs).changes
    have hrecords : ofChanges (Edit.records rs).changes = ofRecords rs := foldl_change_edit _
    rw [hrecords] at toldRecords
    refine ⟨usernames_ofRecords rs, ?_, pose?_ofRecords rs⟩
    rw [← funext (entry?_ofRecords rs), filterMap_entry?_usernames toldRecords.names.distinct]

/-- Ann changes her live entity, the old one of which Cid takes over. -/
def sharedEntity : List Edit :=
  [.records
      [⟨"Ann", false, some ⟨1⟩, [⟨.body, Vec3.zero, Vec3.zero⟩]⟩, ⟨"Bob", false, none, []⟩,
        ⟨"Ann", true, some ⟨2⟩, []⟩],
    .change (.push ⟨"Cid", false, some ⟨1⟩⟩)]

/-- The pose that came with Ann stays when she changes her live entity, and goes with Cid. -/
theorem ofEdits_told_sharedEntity :
    let r := ofEdits sharedEntity
    Told (sharedEntity.flatMap Edit.changes) r ∧
      r.entries = [⟨"Ann", true, some ⟨2⟩⟩, ⟨"Bob", false, none⟩, ⟨"Cid", false, some ⟨1⟩⟩] ∧
      (r.pose? ⟨⟨1⟩, .body⟩).isSome = true ∧
      (r.remove "Cid").entries = [⟨"Ann", true, some ⟨2⟩⟩, ⟨"Bob", false, none⟩] ∧
      (r.remove "Cid").pose? ⟨⟨1⟩, .body⟩ = none := by
  obtain ⟨told, removed, -, -⟩ := ofEdits_told sharedEntity
  have hentries : (ofEdits sharedEntity).entries =
      [⟨"Ann", true, some ⟨2⟩⟩, ⟨"Bob", false, none⟩] ++ ⟨"Cid", false, some ⟨1⟩⟩ :: [] := by
    decide +kernel
  obtain ⟨hleft, hposes⟩ := removed _ _ _ hentries
  exact ⟨told, hentries, by decide +kernel, hleft, hposes ⟨⟨1⟩, .body⟩⟩

end Roster

end Skycam
