import Skycam.Fleet.Basic
import Skycam.Proofs.Stage.Fixture

/-!
# The scene mirrors the fleet

The scene is a second account of which rigs are open: an index with the nodes and the cameras to
which it refers. Once it was brought in line with the frames of an update and shows them, that
account agrees with the fleet (`Scene.Mirrors`), whatever was in the scene before.
-/

namespace Skycam

/-- The fixture after some frames were shown. -/
def Fixture.shownAll (frames : List Frame) (x : Fixture) : Fixture :=
  frames.foldl (fun x frame => x.editFor frame.rig (Fixture.shown frame)) x

namespace Scene

variable {s : Scene} {xs : List Fixture} {x : Fixture}

/-! ## Bringing the nodes in line -/

/-- The fixtures `ys` come from `xs` when the rig of a frame is enrolled. -/
structure Enrolls (frame : Frame) (xs ys : List Fixture) : Prop where
  rigs : ∀ rig, rig ∈ ys.map Fixture.rig ↔ rig = frame.rig ∨ rig ∈ xs.map Fixture.rig
  generation : ∀ y ∈ ys, y.rig = frame.rig → y.generation = frame.generation
  others : ∀ y ∈ ys, y.rig ≠ frame.rig → y ∈ xs

/-- A change to the fixture of the rig alone enrolls it, if it notes the generation. -/
theorem Enrolls.of_map {frame : Frame} {change : Fixture → Fixture}
    (hmem : frame.rig ∈ xs.map Fixture.rig) (hsame : ∀ y, (change y).rig = y.rig)
    (hgeneration : ∀ y ∈ xs, y.rig = frame.rig → (change y).generation = frame.generation)
    (hothers : ∀ y, y.rig ≠ frame.rig → change y = y) : Enrolls frame xs (xs.map change) where
  rigs := by
    intro rig
    have hrigs : (xs.map change).map Fixture.rig = xs.map Fixture.rig := by
      rw [List.map_map]
      exact List.map_congr_left fun y _ => hsame y
    rw [hrigs]
    constructor
    · exact Or.inr
    · rintro (rfl | hold)
      · exact hmem
      · exact hold
  generation := by
    intro y' hy' hrig
    obtain ⟨y, hy, rfl⟩ := List.mem_map.mp hy'
    exact hgeneration y hy ((hsame y).symm.trans hrig)
  others := by
    intro y' hy' hrig
    obtain ⟨y, hy, rfl⟩ := List.mem_map.mp hy'
    rw [hsame] at hrig
    rw [hothers y hrig]
    exact hy

/-- A rig that has a fixture is enrolled by bringing that up to date. -/
theorem Holds.refresh (h : s.Holds xs) {frame : Frame} (hx : x ∈ xs) (hrig : x.rig = frame.rig) :
    ∃ ys, (s.refresh frame x.entities).Holds ys ∧ Enrolls frame xs ys := by
  have hmem : frame.rig ∈ xs.map Fixture.rig := hrig ▸ List.mem_map_of_mem hx
  unfold Scene.refresh
  by_cases hgeneration : x.entities.generation = frame.generation
  · rw [if_pos hgeneration]
    refine ⟨xs.map id, ?_, .of_map hmem (fun _ => rfl) (fun y hy hframe => ?_) fun _ _ => rfl⟩
    · rw [List.map_id]
      exact h
    · rw [h.eq_of_rig hy hx (hframe.trans hrig.symm)]
      exact hgeneration
  · rw [if_neg hgeneration]
    let note := Fixture.editFor frame.rig (Fixture.noted frame.generation)
    have hnoted : Scene.Holds _ (xs.map note) := h.note frame
    have hx' : x.noted frame.generation ∈ xs.map note := by
      have hedit : note x = x.noted frame.generation := if_pos hrig
      exact hedit ▸ List.mem_map_of_mem hx
    obtain ⟨change, hsame, hkept, hothers, hrenewed⟩ := hnoted.renew hx' hrig
    rw [List.map_map] at hrenewed
    have hnote : ∀ y, (note y).rig = y.rig := Fixture.rig_editFor fun _ => rfl
    refine ⟨_, hrenewed, .of_map hmem (fun y => ?_) (fun y _ hframe => ?_) fun y hother => ?_⟩
    · exact (hsame _).trans (hnote y)
    · have hedit : note y = y.noted frame.generation := if_pos hframe
      exact (hkept _).trans (congrArg Fixture.generation hedit)
    · have hedit : note y = y := if_neg hother
      show change (note y) = y
      rw [hedit, hothers y hother]

/-- A rig is enrolled whether it has a fixture or not. -/
theorem Holds.enroll (h : s.Holds xs) (frame : Frame) :
    ∃ ys, (s.enroll frame).Holds ys ∧ Enrolls frame xs ys := by
  unfold Scene.enroll
  by_cases hrig : frame.rig ∈ xs.map Fixture.rig
  · obtain ⟨x, hx, hframe⟩ := List.mem_map.mp hrig
    have hentities : s.entities? frame.rig = some x.entities := hframe ▸ h.entities?_of_mem hx
    rw [hentities]
    exact h.refresh hx hframe
  · rw [h.entities?_of_notMem hrig]
    obtain ⟨x, hframe, hgeneration, hinstalled⟩ := h.install hrig
    refine ⟨xs ++ [x], hinstalled, fun rig => ?_, fun y hy hy' => ?_, fun y hy hother => ?_⟩
    · rw [List.map_append, List.mem_append, List.map_singleton, List.mem_singleton, hframe]
      exact or_comm
    · rcases List.mem_append.mp hy with hold | hnew
      · exact absurd (hy' ▸ List.mem_map_of_mem hold) hrig
      · rw [List.mem_singleton.mp hnew]
        exact hgeneration
    · rcases List.mem_append.mp hy with hold | hnew
      · exact hold
      · rw [List.mem_singleton.mp hnew] at hother
        exact absurd hframe hother

/-- Once the rigs of all frames are enrolled, each of them has a fixture of its generation. -/
theorem Holds.enrollAll (h : s.Holds xs) {frames : List Frame} (hn : (frames.map (·.rig)).Nodup) :
    ∃ ys, (frames.foldl Scene.enroll s).Holds ys ∧
      (∀ rig, rig ∈ ys.map Fixture.rig ↔ rig ∈ frames.map (·.rig) ∨ rig ∈ xs.map Fixture.rig) ∧
      (∀ y ∈ ys, ∀ frame ∈ frames, y.rig = frame.rig → y.generation = frame.generation) ∧
      ∀ y ∈ ys, y.rig ∉ frames.map (·.rig) → y ∈ xs := by
  induction frames generalizing s xs with
  | nil => exact ⟨xs, h, by simp, by simp, fun y hy _ => hy⟩
  | cons frame frames ih =>
    rw [List.map_cons, List.nodup_cons] at hn
    obtain ⟨ys, hys, henrolls⟩ := h.enroll frame
    obtain ⟨zs, hzs, hrigs, hgeneration, hothers⟩ := ih hys hn.2
    refine ⟨zs, hzs, fun rig => ?_, fun z hz fr hfr hrig => ?_, fun z hz hout => ?_⟩
    · rw [hrigs, henrolls.rigs, List.map_cons, List.mem_cons]
      tauto
    · rcases List.mem_cons.mp hfr with rfl | hrest
      · have hy : z ∈ ys := hothers z hz (hrig ▸ hn.1)
        exact henrolls.generation z hy hrig
      · exact hgeneration z hz fr hrest hrig
    · rw [List.map_cons, List.mem_cons, not_or] at hout
      exact henrolls.others z (hothers z hz hout.2) hout.1

/-- Rigs that are dismissed take their fixtures away and no others. -/
theorem Holds.dismissAll (h : s.Holds xs) (gone : List RigId) :
    (gone.foldl Scene.dismiss s).Holds (xs.filter fun x => x.rig ∉ gone) := by
  induction gone generalizing s xs with
  | nil => simpa using h
  | cons rig gone ih =>
    have hrest := ih (h.dismiss rig)
    rw [List.filter_filter] at hrest
    have hfilter : (xs.filter fun x => x.rig ∉ rig :: gone) =
        xs.filter fun x => decide (x.rig ∉ gone) && x.rig != rig := by
      refine List.filter_congr fun x _ => ?_
      rw [Bool.eq_iff_iff]
      simp [and_comm]
    rw [hfilter]
    exact hrest

/-- The scene is in line with frames: it has a fixture for each of them, of the right generation,
and no other one. -/
theorem Holds.sync (h : s.Holds xs) {frames : List Frame} (hn : (frames.map (·.rig)).Nodup) :
    ∃ ys, (s.sync frames).Holds ys ∧
      (∀ rig, rig ∈ ys.map Fixture.rig ↔ rig ∈ frames.map (·.rig)) ∧
      ∀ y ∈ ys, ∀ frame ∈ frames, y.rig = frame.rig → y.generation = frame.generation := by
  obtain ⟨ys, hys, hrigs, hgeneration, -⟩ := h.enrollAll hn
  let gone := ((frames.foldl Scene.enroll s).index.map (·.1)).filter
    fun rig => !frames.any (·.rig == rig)
  have hgone : ∀ y ∈ ys, y.rig ∉ gone ↔ y.rig ∈ frames.map (·.rig) := by
    intro y hy
    have hkey : y.rig ∈ (frames.foldl Scene.enroll s).index.map (·.1) := by
      rw [hys.index, List.map_map]
      exact List.mem_map_of_mem hy
    simp [gone, hkey]
  refine ⟨_, hys.dismissAll gone, fun rig => ?_,
    fun y hy => hgeneration y (List.mem_of_mem_filter hy)⟩
  constructor
  · intro hmem
    obtain ⟨y, hy, rfl⟩ := List.mem_map.mp hmem
    obtain ⟨hy, hstays⟩ := List.mem_filter.mp hy
    exact (hgone y hy).mp (of_decide_eq_true hstays)
  · intro hmem
    obtain ⟨y, hy, rfl⟩ := List.mem_map.mp ((hrigs rig).mpr (Or.inl hmem))
    exact List.mem_map_of_mem (List.mem_filter.mpr ⟨hy, decide_eq_true ((hgone y hy).mpr hmem)⟩)

/-! ## Showing the frames -/

/-- A frame is shown by the fixture of its rig, if there is one. -/
theorem Holds.present_or_not (h : s.Holds xs) (frame : Frame) :
    (s.present frame).Holds (xs.map (Fixture.editFor frame.rig (Fixture.shown frame))) := by
  by_cases hrig : frame.rig ∈ xs.map Fixture.rig
  · obtain ⟨x, hx, hframe⟩ := List.mem_map.mp hrig
    exact h.present hx hframe
  · have hsame : xs.map (Fixture.editFor frame.rig (Fixture.shown frame)) = xs.map id :=
      List.map_congr_left fun x hx =>
        if_neg fun heq : x.rig = frame.rig => hrig (heq ▸ List.mem_map_of_mem hx)
    unfold Scene.present
    rw [h.entities?_of_notMem hrig, hsame, List.map_id]
    exact h

/-- All frames are shown in their order. -/
theorem Holds.apply (h : s.Holds xs) (frames : List Frame) :
    (s.apply frames).Holds (xs.map (Fixture.shownAll frames)) := by
  unfold Scene.apply
  induction frames generalizing s xs with
  | nil =>
    have hsame : xs.map (Fixture.shownAll []) = xs := List.map_id xs
    rw [hsame]
    exact h
  | cons frame frames ih =>
    have hrest := ih (h.present_or_not frame)
    rw [List.map_map] at hrest
    exact hrest

end Scene

namespace Fixture

/-- A fixture without a frame stays as it is. -/
theorem shownAll_of_notMem {frames : List Frame} {x : Fixture}
    (h : x.rig ∉ frames.map (·.rig)) : x.shownAll frames = x := by
  induction frames with
  | nil => rfl
  | cons frame frames ih =>
    rw [List.map_cons, List.mem_cons, not_or] at h
    have hstep : x.editFor frame.rig (shown frame) = x := if_neg h.1
    show (x.editFor frame.rig (shown frame)).shownAll frames = x
    rw [hstep]
    exact ih h.2

theorem rig_shownAll (frames : List Frame) (x : Fixture) : (x.shownAll frames).rig = x.rig := by
  induction frames generalizing x with
  | nil => rfl
  | cons frame frames ih =>
    have hshown : ∀ y, (shown frame y).rig = y.rig := fun _ => rfl
    exact (ih _).trans (rig_editFor hshown x)

/-- With one frame for each rig, a fixture shows that of its rig in the end. -/
theorem shownAll_of_mem {frames : List Frame} (hn : (frames.map (·.rig)).Nodup) {frame : Frame}
    (hframe : frame ∈ frames) {x : Fixture} (hrig : x.rig = frame.rig) :
    x.shownAll frames = x.shown frame := by
  induction frames with
  | nil => cases hframe
  | cons first frames ih =>
    rw [List.map_cons, List.nodup_cons] at hn
    show (x.editFor first.rig (shown first)).shownAll frames = x.shown frame
    rcases List.mem_cons.mp hframe with rfl | hrest
    · have hstep : x.editFor frame.rig (shown frame) = x.shown frame := if_pos hrig
      have hlast : (x.shown frame).rig ∉ frames.map (·.rig) := by
        show x.rig ∉ _
        rw [hrig]
        exact hn.1
      rw [hstep]
      exact shownAll_of_notMem hlast
    · have hother : x.rig ≠ first.rig := by
        intro heq
        rw [← heq, hrig] at hn
        exact hn.1 (List.mem_map_of_mem hrest)
      have hstep : x.editFor first.rig (shown first) = x := if_neg hother
      rw [hstep]
      exact ih hn.2 hrest

end Fixture

/-- The scene agrees with the fleet on which rigs are open. The index has one entry for each of
them, of the generation of its surface, and that entry leads to the only node of the rig. The node
has two cameras, one for the background and one for the scene, which draw and project as the frame
of the rig says, and there are no other nodes or cameras. -/
structure Scene.Mirrors (s : Scene) (f : Fleet) : Prop where
  index : (s.index.map (·.1)).Perm f.ids
  nodes : (s.nodes.map (·.rig)).Perm f.ids
  noStrays : ∀ c ∈ s.cameras, ∃ n ∈ s.nodes, c.id ∈ n.children
  rigs : ∀ r ∈ f.rigs, ∃ e n background primary,
    s.entities? r.id = some e ∧ e.generation = r.surface.generation ∧
      n ∈ s.nodes ∧ n.id = e.root ∧ n.rig = r.id ∧
      (s.cameras.filter fun c => n.children.contains c.id) = [background, primary] ∧
      background.layer = .background ∧ primary.layer = .primary ∧
      ∀ c ∈ [background, primary], c.active = r.frame.camerasEnabled ∧
        c.lens.isOrthographic = r.frame.orthographic

/-- The fixture is what a frame says of its rig. -/
structure Fixture.Shows (x : Fixture) (frame : Frame) : Prop where
  generation : x.generation = frame.generation
  cameras : ∀ c ∈ x.cameras, c.active = frame.camerasEnabled ∧
    c.lens.isOrthographic = frame.orthographic

/-- A fixture that has the generation of a frame shows it. -/
theorem Fixture.shown_shows {x : Fixture} {frame : Frame}
    (hgeneration : x.generation = frame.generation) : (x.shown frame).Shows frame where
  generation := hgeneration
  cameras := by
    have haim : ∀ c : StageCamera, (c.aim frame).active = frame.camerasEnabled ∧
        (c.aim frame).lens.isOrthographic = frame.orthographic := by
      intro c
      refine ⟨rfl, ?_⟩
      unfold StageCamera.aim
      cases frame.orthographic <;> rfl
    intro c hc
    rcases List.mem_cons.mp hc with rfl | hc
    · exact haim x.background
    · rw [List.mem_singleton.mp hc]
      exact haim x.primary

namespace Scene

variable {s : Scene} {xs : List Fixture} {x : Fixture} {f : Fleet}

/-- The cameras below the node of a fixture are its own. -/
theorem Holds.filter_cameras (h : s.Holds xs) (hx : x ∈ xs) :
    (s.cameras.filter fun c => x.node.children.contains c.id) = x.cameras := by
  have hone : xs.filter (fun y => y.rig == x.rig) = [x] := by
    obtain ⟨before, after, rfl⟩ := List.append_of_mem hx
    have hn := h.rigs
    rw [List.map_append, List.map_cons] at hn
    have hout := List.nodup_middle.mp hn
    rw [List.nodup_cons, List.mem_append, not_or] at hout
    have hnone : ∀ ys : List Fixture, x.rig ∉ ys.map Fixture.rig →
        ys.filter (fun y => y.rig == x.rig) = [] := by
      intro ys hys
      refine List.filter_eq_nil_iff.mpr fun y hy heq => hys ?_
      exact (beq_iff_eq.mp heq) ▸ List.mem_map_of_mem hy
    rw [List.filter_append, List.filter_cons, if_pos (beq_self_eq_true _), hnone _ hout.1.1,
      hnone _ hout.1.2, List.nil_append]
  have hpointwise : ∀ y ∈ xs, ∀ c ∈ y.cameras,
      x.node.children.contains c.id = (y.rig == x.rig) := by
    intro y hy c hc
    have hmem := h.camera_id_mem_iff hx hy hc
    rw [x.children, Bool.eq_iff_iff, beq_iff_eq, ← hmem, List.contains_iff_mem]
    rfl
  rw [h.cameras, filter_flatMap_of_forall hpointwise, hone]
  simp

/-- A scene whose fixtures show the frames of the open rigs mirrors the fleet. -/
theorem Holds.mirrors (h : s.Holds xs) (hn : f.ids.Nodup)
    (hrigs : ∀ rig, rig ∈ xs.map Fixture.rig ↔ rig ∈ f.ids)
    (hshows : ∀ x ∈ xs, ∀ r ∈ f.rigs, x.rig = r.id → x.Shows r.frame) : s.Mirrors f := by
  have hperm : (xs.map Fixture.rig).Perm f.ids := (List.perm_ext_iff_of_nodup h.rigs hn).mpr hrigs
  refine ⟨?_, ?_, fun c hc => ?_, fun r hr => ?_⟩
  · rw [h.index, List.map_map]
    exact hperm
  · rw [h.nodes, List.map_map]
    exact hperm
  · rw [h.cameras] at hc
    obtain ⟨x, hx, hcx⟩ := List.mem_flatMap.mp hc
    refine ⟨x.node, ?_, ?_⟩
    · rw [h.nodes]
      exact List.mem_map_of_mem hx
    · rw [x.children]
      exact List.mem_map_of_mem (f := StageCamera.id) hcx
  · obtain ⟨x, hx, hrig⟩ := List.mem_map.mp ((hrigs r.id).mpr (List.mem_map_of_mem hr))
    have hx' := hshows x hx r hr hrig
    refine ⟨x.entities, x.node, x.background, x.primary, hrig ▸ h.entities?_of_mem hx,
      hx'.generation, ?_, rfl, hrig, h.filter_cameras hx, x.drawsBackground, x.drawsScene,
      hx'.cameras⟩
    rw [h.nodes]
    exact List.mem_map_of_mem hx

/-- After an update the scene, brought in line with the frames, mirrors the fleet. -/
theorem Holds.sync_apply_mirrors (h : s.Holds xs) (hn : f.ids.Nodup)
    (hframes : f.frames = f.rigs.map (·.frame)) :
    ∃ ys, ((s.sync f.frames).apply f.frames).Holds ys ∧
      ((s.sync f.frames).apply f.frames).Mirrors f := by
  have hids : f.frames.map (·.rig) = f.ids := by
    rw [hframes, List.map_map]
    rfl
  have hnodup : (f.frames.map (·.rig)).Nodup := hids ▸ hn
  obtain ⟨ys, hys, hrigs, hgeneration⟩ := h.sync hnodup
  refine ⟨_, hys.apply f.frames, (hys.apply f.frames).mirrors hn (fun rig => ?_) ?_⟩
  · have hsame : (ys.map (Fixture.shownAll f.frames)).map Fixture.rig = ys.map Fixture.rig := by
      rw [List.map_map]
      exact List.map_congr_left fun y _ => Fixture.rig_shownAll f.frames y
    rw [hsame, hrigs, hids]
  · intro x hx r hr hrig
    obtain ⟨y, hy, rfl⟩ := List.mem_map.mp hx
    rw [Fixture.rig_shownAll] at hrig
    have hframe : r.frame ∈ f.frames := by
      rw [hframes]
      exact List.mem_map_of_mem hr
    rw [Fixture.shownAll_of_mem hnodup hframe hrig]
    exact Fixture.shown_shows (hgeneration y hy r.frame hframe hrig)

end Scene

end Skycam
