import Mathlib.Data.List.Forall2
import Mathlib.Data.List.Nodup
import Skycam.Proofs.Rig.Sighting
import Skycam.Fleet.Operation

/-!
# What can befall a fleet

A ledger holds the rigs of a fleet together with the events that wait to be told and with what was
told so far. `Ledger.Step` lists the few things that can happen to it, each of them to one rig or
alike to all: whatever is asked of a fleet is a sequence of steps, so that what a step keeps is kept
at all times.
-/

namespace Skycam

/-- The end of a rig and the reason for it. -/
structure Ending where
  /-- The rig. -/
  rig : RigId
  /-- Why it is gone. -/
  reason : DestroyReason
  deriving DecidableEq, Repr

/-- The rigs of a fleet and the record of what happened to them. -/
structure Ledger where
  /-- The configuration of the fleet. -/
  config : Config
  /-- The open rigs in the order of their creation. -/
  rigs : List Rig
  /-- The events of closed rigs that wait to be told. -/
  pending : List Event
  /-- The events that were told so far. -/
  told : List Event
  /-- The rigs that are gone, in the order of their ends. -/
  endings : List Ending

namespace Ledger

/-- The names of the rigs. -/
def ids (l : Ledger) : List RigId := l.rigs.map (·.id)

/-- The rigs except those of some names. -/
def rigsBut (l : Ledger) (gone : List RigId) : List Rig := l.rigs.filter (·.id ∉ gone)

/-- The ledger once a rig is closed, whose events have to wait. -/
def close (l : Ledger) (rig : Rig) (reason : DestroyReason) : Ledger :=
  { l with
    rigs := l.rigsBut [rig.id]
    pending := l.pending ++ (rig.ended reason).deliveries
    endings := l.endings ++ [⟨rig.id, reason⟩] }

/-- The ledger once a rig has waited in vain, which is told at once. -/
def expire (l : Ledger) (rig : Rig) : Ledger :=
  { l with
    rigs := l.rigsBut [rig.id]
    told := l.told ++ (rig.ended .recoveryTimeout).deliveries
    endings := l.endings ++ [⟨rig.id, .recoveryTimeout⟩] }

/-- The ledger once all events are told. -/
def deliver (l : Ledger) : Ledger :=
  { l with
    rigs := l.rigs.map (·.delivered)
    pending := []
    told := l.told ++ l.pending ++ l.rigs.flatMap (·.deliveries) }

/-- One thing that happens to a ledger. -/
inductive Step : Ledger → Ledger → Prop where
  /-- Each rig changes by its moves. -/
  | move (l : Ledger) (rigs : List Rig) (moves : List.Forall₂ (Rig.Moves l.config) l.rigs rigs) :
      Step l { l with rigs }
  /-- A rig is created under a new name, which is not blank. -/
  | spawn (l : Ledger) (id : RigId) (cinematic : Bool) (rig : Rig) (notBlank : id.isBlank = false)
      (isNew : id ∉ l.ids) (moves : Rig.Moves l.config (Rig.new l.config id cinematic) rig) :
      Step l { l with rigs := l.rigs ++ [rig] }
  /-- A rig is closed on demand. -/
  | close (l : Ledger) (rig : Rig) (reason : DestroyReason) (isOpen : rig ∈ l.rigs)
      (onDemand : reason ≠ .recoveryTimeout) : Step l (l.close rig reason)
  /-- A rig has waited in vain for its target, while no event waits to be told. -/
  | expire (l : Ledger) (rig : Rig) (isOpen : rig ∈ l.rigs) (noneWaits : l.pending = []) :
      Step l (l.expire rig)
  /-- All events are told. -/
  | deliver (l : Ledger) : Step l l.deliver

/-- Any number of steps. -/
abbrev Steps : Ledger → Ledger → Prop := Relation.ReflTransGen Step

variable {l l' : Ledger}

/-- What each step keeps is kept by any number of them. -/
theorem Steps.keep {Kept : Ledger → Prop}
    (step : ∀ l l', Step l l' → Kept l → Kept l') (h : Steps l l') (hl : Kept l) : Kept l' := by
  induction h with
  | refl => exact hl
  | tail _ hstep ih => exact step _ _ hstep ih

theorem Step.config_eq (h : Step l l') : l'.config = l.config := by
  cases h <;> rfl

theorem Steps.config_eq (h : Steps l l') : l'.config = l.config := by
  induction h with
  | refl => rfl
  | tail _ hstep ih => exact hstep.config_eq.trans ih

/-- Each rig afterwards comes from a rig before by its moves. -/
theorem exists_moves_of_mem {config : Config} {rigs rigs' : List Rig} {r' : Rig}
    (h : List.Forall₂ (Rig.Moves config) rigs rigs') (hr' : r' ∈ rigs') :
    ∃ r ∈ rigs, Rig.Moves config r r' := by
  induction h with
  | nil => cases hr'
  | cons hmoves _ ih =>
    rcases List.mem_cons.mp hr' with rfl | hrest
    · exact ⟨_, List.mem_cons_self, hmoves⟩
    · obtain ⟨r, hr, hmoves⟩ := ih hrest
      exact ⟨r, List.mem_cons_of_mem _ hr, hmoves⟩

/-! ## Names -/

/-- Rigs that move keep their names and their order. -/
theorem map_id_eq_of_moves {config : Config} {rigs rigs' : List Rig}
    (h : List.Forall₂ (Rig.Moves config) rigs rigs') : rigs'.map (·.id) = rigs.map (·.id) := by
  induction h with
  | nil => rfl
  | cons hmoves _ ih =>
    rw [List.map_cons, List.map_cons, hmoves.id_eq, ih]

theorem ids_rigsBut_sublist (l : Ledger) (gone : List RigId) :
    ((l.rigsBut gone).map (·.id)).Sublist l.ids :=
  List.filter_sublist.map _

/-- No two rigs have the same name, whatever happens. -/
theorem Step.nodup (h : Step l l') (hn : l.ids.Nodup) : l'.ids.Nodup := by
  cases h with
  | move rigs moves =>
    have hids : rigs.map (·.id) = l.ids := map_id_eq_of_moves moves
    simpa [ids, hids] using hn
  | spawn id cinematic rig notBlank isNew moves =>
    have hid : rig.id = id := moves.id_eq
    have hids : (l.rigs ++ [rig]).map (·.id) = l.ids ++ [id] := by simp [ids, hid]
    simp only [ids, hids]
    exact hn.append (List.nodup_singleton id) (by simpa using isNew)
  | close rig reason isOpen onDemand => exact hn.sublist (l.ids_rigsBut_sublist _)
  | expire rig isOpen noneWaits => exact hn.sublist (l.ids_rigsBut_sublist _)
  | deliver =>
    have hids : (l.rigs.map (·.delivered)).map (·.id) = l.ids := by
      simp [ids, Rig.delivered]
    unfold ids Ledger.deliver
    rw [hids]
    exact hn

theorem Steps.nodup (h : Steps l l') (hn : l.ids.Nodup) : l'.ids.Nodup :=
  h.keep (fun _ _ => Step.nodup) hn

/-! ## Several rigs in turn -/

theorem mem_rigsBut {rig : Rig} {gone : List RigId} :
    rig ∈ l.rigsBut gone ↔ rig ∈ l.rigs ∧ rig.id ∉ gone := by
  simp [rigsBut]

theorem rigsBut_rigsBut (l : Ledger) (first second : List RigId) :
    (l.rigsBut first).filter (·.id ∉ second) = l.rigsBut (first ++ second) := by
  simp [rigsBut, List.filter_filter, Bool.and_comm]

/-- Once the first of several rigs is gone, the others are still there. -/
theorem still_open {rig : Rig} {rest : List Rig} (hn : ((rig :: rest).map (·.id)).Nodup)
    (hopen : ∀ other ∈ rig :: rest, other ∈ l.rigs) :
    ∀ other ∈ rest, other ∈ l.rigsBut [rig.id] := by
  intro other hother
  refine mem_rigsBut.mpr ⟨hopen other (List.mem_cons_of_mem _ hother), ?_⟩
  intro hsame
  have hmem : other.id ∈ rest.map (·.id) := List.mem_map_of_mem hother
  rw [List.mem_singleton.mp hsame] at hmem
  exact (List.nodup_cons.mp hn).1 hmem

/-- Rigs that are still open can be closed one after the other. -/
theorem steps_close {reason : DestroyReason} (onDemand : reason ≠ .recoveryTimeout)
    {gone : List Rig} (hopen : ∀ rig ∈ gone, rig ∈ l.rigs) (hn : (gone.map (·.id)).Nodup) :
    Steps l { l with
      rigs := l.rigsBut (gone.map (·.id))
      pending := l.pending ++ gone.flatMap fun rig => (rig.ended reason).deliveries
      endings := l.endings ++ gone.map fun rig => ⟨rig.id, reason⟩ } := by
  induction gone generalizing l with
  | nil =>
    have hnone : Steps l l := .refl
    simpa [rigsBut] using hnone
  | cons rig rest ih =>
    have hstep : Step l (l.close rig reason) :=
      .close l rig reason (hopen rig List.mem_cons_self) onDemand
    have hrest : Steps (l.close rig reason) _ := ih (still_open hn hopen) (List.nodup_cons.mp hn).2
    have hrigs : (l.close rig reason).rigsBut (rest.map (·.id)) =
        l.rigsBut (rig.id :: rest.map (·.id)) := l.rigsBut_rigsBut [rig.id] _
    rw [hrigs] at hrest
    simpa [close] using Relation.ReflTransGen.head hstep hrest

/-- Rigs that wait in vain can expire one after the other. -/
theorem steps_expire (noneWaits : l.pending = []) {gone : List Rig}
    (hopen : ∀ rig ∈ gone, rig ∈ l.rigs) (hn : (gone.map (·.id)).Nodup) :
    Steps l { l with
      rigs := l.rigsBut (gone.map (·.id))
      told := l.told ++ gone.flatMap fun rig => (rig.ended .recoveryTimeout).deliveries
      endings := l.endings ++ gone.map fun rig => ⟨rig.id, .recoveryTimeout⟩ } := by
  induction gone generalizing l with
  | nil =>
    have hnone : Steps l l := .refl
    simpa [rigsBut] using hnone
  | cons rig rest ih =>
    have hstep : Step l (l.expire rig) := .expire l rig (hopen rig List.mem_cons_self) noneWaits
    have hpending : (l.expire rig).pending = [] := noneWaits
    have hrest : Steps (l.expire rig) _ :=
      ih hpending (still_open hn hopen) (List.nodup_cons.mp hn).2
    have hrigs : (l.expire rig).rigsBut (rest.map (·.id)) =
        l.rigsBut (rig.id :: rest.map (·.id)) := l.rigsBut_rigsBut [rig.id] _
    rw [hrigs] at hrest
    simpa [expire] using Relation.ReflTransGen.head hstep hrest

end Ledger

end Skycam
