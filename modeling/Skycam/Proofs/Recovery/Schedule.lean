import Skycam.Proofs.Number.Arithmetic
import Skycam.Proofs.Rig.Counters

/-!
# The looks of a rig that waits

The time that counts is the rounded clock and a slack that grows with the number of steps. Since
rounding keeps the order, that time never goes back (`now_le_add`), and with it grows the number of
multiples of the interval that are due. So until the last look, each step leaves the counter of the
looks at that number, and it asks for one look if the number grew (`answers_on_schedule`).
-/

namespace Skycam.RecoveryTimer

open Single (IsSize IsAmount toRat cappedFloor bits_zero zero_isSize max_isSize)

section

variable {α : Type} [Scalar α]

/-- The clock after some steps of time. -/
def after (t : RecoveryTimer α) (steps : List α) : RecoveryTimer α :=
  steps.foldl (fun t dt => (t.advance dt).2) t

/-- What is due after each of some steps of time. -/
def answers (t : RecoveryTimer α) : List α → List RecoveryPoll
  | [] => []
  | dt :: rest => (t.advance dt).1 :: answers (t.advance dt).2 rest

variable {t : RecoveryTimer α} {dt : α}

theorem add_interval : (t.add dt).interval = t.interval := by
  unfold add
  split <;> rfl

theorem add_timeout : (t.add dt).timeout = t.timeout := by
  unfold add
  split <;> rfl

/-- A look changes the counter of the looks and nothing else. -/
theorem check_snd (t : RecoveryTimer α) : ∃ polls, t.check.2 = { t with polls } := by
  unfold check
  split
  · exact ⟨_, rfl⟩
  · split
    · exact ⟨_, rfl⟩
    · exact ⟨t.polls, rfl⟩

theorem advance_interval (t : RecoveryTimer α) (dt : α) :
    (t.advance dt).2.interval = t.interval := by
  obtain ⟨polls, hcheck⟩ := check_snd (t.add dt)
  rw [advance, hcheck]
  exact add_interval

theorem advance_timeout (t : RecoveryTimer α) (dt : α) :
    (t.advance dt).2.timeout = t.timeout := by
  obtain ⟨polls, hcheck⟩ := check_snd (t.add dt)
  rw [advance, hcheck]
  exact add_timeout

/-- The last look is asked for when the time that counts has come to the timeout. -/
theorem advance_final_iff (t : RecoveryTimer α) (dt : α) :
    (t.advance dt).1 = .final ↔ (t.add dt).timeout ≤ (t.add dt).now := by
  rw [advance, check]
  split
  · next hdue => exact iff_of_true rfl hdue
  · next hdue =>
    split
    · exact iff_of_false RecoveryPoll.noConfusion hdue
    · exact iff_of_false RecoveryPoll.noConfusion hdue

end

variable {t : RecoveryTimer Float32} {x y dt interval timeout : Float32} {n m : UInt32}

/-! ## The slack of a step -/

theorem view_unitInLastPlace :
    Single.view (unitInLastPlace : Float32) = .finite false ⟨2 ^ 23, -46⟩ := by decide +kernel

theorem view_minInterval :
    Single.view (minInterval : Float32) = .finite false ⟨8589935, -33⟩ := by decide +kernel

theorem toRat_unitInLastPlace : toRat (unitInLastPlace : Float32) = 2 ^ (-23 : ℤ) := by
  rw [Single.toRat_of_view view_unitInLastPlace, Binary.toRat]
  norm_num

theorem ofUInt32_eq (n : UInt32) : (Scalar.ofUInt32 n : Float32) = Single.ofRat n.toNat :=
  Single.ofNat_eq n.toNat

theorem ofUInt32_isAmount (n : UInt32) :
    IsAmount (Scalar.ofUInt32 n : Float32) ∧ toRat (Scalar.ofUInt32 n : Float32) ≤ 2 ^ 32 :=
  Single.ofNat_isAmount n.toNat_lt

/-- What is granted for some steps, as a part of the clock. -/
def allowance (n : UInt32) : Float32 := Scalar.ofUInt32 n * unitInLastPlace

theorem slack_eq (t : RecoveryTimer Float32) : t.slack = allowance t.ticks * t.clock := rfl

theorem unitInLastPlace_isAmount : IsAmount (unitInLastPlace : Float32) :=
  Single.isAmount_of_view view_unitInLastPlace

theorem allowance_eq (n : UInt32) :
    allowance n = Single.ofRat (toRat (Scalar.ofUInt32 n : Float32) * 2 ^ (-23 : ℤ)) := by
  rw [allowance, Single.mul_eq (ofUInt32_isAmount n).1 unitInLastPlace_isAmount,
    toRat_unitInLastPlace]

/-- No number of steps is granted more than an amount. -/
theorem allowance_isAmount (n : UInt32) : IsAmount (allowance n) := by
  have hsmall : Single.view (512.0 : Float32) = .finite false ⟨2 ^ 23, -14⟩ := by decide +kernel
  have hvalue : toRat (512.0 : Float32) = 2 ^ 32 * 2 ^ (-23 : ℤ) := by
    rw [Single.toRat_of_view hsmall, Binary.toRat]
    norm_num
  rw [allowance_eq]
  refine (Single.isAmount_ofRat (Single.isAmount_of_view hsmall) ?_).1
  rw [hvalue]
  have hn := (ofUInt32_isAmount n).2
  gcongr

/-- More steps are granted more. -/
theorem allowance_mono (h : n ≤ m) :
    (allowance n).toBits.toNat ≤ (allowance m).toBits.toNat := by
  have hle : (n.toNat : ℚ) ≤ m.toNat := by exact_mod_cast UInt32.le_iff_toNat_le.mp h
  have hbits : (Scalar.ofUInt32 n : Float32).toBits.toNat ≤
      (Scalar.ofUInt32 m : Float32).toBits.toNat := by
    rw [ofUInt32_eq, ofUInt32_eq]
    exact Single.toBits_ofRat_mono hle
  have hvalue := ((ofUInt32_isAmount n).1.toRat_le_iff (ofUInt32_isAmount m).1).mpr hbits
  rw [allowance_eq, allowance_eq]
  exact Single.toBits_ofRat_mono (by gcongr)

/-- One step is granted something. -/
theorem allowance_pos (h : n ≠ 0) : 0 < (allowance n).toBits.toNat := by
  have hone : 1 ≤ n := by
    rw [UInt32.le_iff_toNat_le]
    exact Nat.pos_of_ne_zero fun hzero => h (UInt32.toNat_inj.mp hzero)
  have hpos : 0 < (allowance 1).toBits.toNat := by decide +kernel
  exact hpos.trans_le (allowance_mono hone)

/-! ## The clock -/

/-- The clock of a rig that waits: it is not below zero, and at zero before the first step. The
interval is positive, and the timeout not below zero. -/
structure Sound (t : RecoveryTimer Float32) : Prop where
  clock : IsSize t.clock
  stopped : t.ticks = 0 → t.clock.toBits.toNat = 0
  interval : IsSize t.interval
  interval_pos : 0 < t.interval.toBits.toNat
  timeout : IsSize t.timeout

/-- As long as nothing is granted the clock is finite: it is at zero. -/
theorem Sound.isAmount_clock (h : t.Sound) (hzero : (allowance t.ticks).toBits.toNat = 0) :
    IsAmount t.clock := by
  have hnone : t.ticks = 0 := by
    by_contra hsome
    exact absurd hzero (allowance_pos hsome).ne'
  show t.clock.toBits.toNat < _
  rw [h.stopped hnone]
  decide

/-- The slack is not below zero and no NaN, since an infinite clock is granted something. -/
theorem Sound.slack_isSize (h : t.Sound) : IsSize t.slack :=
  Single.mul_isSize (allowance_isAmount t.ticks) h.clock h.isAmount_clock

theorem Sound.now_isSize (h : t.Sound) : IsSize t.now := Single.add_isSize h.clock h.slack_isSize

/-- A step of time that counts is an amount. -/
theorem isAmount_of_counts (h : Scalar.isFinite dt = true ∧ 0.0 < dt) :
    IsAmount dt ∧ 0 < dt.toBits.toNat :=
  Single.isAmount_of_pos h.1 h.2

theorem clock_le_add (h : t.Sound) (dt : Float32) :
    t.clock.toBits.toNat ≤ (t.add dt).clock.toBits.toNat := by
  unfold add
  split
  · next hcounts => exact Single.le_add h.clock (isAmount_of_counts hcounts).1
  · exact le_rfl

/-- The counter of the steps does not go back before it is full. -/
theorem ticks_le_add (hticks : t.ticks.toNat + 1 < UInt32.size) (dt : Float32) :
    t.ticks ≤ (t.add dt).ticks := by
  unfold add
  split
  · rw [UInt32.le_iff_toNat_le]
    show _ ≤ (t.ticks + 1).toNat
    rw [UInt32.toNat_add, UInt32.toNat_one, Nat.mod_eq_of_lt hticks]
    exact Nat.le_succ _
  · exact UInt32.le_refl _

/-- A step of time keeps the clock sound before the counter of the steps is full. -/
theorem Sound.add (h : t.Sound) (hticks : t.ticks.toNat + 1 < UInt32.size) (dt : Float32) :
    (t.add dt).Sound := by
  unfold RecoveryTimer.add
  split
  · next hcounts =>
    refine ⟨Single.add_isSize h.clock (isAmount_of_counts hcounts).1.isSize, fun hzero => ?_,
      h.interval, h.interval_pos, h.timeout⟩
    have hnone := congrArg UInt32.toNat hzero
    rw [UInt32.toNat_add, UInt32.toNat_one, Nat.mod_eq_of_lt hticks] at hnone
    exact absurd hnone (Nat.succ_ne_zero _)
  · exact h

/-- The time that counts never goes back. -/
theorem now_le_add (h : t.Sound) (hticks : t.ticks.toNat + 1 < UInt32.size) (dt : Float32) :
    t.now.toBits.toNat ≤ (t.add dt).now.toBits.toNat := by
  have hadd := h.add hticks dt
  refine Single.add_mono h.clock h.slack_isSize hadd.clock hadd.slack_isSize
    (clock_le_add h dt) ?_
  exact Single.mul_mono (allowance_isAmount _) h.clock (allowance_isAmount _) hadd.clock
    (allowance_mono (ticks_le_add hticks dt)) (clock_le_add h dt) h.isAmount_clock
    hadd.isAmount_clock

/-! ## What is due -/

theorem Sound.advance (h : t.Sound) (hticks : t.ticks.toNat + 1 < UInt32.size) (dt : Float32) :
    (t.advance dt).2.Sound := by
  have hadd := h.add hticks dt
  obtain ⟨polls, hcheck⟩ := check_snd (t.add dt)
  rw [RecoveryTimer.advance, hcheck]
  exact ⟨hadd.clock, hadd.stopped, hadd.interval, hadd.interval_pos, hadd.timeout⟩

/-- The number of multiples of the interval that lie behind. -/
def multiples (t : RecoveryTimer Float32) : ℕ := cappedFloor (t.now / t.interval)

/-- Before the last look is due, the time that counts is finite. -/
theorem Sound.isAmount_now (h : t.Sound) (hlt : ¬t.timeout ≤ t.now) : IsAmount t.now := by
  rw [h.timeout.le_iff h.now_isSize, not_le] at hlt
  exact hlt.trans_le h.timeout

/-- Before the last look is due, the looks that are due are the multiples of the interval. -/
theorem Sound.toNat_due (h : t.Sound) (hlt : ¬t.timeout ≤ t.now) : t.due.toNat = t.multiples :=
  Single.toNat_toUInt32 (Single.div_isSize (h.isAmount_now hlt) h.interval h.interval_pos)

/-- As the time that counts does not go back, nor does the number of the multiples. -/
theorem multiples_le_add (h : t.Sound) (hticks : t.ticks.toNat + 1 < UInt32.size)
    (hlt : ¬(t.add dt).timeout ≤ (t.add dt).now) : t.multiples ≤ (t.add dt).multiples := by
  have hadd := h.add hticks dt
  have hle := now_le_add h hticks dt
  have hamount := hadd.isAmount_now hlt
  unfold multiples
  rw [add_interval]
  refine Single.cappedFloor_mono (Single.div_isSize hamount h.interval h.interval_pos) ?_
  exact Single.div_mono (hle.trans_lt hamount) hamount h.interval hle h.interval_pos

/-- The last look is due, or all looks that came due have been counted. -/
def Told (t : RecoveryTimer Float32) : Prop :=
  t.timeout ≤ t.now ∨ t.polls.toNat = t.multiples

/-- Once the last look is due, it stays due. -/
theorem advance_of_final (h : t.Sound) (hticks : t.ticks.toNat + 1 < UInt32.size)
    (hfinal : t.timeout ≤ t.now) (dt : Float32) :
    (t.advance dt).1 = .final ∧ (t.advance dt).2.timeout ≤ (t.advance dt).2.now := by
  have hadd := h.add hticks dt
  have hdue : (t.add dt).timeout ≤ (t.add dt).now := by
    rw [hadd.timeout.le_iff hadd.now_isSize, add_timeout]
    exact ((h.timeout.le_iff h.now_isSize).mp hfinal).trans (now_le_add h hticks dt)
  rw [advance, check, if_pos hdue]
  exact ⟨rfl, hdue⟩

/-- A step that does not ask for the last look brings the counter of the looks up to date, and asks
for one look if that changes it. -/
theorem advance_of_ne_final (h : t.Sound) (hticks : t.ticks.toNat + 1 < UInt32.size)
    (htold : t.Told) (hnot : (t.advance dt).1 ≠ .final) :
    (t.advance dt).2.polls.toNat = (t.advance dt).2.multiples ∧
      (t.advance dt).1 = if t.multiples < (t.advance dt).2.multiples then .poll else .wait := by
  have hadd := h.add hticks dt
  have hlt : ¬(t.add dt).timeout ≤ (t.add dt).now := mt (advance_final_iff t dt).mpr hnot
  have hearlier : ¬t.timeout ≤ t.now := fun hfinal =>
    hnot (advance_of_final h hticks hfinal dt).1
  have hpolls : (t.add dt).polls.toNat = t.multiples := by
    rw [add_polls]
    exact htold.resolve_left hearlier
  have hdue := hadd.toNat_due hlt
  have hmono := multiples_le_add h hticks hlt
  have hgrown : (t.add dt).polls < (t.add dt).due ↔ t.multiples < (t.add dt).multiples := by
    rw [UInt32.lt_iff_toNat_lt, hpolls, hdue]
  rw [advance, check, if_neg hlt]
  split
  · next hmore => exact ⟨hdue, (if_pos (hgrown.mp hmore)).symm⟩
  · next hsame =>
    have hsame' := mt hgrown.mpr hsame
    refine ⟨?_, (if_neg hsame').symm⟩
    show (t.add dt).polls.toNat = (t.add dt).multiples
    omega

/-- After a step all looks that came due have been counted again. -/
theorem Told.advance (h : t.Sound) (hticks : t.ticks.toNat + 1 < UInt32.size) (htold : t.Told)
    (dt : Float32) : (t.advance dt).2.Told := by
  by_cases hfinal : (t.advance dt).1 = .final
  · have hdue := (advance_final_iff t dt).mp hfinal
    left
    rw [RecoveryTimer.advance, check, if_pos hdue]
    exact hdue
  · exact Or.inr (advance_of_ne_final h hticks htold hfinal).1

/-! ## A run -/

/-- Whatever interval and timeout it is made with, a clock is sound. -/
theorem new_sound (interval timeout : Float32) : (new interval timeout).Sound := by
  have hmin : IsSize (minInterval : Float32) := (Single.isAmount_of_view view_minInterval).isSize
  have hpos : 0 < (minInterval : Float32).toBits.toNat :=
    Single.toBits_pos view_minInterval (by decide)
  obtain ⟨hinterval, hle⟩ := max_isSize (x := interval) hmin
  exact ⟨zero_isSize, fun _ => bits_zero, hinterval, hpos.trans_le hle,
    (max_isSize zero_isSize).1⟩

theorem new_now (interval timeout : Float32) : (new interval timeout).now = (0.0 : Float32) := by
  have hzero : (0.0 : Float32) + allowance 0 * 0.0 = 0.0 := by decide +kernel
  exact hzero

theorem new_told (interval timeout : Float32) : (new interval timeout).Told := by
  have hsound := new_sound interval timeout
  right
  rw [multiples, new_now]
  exact (Single.cappedFloor_eq_zero
    (Single.toBits_zero_div bits_zero hsound.interval hsound.interval_pos)).symm

/-- What holds of the clock after some steps. The last two say that the steps are few enough to be
counted, and that the last look stays due once it was. -/
structure Run (t : RecoveryTimer Float32) (steps : List Float32) : Prop where
  sound : (t.after steps).Sound
  told : (t.after steps).Told
  ticks : (t.after steps).ticks.toNat ≤ t.ticks.toNat + steps.length
  interval : (t.after steps).interval = t.interval
  timeout : (t.after steps).timeout = t.timeout
  final : t.timeout ≤ t.now ∨ .final ∈ t.answers steps →
    (t.after steps).timeout ≤ (t.after steps).now

theorem advance_final_due (h : (t.advance dt).1 = .final) :
    (t.advance dt).2.timeout ≤ (t.advance dt).2.now := by
  have hdue := (advance_final_iff t dt).mp h
  rw [advance, check, if_pos hdue]
  exact hdue

/-- What one step keeps, some steps keep, as long as they can be counted. -/
theorem run (h : t.Sound) (htold : t.Told) {steps : List Float32}
    (hsteps : t.ticks.toNat + steps.length < UInt32.size) : t.Run steps := by
  induction steps generalizing t with
  | nil =>
    refine ⟨h, htold, le_rfl, rfl, rfl, ?_⟩
    rintro (hdue | hnone)
    · exact hdue
    · cases hnone
  | cons dt rest ih =>
    rw [List.length_cons] at hsteps
    have hticks : t.ticks.toNat + 1 < UInt32.size := by omega
    have hone : (t.advance dt).2.ticks.toNat ≤ t.ticks.toNat + 1 := advance_ticks_le
    have hrest := ih (h.advance hticks dt) (htold.advance h hticks dt) (by omega)
    refine ⟨hrest.sound, hrest.told, hrest.ticks.trans ?_,
      hrest.interval.trans (advance_interval t dt), hrest.timeout.trans (advance_timeout t dt),
      fun hfinal => hrest.final ?_⟩
    · rw [List.length_cons]
      omega
    · rcases hfinal with hdue | hanswer
      · exact Or.inl (advance_of_final h hticks hdue dt).2
      · rcases List.mem_cons.mp hanswer with hnow | hlater
        · exact Or.inl (advance_final_due hnow.symm)
        · exact Or.inr hlater

/-- Let time go by in fewer than `2^32` steps of any kind. Once the last look was due, it is due at
every later step. Until then each step leaves the counter of the looks at the number of multiples of
the interval that lie behind, as far as it counts, and asks for a look just if it changes that
number. The clock never goes back, and it is always a number. -/
theorem answers_on_schedule (interval timeout dt : Float32) (steps : List Float32)
    (hsteps : steps.length + 1 < UInt32.size) :
    let start := new interval timeout
    let before := start.after steps
    let call := before.advance dt
    let reached := fun t : RecoveryTimer Float32 =>
      cappedFloor (t.now / Scalar.max interval minInterval)
    (.final ∈ start.answers steps → call.1 = .final) ∧
      (call.1 ≠ .final → call.2.polls.toNat = reached call.2 ∧
        call.1 = if reached before < reached call.2 then .poll else .wait) ∧
      before.clock ≤ call.2.clock ∧ call.2.clock.isNaN = false := by
  intro start before call reached
  have hrun : start.Run steps :=
    run (new_sound interval timeout) (new_told interval timeout) (by
      show (0 : UInt32).toNat + _ < _
      rw [UInt32.toNat_zero]
      omega)
  have hticks : before.ticks.toNat + 1 < UInt32.size := by
    have hle : before.ticks.toNat ≤ start.ticks.toNat + steps.length := hrun.ticks
    have hzero : start.ticks.toNat = 0 := rfl
    omega
  have hreached : reached before = before.multiples := by
    show cappedFloor (before.now / Scalar.max interval minInterval) = _
    rw [multiples, hrun.interval]
    rfl
  have hreached' : reached call.2 = call.2.multiples := by
    show cappedFloor (call.2.now / Scalar.max interval minInterval) = _
    rw [multiples, advance_interval, hrun.interval]
    rfl
  have hsound := hrun.sound.advance hticks dt
  refine ⟨fun hfinal => ?_, fun hnot => ?_, ?_, hsound.clock.isNaN_eq_false⟩
  · exact (advance_of_final hrun.sound hticks (hrun.final (Or.inr hfinal)) dt).1
  · rw [hreached, hreached']
    exact advance_of_ne_final hrun.sound hticks hrun.told hnot
  · rw [hrun.sound.clock.le_iff hsound.clock]
    obtain ⟨polls, hcheck⟩ := check_snd (before.add dt)
    show _ ≤ (before.add dt).check.2.clock.toBits.toNat
    rw [hcheck]
    exact clock_le_add hrun.sound dt

/-- A single step across two multiples of the interval asks for one look. -/
theorem answers_on_schedule_long :
    let call := ((new (0.25 : Float32) 3.0).after [0.75]).advance 0.5
    [(0.75 : Float32)].length + 1 < UInt32.size ∧ call.1 = .poll ∧
      call.2.polls.toNat = cappedFloor (call.2.now / Scalar.max 0.25 minInterval) := by
  have hsteps : [(0.75 : Float32)].length + 1 < UInt32.size := by decide
  obtain ⟨-, hpolls, -⟩ := answers_on_schedule 0.25 3.0 0.5 [0.75] hsteps
  have hanswer : (((new (0.25 : Float32) 3.0).after [0.75]).advance 0.5).1 = .poll := by
    decide +kernel
  exact ⟨hsteps, hanswer, (hpolls (by rw [hanswer]; exact RecoveryPoll.noConfusion)).1⟩

end Skycam.RecoveryTimer
