import Skycam.Proofs.Number.Error
import Skycam.Proofs.Recovery.Schedule

/-!
# The drift of a clock

Each step of time that is added to a clock may lose or win half a last place, and the slack grants a
whole one for each. So the last look is never late (`final_near_timeout`): rounding and slack
together may ask for it early, by four half places for each step at most.
-/

namespace Skycam.RecoveryTimer

open Single (IsSize IsAmount toRat bits_zero zero_isSize zero_isAmount)

/-! ## Powers of one rounding -/

section

variable {u : ℚ} {n : ℕ}

theorem one_sub_mul_le_pow (hu : u ≤ 1) (n : ℕ) : 1 - n * u ≤ (1 - u) ^ n := by
  have hbernoulli := one_add_mul_le_pow (by linarith : (-2 : ℚ) ≤ -u) n
  rwa [mul_neg, ← sub_eq_add_neg, ← sub_eq_add_neg] at hbernoulli

/-- What `n` roundings up can add, a part for each of them takes away. -/
theorem one_add_pow_mul_le (hu : 0 ≤ u) (hu' : u ≤ 1) (n : ℕ) : (1 + u) ^ n * (1 - n * u) ≤ 1 := by
  have hbernoulli := one_sub_mul_le_pow hu' n
  calc (1 + u) ^ n * (1 - n * u) ≤ (1 + u) ^ n * (1 - u) ^ n := by gcongr
    _ = (1 - u ^ 2) ^ n := by
      rw [← mul_pow]
      ring
    _ ≤ 1 := pow_le_one₀ (by nlinarith) (by nlinarith)

/-- The slack makes up for what `n` roundings down can take away. -/
theorem le_slack (hu : 0 ≤ u) (hu' : u ≤ 1 / 16) (hn : n * u ≤ 1 / 16) :
    1 ≤ (1 - u) ^ n * (1 + 2 * (n * u) * (1 - u)) := by
  have hbernoulli := one_sub_mul_le_pow (by linarith : u ≤ 1) n
  have hx : (0 : ℚ) ≤ n * u := by positivity
  generalize (n : ℚ) * u = x at *
  have hfactor : 0 ≤ 1 + 2 * x * (1 - u) := by nlinarith
  calc (1 : ℚ) ≤ (1 - x) * (1 + 2 * x * (1 - u)) := by nlinarith [mul_nonneg hx hu]
    _ ≤ (1 - u) ^ n * (1 + 2 * x * (1 - u)) := by gcongr

/-- Roundings up and the slack together add less than four parts for each step. -/
theorem slack_lt (hu : 0 < u) (hn : 1 ≤ n) (hsmall : n * u ≤ 1 / 16) :
    (1 - 4 * (n * u)) * (1 + u) ^ n * ((1 + 2 * (n * u) * (1 + u)) * (1 + u)) < 1 := by
  have hone : (1 : ℚ) ≤ n := by exact_mod_cast hn
  have hx : u ≤ n * u := le_mul_of_one_le_left hu.le hone
  have hround := one_add_pow_mul_le hu.le (by linarith) (n + 1)
  push_cast at hround
  have hrest : (1 - 4 * (n * u)) * (1 + 2 * (n * u) * (1 + u)) < 1 - (n + 1) * u := by
    rw [add_one_mul]
    generalize (n : ℚ) * u = x at *
    have hproduct : x * u ≤ x * x := mul_le_mul_of_nonneg_left hx (by linarith)
    have hsquare : 0 < x * x := mul_pos (by linarith) (by linarith)
    have hcube : 0 < x * x * u := mul_pos hsquare hu
    linarith
  calc (1 - 4 * (n * u)) * (1 + u) ^ n * ((1 + 2 * (n * u) * (1 + u)) * (1 + u))
      = (1 + u) ^ (n + 1) * ((1 - 4 * (n * u)) * (1 + 2 * (n * u) * (1 + u))) := by ring
    _ < (1 + u) ^ (n + 1) * (1 - (n + 1) * u) := by gcongr
    _ ≤ 1 := hround

end

/-! ## The clock after some steps -/

/-- The part of a value that one rounding can move. -/
def roundoff : ℚ := 2 ^ (-24 : ℤ)

theorem div_eq_mul_roundoff (q : ℚ) : q / 2 ^ 24 = q * roundoff := by
  rw [roundoff, zpow_neg, div_eq_mul_inv]
  norm_cast

variable {t : RecoveryTimer Float32} {x y dt interval timeout : Float32} {steps : List Float32}

/-- A sum is off by one rounding at most, whichever way. -/
theorem toRat_add_bounds (hx : IsAmount x) (hy : IsAmount y) (h : IsAmount (x + y)) :
    (toRat x + toRat y) * (1 - roundoff) ≤ toRat (x + y) ∧
      toRat (x + y) ≤ (toRat x + toRat y) * (1 + roundoff) := by
  have herror := Single.abs_toRat_add_sub_le hx hy h
  rw [div_eq_mul_roundoff] at herror
  obtain ⟨hlow, hhigh⟩ := abs_le.mp herror
  constructor
  · linarith
  · linarith

/-- All steps of time count. -/
def AllCount (steps : List Float32) : Prop := ∀ dt ∈ steps, dt.isFinite = true ∧ 0.0 < dt

theorem after_concat (t : RecoveryTimer Float32) (steps : List Float32) (dt : Float32) :
    t.after (steps ++ [dt]) = ((t.after steps).advance dt).2 := List.foldl_concat _ _ _ _

theorem advance_of_counts (t : RecoveryTimer Float32) (h : dt.isFinite = true ∧ 0.0 < dt) :
    (t.advance dt).2.clock = t.clock + dt ∧ (t.advance dt).2.ticks = t.ticks + 1 := by
  obtain ⟨polls, hcheck⟩ := check_snd (t.add dt)
  have hadd : t.add dt = { t with clock := t.clock + dt, ticks := t.ticks + 1 } := if_pos h
  rw [advance, hcheck, hadd]
  exact ⟨rfl, rfl⟩

/-- The sum of some steps of time. -/
def total (steps : List Float32) : ℚ := (steps.map toRat).sum

theorem total_concat (steps : List Float32) (dt : Float32) :
    total (steps ++ [dt]) = total steps + toRat dt := by
  simp [total]

theorem total_nonneg (h : AllCount steps) : 0 ≤ total steps := by
  refine List.sum_nonneg fun q hq => ?_
  obtain ⟨dt, hmem, rfl⟩ := List.mem_map.mp hq
  exact Single.toRat_nonneg (isAmount_of_counts (h dt hmem)).1

theorem roundoff_pos : 0 < roundoff := by
  unfold roundoff
  positivity

theorem roundoff_le : roundoff ≤ 1 / 16 := by
  unfold roundoff
  norm_num

theorem toRat_zero : toRat (0.0 : Float32) = 0 := Single.toRat_eq_zero bits_zero

/-- The clock is infinite, or behind the steps by one rounding for each of them at most. -/
theorem le_clock (interval timeout : Float32) (h : AllCount steps) :
    ((new interval timeout).after steps).clock = Single.infinity ∨
      IsAmount ((new interval timeout).after steps).clock ∧
        total steps * (1 - roundoff) ^ steps.length ≤
          toRat ((new interval timeout).after steps).clock := by
  induction steps using List.reverseRecOn with
  | nil => exact Or.inr ⟨zero_isAmount, by rw [total, after, new]; simp [toRat_zero]⟩
  | append_singleton front dt ih =>
    have hcounts := h dt (by simp)
    have hfront : AllCount front := fun x hx => h x (List.mem_append_left _ hx)
    obtain ⟨hdt, -⟩ := isAmount_of_counts hcounts
    rw [after_concat, (advance_of_counts _ hcounts).1, total_concat, List.length_append,
      List.length_singleton]
    rcases ih hfront with hinfinite | ⟨hclock, hle⟩
    · rw [hinfinite]
      exact Or.inl (Single.infinity_add hdt.isSize)
    · rcases (Single.add_isSize hclock.isSize hdt.isSize).eq_infinity_or_isAmount with
        hinfinite | hamount
      · exact Or.inl hinfinite
      · refine Or.inr ⟨hamount, ?_⟩
        have hone := (toRat_add_bounds hclock hdt hamount).1
        have hpower : (1 - roundoff) ^ front.length ≤ 1 :=
          pow_le_one₀ (by linarith [roundoff_le]) (by linarith [roundoff_pos])
        have hdtle : toRat dt * (1 - roundoff) ^ front.length ≤ toRat dt :=
          mul_le_of_le_one_right (Single.toRat_nonneg hdt) hpower
        have hfactor : 0 ≤ 1 - roundoff := by linarith [roundoff_le]
        calc (total front + toRat dt) * (1 - roundoff) ^ (front.length + 1)
            = (total front * (1 - roundoff) ^ front.length +
                toRat dt * (1 - roundoff) ^ front.length) * (1 - roundoff) := by ring
          _ ≤ (toRat ((new interval timeout).after front).clock + toRat dt) * (1 - roundoff) := by
            gcongr
          _ ≤ _ := hone

/-- If the steps stay below an amount, the clock is ahead of them by one rounding for each of them
at most. -/
theorem clock_le (interval timeout : Float32) (hy : IsAmount y) (h : AllCount steps)
    (hlow : total steps * (1 + roundoff) ^ steps.length ≤ toRat y) :
    IsAmount ((new interval timeout).after steps).clock ∧
      toRat ((new interval timeout).after steps).clock ≤
        total steps * (1 + roundoff) ^ steps.length := by
  induction steps using List.reverseRecOn with
  | nil => exact ⟨zero_isAmount, by rw [total, after, new]; simp [toRat_zero]⟩
  | append_singleton front dt ih =>
    have hcounts := h dt (by simp)
    have hfront : AllCount front := fun x hx => h x (List.mem_append_left _ hx)
    obtain ⟨hdt, -⟩ := isAmount_of_counts hcounts
    rw [after_concat, (advance_of_counts _ hcounts).1]
    rw [total_concat, List.length_append, List.length_singleton] at hlow ⊢
    have hsum := total_nonneg hfront
    have hdt0 := Single.toRat_nonneg hdt
    have hpos := roundoff_pos
    have hpower : 1 ≤ (1 + roundoff) ^ front.length := one_le_pow₀ (by linarith)
    have hdtle : toRat dt ≤ toRat dt * (1 + roundoff) ^ front.length :=
      le_mul_of_one_le_right hdt0 hpower
    -- the sum before it is rounded, one rounding below what is asked for
    have hexact : total front * (1 + roundoff) ^ front.length + toRat dt ≤
        (total front + toRat dt) * (1 + roundoff) ^ front.length := by linarith
    have hgrow : (total front + toRat dt) * (1 + roundoff) ^ front.length ≤
        (total front + toRat dt) * (1 + roundoff) ^ (front.length + 1) := by
      rw [pow_succ, ← mul_assoc]
      exact le_mul_of_one_le_right (by positivity) (by linarith)
    obtain ⟨hclock, hle⟩ := ih hfront (by linarith)
    have hbelow : toRat ((new interval timeout).after front).clock + toRat dt ≤ toRat y := by
      linarith
    have hamount : IsAmount (((new interval timeout).after front).clock + dt) := by
      rw [Single.add_eq hclock hdt]
      exact (Single.isAmount_ofRat hy hbelow).1
    refine ⟨hamount, (toRat_add_bounds hclock hdt hamount).2.trans ?_⟩
    calc (toRat ((new interval timeout).after front).clock + toRat dt) * (1 + roundoff)
        ≤ (total front + toRat dt) * (1 + roundoff) ^ front.length * (1 + roundoff) := by
          gcongr
          linarith
      _ = (total front + toRat dt) * (1 + roundoff) ^ (front.length + 1) := by ring

/-- All steps are counted as long as the counter holds them. -/
theorem toNat_ticks (h : AllCount steps) (hlength : steps.length < UInt32.size) :
    ((new interval timeout).after steps).ticks.toNat = steps.length := by
  induction steps using List.reverseRecOn with
  | nil => rfl
  | append_singleton front dt ih =>
    have hcounts := h dt (by simp)
    have hfront : AllCount front := fun x hx => h x (List.mem_append_left _ hx)
    rw [List.length_append, List.length_singleton] at hlength ⊢
    rw [after_concat, (advance_of_counts _ hcounts).2, UInt32.toNat_add, UInt32.toNat_one,
      ih hfront (by omega), Nat.mod_eq_of_lt hlength]

/-! ## The slack of few steps -/

theorem toRat_ofUInt32 {n : UInt32} (h : n.toNat < 2 ^ 24) :
    toRat (Scalar.ofUInt32 n : Float32) = n.toNat :=
  Single.toRat_ofNat h

/-- The slack of few steps is exact as a part of the clock: two roundings for each step. -/
theorem toRat_allowance {n : UInt32} (h : n.toNat < 2 ^ 24) :
    toRat (allowance n) = 2 * (n.toNat * roundoff) := by
  have hexact := Single.toRat_ofRat_of_short (e := -23) h (by decide) (by
    rw [← toRat_ofUInt32 h, ← allowance_eq]
    exact allowance_isAmount n)
  rw [← toRat_ofUInt32 h, ← allowance_eq, toRat_ofUInt32 h] at hexact
  rw [hexact, roundoff, show (-23 : ℤ) = -24 + 1 by norm_num, zpow_add_one₀ two_ne_zero]
  ring

section Slack

variable {n : UInt32} {c : Float32}

/-- The slack of few steps is off by one more rounding, unless the clock is next to nothing. -/
theorem slack_bounds (hc : IsAmount c) (hn : n.toNat < 2 ^ 24) (hs : IsAmount (allowance n * c))
    (hlow : 2 ^ (-126 : ℤ) ≤ 2 * (n.toNat * roundoff) * toRat c) :
    2 * (n.toNat * roundoff) * toRat c * (1 - roundoff) ≤ toRat (allowance n * c) ∧
      toRat (allowance n * c) ≤ 2 * (n.toNat * roundoff) * toRat c * (1 + roundoff) := by
  rw [Single.mul_eq (allowance_isAmount n) hc, toRat_allowance hn] at hs ⊢
  have herror := Single.abs_toRat_ofRat_sub_le hlow hs
  rw [div_eq_mul_roundoff] at herror
  obtain ⟨hleft, hright⟩ := abs_le.mp herror
  constructor
  · linarith
  · linarith

/-- The slack of a clock that is next to nothing is next to nothing. -/
theorem slack_le (hc : IsAmount c) (hn : n.toNat < 2 ^ 24)
    (hhigh : 2 * (n.toNat * roundoff) * toRat c ≤ 2 ^ (-126 : ℤ)) :
    toRat (allowance n * c) ≤ 2 ^ (-126 : ℤ) := by
  have hview : Single.view (Float32.ofBits 0x800000) = .finite false ⟨2 ^ 23, -149⟩ := by
    decide +kernel
  have hvalue : toRat (Float32.ofBits 0x800000) = 2 ^ (-126 : ℤ) := by
    rw [Single.toRat_of_view hview, Binary.toRat]
    norm_num
  rw [Single.mul_eq (allowance_isAmount n) hc, toRat_allowance hn, ← hvalue]
  exact (Single.isAmount_ofRat (Single.isAmount_of_view hview) (hvalue ▸ hhigh)).2

end Slack

/-! ## The last look -/

/-- What is finite and above zero is an amount. -/
theorem isAmount_of_finite {x : Float32} (h : x.isFinite = true) (hpos : 0 < toRat x) :
    IsAmount x := by
  obtain ⟨negative, b, hview⟩ := Single.isFinite_iff.mp h
  cases negative with
  | false => exact Single.isAmount_of_view hview
  | true =>
    have hnonneg := b.toRat_nonneg
    rw [toRat, hview] at hpos
    dsimp only at hpos
    rw [if_pos rfl] at hpos
    linarith

/-- A timeout above zero is taken as it is. -/
theorem new_timeout (hamount : IsAmount timeout) (h : 0 < toRat timeout) :
    (new interval timeout).timeout = timeout := by
  have hnumber : Scalar.isNaN timeout = false := hamount.isSize.isNaN_eq_false
  have hmore : ¬timeout ≤ 0.0 := by
    rw [hamount.isSize.le_iff zero_isSize, bits_zero, not_le]
    exact (Single.toRat_pos_iff hamount).mp h
  show Scalar.max timeout 0.0 = timeout
  unfold Scalar.max
  rw [if_neg (Bool.eq_false_iff.mp hnumber), if_neg hmore]

theorem new_run (interval timeout : Float32) {steps : List Float32}
    (h : steps.length < UInt32.size) : (new interval timeout).Run steps :=
  run (new_sound interval timeout) (new_told interval timeout) (by
    show (0 : UInt32).toNat + _ < _
    rw [UInt32.toNat_zero, Nat.zero_add]
    exact h)

/-- Some steps of time that count: at least one, and not too many, for a timeout that is not too
small. -/
structure Few (timeout : Float32) (steps : List Float32) : Prop where
  finite : timeout.isFinite = true
  low : 2 ^ (-100 : ℤ) ≤ toRat timeout
  count : AllCount steps
  some : 1 ≤ steps.length
  few : steps.length ≤ 2 ^ 20

section Few

variable {n : UInt32} {c : Float32} (h : Few timeout steps)

include h

theorem Few.timeout_pos : 0 < toRat timeout :=
  (by positivity : (0 : ℚ) < 2 ^ (-100 : ℤ)).trans_le h.low

theorem Few.isAmount : IsAmount timeout := isAmount_of_finite h.finite h.timeout_pos

theorem Few.lt_size : steps.length < UInt32.size := h.few.trans_lt (by decide)

theorem Few.le_drift : roundoff ≤ steps.length * roundoff := by
  have hone : (1 : ℚ) ≤ steps.length := by exact_mod_cast h.some
  exact le_mul_of_one_le_left roundoff_pos.le hone

/-- The steps are too few for their roundings to add up to a sixteenth. -/
theorem Few.drift_le : steps.length * roundoff ≤ 1 / 16 := by
  have hfew : (steps.length : ℚ) ≤ 2 ^ 20 := by exact_mod_cast h.few
  calc steps.length * roundoff ≤ 2 ^ 20 * roundoff := by
        have hpos := roundoff_pos
        gcongr
    _ = 1 / 16 := by
        unfold roundoff
        norm_num

theorem Few.ticks (interval : Float32) :
    ((new interval timeout).after steps).ticks.toNat = steps.length :=
  toNat_ticks h.count h.lt_size

/-- Whether the last look is due is a matter of bits. -/
theorem Few.timeout_le_now_iff (interval : Float32) :
    ((new interval timeout).after steps).timeout ≤ ((new interval timeout).after steps).now ↔
      timeout.toBits.toNat ≤ ((new interval timeout).after steps).now.toBits.toNat := by
  have hrun := new_run interval timeout h.lt_size
  have htimeout : ((new interval timeout).after steps).timeout = timeout :=
    hrun.timeout.trans (new_timeout h.isAmount h.timeout_pos)
  rw [hrun.sound.timeout.le_iff hrun.sound.now_isSize, htimeout]

theorem Few.ticks_lt (hn : n.toNat = steps.length) : n.toNat < 2 ^ 24 := by
  have hfew := h.few
  omega

/-- A clock that is behind by one rounding for each step is not behind once the slack is added. -/
theorem Few.le_clock_add_slack (hn : n.toNat = steps.length) (hc : IsAmount c)
    (hs : IsAmount (allowance n * c))
    (hle : total steps * (1 - roundoff) ^ steps.length ≤ toRat c)
    (hlate : toRat timeout ≤ total steps) :
    toRat timeout ≤ toRat c + toRat (allowance n * c) := by
  have hx := h.le_drift
  have hu := roundoff_pos
  have hu' := roundoff_le
  have hpower := one_sub_mul_le_pow (by linarith : roundoff ≤ 1) steps.length
  have hmake := le_slack hu.le hu' h.drift_le
  have hsmall : 2 ^ (-101 : ℤ) ≤ toRat c := by
    calc (2 : ℚ) ^ (-101 : ℤ) ≤ 2 ^ (-100 : ℤ) * (1 - 1 / 16) := by norm_num
      _ ≤ total steps * (1 - roundoff) ^ steps.length := by
        have hlow := h.low
        have hdrift := h.drift_le
        have htotal := total_nonneg h.count
        gcongr
        · linarith
        · linarith
      _ ≤ toRat c := hle
  have hnormal : 2 ^ (-126 : ℤ) ≤ 2 * (n.toNat * roundoff) * toRat c := by
    calc (2 : ℚ) ^ (-126 : ℤ) ≤ 2 * 2 ^ (-24 : ℤ) * 2 ^ (-101 : ℤ) := by norm_num
      _ ≤ 2 * (n.toNat * roundoff) * toRat c := by
        rw [hn]
        gcongr
        exact hx
  have hgrant := (slack_bounds hc (h.ticks_lt hn) hs hnormal).1
  rw [hn] at hgrant
  have hfactor : 0 ≤ 1 + 2 * (steps.length * roundoff) * (1 - roundoff) := by
    have hrest : 0 ≤ 1 - roundoff := by linarith
    positivity
  calc toRat timeout ≤ total steps := hlate
    _ ≤ total steps * ((1 - roundoff) ^ steps.length *
          (1 + 2 * (steps.length * roundoff) * (1 - roundoff))) :=
      le_mul_of_one_le_right (total_nonneg h.count) hmake
    _ = total steps * (1 - roundoff) ^ steps.length *
          (1 + 2 * (steps.length * roundoff) * (1 - roundoff)) := by ring
    _ ≤ toRat c * (1 + 2 * (steps.length * roundoff) * (1 - roundoff)) := by gcongr
    _ ≤ toRat c + toRat (allowance n * c) := by linarith

/-- The last look is not late. -/
theorem Few.timeout_le_now (interval : Float32) (hlate : toRat timeout ≤ total steps) :
    ((new interval timeout).after steps).timeout ≤ ((new interval timeout).after steps).now := by
  rw [h.timeout_le_now_iff]
  have hticks := h.ticks interval
  have hclock := le_clock interval timeout h.count
  have hslack := (new_run interval timeout h.lt_size).sound.slack_isSize
  have hamount := h.isAmount
  generalize (new interval timeout).after steps = t at *
  rw [now]
  rcases hclock with hinfinite | ⟨hclock, hle⟩
  · rw [hinfinite, Single.infinity_add hslack, Single.toBits_infinity]
    exact hamount.isSize
  rcases hslack.eq_infinity_or_isAmount with hinfinite | hslack
  · rw [hinfinite, Single.add_infinity hclock.isSize, Single.toBits_infinity]
    exact hamount.isSize
  rw [Single.add_eq hclock hslack, ← Single.ofRat_toRat hamount]
  exact Single.toBits_ofRat_mono (h.le_clock_add_slack hticks hclock hslack hle hlate)

/-- Steps that are short of the timeout by four roundings each do not reach it by rounding alone. -/
theorem Few.growth_le :
    (1 - 4 * (steps.length * roundoff)) * (1 + roundoff) ^ steps.length ≤ 1 := by
  have hu := roundoff_pos
  have hu' := roundoff_le
  have hpower := one_add_pow_mul_le hu.le (by linarith : roundoff ≤ 1) steps.length
  have hgrown : 0 ≤ (1 + roundoff) ^ steps.length := by positivity
  have hx := h.le_drift
  nlinarith

/-- A slack that is not next to nothing is not enough for a clock that is short of the timeout. -/
theorem Few.add_slack_lt_of_normal (hn : n.toNat = steps.length) (hc : IsAmount c)
    (hs : IsAmount (allowance n * c))
    (hle : toRat c ≤
      toRat timeout * ((1 - 4 * (steps.length * roundoff)) * (1 + roundoff) ^ steps.length))
    (hnormal : 2 ^ (-126 : ℤ) ≤ 2 * (n.toNat * roundoff) * toRat c) :
    (toRat c + toRat (allowance n * c)) * (1 + roundoff) < toRat timeout := by
  have hu := roundoff_pos
  have hpos := h.timeout_pos
  have hstrict := slack_lt hu h.some h.drift_le
  have hgrant := (slack_bounds hc (h.ticks_lt hn) hs hnormal).2
  rw [hn] at hgrant
  calc (toRat c + toRat (allowance n * c)) * (1 + roundoff)
      ≤ toRat c * ((1 + 2 * (steps.length * roundoff) * (1 + roundoff)) * (1 + roundoff)) := by
        nlinarith
    _ ≤ toRat timeout * ((1 - 4 * (steps.length * roundoff)) * (1 + roundoff) ^ steps.length) *
          ((1 + 2 * (steps.length * roundoff) * (1 + roundoff)) * (1 + roundoff)) := by gcongr
    _ = toRat timeout * ((1 - 4 * (steps.length * roundoff)) * (1 + roundoff) ^ steps.length *
          ((1 + 2 * (steps.length * roundoff) * (1 + roundoff)) * (1 + roundoff))) := by ring
    _ < toRat timeout * 1 := by gcongr
    _ = toRat timeout := mul_one _

/-- If the slack is next to nothing, then the clock is far from the timeout. -/
theorem Few.add_slack_lt_of_small (hn : n.toNat = steps.length) (hc : IsAmount c)
    (hsmall : 2 * (n.toNat * roundoff) * toRat c < 2 ^ (-126 : ℤ)) :
    (toRat c + toRat (allowance n * c)) * (1 + roundoff) < toRat timeout := by
  have hu := roundoff_pos
  have hu' := roundoff_le
  have hx := h.le_drift
  have hnonneg := Single.toRat_nonneg hc
  have hslack := slack_le hc (h.ticks_lt hn) hsmall.le
  have hnear : toRat c ≤ 2 ^ (-103 : ℤ) := by
    rw [hn] at hsmall
    have hlt : roundoff * toRat c < roundoff * 2 ^ (-103 : ℤ) := by
      calc roundoff * toRat c ≤ steps.length * roundoff * toRat c := by gcongr
        _ = 2 * (steps.length * roundoff) * toRat c / 2 := by ring
        _ < 2 ^ (-126 : ℤ) / 2 := by gcongr
        _ = roundoff * 2 ^ (-103 : ℤ) := by
          unfold roundoff
          norm_num
    exact (lt_of_mul_lt_mul_left hlt hu.le).le
  calc (toRat c + toRat (allowance n * c)) * (1 + roundoff)
      ≤ (2 ^ (-103 : ℤ) + 2 ^ (-126 : ℤ)) * (1 + 1 / 16) := by gcongr
    _ < 2 ^ (-100 : ℤ) := by norm_num
    _ ≤ toRat timeout := h.low

/-- The last look is not much too early. -/
theorem Few.now_lt_timeout (interval : Float32)
    (hearly : total steps ≤ toRat timeout * (1 - 4 * (steps.length * roundoff))) :
    ¬((new interval timeout).after steps).timeout ≤ ((new interval timeout).after steps).now := by
  rw [h.timeout_le_now_iff, not_le]
  have hticks := h.ticks interval
  have hamount := h.isAmount
  have hu := roundoff_pos
  have hpos := h.timeout_pos
  have hbound : total steps * (1 + roundoff) ^ steps.length ≤
      toRat timeout * ((1 - 4 * (steps.length * roundoff)) * (1 + roundoff) ^ steps.length) := by
    rw [← mul_assoc]
    gcongr
  have hbelow : toRat timeout * ((1 - 4 * (steps.length * roundoff)) *
      (1 + roundoff) ^ steps.length) ≤ toRat timeout := mul_le_of_le_one_right hpos.le h.growth_le
  obtain ⟨hclock, hle⟩ := clock_le interval timeout hamount h.count (hbound.trans hbelow)
  have hclockle := hle.trans hbound
  generalize (new interval timeout).after steps = t at *
  have hnonneg := Single.toRat_nonneg hclock
  have hslack : IsAmount t.slack := by
    rw [slack_eq, Single.mul_eq (allowance_isAmount _) hclock,
      toRat_allowance (h.ticks_lt hticks), hticks]
    refine (Single.isAmount_ofRat hamount ?_).1
    have hdrift := h.drift_le
    nlinarith
  have hsum : (toRat t.clock + toRat t.slack) * (1 + roundoff) < toRat timeout := by
    by_cases hnormal : 2 ^ (-126 : ℤ) ≤ 2 * (t.ticks.toNat * roundoff) * toRat t.clock
    · exact h.add_slack_lt_of_normal hticks hclock hslack hclockle hnormal
    · exact h.add_slack_lt_of_small hticks hclock (not_le.mp hnormal)
  have hamount' : IsAmount (t.clock + t.slack) := by
    rw [Single.add_eq hclock hslack]
    refine (Single.isAmount_ofRat hamount (le_trans ?_ hsum.le)).1
    have hslack0 := Single.toRat_nonneg hslack
    exact le_mul_of_one_le_right (by positivity) (by linarith)
  exact (hamount'.toRat_lt_iff hamount).mp
    ((toRat_add_bounds hclock hslack hamount').2.trans_lt hsum)

end Few

theorem answers_concat (t : RecoveryTimer Float32) (steps : List Float32) (dt : Float32) :
    t.answers (steps ++ [dt]) = t.answers steps ++ [((t.after steps).advance dt).1] := by
  induction steps generalizing t with
  | nil => rfl
  | cons first rest ih =>
    rw [List.cons_append, answers, ih, answers, List.cons_append]
    rfl

/-- The last step asks for the last look if that is due after it. -/
theorem getLast?_answers (t : RecoveryTimer Float32) (h : steps ≠ []) :
    (t.answers steps).getLast? = some .final ↔
      (t.after steps).timeout ≤ (t.after steps).now := by
  obtain ⟨front, dt, rfl⟩ := List.eq_nil_or_concat' steps |>.resolve_left h
  obtain ⟨polls, hcheck⟩ := check_snd ((t.after front).add dt)
  rw [answers_concat, List.getLast?_concat, Option.some.injEq, advance_final_iff, after_concat,
    advance, hcheck]
  exact Iff.rfl

/-- Let time go by in at least one and at most `2^20` steps, each of them positive and finite, with
a timeout that is finite and not less than `2^(-100)`. If the steps make up the timeout, the last of
them asks for the last look. If they are short of it by more than four roundings of it for each
step, it does not. -/
theorem final_near_timeout (interval timeout : Float32) (steps : List Float32)
    (hfinite : timeout.isFinite = true) (hlow : 2 ^ (-100 : ℤ) ≤ toRat timeout)
    (hsome : 1 ≤ steps.length) (hfew : steps.length ≤ 2 ^ 20)
    (hsteps : ∀ dt ∈ steps, dt.isFinite = true ∧ 0.0 < dt) :
    let last := ((new interval timeout).answers steps).getLast?
    let elapsed := (steps.map toRat).sum
    (toRat timeout ≤ elapsed → last = some .final) ∧
      (elapsed ≤ toRat timeout * (1 - 4 * steps.length * 2 ^ (-24 : ℤ)) → last ≠ some .final) := by
  have h : Few timeout steps := ⟨hfinite, hlow, hsteps, hsome, hfew⟩
  have hne : steps ≠ [] := List.ne_nil_of_length_pos hsome
  intro last elapsed
  have hlast := getLast?_answers (new interval timeout) hne
  constructor
  · intro hlate
    exact hlast.mpr (h.timeout_le_now interval hlate)
  · intro hearly
    rw [mul_assoc 4] at hearly
    exact mt hlast.mp (h.now_lt_timeout interval hearly)

/-- Two steps that add up to the timeout, and two that fall short of it. -/
theorem final_near_timeout_twoSteps :
    ((new (0.25 : Float32) 3.0).answers [1.5, 1.5]).getLast? = some .final ∧
      ((new (0.25 : Float32) 3.0).answers [1.5, 1.25]).getLast? ≠ some .final := by
  have hthree : toRat (3.0 : Float32) = 3 := by
    have hview : Single.view (3.0 : Float32) = .finite false ⟨3 * 2 ^ 22, -22⟩ := by decide +kernel
    rw [Single.toRat_of_view hview, Binary.toRat]
    norm_num
  have hlong : toRat (1.5 : Float32) = 3 / 2 := by
    have hview : Single.view (1.5 : Float32) = .finite false ⟨3 * 2 ^ 22, -23⟩ := by decide +kernel
    rw [Single.toRat_of_view hview, Binary.toRat]
    norm_num
  have hshort : toRat (1.25 : Float32) = 5 / 4 := by
    have hview : Single.view (1.25 : Float32) = .finite false ⟨5 * 2 ^ 21, -23⟩ := by decide +kernel
    rw [Single.toRat_of_view hview, Binary.toRat]
    norm_num
  have hfinite : (3.0 : Float32).isFinite = true := by decide +kernel
  have hlow : 2 ^ (-100 : ℤ) ≤ toRat (3.0 : Float32) := by
    rw [hthree]
    norm_num
  have hlate := final_near_timeout 0.25 3.0 [1.5, 1.5] hfinite hlow (by decide) (by decide)
    (by decide +kernel)
  have hearly := final_near_timeout 0.25 3.0 [1.5, 1.25] hfinite hlow (by decide) (by decide)
    (by decide +kernel)
  refine ⟨hlate.1 ?_, hearly.2 ?_⟩
  · rw [List.map_cons, List.map_cons, List.map_nil, List.sum_cons, List.sum_cons, List.sum_nil,
      hlong, hthree]
    norm_num
  · rw [List.map_cons, List.map_cons, List.map_nil, List.sum_cons, List.sum_cons, List.sum_nil,
      hlong, hshort, hthree]
    norm_num

end Skycam.RecoveryTimer
