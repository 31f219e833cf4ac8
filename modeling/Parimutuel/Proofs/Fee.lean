import Mathlib.Algebra.Order.Ring.Int
import Mathlib.Order.Bounds.Basic
import Mathlib.Tactic.Choose
import Parimutuel.Fee

namespace Parimutuel.Fee.Schedule

variable {s : Schedule} {available gross total last : Int} {n up down : Nat}

theorem Fits.mono (rate : 0 < bpsScale + s.bps) {available less more : Int} (order : less ≤ more)
    (fits : s.Fits available more) : s.Fits available less := by
  rw [fits_iff] at fits ⊢
  have weights := Int.mul_le_mul_of_nonneg_right order (Int.le_of_lt rate)
  omega

theorem net?_fits (rate : 0 < bpsScale + s.bps) (gross : Int) :
    ∃ total, s.net? gross = .ok total ∧ (total ≤ 0 ∨ s.Fits (s.available gross) total) := by
  unfold net?
  split
  · exact ⟨0, rfl, .inl (Int.le_refl 0)⟩
  · rw [if_neg (by omega)]
    exact ⟨_, rfl, descend_fits s _ _⟩

theorem fits_available_iff (positive : 0 < total) :
    s.Fits (s.available gross) total ↔ total + s.feeFor total ≤ gross := by
  unfold Fits available feeFor
  rw [if_neg (by omega)]
  omega

theorem covered (rate : 0 < bpsScale + s.bps) {gross most total : Int} (net : s.net? gross = .ok most)
    (positive : 0 < total) (within : total ≤ most) : total + s.feeFor total ≤ gross := by
  obtain ⟨left, run, fits⟩ := net?_fits rate gross
  rw [net] at run
  cases run
  rcases fits with nothing | fits
  · omega
  · exact (fits_available_iff positive).1 (fits.mono rate within)

-- `n` times a unit more that fits, until the next one does not.
inductive Climbs (s : Schedule) (available : Int) : Nat → Int → Int → Prop where
  | settled {total : Int} (full : ¬ s.Fits available (total + 1)) : Climbs s available 0 total total
  | raised {n : Nat} {total last : Int} (fits : s.Fits available (total + 1))
      (rest : Climbs s available n (total + 1) last) : Climbs s available (n + 1) total last

-- `n` times a unit less, until what is left fits or nothing is left.
inductive Descends (s : Schedule) (available : Int) : Nat → Int → Int → Prop where
  | settled {total : Int} (covered : total ≤ 0 ∨ s.Fits available total) :
      Descends s available 0 total total
  | lowered {n : Nat} {total last : Int} (positive : 0 < total) (beyond : ¬ s.Fits available total)
      (rest : Descends s available n (total - 1) last) : Descends s available (n + 1) total last

-- The answer to a balance, with the corrections of the first guess upward and then downward.
inductive Nets (s : Schedule) (gross : Int) : Nat → Nat → Int → Prop where
  | spent (nothing : s.available gross ≤ 0) : Nets s gross 0 0 0
  | corrected {up down : Nat} {top total : Int} (left : 0 < s.available gross)
      (climbs : s.Climbs (s.available gross) up (s.estimate gross) top)
      (descends : s.Descends (s.available gross) down top total) : Nets s gross up down total

theorem climb_exact (rate : 0 < bpsScale + s.bps) :
    s.climb rate available total = last ↔ ∃ n, s.Climbs available n total last := by
  constructor
  · intro run
    fun_induction climb s rate available total with
    | case1 total fits ih =>
      obtain ⟨n, rest⟩ := ih run
      exact ⟨n + 1, .raised fits rest⟩
    | case2 total full =>
      cases run
      exact ⟨0, .settled full⟩
  · rintro ⟨n, climbs⟩
    induction climbs with
    | settled full => rw [climb, if_neg full]
    | raised fits _ ih => rw [climb, if_pos fits, ih]

theorem descend_exact :
    s.descend available total = last ↔ ∃ n, s.Descends available n total last := by
  constructor
  · intro run
    fun_induction descend s available total with
    | case1 total beyond ih =>
      obtain ⟨n, rest⟩ := ih run
      exact ⟨n + 1, .lowered beyond.1 beyond.2 rest⟩
    | case2 total covered =>
      cases run
      rw [not_and_or, not_not, Int.not_lt] at covered
      exact ⟨0, .settled covered⟩
  · rintro ⟨n, descends⟩
    induction descends with
    | settled covered =>
      rw [descend, if_neg]
      rintro ⟨positive, beyond⟩
      exact covered.elim (Int.not_le.2 positive) beyond
    | lowered positive beyond _ ih => rw [descend, if_pos ⟨positive, beyond⟩, ih]

theorem net?_exact (rate : 0 < bpsScale + s.bps) :
    s.net? gross = .ok total ↔ ∃ up down, s.Nets gross up down total := by
  unfold net?
  by_cases nothing : s.available gross ≤ 0
  · rw [if_pos nothing]
    constructor
    · intro run
      cases run
      exact ⟨0, 0, .spent nothing⟩
    · rintro ⟨up, down, nets⟩
      cases nets with
      | spent _ => rfl
      | corrected left _ _ => exact absurd nothing (Int.not_le.2 left)
  · rw [if_neg nothing, if_neg (by omega), dif_pos rate, Except.ok.injEq]
    constructor
    · intro run
      obtain ⟨up, climbs⟩ := (climb_exact rate).1 rfl
      obtain ⟨down, descends⟩ := descend_exact.1 run
      exact ⟨up, down, .corrected (Int.not_le.1 nothing) climbs descends⟩
    · rintro ⟨up, down, nets⟩
      cases nets with
      | spent none => exact absurd none nothing
      | corrected _ climbs descends =>
        rw [(climb_exact rate).2 ⟨up, climbs⟩]
        exact descend_exact.2 ⟨down, descends⟩

theorem Climbs.last_eq (climbs : s.Climbs available n total last) : last = total + n := by
  induction climbs with
  | settled _ => omega
  | raised _ _ ih => omega

theorem Climbs.full (climbs : s.Climbs available n total last) : ¬ s.Fits available (last + 1) := by
  induction climbs with
  | settled full => exact full
  | raised _ _ ih => exact ih

theorem Climbs.fits (climbs : s.Climbs available n total last) (start : s.Fits available total) :
    s.Fits available last := by
  induction climbs with
  | settled _ => exact start
  | raised fits _ ih => exact ih fits

theorem Descends.of_fits (descends : s.Descends available n total last) (fits : s.Fits available total) :
    n = 0 ∧ last = total := by
  cases descends with
  | settled _ => exact ⟨rfl, rfl⟩
  | lowered _ beyond _ => exact absurd fits beyond

theorem estimate_bounds (rate : 0 < bpsScale + s.bps) (left : 0 < s.available gross) :
    0 ≤ s.estimate gross ∧ s.Fits (s.available gross) (s.estimate gross) ∧
      s.available gross * bpsScale < (s.estimate gross + 1) * (bpsScale + s.bps) := by
  have whole : 0 ≤ s.available gross * bpsScale := Int.mul_nonneg (Int.le_of_lt left) (by decide)
  unfold estimate
  rw [Int.fdiv_eq_ediv_of_nonneg _ (Int.le_of_lt rate)]
  refine ⟨Int.ediv_nonneg whole (Int.le_of_lt rate), ?_, Int.lt_ediv_add_one_mul_self _ rate⟩
  have down := Int.ediv_mul_le (s.available gross * bpsScale) (Int.ne_of_gt rate)
  have unit : 0 < bpsScale := by decide
  rw [fits_iff, Int.add_mul, Int.one_mul]
  omega

-- What is left of a balance carries the total, and would not carry a unit more.
inductive Fills (s : Schedule) (gross : Int) : Int → Prop where
  | spent (nothing : s.available gross ≤ 0) : Fills s gross 0
  | full {total : Int} (left : 0 < s.available gross) (least : 0 ≤ total)
      (fits : s.Fits (s.available gross) total) (beyond : ¬ s.Fits (s.available gross) (total + 1)) :
      Fills s gross total

-- The first guess fits already, so no correction leads below it.
theorem Nets.fills (rate : 0 < bpsScale + s.bps) (nets : s.Nets gross up down total) :
    s.Fills gross total ∧ down = 0 := by
  cases nets with
  | spent nothing => exact ⟨.spent nothing, rfl⟩
  | corrected left climbs descends =>
    obtain ⟨least, fits, _⟩ := estimate_bounds rate left
    obtain ⟨rfl, rfl⟩ := descends.of_fits (climbs.fits fits)
    have raised := climbs.last_eq
    exact ⟨.full left (by omega) (climbs.fits fits) climbs.full, rfl⟩

-- A unit above the first guess may fit, since the fee is rounded down; a second one does not.
theorem Nets.up_le (rate : 0 ≤ s.bps) (nets : s.Nets gross up down total) : up ≤ 1 := by
  have unit : 0 < bpsScale := by decide
  cases nets with
  | spent _ => exact Nat.zero_le 1
  | corrected left climbs _ =>
    obtain ⟨_, _, above⟩ := estimate_bounds (by omega) left
    cases climbs with
    | settled _ => exact Nat.zero_le 1
    | raised _ rest =>
      cases rest with
      | settled _ => exact Nat.le_refl 1
      | raised fits _ =>
        have weight := (fits_iff s _ _).1 fits
        rw [Int.add_mul, Int.add_mul (s.available gross), Int.one_mul, Int.one_mul] at weight
        omega

namespace Fills

theorem nonneg (fills : s.Fills gross total) : 0 ≤ total := by
  cases fills with
  | spent _ => exact Int.le_refl 0
  | full _ least _ _ => exact least

theorem carried (fills : s.Fills gross total) : total = 0 ∨ total + s.feeFor total ≤ gross := by
  cases fills with
  | spent _ => exact .inl rfl
  | full _ least fits _ =>
    rcases Int.le_iff_eq_or_lt.1 least with none | positive
    · exact .inl none.symm
    · exact .inr ((fits_available_iff positive).1 fits)

theorem mono (rate : 0 < bpsScale + s.bps) {less more few many : Int} (order : less ≤ more)
    (poor : s.Fills less few) (rich : s.Fills more many) : few ≤ many := by
  have ease : s.available less ≤ s.available more := by
    unfold available
    omega
  cases poor with
  | spent _ => exact rich.nonneg
  | full left _ fits _ =>
    cases rich with
    | spent nothing => omega
    | full _ _ _ beyond =>
      apply Int.not_lt.1
      intro above
      exact beyond (Int.le_trans (fits.mono rate above) ease)

theorem exceeded (rate : 0 ≤ s.bps) (fills : s.Fills gross total) {more : Int} (above : total < more) :
    gross < more + s.feeFor more := by
  have positive : 0 < more := Int.lt_of_le_of_lt fills.nonneg above
  have weight : 0 < bpsScale + s.bps := Int.add_pos_of_pos_of_nonneg (by decide) rate
  rw [← Int.not_le, ← fits_available_iff positive]
  intro fits
  cases fills with
  | spent nothing =>
    have fee : 0 ≤ s.proportional more :=
      Int.ediv_nonneg (Int.mul_nonneg (Int.le_of_lt positive) rate) (by decide)
    unfold Fits at fits
    omega
  | full _ _ _ beyond => exact beyond (fits.mono weight above)

end Fills

theorem net?_nonneg (rate : 0 < bpsScale + s.bps) (net : s.net? gross = .ok total) : 0 ≤ total := by
  obtain ⟨up, down, nets⟩ := (net?_exact rate).1 net
  exact (nets.fills rate).1.nonneg

theorem net?_inverts (s : Schedule) (rate : -10000 < s.bps) :
    ∃ net : Int → Int, (∀ less more, less ≤ more → net less ≤ net more) ∧
      ∀ gross, s.net? gross = .ok (net gross) ∧ 0 ≤ net gross ∧
        (net gross = 0 ∨ net gross + s.feeFor (net gross) ≤ gross) ∧
        ∃ up down, s.Nets gross up down (net gross) ∧
          (0 ≤ s.bps → up ≤ 1 ∧ down = 0 ∧
            IsGreatest {total | 0 ≤ total ∧ (total = 0 ∨ total + s.feeFor total ≤ gross)} (net gross) ∧
            ∀ more, net gross < more → gross < more + s.feeFor more) := by
  have weight : 0 < bpsScale + s.bps := by
    unfold bpsScale
    omega
  choose net run _ using net?_fits weight
  choose up down nets using fun gross => (net?_exact weight).1 (run gross)
  have fills : ∀ gross, s.Fills gross (net gross) ∧ down gross = 0 := fun gross =>
    (nets gross).fills weight
  refine ⟨net, fun less more order => (fills less).1.mono weight order (fills more).1, ?_⟩
  intro gross
  obtain ⟨filled, none⟩ := fills gross
  refine ⟨run gross, filled.nonneg, filled.carried, up gross, down gross, nets gross, ?_⟩
  intro positive
  refine ⟨(nets gross).up_le positive, none, ⟨⟨filled.nonneg, filled.carried⟩, ?_⟩,
    fun more above => filled.exceeded positive above⟩
  rintro total ⟨_, carried⟩
  apply Int.not_lt.1
  intro above
  have beyond := filled.exceeded positive above
  have least := filled.nonneg
  omega

-- Part of the fixed fees is paid back, and the first guess is one unit too low.
theorem net?_inverts_uneven :
    ∃ total up, (⟨-20, 496, 19⟩ : Schedule).net? 10000 = .ok total ∧
      (⟨-20, 496, 19⟩ : Schedule).Nets 10000 up 0 total ∧ up ≤ 1 ∧
      total + (⟨-20, 496, 19⟩ : Schedule).feeFor total ≤ 10000 ∧
      ∀ more, total < more → 10000 < more + (⟨-20, 496, 19⟩ : Schedule).feeFor more := by
  obtain ⟨net, -, answers⟩ := net?_inverts ⟨-20, 496, 19⟩ (by decide)
  obtain ⟨run, -, carried, up, down, nets, exact⟩ := answers 10000
  obtain ⟨once, rfl, greatest, exceeded⟩ := exact (by decide)
  have some : 1 ≤ net 10000 := greatest.2 ⟨by decide, .inr (by decide)⟩
  exact ⟨_, up, run, nets, once, carried.resolve_left (by omega), exceeded⟩

end Parimutuel.Fee.Schedule
