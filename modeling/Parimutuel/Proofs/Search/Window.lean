import Parimutuel.Proofs.Pricing.Sound

namespace Parimutuel.ShadowPrice

structure Window where
  low : Int
  high : Int

namespace Window

-- `total` says what all candidates together take at a price.
variable (total : Int → Int)

def closed (t : Terms) (w : Window) : Bool :=
  t.bankroll - total w.high < t.tick || w.high - w.low ≤ 1

def widen (bankroll : Int) : Nat → Window → Window
  | 0, w => w
  | n + 1, w => if total w.high ≤ bankroll then w else widen bankroll n ⟨w.high, w.high * 2⟩

def halve (bankroll : Int) (w : Window) : Window :=
  if total ((w.low + w.high) / 2) > bankroll then { w with low := (w.low + w.high) / 2 }
  else { w with high := (w.low + w.high) / 2 }

def narrow (t : Terms) : Nat → Window → Window × Nat
  | 0, w => (w, 0)
  | n + 1, w =>
    if w.closed total t then (w, 0)
    else ((narrow t n (w.halve total t.bankroll)).1, (narrow t n (w.halve total t.bankroll)).2 + 1)

structure Straddles (bankroll : Int) (w : Window) : Prop where
  low_nonneg : 0 ≤ w.low
  low_lt : w.low < w.high
  exceeded : bankroll < total w.low

variable {total}

theorem narrow_of_closed {t : Terms} {n : Nat} {w : Window} (closed : w.closed total t = true) :
    w.narrow total t n = (w, 0) := by
  cases n with
  | zero => rfl
  | succ n => exact if_pos closed

theorem narrow_of_open {t : Terms} {n : Nat} {w : Window} (opened : w.closed total t = false) :
    w.narrow total t (n + 1) = ((narrow total t n (w.halve total t.bankroll)).1,
      (narrow total t n (w.halve total t.bankroll)).2 + 1) :=
  if_neg (ne_true_of_eq_false opened)

theorem widen_straddles {bankroll : Int} {n : Nat} {w : Window} (start : w.Straddles total bankroll) :
    (w.widen total bankroll n).Straddles total bankroll := by
  induction n generalizing w with
  | zero => exact start
  | succ n ih =>
    unfold widen
    split
    · exact start
    · rename_i above
      apply ih
      have := start.low_nonneg
      have := start.low_lt
      exact ⟨by dsimp only; omega, by dsimp only; omega, Int.not_le.1 above⟩

theorem halve_straddles {t : Terms} {w : Window} (start : w.Straddles total t.bankroll)
    (opened : w.closed total t = false) : (w.halve total t.bankroll).Straddles total t.bankroll := by
  have low := start.low_nonneg
  have order := start.low_lt
  have wide : 1 < w.high - w.low := by
    simp only [closed, Bool.or_eq_false_iff, decide_eq_false_iff_not] at opened
    omega
  unfold halve
  split
  · rename_i above
    exact ⟨by dsimp only; omega, by dsimp only; omega, above⟩
  · exact ⟨low, by dsimp only; omega, start.exceeded⟩

theorem halve_fits {bankroll : Int} {w : Window} (fits : total w.high ≤ bankroll) :
    total (w.halve total bankroll).high ≤ bankroll := by
  unfold halve
  split
  · exact fits
  · rename_i within
    exact Int.not_lt.1 within

theorem narrow_straddles {t : Terms} {n : Nat} {w : Window} (start : w.Straddles total t.bankroll) :
    (w.narrow total t n).1.Straddles total t.bankroll := by
  induction n generalizing w with
  | zero => exact start
  | succ n ih =>
    unfold narrow
    cases opened : w.closed total t with
    | true => exact start
    | false => exact ih (halve_straddles start opened)

theorem narrow_fits {t : Terms} {n : Nat} {w : Window} (fits : total w.high ≤ t.bankroll) :
    total (w.narrow total t n).1.high ≤ t.bankroll := by
  induction n generalizing w with
  | zero => exact fits
  | succ n ih =>
    unfold narrow
    split
    · exact fits
    · exact ih (halve_fits fits)

end Window

def Window.filled (demand : Int → Stakes) (w : Window) : Bracket := ⟨w.low, w.high, demand w.high⟩

section Filled

variable {demand? : Int → Except Fault Stakes} {demand : Int → Stakes}
  (answers : ∀ price, demand? price = .ok (demand price))

include answers

theorem widen?_filled (bankroll : Int) (n : Nat) (w : Window) :
    widen? demand? bankroll n (w.filled demand) =
      .ok ((w.widen (fun price => (demand price).total) bankroll n).filled demand) := by
  induction n generalizing w with
  | zero => rfl
  | succ n ih =>
    unfold widen? Window.widen
    by_cases fits : (demand w.high).total ≤ bankroll
    · have within : (w.filled demand).fits bankroll = true := decide_eq_true fits
      rw [if_pos within, if_pos fits]
    · have beyond : ¬ (w.filled demand).fits bankroll = true := fun within =>
        fits (of_decide_eq_true within)
      have doubled : demand? ((w.filled demand).high * 2) = .ok (demand (w.high * 2)) :=
        answers (w.high * 2)
      rw [if_neg beyond, if_neg fits, doubled]
      exact ih ⟨w.high, w.high * 2⟩

theorem halve?_filled (bankroll : Int) (w : Window) :
    (w.filled demand).halve? demand? bankroll =
      .ok ((w.halve (fun price => (demand price).total) bankroll).filled demand) := by
  have middle : demand? (((w.filled demand).low + (w.filled demand).high) / 2) =
      .ok (demand ((w.low + w.high) / 2)) := answers ((w.low + w.high) / 2)
  unfold Bracket.halve? Window.halve
  simp only [middle, bind, Except.bind, pure, Except.pure]
  split <;> rfl

theorem narrow?_filled (t : Terms) (n : Nat) (w : Window) :
    narrow? demand? t n (w.filled demand) =
      .ok ((w.narrow (fun price => (demand price).total) t n).1.filled demand,
        (w.narrow (fun price => (demand price).total) t n).2) := by
  induction n generalizing w with
  | zero => rfl
  | succ n ih =>
    unfold narrow? Window.narrow
    have closed : (w.filled demand).closed t = w.closed (fun price => (demand price).total) t := rfl
    rw [closed]
    cases w.closed (fun price => (demand price).total) t with
    | true => rfl
    | false =>
      simp only [Bool.false_eq_true, if_false, halve?_filled answers, bind, Except.bind, ih]
      rfl

end Filled

def wish (m : Model) (cap price i : Int) : Int := min ((m.quoteAt i).peak price) cap

def demand (m : Model) (cap : Int) (candidates : List Int) (price : Int) : Stakes :=
  candidates.map fun i => (i, wish m cap price i)

def ceiling (m : Model) (candidates : List Int) : Int :=
  (candidates.map fun i => (m.quoteAt i).marginal 0).foldl (fun top value => max top (value + 1)) 1

theorem foldl_max_succ (rest : List Int) (base top : Int) :
    rest.foldl (fun top value => max top (value + 1)) (max base (top + 1)) =
      max base (rest.foldl max top + 1) := by
  induction rest generalizing top with
  | nil => rfl
  | cons value rest ih =>
    simp only [List.foldl_cons]
    rw [← ih]
    congr 1
    omega

def spending (m : Model) (cap : Int) (candidates : List Int) (price : Int) : Int :=
  (demand m cap candidates price).total

def opening (m : Model) (candidates : List Int) (t : Terms) : Window :=
  Window.widen (spending m t.cap candidates.eraseDups) t.bankroll doublings ⟨0, ceiling m candidates⟩

def settled (m : Model) (candidates : List Int) (t : Terms) : Window × Nat :=
  (opening m candidates t).narrow (spending m t.cap candidates.eraseDups) t t.iterations.toNat

def solution (m : Model) (candidates : List Int) (t : Terms) : Solution :=
  let wishes := demand m t.cap candidates.eraseDups
  let total := spending m t.cap candidates.eraseDups
  let last := settled m candidates t
  if candidates = [] ∨ t.bankroll ≤ 0 then { ending := .idle }
  else if total 0 ≤ t.bankroll then
    { ending := .saturated, stakes := funded (wishes 0), aggregate := total 0 }
  else if total (opening m candidates t).high ≤ t.bankroll then
    { ending := .searched
      price := last.1.high
      stakes := funded (wishes last.1.high)
      aggregate := total last.1.high
      iterations := last.2
      converged := last.1.closed total t }
  else { ending := .unbracketed, price := (opening m candidates t).high, converged := false }

end ShadowPrice

namespace Model

variable {m : Model} {candidates : List Int}

theorem Sound.demand? (sound : m.Sound) (cap : Int) (inside : ∀ i ∈ candidates, i ∈ options)
    (price : Int) :
    ShadowPrice.demand? m cap candidates price = .ok (ShadowPrice.demand m cap candidates price) := by
  apply mapM_ok
  intro i member
  rw [sound.optimum? (inside i member)]
  rfl

-- Somebody has to be asked for there to be a greatest value.
theorem Sound.ceiling? (sound : m.Sound) (somebody : candidates ≠ [])
    (inside : ∀ i ∈ candidates, i ∈ options) :
    ShadowPrice.ceiling? m candidates = .ok (ShadowPrice.ceiling m candidates) := by
  have first := mapM_ok candidates fun i member => sound.marginal? (inside i member) 0
  obtain ⟨i, rest, rfl⟩ := List.exists_cons_of_ne_nil somebody
  simp only [ShadowPrice.ceiling?, first, List.map_cons, ShadowPrice.greatest?, bind, Except.bind,
    pure, Except.pure, ShadowPrice.ceiling, List.foldl_cons, ShadowPrice.foldl_max_succ]

theorem Sound.solve? (sound : m.Sound) (inside : ∀ i ∈ candidates, i ∈ options) (t : Terms) :
    ShadowPrice.solve? m candidates t = .ok (ShadowPrice.solution m candidates t) := by
  have distinct : ∀ i ∈ candidates.eraseDups, i ∈ options := fun i member =>
    inside i (List.mem_eraseDups.1 member)
  have answers := sound.demand? t.cap distinct
  have wide : ShadowPrice.widen? _ t.bankroll ShadowPrice.doublings
      ⟨0, ShadowPrice.ceiling m candidates, _⟩ =
        .ok ((ShadowPrice.opening m candidates t).filled _) :=
    ShadowPrice.widen?_filled answers t.bankroll ShadowPrice.doublings
      ⟨0, ShadowPrice.ceiling m candidates⟩
  have narrowed : ShadowPrice.narrow? _ t t.iterations.toNat
      ((ShadowPrice.opening m candidates t).filled _) =
        .ok ((ShadowPrice.settled m candidates t).1.filled _, (ShadowPrice.settled m candidates t).2) :=
    ShadowPrice.narrow?_filled answers t t.iterations.toNat (ShadowPrice.opening m candidates t)
  unfold ShadowPrice.Window.filled at wide narrowed
  unfold ShadowPrice.solve? ShadowPrice.solution ShadowPrice.spending
  by_cases idle : candidates = [] ∨ t.bankroll ≤ 0
  · simp only [if_pos idle, pure, Except.pure]
  · have top := sound.ceiling? (fun nobody => idle (.inl nobody)) inside
    simp only [if_neg idle, answers, top, wide, narrowed, bind, Except.bind, pure,
      Except.pure, ShadowPrice.Bracket.fits, decide_eq_true_eq]
    split
    · rfl
    · split <;> rfl

end Model
end Parimutuel
