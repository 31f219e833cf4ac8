import Mathlib.Data.List.TakeWhile
import Parimutuel.Text.Numeral

namespace Parimutuel.Text

-- Digits with at most one underscore between two of them, and what the digits are worth.
inductive DigitRun : Text → List Nat → Prop where
  | last {c d : Nat} (digit : digit? c = some d) : DigitRun [c] [d]
  | more {c d : Nat} {run : Text} {digits : List Nat} (digit : digit? c = some d)
      (rest : DigitRun run digits) : DigitRun (c :: run) (d :: digits)
  | grouped {c d : Nat} {run : Text} {digits : List Nat} (digit : digit? c = some d)
      (rest : DigitRun run digits) : DigitRun (c :: underscore :: run) (d :: digits)

-- A sign, or none, and the number that it makes of a size.
inductive Signed (size : Int) : Text → Int → Prop where
  | bare : Signed size [] size
  | positive : Signed size [plus] size
  | negative : Signed size [minus] (-size)

def Blank (t : Text) : Prop := ∀ c ∈ t, isNumeralBlank c = true

def Numeral (t : Text) (n : Int) : Prop :=
  ∃ lead mark run trail : Text, ∃ digits : List Nat, t = lead ++ (mark ++ (run ++ trail)) ∧
    Blank lead ∧ Signed (ofDigits digits) mark n ∧ DigitRun run digits ∧
    digits.length ≤ digitLimit ∧ Blank trail

-- Nothing that stands around digits is one itself.
theorem digit?_edge :
    ∀ c ∈ [9, 10, 11, 12, 13, 0x20, plus, minus, underscore] ++ wideBlanks, digit? c = none := by
  decide

theorem digit?_blank {c : Nat} (blank : isNumeralBlank c = true) : digit? c = none := by
  simp only [isNumeralBlank, Bool.or_eq_true, Bool.and_eq_true, decide_eq_true_eq, beq_iff_eq,
    List.contains_iff_mem] at blank
  rcases blank with narrow | wide
  · refine digit?_edge c (List.mem_append_left _ ?_)
    simp only [List.mem_cons, List.not_mem_nil, or_false]
    omega
  · exact digit?_edge c (List.mem_append_right _ wide)

theorem ne_of_digit {c d other : Nat} (digit : digit? c = some d) (none : digit? other = none) :
    c ≠ other := by
  rintro rfl
  rw [none] at digit
  cases digit

theorem solid_of_digit {c d : Nat} (digit : digit? c = some d) : isNumeralBlank c = false := by
  rw [← Bool.not_eq_true]
  intro blank
  exact ne_of_digit digit (digit?_blank blank) rfl

-- What stands after a run cannot belong to it.
def EndsRun (rest : Text) : Prop := ∀ c ∈ rest.head?, digit? c = none ∧ c ≠ underscore

theorem Blank.endsRun {t : Text} (blank : Blank t) : EndsRun t := by
  intro c first
  have space := blank c (List.mem_of_mem_head? first)
  refine ⟨digit?_blank space, ?_⟩
  rintro rfl
  exact absurd space (by decide)

-- Behind a digit: nothing more, another digit, or an underscore and a digit.
inductive Continued : Text → List Nat → Prop where
  | done : Continued [] []
  | digit {run : Text} {digits : List Nat} (rest : DigitRun run digits) : Continued run digits
  | grouped {run : Text} {digits : List Nat} (rest : DigitRun run digits) :
      Continued (underscore :: run) digits

theorem Continued.run {c d : Nat} {run : Text} {digits : List Nat} (digit : digit? c = some d)
    (rest : Continued run digits) : DigitRun (c :: run) (d :: digits) := by
  cases rest with
  | done => exact .last digit
  | digit rest => exact .more digit rest
  | grouped rest => exact .grouped digit rest

theorem digitRun?_sound {needsDigit : Bool} {t rest : Text} {digits : List Nat}
    (read : digitRun? needsDigit t = some (digits, rest)) :
    ∃ run, t = run ++ rest ∧ EndsRun rest ∧ Continued run digits ∧
      (needsDigit = true → DigitRun run digits) := by
  fun_induction digitRun? needsDigit t generalizing digits rest with
  | case1 => cases read
  | case2 needsDigit optional =>
    cases read
    refine ⟨[], rfl, ?_, .done, fun needed => absurd needed optional⟩
    intro c first
    cases first
  | case3 needsDigit c t d digit ih =>
    obtain ⟨⟨others, after⟩, more, same⟩ := Option.map_eq_some_iff.1 read
    cases same
    obtain ⟨run, rfl, ends, continued, -⟩ := ih more
    exact ⟨c :: run, rfl, ends, .digit (continued.run digit), fun _ => continued.run digit⟩
  | case4 => cases read
  | case5 needsDigit t optional _ ih =>
    obtain ⟨run, rfl, ends, -, needed⟩ := ih read
    exact ⟨underscore :: run, rfl, ends, .grouped (needed rfl), fun more => absurd more optional⟩
  | case6 needsDigit c t none optional other =>
    cases read
    refine ⟨[], rfl, ?_, .done, fun needed => absurd needed optional⟩
    intro first same
    cases same
    exact ⟨none, other⟩

theorem digitRun?_end {rest : Text} (ends : EndsRun rest) : digitRun? false rest = some ([], rest) := by
  cases rest with
  | nil => rfl
  | cons c t =>
    obtain ⟨none, other⟩ := ends c rfl
    simp [digitRun?, none, other]

theorem DigitRun.read {run rest : Text} {digits : List Nat} (written : DigitRun run digits)
    (ends : EndsRun rest) (needsDigit : Bool) :
    digitRun? needsDigit (run ++ rest) = some (digits, rest) := by
  induction written generalizing needsDigit with
  | last digit => simp [digitRun?, digit, digitRun?_end ends]
  | more digit _ ih => simp [digitRun?, digit, ih]
  | grouped digit _ ih =>
    have mark : digit? underscore = none := by decide
    simp [digitRun?, digit, mark, ih]

theorem sign_sound (t : Text) (size : Int) :
    ∃ mark, t = mark ++ (sign t).2 ∧ Signed size mark (if (sign t).1 then -size else size) := by
  fun_cases sign t with
  | case1 => exact ⟨[], rfl, .bare⟩
  | case2 => exact ⟨[minus], rfl, .negative⟩
  | case3 => exact ⟨[plus], rfl, .positive⟩
  | case4 => exact ⟨[], rfl, .bare⟩

theorem DigitRun.head {run : Text} {digits : List Nat} (written : DigitRun run digits) :
    ∃ c d rest, run = c :: rest ∧ digit? c = some d := by
  cases written with
  | last digit => exact ⟨_, _, _, rfl, digit⟩
  | more digit _ => exact ⟨_, _, _, rfl, digit⟩
  | grouped digit _ => exact ⟨_, _, _, rfl, digit⟩

theorem Signed.read {size n : Int} {mark run : Text} {digits : List Nat} (signed : Signed size mark n)
    (written : DigitRun run digits) (rest : Text) :
    (mark ++ (run ++ rest)).dropWhile isNumeralBlank = mark ++ (run ++ rest) ∧
      ∃ negative, sign (mark ++ (run ++ rest)) = (negative, run ++ rest) ∧
        (if negative then -size else size) = n := by
  obtain ⟨c, d, more, rfl, digit⟩ := written.head
  have solid := solid_of_digit digit
  have notMinus := ne_of_digit digit (digit?_edge minus (by decide))
  have notPlus := ne_of_digit digit (digit?_edge plus (by decide))
  cases signed with
  | bare => exact ⟨by simp [solid], false, by simp [sign, notMinus, notPlus], rfl⟩
  | positive => exact ⟨rfl, false, rfl, rfl⟩
  | negative => exact ⟨rfl, true, rfl, rfl⟩

theorem integer?_eq_ok_iff {t : Text} {n : Int} : integer? t = .ok n ↔ Numeral t n := by
  constructor
  · intro read
    simp only [integer?] at read
    split at read
    · cases read
    · rename_i digits rest found
      split at read
      · cases read
      · rename_i short
        split at read
        · rename_i blank
          cases read
          obtain ⟨run, body, -, -, written⟩ := digitRun?_sound found
          obtain ⟨mark, marked, signed⟩ := sign_sound (t.dropWhile isNumeralBlank) (ofDigits digits)
          refine ⟨t.takeWhile isNumeralBlank, mark, run, rest, digits, ?_, ?_, signed, written rfl,
            Nat.le_of_not_lt short, List.all_eq_true.1 blank⟩
          · rw [← body, ← marked, List.takeWhile_append_dropWhile]
          · exact fun c inside => List.mem_takeWhile_imp inside
        · cases read
  · rintro ⟨lead, mark, run, trail, digits, rfl, before, signed, written, short, after⟩
    obtain ⟨solid, negative, marked, same⟩ := signed.read written trail
    have body : (lead ++ (mark ++ (run ++ trail))).dropWhile isNumeralBlank = mark ++ (run ++ trail) := by
      rw [List.dropWhile_append_of_pos before, solid]
    have blank : trail.all isNumeralBlank = true := List.all_eq_true.2 after
    simp only [integer?, body, marked, written.read after.endsRun, Nat.not_lt.2 short, if_false, blank,
      if_true, same]

-- An integer of few enough digits to be written out.
def Brief (n : Int) : Prop := n.natAbs < Nat.pow 10 digitLimit

theorem foldl_digits_lt {digits : List Nat} (small : ∀ d ∈ digits, d < 10) (n : Nat) :
    digits.foldl (fun n d => n * 10 + d) n < (n + 1) * Nat.pow 10 digits.length := by
  induction digits generalizing n with
  | nil => simp
  | cons d rest ih =>
    have first := small d List.mem_cons_self
    have others := ih (fun e member => small e (List.mem_cons_of_mem d member)) (n * 10 + d)
    calc rest.foldl (fun n d => n * 10 + d) (n * 10 + d)
        < (n * 10 + d + 1) * Nat.pow 10 rest.length := others
      _ ≤ (n + 1) * 10 * Nat.pow 10 rest.length := Nat.mul_le_mul_right _ (by omega)
      _ = (n + 1) * Nat.pow 10 (d :: rest).length := by
        rw [Nat.mul_assoc, List.length_cons, Nat.pow_eq, Nat.pow_eq, Nat.pow_succ']

theorem lt_pow_of_le {n k most : Nat} (size : n < Nat.pow 10 k) (short : k ≤ most) : n < Nat.pow 10 most :=
  Nat.lt_of_lt_of_le size (Nat.pow_le_pow_right (by decide) short)

theorem ofDigits_lt {digits : List Nat} (small : ∀ d ∈ digits, d < 10) :
    ofDigits digits < Nat.pow 10 digits.length := by
  have size := foldl_digits_lt small 0
  rwa [Nat.zero_add, Nat.one_mul] at size

theorem brief_zero : Brief 0 := lt_pow_of_le (k := 0) (by decide) (Nat.zero_le _)

theorem Brief.neg {n : Int} (brief : Brief n) : Brief (-n) := by
  rw [Brief, Int.natAbs_neg]
  exact brief

theorem DigitRun.small {run : Text} {digits : List Nat} (written : DigitRun run digits) :
    ∀ d ∈ digits, d < 10 := by
  induction written with
  | last digit => exact List.forall_mem_singleton.2 (digit?_lt digit)
  | more digit _ ih => exact List.forall_mem_cons.2 ⟨digit?_lt digit, ih⟩
  | grouped digit _ ih => exact List.forall_mem_cons.2 ⟨digit?_lt digit, ih⟩

theorem Numeral.brief {t : Text} {n : Int} (numeral : Numeral t n) : Brief n := by
  obtain ⟨_, _, _, _, digits, -, -, signed, written, short, -⟩ := numeral
  have size : Brief (ofDigits digits) := lt_pow_of_le (ofDigits_lt written.small) short
  cases signed with
  | bare => exact size
  | positive => exact size
  | negative => exact size.neg

structure PlainNumeral (t : Text) : Prop where
  nonempty : t ≠ []
  short : t.length ≤ 20
  digits : ∀ c ∈ t, isAsciiDigit c = true

theorem digit?_ascii {c : Nat} (ascii : isAsciiDigit c = true) : digit? c = some (c - 0x30) := by
  simp only [isAsciiDigit, Bool.and_eq_true, decide_eq_true_eq] at ascii
  have first : (decide (0x30 ≤ c) && decide (c < 0x30 + 10)) = true := by
    simp only [Bool.and_eq_true, decide_eq_true_eq]
    omega
  rw [digit?, digitZeros, List.find?_cons, first]
  rfl

theorem DigitRun.ascii {c : Nat} {rest : Text} (digits : ∀ d ∈ c :: rest, isAsciiDigit d = true) :
    DigitRun (c :: rest) ((c :: rest).map (· - 0x30)) := by
  induction rest generalizing c with
  | nil => exact .last (digit?_ascii (digits c List.mem_cons_self))
  | cons d rest ih =>
    exact .more (digit?_ascii (digits c List.mem_cons_self))
      (ih fun e member => digits e (List.mem_cons_of_mem c member))

theorem PlainNumeral.integer? {t : Text} (plain : PlainNumeral t) : ∃ n : Nat, integer? t = .ok n := by
  obtain ⟨c, rest, rfl⟩ := List.exists_cons_of_ne_nil plain.nonempty
  have nothing : Blank [] := fun c member => by cases member
  refine ⟨_, integer?_eq_ok_iff.2
    ⟨[], [], c :: rest, [], _, ?_, nothing, .bare, .ascii plain.digits, ?_, nothing⟩⟩
  · simp
  · rw [List.length_map]
    exact Nat.le_trans plain.short (by decide)

theorem isBlank_ascii {c : Nat} (ascii : isAsciiDigit c = true) : isBlank c = false := by
  have solid := solid_of_digit (digit?_ascii ascii)
  simp only [isAsciiDigit, Bool.and_eq_true, decide_eq_true_eq] at ascii
  simp only [isBlank, solid, Bool.false_or, Bool.and_eq_false_iff, decide_eq_false_iff_not]
  omega

theorem dropWhile_solid {t : Text} (solid : ∀ c ∈ t, isBlank c = false) : t.dropWhile isBlank = t := by
  cases t with
  | nil => rfl
  | cons c rest => rw [List.dropWhile_cons_of_neg (by simp [solid c List.mem_cons_self])]

theorem strip_solid {t : Text} (solid : ∀ c ∈ t, isBlank c = false) : strip t = t := by
  have turned : ∀ c ∈ t.reverse, isBlank c = false := fun c member => solid c (List.mem_reverse.1 member)
  rw [strip, dropWhile_solid solid, dropWhile_solid turned, List.reverse_reverse]

theorem PlainNumeral.strip {t : Text} (plain : PlainNumeral t) : strip t = t :=
  strip_solid fun c member => isBlank_ascii (plain.digits c member)

theorem PlainNumeral.ungrouped {t : Text} (plain : PlainNumeral t) : t.filter (· != underscore) = t := by
  rw [List.filter_eq_self]
  intro c member
  have digit := plain.digits c member
  simp only [bne_iff_ne]
  rintro rfl
  exact absurd digit (by decide)

end Parimutuel.Text
