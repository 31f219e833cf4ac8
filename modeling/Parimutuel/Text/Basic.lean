namespace Parimutuel

abbrev Text := List Nat

namespace Text

def ofString (s : String) : Text := s.toList.map Char.toNat

def isSurrogate (c : Nat) : Bool := 0xd800 ≤ c && c ≤ 0xdfff

-- A lone surrogate has no character; it is shown as the replacement character.
def toString (t : Text) : String :=
  String.ofList (t.map fun c => if isSurrogate c then '\ufffd' else Char.ofNat c)

-- Hexadecimal in lower case, filled up with zeros to a width.
def hex (width n : Nat) : String :=
  let digits := Nat.toDigits 16 n
  String.ofList (List.replicate (width - digits.length) '0' ++ digits)

-- Only the letters of the ASCII range are changed.
def lowerAscii (t : Text) : Text :=
  t.map fun c => if 0x41 ≤ c ∧ c ≤ 0x5a then c + 0x20 else c

theorem toString_ofString (s : String) : toString (ofString s) = s := by
  unfold toString ofString
  rw [List.map_map]
  have same : ∀ c : Char, ((fun n => if isSurrogate n then '\ufffd' else Char.ofNat n) ∘
      Char.toNat) c = c := by
    intro c
    have valid := c.valid
    have notSurrogate : isSurrogate c.toNat = false := by
      have range : c.toNat < 0xd800 ∨ 0xdfff < c.toNat ∧ c.toNat < 0x110000 := valid
      simp only [isSurrogate, Bool.and_eq_false_iff, decide_eq_false_iff_not]
      omega
    simp [Function.comp, notSurrogate]
  rw [List.map_congr_left (g := id) (fun c _ => same c), List.map_id]
  exact String.ofList_toList

end Text
end Parimutuel
