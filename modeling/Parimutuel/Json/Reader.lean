import Parimutuel.Json.Value
import Parimutuel.Text.Numeral

-- Every reader takes the text that is left and gives back a shorter one, so reading ends.
namespace Parimutuel.Json

inductive Problem where
  | expectedValue
  | expectedName
  | expectedColon
  | expectedComma
  | unterminated
  | controlCharacter
  | badEscape
  | badCodeEscape
  | extraData
  | byteOrderMark
  deriving Repr, DecidableEq

def Problem.text : Problem → String
  | .expectedValue => "Expecting value"
  | .expectedName => "Expecting property name enclosed in double quotes"
  | .expectedColon => "Expecting ':' delimiter"
  | .expectedComma => "Expecting ',' delimiter"
  | .unterminated => "Unterminated string starting at"
  | .controlCharacter => "Invalid control character at"
  | .badEscape => "Invalid \\escape"
  | .badCodeEscape => "Invalid \\uXXXX escape"
  | .extraData => "Extra data"
  | .byteOrderMark => "Unexpected UTF-8 BOM (decode using utf-8-sig)"

inductive Container where
  | list
  | object
  deriving Repr, DecidableEq

def Container.word : Container → String
  | .list => "array"
  | .object => "object"

-- `left` is how many characters were left, counted from the place that is meant.
inductive Stop where
  | malformed (problem : Problem) (left : Nat)
  | numeral (e : Text.NumeralError)
  | tooDeep (container : Container)
  deriving Repr, DecidableEq

abbrev Shorter (s : Text) := { rest : Text // rest.length < s.length }

abbrev NoLonger (s : Text) := { rest : Text // rest.length ≤ s.length }

abbrev Read (α : Type) (s : Text) := Except Stop (α × Shorter s)

theorem dropWhile_length_le (p : Nat → Bool) (s : Text) : (s.dropWhile p).length ≤ s.length :=
  (List.dropWhile_sublist p).length_le

def comma : Nat := 0x2c
def colon : Nat := 0x3a
def openBracket : Nat := 0x5b
def closeBracket : Nat := 0x5d
def openBrace : Nat := 0x7b
def closeBrace : Nat := 0x7d
def point : Nat := 0x2e
def lineFeed : Nat := 0x0a

def letterU : Nat := 0x75

def isSpace (c : Nat) : Bool := c == 0x20 || c == 0x09 || c == lineFeed || c == 0x0d

def skip (s : Text) : NoLonger s := ⟨s.dropWhile isSpace, dropWhile_length_le isSpace s⟩

def hexValue? (c : Nat) : Option Nat :=
  if 0x30 ≤ c ∧ c ≤ 0x39 then some (c - 0x30)
  else if 0x41 ≤ c ∧ c ≤ 0x46 then some (c - 0x41 + 10)
  else if 0x61 ≤ c ∧ c ≤ 0x66 then some (c - 0x61 + 10)
  else none

-- Four hexadecimal digits, which something has to follow.
def codeUnit? (s : Text) : Option (Nat × Shorter s) :=
  match s with
  | a :: b :: c :: d :: next :: rest => do
    let a ← hexValue? a
    let b ← hexValue? b
    let c ← hexValue? c
    let d ← hexValue? d
    return (((a * 16 + b) * 16 + c) * 16 + d, ⟨next :: rest, by simp⟩)
  | _ => none

def isHigh (c : Nat) : Bool := 0xd800 ≤ c && c ≤ 0xdbff
def isLow (c : Nat) : Bool := 0xdc00 ≤ c && c ≤ 0xdfff

-- The low half that follows a high one as an escape of its own.
def lowHalf? (s : Text) : Option (Nat × Shorter s) :=
  match s with
  | slash :: u :: rest =>
    if slash = Text.backslash ∧ u = letterU then
      match codeUnit? rest with
      | some (low, after) =>
        if isLow low then some (low, ⟨after.val, by have := after.property; simp; omega⟩) else none
      | none => none
    else none
  | _ => none

-- Two halves make one character; a half without its other one stays what it is.
def codeEscape? (s : Text) : Option (Nat × Shorter s) :=
  match codeUnit? s with
  | none => none
  | some (unit, rest) =>
    if isHigh unit then
      match lowHalf? rest.val with
      | some (low, after) =>
        some (0x10000 + (unit - 0xd800) * 0x400 + (low - 0xdc00),
          ⟨after.val, Nat.lt_trans after.property rest.property⟩)
      | none => some (unit, rest)
    else some (unit, rest)

def shortEscape? (c : Nat) : Option Nat :=
  if c = Text.doubleQuote ∨ c = Text.backslash ∨ c = 0x2f then some c
  else if c = 0x62 then some 0x08
  else if c = 0x66 then some 0x0c
  else if c = 0x6e then some 0x0a
  else if c = 0x72 then some 0x0d
  else if c = 0x74 then some 0x09
  else none

-- The inside of a string up to its closing quote. `opening` is how much was left at the quote that
-- opened it.
def readString (opening : Nat) (s : Text) : Read Text s :=
  match s with
  | [] => .error (.malformed .unterminated opening)
  | c :: rest =>
    if c = Text.doubleQuote then .ok ([], ⟨rest, Nat.lt_succ_self _⟩)
    else if c = Text.backslash then
      match rest with
      | [] => .error (.malformed .unterminated opening)
      | e :: tail =>
        if e = letterU then
          match codeEscape? tail with
          | none => .error (.malformed .badCodeEscape (tail.length + 1))
          | some (code, after) => do
            have shorter : after.val.length < (c :: e :: tail).length :=
              Nat.lt_trans after.property (Nat.lt_succ_of_lt (Nat.lt_succ_self _))
            let (t, final) ← readString opening after.val
            return (code :: t, ⟨final.val, Nat.lt_trans final.property shorter⟩)
        else
          match shortEscape? e with
          | none => .error (.malformed .badEscape (tail.length + 2))
          | some code => do
            have shorter : tail.length < (c :: e :: tail).length :=
              Nat.lt_succ_of_lt (Nat.lt_succ_self _)
            let (t, final) ← readString opening tail
            return (code :: t, ⟨final.val, Nat.lt_trans final.property shorter⟩)
    else if c ≤ 0x1f then .error (.malformed .controlCharacter (rest.length + 1))
    else do
      have shorter : rest.length < (c :: rest).length := Nat.lt_succ_self _
      let (t, final) ← readString opening rest
      return (c :: t, ⟨final.val, Nat.lt_trans final.property shorter⟩)
termination_by s.length
decreasing_by all_goals exact shorter

def digitsAt (s : Text) : List Nat := (s.takeWhile Text.isAsciiDigit).map (· - 0x30)

def afterDigits (s : Text) : NoLonger s :=
  ⟨s.dropWhile Text.isAsciiDigit, dropWhile_length_le _ s⟩

-- The digits after a point, which count only if there are any.
def fraction (s : Text) : List Nat × NoLonger s :=
  match s with
  | [] => ([], ⟨[], Nat.le_refl _⟩)
  | c :: rest =>
    if c = point ∧ digitsAt rest ≠ [] then
      (digitsAt rest, ⟨(afterDigits rest).val, Nat.le_succ_of_le (afterDigits rest).property⟩)
    else ([], ⟨c :: rest, Nat.le_refl _⟩)

-- The power of ten after an exponent mark, which counts only if it has digits.
def exponent? (s : Text) : Option (Int × NoLonger s) :=
  match s with
  | [] => none
  | c :: rest =>
    if c = 0x65 ∨ c = 0x45 then
      let (negative, body) := Text.sign rest
      let digits := digitsAt body
      if digits = [] then none
      else
        let size : Int := Text.ofDigits digits
        let after := rest.drop (rest.length - (afterDigits body).val.length)
        some (if negative then -size else size,
          ⟨after, Nat.le_succ_of_le (List.drop_sublist _ rest).length_le⟩)
    else none

-- The digits before the point: a zero stands alone.
def wholeDigits? (s : Text) : Option (List Nat × Shorter s) :=
  match s with
  | [] => none
  | c :: rest =>
    if c = 0x30 then some ([0], ⟨rest, Nat.lt_succ_self _⟩)
    else if Text.isAsciiDigit c then
      some ((c - 0x30) :: digitsAt rest,
        ⟨(afterDigits rest).val, Nat.lt_succ_of_le (afterDigits rest).property⟩)
    else none

-- An integer, or a binary fraction where there is a point or an exponent. Long integers are
-- refused as numerals are.
def unsignedNumber? (negative : Bool) (s : Text) : Option (Except Stop Json × Shorter s) :=
  match wholeDigits? s with
  | none => none
  | some (whole, afterWhole) =>
    let (places, afterPlaces) := fraction afterWhole.val
    let power := exponent? afterPlaces.val
    let bound := Nat.lt_of_le_of_lt afterPlaces.property afterWhole.property
    if places = [] ∧ power.isNone then
      if Text.digitLimit < whole.length then
        some (.error (.numeral (.tooLong whole.length)), ⟨afterPlaces.val, bound⟩)
      else
        let size : Int := Text.ofDigits whole
        some (.ok (.int (if negative then -size else size)), ⟨afterPlaces.val, bound⟩)
    else
      let digits := Text.ofDigits (whole ++ places)
      match power with
      | none =>
        some (.ok (.real (Binary64.ofDecimal negative digits (-(places.length : Int)))),
          ⟨afterPlaces.val, bound⟩)
      | some (p, after) =>
        some (.ok (.real (Binary64.ofDecimal negative digits (p - places.length))),
          ⟨after.val, Nat.lt_of_le_of_lt after.property bound⟩)

def readNumber (s : Text) : Read Json s :=
  match s with
  | [] => .error (.malformed .expectedValue 0)
  | c :: rest =>
    if c = Text.minus then
      match unsignedNumber? true rest with
      | none => .error (.malformed .expectedValue (rest.length + 1))
      | some (.error stop, _) => .error stop
      | some (.ok value, after) => .ok (value, ⟨after.val, Nat.lt_succ_of_lt after.property⟩)
    else
      match unsignedNumber? false (c :: rest) with
      | none => .error (.malformed .expectedValue (rest.length + 1))
      | some (.error stop, _) => .error stop
      | some (.ok value, after) => .ok (value, after)

def words : List (Text × Json) := [
  (Text.ofString "null", .null),
  (Text.ofString "true", .bool true),
  (Text.ofString "false", .bool false),
  (Text.ofString "NaN", .real .nan),
  (Text.ofString "Infinity", .real (.infinite false)),
  (Text.ofString "-Infinity", .real (.infinite true))]

def readWordOrNumber (s : Text) : Read Json s :=
  match words.find? fun w => w.1.isPrefixOf s with
  | some (word, value) =>
    if nonempty : 0 < word.length ∧ 0 < s.length then
      .ok (value, ⟨s.drop word.length, by rw [List.length_drop]; omega⟩)
    else readNumber s
  | none => readNumber s

mutual

-- `room` is how many containers may still be opened inside one another.
def readValue (room : Nat) (s : Text) : Read Json s :=
  match s with
  | [] => .error (.malformed .expectedValue 0)
  | c :: rest =>
    if c = Text.doubleQuote then do
      let (t, after) ← readString (rest.length + 1) rest
      return (.text t, ⟨after.val, Nat.lt_succ_of_lt after.property⟩)
    else if c = openBrace then
      have shorter := (skip rest).property
      if room = 0 then .error (.tooDeep .object)
      else match first : (skip rest).val with
      | [] => .error (.malformed .expectedName 0)
      | d :: tail =>
        have shorter : tail.length < rest.length := by rw [first] at shorter; exact shorter
        if d = closeBrace then .ok (.object [], ⟨tail, Nat.lt_succ_of_lt shorter⟩)
        else do
          let (members, after) ← readMembers (room - 1) (d :: tail)
          return (.object (members.foldl (fun all m => putMember all m.1 m.2) []),
            ⟨after.val, by have := after.property; simp only [List.length_cons] at *; omega⟩)
    else if c = openBracket then
      have shorter := (skip rest).property
      if room = 0 then .error (.tooDeep .list)
      else match first : (skip rest).val with
      | [] => .error (.malformed .expectedValue 0)
      | d :: tail =>
        have shorter : tail.length < rest.length := by rw [first] at shorter; exact shorter
        if d = closeBracket then .ok (.list [], ⟨tail, Nat.lt_succ_of_lt shorter⟩)
        else do
          let (items, after) ← readItems (room - 1) (d :: tail)
          return (.list items,
            ⟨after.val, by have := after.property; simp only [List.length_cons] at *; omega⟩)
    else readWordOrNumber (c :: rest)
termination_by (s.length, 0)

def readItems (room : Nat) (s : Text) : Read (List Json) s := do
  let (item, after) ← readValue room s
  have bound := Nat.lt_of_le_of_lt (skip after.val).property after.property
  match next : (skip after.val).val with
  | [] => .error (.malformed .expectedComma 0)
  | c :: rest =>
    have shorter : rest.length + 1 < s.length := by rw [next] at bound; exact bound
    if c = closeBracket then return ([item], ⟨rest, by omega⟩)
    else if c = comma then do
      have blank := (skip rest).property
      let (items, final) ← readItems room (skip rest).val
      return (item :: items, ⟨final.val, by have := final.property; omega⟩)
    else .error (.malformed .expectedComma (rest.length + 1))
termination_by (s.length, 1)

def readMembers (room : Nat) (s : Text) : Read (List (Text × Json)) s :=
  match s with
  | [] => .error (.malformed .expectedName 0)
  | q :: body =>
    if q = Text.doubleQuote then do
      let (name, afterName) ← readString (body.length + 1) body
      have bound := Nat.lt_of_le_of_lt (skip afterName.val).property afterName.property
      match found : (skip afterName.val).val with
      | [] => .error (.malformed .expectedColon 0)
      | c :: rest =>
        have shorter : rest.length + 1 < body.length := by rw [found] at bound; exact bound
        if c = colon then do
          have blank := (skip rest).property
          let (value, afterValue) ← readValue room (skip rest).val
          have bound' := Nat.lt_of_le_of_lt (skip afterValue.val).property afterValue.property
          match next : (skip afterValue.val).val with
          | [] => .error (.malformed .expectedComma 0)
          | d :: tail =>
            have shorter' : tail.length + 1 < (skip rest).val.length := by
              rw [next] at bound'; exact bound'
            if d = closeBrace then return ([(name, value)], ⟨tail, by simp only [List.length_cons]; omega⟩)
            else if d = comma then do
              have blank' := (skip tail).property
              let (members, final) ← readMembers room (skip tail).val
              return ((name, value) :: members,
                ⟨final.val, by have := final.property; simp only [List.length_cons]; omega⟩)
            else .error (.malformed .expectedComma (tail.length + 1))
        else .error (.malformed .expectedColon (rest.length + 1))
    else .error (.malformed .expectedName (body.length + 1))
termination_by (s.length, 1)

end

-- What is wrong with a document: `position` counts characters from 0.
inductive ReadError where
  | malformed (problem : Problem) (line column position : Nat)
  | numeral (e : Text.NumeralError)
  | tooDeep (container : Container)
  deriving Repr, DecidableEq

def ReadError.message : ReadError → String
  | .malformed problem line column position =>
    problem.text ++ ": line " ++ Nat.repr line ++ " column " ++ Nat.repr column
      ++ " (char " ++ Nat.repr position ++ ")"
  | .numeral e => e.message
  | .tooDeep container =>
    "maximum recursion depth exceeded while decoding a JSON " ++ container.word
      ++ " from a unicode string"

-- Lines and columns count from 1.
def located (s : Text) (problem : Problem) (left : Nat) : ReadError :=
  let position := s.length - left
  let before := s.take position
  .malformed problem (before.count lineFeed + 1)
    ((before.reverse.takeWhile (· != lineFeed)).length + 1)
    position

def Stop.inText (s : Text) : Stop → ReadError
  | .malformed problem left => located s problem left
  | .numeral e => .numeral e
  | .tooDeep container => .tooDeep container

def parse? (room : Nat) (s : Text) : Except ReadError Json :=
  if s.head? = some 0xfeff then .error (located s .byteOrderMark s.length)
  else
    match readValue room (skip s).val with
    | .error stop => .error (stop.inText s)
    | .ok (value, after) =>
      let rest := (skip after.val).val
      if rest = [] then .ok value else .error (located s .extraData rest.length)

end Parimutuel.Json
