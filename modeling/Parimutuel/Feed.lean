import Parimutuel.Observation
import Parimutuel.Phase
import Parimutuel.Unchecked.Calculation

namespace Parimutuel.Feed

def first? (members : List (Text × Json)) : List String → Option Json
  | [] => none
  | name :: rest =>
    match Json.member? members name with
    | some .null | none => first? members rest
    | some value => some value

-- An integer in any of its spellings. Truth values are none.
def integer? (room : Nat) (field : String) (value : Json) : Except Failure Int :=
  match value with
  | .int n => .ok n
  | .real x =>
    match x.integer? with
    | some n => .ok n
    | none => .error ((Refusal.notInteger field value).raised room)
  | .text t =>
    match Text.integer? (Text.strip t) with
    | .ok n => .ok n
    | .error _ => .error ((Refusal.notInteger field value).raised room)
  | _ => .error ((Refusal.notInteger field value).raised room)

def integers? (room : Nat) (field : String) (i : Nat) : List Json → Except Failure (List Int)
  | [] => .ok []
  | value :: rest => do
    let n ← integer? room (entryName field i) value
    return n :: (← integers? room field (i + 1) rest)

-- A row of integers. An object stands for the row of its names.
def row? (room : Nat) (field : String) : Json → Except Failure (List Int)
  | .list items => integers? room field 0 items
  | .object members => integers? room field 0 (members.map fun m => .text m.1)
  | _ => .error ((Refusal.notSequence field).raised room)

def trueWords : List Text := ["1", "true", "yes", "on"].map Text.ofString
def falseWords : List Text := ["0", "false", "no", "off"].map Text.ofString

def flag? (room : Nat) (field : String) (value : Json) : Except Failure Bool :=
  match value with
  | .bool b => .ok b
  | .text t =>
    let word := Text.lowerAscii (Text.strip t)
    if trueWords.contains word then .ok true
    else if falseWords.contains word then .ok false
    else .error ((Refusal.notBoolean field value).raised room)
  | _ => .error ((Refusal.notBoolean field value).raised room)

def stakeNames : List String := ["existing_stake", "deployed"]
def bettorNames : List String := ["existing_bettors", "count"]
def remainingNames : List String := ["remaining_time_units", "slots_left"]

def remaining? (room : Nat) (members : List (Text × Json)) : Except Failure Int :=
  match first? members remainingNames with
  | some value => integer? room "remaining_time_units" value
  | none =>
    match Json.member? members "end_slot", Json.member? members "current_slot" with
    | some endSlot, some currentSlot => do
      let last ← integer? room "end_slot" endSlot
      let current ← integer? room "current_slot" currentSlot
      return remainingUnits last current
    | _, _ => .error (Refusal.noRemaining.raised room)

-- `skim` holds where the observation states none of its own.
def read? (room : Nat) (members : List (Text × Json)) (skim : Json) : Except Failure Board := do
  let stakes ← match first? members stakeNames with
    | some value => row? room "existing_stake" value
    | none => .error (Refusal.noStakes.raised room)
  let bettors ← match first? members bettorNames with
    | some value => row? room "existing_bettors" value
    | none => .ok (List.replicate optionCount 0)
  let remaining ← remaining? room members
  let skim ← integer? room "pool_skim_bps" ((Json.member? members "pool_skim_bps").getD skim)
  let isOpen ← flag? room "round_open" ((Json.member? members "round_open").getD (.bool true))
  let reward ← integer? room "reward_per_round" ((Json.member? members "reward_per_round").getD (.int 0))
  (Board.observed { stakes, bettors, skim, remaining, isOpen, reward }).check? room

def occursIn (part : Text) : Text → Bool
  | [] => part.isEmpty
  | c :: rest => part.isPrefixOf (c :: rest) || occursIn part rest

-- Any document is asked for the stakes first. A list that has the name as an item, or a text in
-- which it occurs, cannot be asked for what belongs to it.
def readDocument? (room : Nat) (document skim : Json) : Except Failure Board :=
  match document with
  | .object members => read? room members skim
  | .list items =>
    if items.any isStakeName then .error (.misused .listByName) else .error (Refusal.noStakes.raised room)
  | .text t =>
    if stakeNames.any fun name => occursIn (Text.ofString name) t then
      .error (.misused .textByName)
    else .error (Refusal.noStakes.raised room)
  | value => .error (.misused (.noMembers value.kind))
where
  isStakeName : Json → Bool
    | .text t => (stakeNames.map Text.ofString).contains t
    | _ => false

-- The slots between two slot numbers of any numeric kind; a fraction stays one while it is above
-- zero.
def slotsBetween? (last current : Json) : Except Failure Json := do
  match ← last.subtract? current with
  | .real x => return if x.isPositive then .real x else .int 0
  | .int n => return .int (max 0 n)
  | other => return other

-- A board as the chain shows it. Only the two rows are read leniently, and the countdown is worked
-- out before anything is checked.
structure ChainBoard where
  deployed : Json
  counts : Json
  endSlot : Json
  currentSlot : Json
  skim : Json := .int defaultSkim
  isOpen : Json := .bool true
  reward : Json := .int 0
  deriving Repr

def ChainBoard.read? (room : Nat) (c : ChainBoard) : Except Failure Board := do
  let stakes ← row? room "existing_stake" c.deployed
  let bettors ← row? room "existing_bettors" c.counts
  let remaining ← slotsBetween? c.endSlot c.currentSlot
  let o : Observation := {
    stakes := stakes.map .int
    bettors := bettors.map .int
    skim := c.skim
    remaining
    isOpen := c.isOpen
    reward := c.reward }
  o.check? room

end Parimutuel.Feed
