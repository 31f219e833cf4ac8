import Parimutuel.Fault
import Parimutuel.Stakes

namespace Parimutuel

abbrev Holdings := List Int

namespace Holdings

def none : Holdings := List.replicate optionCount 0

-- Negative amounts count as nothing.
def ofAmounts (amounts : List Int) : Holdings := amounts.map (max 0 ·)

-- Stakes written into an empty row one after the other. Option 24 may also be called -1, and the
-- later of the two entries holds.
def ofStakes? (s : Stakes) : Except Fault Holdings :=
  s.foldlM (fun row p => write? row p.1 (max 0 p.2)) none

def total (h : Holdings) : Int := sumOf h

theorem none_length : none.length = optionCount := List.length_replicate

end Holdings
end Parimutuel
