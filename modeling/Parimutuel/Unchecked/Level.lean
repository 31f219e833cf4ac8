import Parimutuel.Journal
import Parimutuel.Unchecked.Calculation

namespace Parimutuel.Journal

inductive StatedLevelError where
  | named (e : LevelError)
  | misused (m : Json.Misuse)
  deriving Repr, DecidableEq

def configureStated? (level verbose : Json) : Except StatedLevelError Filter :=
  match level with
  | .text t => (configure? t verbose.truth).mapError .named
  | value => .error (.misused (.noCapitals value.kind))

theorem configureStated?_text (t : Text) (verbose : Bool) :
    configureStated? (.text t) (.bool verbose) = (configure? t verbose).mapError .named :=
  rfl

end Parimutuel.Journal
