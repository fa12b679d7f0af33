import Pseudonym.Generator
import Pseudonym.Text.Quoted

/-! One-line dumps of a session and of a generator, for logs. Names are only counted. -/
namespace Pseudonym

def Ledger.dump (ledger : Ledger) : String :=
  "NameSession \x7b issued: " ++ toString ledger.claimed.size ++ ", prefix: " ++
    Quoted.quote ledger.globalPrefix ++ ", max_attempts: " ++ toString ledger.maxAttempts ++ ", .. \x7d"

def Generator.dump {σ : Type} (generator : Generator σ) : String :=
  "GeneratorSelector \x7b kind: " ++ generator.strategy.kind.caption ++ ", session: " ++
    generator.ledger.dump ++ " \x7d"

end Pseudonym
