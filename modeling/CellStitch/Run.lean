import CellStitch.Failure
/-!
# Runs without failure

A run of events in which none fails, together with what each of them gave. There is no result where
an event fails.
-/

namespace CellStitch

/-- The state after events of which none fails, and what each of them gave. -/
def runAll? {σ ε α : Type} (step : σ → ε → σ × Except Failure α) (s : σ) :
    List ε → Except Failure (σ × List α)
  | [] => .ok (s, [])
  | e :: events =>
    match step s e with
    | (_, .error f) => .error f
    | (s, .ok a) => do
      let (s, rest) ← runAll? step s events
      pure (s, a :: rest)

end CellStitch
