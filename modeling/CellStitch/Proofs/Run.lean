import CellStitch.Proofs.Cell.Order
import CellStitch.Run
/-!
# What comes first in a run

A run without failure begins with a step without failure (`runAll?_cons_eq_ok_iff`), and what comes
first in it is a run without failure as well (`runAll?_take`).

Where it is known what a step must do to keep a property, a run that goes on over failures has the
property all along exactly if every step does that (`forall_foldl_take_iff`).
-/

namespace CellStitch

variable {σ ε α : Type} {step : σ → ε → σ × Except Failure α} {s s' : σ} {events : List ε}
  {outs : List α}

/-- **A run succeeds exactly if its first step and the rest of it do.** -/
theorem runAll?_cons_eq_ok_iff {e : ε} : runAll? step s (e :: events) = .ok (s', outs) ↔
    ∃ s₁ out rest, step s e = (s₁, .ok out) ∧ runAll? step s₁ events = .ok (s', rest) ∧
      outs = out :: rest := by
  rw [runAll?]
  rcases step s e with ⟨s₁, f | out⟩
  · simp
  · show (runAll? step s₁ events >>= fun r ↦ Except.ok (r.1, out :: r.2)) = _ ↔ _
    rw [bind_eq_ok_iff]
    constructor
    · rintro ⟨⟨s₂, rest⟩, hrest, h⟩
      cases h
      exact ⟨s₁, out, rest, rfl, hrest, rfl⟩
    · rintro ⟨_, _, rest, h, hrest, rfl⟩
      cases h
      exact ⟨(s', rest), hrest, rfl⟩

theorem length_of_runAll? (h : runAll? step s events = .ok (s', outs)) :
    outs.length = events.length := by
  induction events generalizing s outs with
  | nil =>
    cases h
    rfl
  | cons e events ih =>
    obtain ⟨s₁, out, rest, -, hrest, rfl⟩ := runAll?_cons_eq_ok_iff.1 h
    rw [List.length_cons, List.length_cons, ih hrest]

theorem runAll?_take (h : runAll? step s events = .ok (s', outs)) (k : Nat) :
    ∃ sₖ, runAll? step s (events.take k) = .ok (sₖ, outs.take k) := by
  induction events generalizing s outs k with
  | nil =>
    cases h
    rw [List.take_nil, List.take_nil]
    exact ⟨s', rfl⟩
  | cons e events ih =>
    obtain ⟨s₁, out, rest, hstep, hrest, rfl⟩ := runAll?_cons_eq_ok_iff.1 h
    cases k with
    | zero => exact ⟨s, rfl⟩
    | succ k =>
      obtain ⟨sₖ, hk⟩ := ih hrest k
      exact ⟨sₖ, runAll?_cons_eq_ok_iff.2 ⟨s₁, out, rest.take k, hstep, hk, rfl⟩⟩

/-! ### Runs that go on -/

section GoingOn

variable {next : σ → ε → σ}

/-- One event more. -/
theorem foldl_take_succ (next : σ → ε → σ) (s : σ) {k : Nat} {e : ε} (h : events[k]? = some e) :
    (events.take (k + 1)).foldl next s = next ((events.take k).foldl next s) e := by
  rw [List.take_add_one, h, Option.toList_some, List.foldl_append]
  rfl

/-- What every step keeps holds all along. -/
theorem foldl_take_induction {Sound : σ → Prop} (hstep : ∀ s e, Sound s → Sound (next s e))
    (hs : Sound s) (events : List ε) (k : Nat) : Sound ((events.take k).foldl next s) := by
  induction events.take k generalizing s with
  | nil => exact hs
  | cons e rest ih => exact ih (hstep s e hs)

/-- **A run has a property all along exactly if every step does what keeps it**, where that is known
of one step. -/
theorem forall_foldl_take_iff {Sound Holds : σ → Prop} {Keeps : σ → ε → Prop}
    (hsound : ∀ s e, Sound s → Sound (next s e))
    (hkeeps : ∀ s e, Sound s → Holds s → (Holds (next s e) ↔ Keeps s e))
    (hs : Sound s) (hholds : Holds s) (events : List ε) :
    (∀ k, Holds ((events.take k).foldl next s)) ↔
      ∀ k e, events[k]? = some e → Keeps ((events.take k).foldl next s) e := by
  have hsounds := foldl_take_induction hsound hs events
  constructor
  · intro hall k e he
    have hnext := hall (k + 1)
    rw [foldl_take_succ next s he] at hnext
    exact (hkeeps _ e (hsounds k) (hall k)).1 hnext
  · intro hall k
    induction k with
    | zero => exact hholds
    | succ k ih =>
      rcases he : events[k]? with - | e
      · -- there are no more events
        rwa [List.take_add_one, he, Option.toList_none, List.append_nil]
      · rw [foldl_take_succ next s he]
        exact (hkeeps _ e (hsounds k) ih).2 (hall k e he)

end GoingOn

end CellStitch
