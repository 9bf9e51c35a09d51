/-!
# `Filestore.Proofs.Loop`: loops, one turn after another

A loop is told by what one turn of it does: it ends the loop with a result, or it leaves the state
that the next turn starts from. `Loop.after` is what has become of a loop after a number of turns.
The loop itself knows no bound on them, but a function that runs it may carry fuel.

`Loop.Ends` says that a loop gets on in every state that it comes to, and that it comes to its end
within a bound, with what the function with fuel gives. For that, an invariant is needed that
turns keep, and a rank that turns lower (`ends_of_rank`). The bound is any number above the rank
of the state that the loop starts from.

Running out of fuel is thereby ruled out without being mentioned. A function with fuel gives some
result when there is none left, and `Ends` says that the result with the bound as fuel is that of
the turns themselves, and that more fuel gives the same. What getting on means is left to the
loop: a transfer gets on when it stores or copies a byte, or is about to.
-/

set_option autoImplicit false

namespace Filestore

namespace Loop

variable {State Result : Type}

/-- What has become of a loop after a number of turns: its result, if it has ended, or else the
state that the next turn starts from. -/
def after (turn : State → Result ⊕ State) : Nat → State → Result ⊕ State
  | 0, state => .inr state
  | turns + 1, state =>
    match turn state with
    | .inl result => .inl result
    | .inr next => after turn turns next

/-- The loop gets on, and it ends.

- `progresses`: it gets on in every state that it comes to.
- `ends`: after as many turns as the bound says it has ended with the result.
- `fuel`: with as much fuel, or more, it gives the result. -/
structure Ends (turn : State → Result ⊕ State) (run : Nat → State → Result)
    (Progresses : State → Prop) (bound : Nat) (start : State) (result : Result) : Prop where
  progresses : ∀ turns state, after turn turns start = .inr state → Progresses state
  ends : after turn bound start = .inl result
  fuel : ∀ fuel, bound ≤ fuel → run fuel start = result

variable {turn : State → Result ⊕ State} {run : Nat → State → Result}
  {Holds Progresses : State → Prop} {rank : State → Nat} {start state : State} {result : Result}
  {turns fuel bound : Nat}

/-- What every turn keeps holds in every state that the loop comes to, by induction on the number
of turns. -/
theorem holds_of_after
    (hturn : ∀ state next, Holds state → turn state = .inr next → Holds next)
    (h : Holds start) (hafter : after turn turns start = .inr state) : Holds state := by
  induction turns generalizing start with
  | zero =>
    cases hafter
    exact h
  | succ turns ih =>
    simp only [after] at hafter
    cases hnext : turn start with
    | inl result => simp [hnext] at hafter
    | inr next =>
      simp only [hnext] at hafter
      exact ih (hturn start next h hnext) hafter

/-- A loop whose turns lower a rank ends, since a rank cannot be lowered for ever. As many turns
as one more than the rank are enough. -/
theorem exists_after_eq_inl
    (hturn : ∀ state next, Holds state → turn state = .inr next →
      Holds next ∧ rank next < rank state)
    (h : Holds start) (hrank : rank start < turns) :
    ∃ result, after turn turns start = .inl result := by
  induction turns generalizing start with
  | zero => exact absurd hrank (Nat.not_lt_zero _)
  | succ turns ih =>
    simp only [after]
    cases hnext : turn start with
    | inl result => exact ⟨result, rfl⟩
    | inr next =>
      obtain ⟨hholds, hlower⟩ := hturn start next h hnext
      exact ih hholds (by omega)

/-- Where the turns come to an end, so does the function that has fuel for as many of them, with
the same result. -/
theorem run_eq_of_after
    (hrun : ∀ fuel state, run (fuel + 1) state = Sum.elim id (run fuel) (turn state))
    (h : after turn turns start = .inl result) (hfuel : turns ≤ fuel) :
    run fuel start = result := by
  induction turns generalizing start fuel with
  | zero => cases h
  | succ turns ih =>
    obtain ⟨less, rfl⟩ : ∃ less, fuel = less + 1 := ⟨fuel - 1, by omega⟩
    rw [hrun]
    simp only [after] at h
    cases hnext : turn start with
    | inl last =>
      simp only [hnext] at h
      exact Sum.inl.inj h
    | inr next =>
      simp only [hnext] at h
      exact ih h (by omega)

/-- A loop ends if its turns keep an invariant in which it gets on, and lower a rank. This is the
one way in which loops are shown to end here. -/
theorem ends_of_rank
    (hrun : ∀ fuel state, run (fuel + 1) state = Sum.elim id (run fuel) (turn state))
    (hprogress : ∀ state, Holds state → Progresses state)
    (hturn : ∀ state next, Holds state → turn state = .inr next →
      Holds next ∧ rank next < rank state)
    (h : Holds start) (hrank : rank start < bound) :
    Ends turn run Progresses bound start (run bound start) := by
  obtain ⟨result, hended⟩ := exists_after_eq_inl hturn h hrank
  have hresult := run_eq_of_after hrun hended (Nat.le_refl bound)
  rw [hresult]
  refine ⟨fun turns state hafter => hprogress state ?_, hended,
    fun fuel hfuel => run_eq_of_after hrun hended hfuel⟩
  exact holds_of_after (fun state next hholds hnext => (hturn state next hholds hnext).1) h hafter

end Loop

end Filestore
