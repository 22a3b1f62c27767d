import PacketRelay.Proofs.Error.Mismatch
import PacketRelay.Proofs.Retry.Calls

/-!
# The error that a retry loop reports

A loop fails with the error of one of its calls, with the report on all of them, or because it was
cancelled.  The texts in a report are those of errors that were met, so whatever a loop fails with is
a sequence mismatch only if a call met one.
-/

namespace PacketRelay.RetryPolicy

open Program

variable {α : Type} {p : RetryPolicy} {scope : RetryScope} {s : Signal}
  {operation : Nat → Attempt α} {h before g t : List Exchange} {x r : Except RelayError α}
  {left n : Nat} {history : List String} {e : RelayError}

/-- A call that a history of the loop shows failed with the error. -/
def Met (p : RetryPolicy) (scope : RetryScope) (s : Signal) (operation : Nat → Attempt α)
    (h : List Exchange) (e : RelayError) : Prop :=
  ∃ before n g t, Call p scope s operation h before n g (.error e) t

/-- The texts are those of errors that calls in the history met. -/
def Collected (p : RetryPolicy) (scope : RetryScope) (s : Signal) (operation : Nat → Attempt α)
    (h : List Exchange) (texts : List String) : Prop :=
  ∀ text ∈ texts, ∃ e, Met p scope s operation h e ∧ e.message = text

/-- The errors with which a loop with this history may fail. -/
inductive Reported (p : RetryPolicy) (scope : RetryScope) (s : Signal)
    (operation : Nat → Attempt α) (h : List Exchange) : RelayError → Prop where
  | met {e : RelayError} : Met p scope s operation h e → Reported p scope s operation h e
  | cancelled : Reported p scope s operation h .cancelled
  | exhausted {attempts : Nat} {errors : List String} :
    Collected p scope s operation h errors →
      Reported p scope s operation h (.retriesExhausted attempts errors)

theorem Met.collected (he : Met p scope s operation h e)
    (hhistory : Collected p scope s operation h history) :
    Collected p scope s operation h (history ++ [e.message]) := by
  intro text htext
  obtain htext | htext := List.mem_append.mp htext
  · exact hhistory text htext
  · exact ⟨e, he, (List.mem_singleton.mp htext).symm⟩

/-- A loop that fails after a call stops at the error of that call or goes on from it. -/
theorem yields_heed_error (hy : (p.heed scope s operation left n history x).Yields t (.error e)) :
    ∃ e', x = .error e' ∧
      (e = e' ∨ (p.proceed scope s operation n history e' left).Yields t (.error e)) := by
  cases x with
  | ok a => cases (yields_done_iff.mp hy).2
  | error e' =>
      refine ⟨e', rfl, ?_⟩
      rw [heed] at hy
      split at hy
      · exact .inl (Except.error.inj (yields_done_iff.mp hy).2)
      · exact .inr hy

/-- What a loop fails with after a call was met by a call, or is made from the texts of such errors. -/
theorem Call.reported (hc : Call p scope s operation h before n g x t)
    (hy : (p.heed scope s operation left n history x).Yields t (.error e))
    (hhistory : Collected p scope s operation h history) :
    Reported p scope s operation h e := by
  induction left generalizing before n g x t history with
  | zero =>
      obtain ⟨e', rfl, rfl | hexhausted⟩ := yields_heed_error hy
      · exact .met ⟨before, n, g, t, hc⟩
      have hmet : Met p scope s operation h e' := ⟨before, n, g, t, hc⟩
      obtain ⟨_, he⟩ := yields_done_iff.mp hexhausted
      obtain rfl := Except.error.inj he
      unfold exhausted
      split
      · exact .met hmet
      · exact .exhausted (hmet.collected hhistory)
  | succ left ih =>
      obtain ⟨e', rfl, rfl | hproceed⟩ := yields_heed_error hy
      · exact .met ⟨before, n, g, t, hc⟩
      have hmet : Met p scope s operation h e' := ⟨before, n, g, t, hc⟩
      obtain ⟨g', x, t', hnext, hrest⟩ | ⟨_, he⟩ := hc.next_or_cancelled hproceed
      · exact ih hnext hrest (hmet.collected hhistory)
      · obtain rfl := Except.error.inj he
        exact .cancelled

theorem reported_of_yields (hy : (p.run scope s operation).run.Yields h (.error e)) :
    Reported p scope s operation h e := by
  obtain ⟨g, x, t, hh, hg, hrest⟩ := exists_call_of_yields hy
  exact (Call.first hh hg).reported hrest nofun

/-- Joining texts makes no mismatch of errors that are none. -/
theorem Reported.exists_mismatch (he : Reported p scope s operation h e)
    (hmismatch : e.isSequenceMismatch = true) :
    ∃ e', Met p scope s operation h e' ∧ e'.isSequenceMismatch = true := by
  cases he with
  | met hmet => exact ⟨e, hmet, hmismatch⟩
  | cancelled => exact absurd hmismatch (by decide +kernel)
  | exhausted herrors =>
      obtain ⟨text, htext, hwording⟩ :=
        RelayError.isSequenceMismatch_retriesExhausted_iff.mp hmismatch
      obtain ⟨e', hmet, rfl⟩ := herrors text htext
      exact ⟨e', hmet, RelayError.isSequenceMismatch_iff.mpr (.inr hwording)⟩

/-- A step ends with the first mismatch that it meets, which it reports as it is. -/
theorem Call.ends_step_of_mismatch (hc : Call p .step s operation h before n g (.error e) t)
    (hy : (p.run .step s operation).run.Yields h r) (hmismatch : e.isSequenceMismatch = true) :
    t = [] ∧ r = .error e :=
  hc.ends_of_isFinal hy (by simp [RetryScope.isFinal, hmismatch])

/-- A loop that met no mismatch reports none. -/
theorem not_mismatch_of_yields (hy : (p.run scope s operation).run.Yields h (.error e))
    (hnone : ∀ e', Met p scope s operation h e' → e'.isSequenceMismatch = false) :
    e.isSequenceMismatch = false := by
  rw [← Bool.not_eq_true]
  intro hmismatch
  obtain ⟨e', hmet, hmismatch'⟩ := (reported_of_yields hy).exists_mismatch hmismatch
  rw [hnone e' hmet] at hmismatch'
  cases hmismatch'

end PacketRelay.RetryPolicy
