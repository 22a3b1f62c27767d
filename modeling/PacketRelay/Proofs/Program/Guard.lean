import PacketRelay.Proofs.Program.Inversion

/-!
# Guarded parts

A guarded part first looks at its signal.  It then runs to its end, or the signal drops it at a
request that was not watched before.
-/

namespace PacketRelay.Attempt

open Program

variable {α : Type}

/-- The histories of a guarded part, with their results. -/
inductive Guarded (s : Signal) (p : Attempt α) : List Exchange → Except RelayError α → Prop where
  | fired {n : Nat} : s = some n → Guarded s p [.stopped n .rest] (.error .cancelled)
  | finished {h : List Exchange} {r : Except RelayError α} :
    p.run.Yields h r → Guarded s p (.answered .rest () :: h) r
  | dropped {n : Nat} {h : List Exchange} {r : Request}
      {next : r.Answer → Program (Except RelayError α)} :
    s = some n → p.run.Reaches h (.ask r next) →
      Guarded s p (.answered .rest () :: (h ++ [.stopped n r])) (.error .cancelled)

theorem yields_watchAll {s : Signal} {c a : α} {p : Program α} {h : List Exchange}
    (hp : (watchAll s (.done c) p).Yields h a) :
    p.Yields h a ∨ ∃ (n : Nat) (h' : List Exchange) (r : Request) (next : r.Answer → Program α),
      s = some n ∧ h = h' ++ [.stopped n r] ∧ p.Reaches h' (.ask r next) ∧ a = c := by
  induction p generalizing h with
  | done b => exact .inl hp
  | ask r next ih =>
      obtain ⟨b, h', rfl, hrest⟩ | ⟨n, h', rfl, rfl, hrest⟩ := yields_watch_iff.mp hp
      · obtain hdone | ⟨n, h₁, r', next', rfl, rfl, hreach, rfl⟩ := ih b hrest
        · exact .inl (.step (.ask b) hdone)
        · exact .inr ⟨n, _ :: h₁, r', next', rfl, rfl, .step (.ask b) hreach, rfl⟩
      · obtain ⟨rfl, rfl⟩ := yields_done_iff.mp hrest
        exact .inr ⟨n, [], r, next, rfl, rfl, .refl _, rfl⟩
  | watch s' r next stop ih _ =>
      obtain ⟨b, h', rfl, hrest⟩ | ⟨n, h', rfl, rfl, hrest⟩ := yields_watch_iff.mp hp
      · obtain hdone | ⟨n, h₁, r', next', rfl, rfl, hreach, rfl⟩ := ih b hrest
        · exact .inl (.step (.watch b) hdone)
        · exact .inr ⟨n, _ :: h₁, r', next', rfl, rfl, .step (.watch b) hreach, rfl⟩
      · exact .inl (.step .stop hrest)

theorem guard_run_eq (s : Signal) (p : Attempt α) : (guard s p).run =
    watch s .rest (fun _ => watchAll s (.done (.error .cancelled)) p.run)
      (.done (.error .cancelled)) := rfl

theorem yields_guard {s : Signal} {p : Attempt α} {h : List Exchange} {r : Except RelayError α}
    (hp : (guard s p).run.Yields h r) : Guarded s p h r := by
  rw [guard_run_eq, yields_watch_iff] at hp
  obtain ⟨⟨⟩, h', rfl, hrest⟩ | ⟨n, h', rfl, rfl, hrest⟩ := hp
  · obtain hdone | ⟨n, h₁, q, next, rfl, rfl, hreach, rfl⟩ := yields_watchAll hrest
    · exact .finished hdone
    · exact .dropped rfl hreach
  · obtain ⟨rfl, rfl⟩ := yields_done_iff.mp hrest
    exact .fired rfl

theorem reaches_watchAll {s : Signal} {stop p q : Program α} {h : List Exchange}
    (hp : p.Reaches h q) (hh : ∀ x ∈ h, x.IsAnswer) :
    (watchAll s stop p).Reaches h (watchAll s stop q) := by
  induction hp with
  | refl p => exact .refl _
  | step hstep _ ih =>
      obtain ⟨hx, hrest⟩ := List.forall_mem_cons.mp hh
      cases hstep with
      | ask a => exact .step (.watch a) (ih hrest)
      | watch a => exact .step (.watch a) (ih hrest)
      | stop => exact hx.elim

/-- What a part can do without a stop, it can do guarded. -/
theorem reaches_guard {s : Signal} {p : Attempt α} {q : Program (Except RelayError α)}
    {h : List Exchange} (hp : p.run.Reaches h q) (hh : ∀ x ∈ h, x.IsAnswer) :
    (guard s p).run.Reaches (.answered .rest () :: h)
      (watchAll s (.done (.error .cancelled)) q) := by
  rw [guard_run_eq]
  exact reaches_watch (reaches_watchAll hp hh)

theorem yields_guard_of {s : Signal} {p : Attempt α} {h : List Exchange} {r : Except RelayError α}
    (hp : p.run.Yields h r) (hh : ∀ x ∈ h, x.IsAnswer) :
    (guard s p).run.Yields (.answered .rest () :: h) r := reaches_guard hp hh

theorem yields_guard_ok {s : Signal} {p : Attempt α} {h : List Exchange} {a : α}
    (hp : (guard s p).run.Yields h (.ok a)) :
    ∃ h', h = .answered .rest () :: h' ∧ p.run.Yields h' (.ok a) := by
  cases yields_guard hp with
  | finished hx => exact ⟨_, rfl, hx⟩

/-- Without a stop a guarded part runs to its end. -/
theorem Guarded.answered {s : Signal} {p : Attempt α} {h : List Exchange} {r : Except RelayError α}
    (hg : Guarded s p h r) (hh : ∀ x ∈ h, x.IsAnswer) :
    ∃ h', h = .answered .rest () :: h' ∧ p.run.Yields h' r := by
  cases hg with
  | fired _ => exact (hh _ List.mem_cons_self).elim
  | finished hp => exact ⟨_, rfl, hp⟩
  | @dropped n h r next _ _ => exact (hh (.stopped n r) (by simp)).elim

/-- A guarded single request can be answered. -/
theorem yields_guard_request (s : Signal) (q : Request) (a : q.Answer) :
    (guard s (request q)).run.Yields [.answered .rest (), .answered q a] (.ok a) :=
  yields_guard_of (yields_request_iff.mpr ⟨a, rfl, rfl⟩) (List.forall_mem_singleton.mpr trivial)

/-- A guarded single request that was answered. -/
theorem Guarded.request_ok {s : Signal} {q : Request} {h : List Exchange} {a : q.Answer}
    (hg : Guarded s (Attempt.request q) h (.ok a)) :
    h = [.answered .rest (), .answered q a] := by
  cases hg with
  | finished hq =>
      obtain ⟨b, rfl, hb⟩ := yields_request_iff.mp hq
      cases hb
      rfl

/-- A guarded single request that was not answered. -/
theorem Guarded.request_error {s : Signal} {q : Request} {h : List Exchange} {e : RelayError}
    (hg : Guarded s (Attempt.request q) h (.error e)) :
    e = .cancelled ∧ ∃ n, s = some n ∧
      (h = [.stopped n .rest] ∨ h = [.answered .rest (), .stopped n q]) := by
  cases hg with
  | fired hs => exact ⟨rfl, _, hs, .inl rfl⟩
  | finished hq =>
      obtain ⟨b, rfl, hb⟩ := yields_request_iff.mp hq
      cases hb
  | @dropped n h' r next hs hreach =>
      refine ⟨rfl, n, hs, .inr ?_⟩
      cases hreach with
      | refl => rfl
      | step hstep hrest =>
          cases hstep
          cases hrest with
          | step hstep' _ => cases hstep'

end PacketRelay.Attempt
