import PacketRelay.Proofs.Program.History

/-!
# Histories of composite programs

A history of a composite program falls into histories of its parts.  A guarded part runs to its end
or is dropped at one of its requests.
-/

namespace PacketRelay

namespace Program

variable {α β : Type}

theorem bind_eq (p : Program α) (f : α → Program β) : (p >>= f) = p.bind f := rfl

theorem Step.bind {p q : Program α} {x : Exchange} (f : α → Program β) (h : Step p x q) :
    Step (p.bind f) x (q.bind f) := by
  cases h with
  | ask a => exact .ask a
  | watch a => exact .watch a
  | stop => exact .stop

theorem Reaches.bind {p q : Program α} {h : List Exchange} (f : α → Program β)
    (hp : Reaches p h q) : Reaches (p.bind f) h (q.bind f) := by
  induction hp with
  | refl p => exact .refl _
  | step hstep _ ih => exact .step (hstep.bind f) ih

theorem yields_bind_iff {p : Program α} {f : α → Program β} {h : List Exchange} {b : β} :
    (p.bind f).Yields h b ↔
      ∃ h₁ a h₂, h = h₁ ++ h₂ ∧ p.Yields h₁ a ∧ (f a).Yields h₂ b := by
  constructor
  · intro hb
    induction p generalizing h with
    | done a => exact ⟨[], a, h, rfl, .refl _, hb⟩
    | ask r next ih =>
        obtain ⟨a, h', rfl, hrest⟩ := yields_ask_iff.mp hb
        obtain ⟨h₁, c, h₂, rfl, hc, hf⟩ := ih a hrest
        exact ⟨_ :: h₁, c, h₂, rfl, .step (.ask a) hc, hf⟩
    | watch s r next stop ih ihs =>
        obtain ⟨a, h', rfl, hrest⟩ | ⟨n, h', rfl, rfl, hrest⟩ := yields_watch_iff.mp hb
        · obtain ⟨h₁, c, h₂, rfl, hc, hf⟩ := ih a hrest
          exact ⟨_ :: h₁, c, h₂, rfl, .step (.watch a) hc, hf⟩
        · obtain ⟨h₁, c, h₂, rfl, hc, hf⟩ := ihs hrest
          exact ⟨_ :: h₁, c, h₂, rfl, .step .stop hc, hf⟩
  · rintro ⟨h₁, a, h₂, rfl, hp, hf⟩
    exact (hp.bind f).append hf

/-- A history that begins with one of the first part goes on with one of the second. -/
theorem Yields.of_bind {p : Program α} {f : α → Program β} {a : α} {b : β}
    {h h' : List Exchange} (hp : p.Yields h a) (hb : (p.bind f).Yields (h ++ h') b) :
    (f a).Yields h' b := by
  obtain ⟨q, hq, hrest⟩ := reaches_append_iff.mp hb
  obtain rfl := hq.unique (hp.bind f)
  exact hrest

theorem yields_request_iff {r : Request} {h : List Exchange} {a : r.Answer} :
    (request r).Yields h a ↔ h = [.answered r a] := by
  rw [request, yields_ask_iff]
  constructor
  · rintro ⟨b, h', rfl, hb⟩
    obtain ⟨rfl, rfl⟩ := yields_done_iff.mp hb
    rfl
  · rintro rfl
    exact ⟨a, [], rfl, .refl _⟩

theorem reaches_request_bind {r : Request} {f : r.Answer → Program β} {a : r.Answer}
    {h : List Exchange} {q : Program β} (hq : (f a).Reaches h q) :
    ((request r).bind f).Reaches (.answered r a :: h) q :=
  ((yields_request_iff (a := a)).mpr rfl |>.bind f).append hq

end Program

namespace Attempt

open Program

variable {α β : Type}

theorem yields_pure_iff {a : α} {h : List Exchange} {r : Except RelayError α} :
    (pure a : Attempt α).run.Yields h r ↔ h = [] ∧ r = .ok a := yields_done_iff

theorem yields_pure_ok_iff {a b : α} {h : List Exchange} :
    (pure a : Attempt α).run.Yields h (.ok b) ↔ h = [] ∧ b = a := by
  rw [yields_pure_iff, Except.ok.injEq]

theorem yields_throw_iff {e : RelayError} {h : List Exchange} {r : Except RelayError α} :
    (throw e : Attempt α).run.Yields h r ↔ h = [] ∧ r = .error e := yields_done_iff

theorem yields_ofExcept_iff {x r : Except RelayError α} {h : List Exchange} :
    (ofExcept x).run.Yields h r ↔ h = [] ∧ r = x := yields_done_iff

theorem yields_bind_iff {x : Attempt α} {f : α → Attempt β} {h : List Exchange}
    {r : Except RelayError β} :
    (x >>= f).run.Yields h r ↔
      (∃ e, x.run.Yields h (.error e) ∧ r = .error e) ∨
        ∃ h₁ a h₂, h = h₁ ++ h₂ ∧ x.run.Yields h₁ (.ok a) ∧ (f a).run.Yields h₂ r := by
  rw [ExceptT.run_bind, bind_eq, Program.yields_bind_iff]
  constructor
  · rintro ⟨h₁, e | a, h₂, rfl, hx, hf⟩
    · obtain ⟨rfl, rfl⟩ := yields_done_iff.mp hf
      exact .inl ⟨e, by simpa using hx, rfl⟩
    · exact .inr ⟨h₁, a, h₂, rfl, hx, hf⟩
  · rintro (⟨e, hx, rfl⟩ | ⟨h₁, a, h₂, rfl, hx, hf⟩)
    · exact ⟨h, .error e, [], by simp, hx, .refl _⟩
    · exact ⟨h₁, .ok a, h₂, rfl, hx, hf⟩

theorem yields_bind_ok_iff {x : Attempt α} {f : α → Attempt β} {h : List Exchange} {b : β} :
    (x >>= f).run.Yields h (.ok b) ↔
      ∃ h₁ a h₂, h = h₁ ++ h₂ ∧ x.run.Yields h₁ (.ok a) ∧ (f a).run.Yields h₂ (.ok b) := by
  rw [yields_bind_iff]
  constructor
  · rintro (⟨e, _, he⟩ | hy)
    · cases he
    · exact hy
  · exact .inr

theorem yields_lift_iff {p : Program α} {h : List Exchange} {r : Except RelayError α} :
    (ExceptT.lift p : Attempt α).run.Yields h r ↔ ∃ a, p.Yields h a ∧ r = .ok a := by
  have hlift : (ExceptT.lift p : Attempt α).run = p.bind fun a => done (.ok a) := by
    rw [ExceptT.run_lift, map_eq_pure_bind]
    rfl
  rw [hlift, Program.yields_bind_iff]
  constructor
  · rintro ⟨h₁, a, h₂, rfl, hp, hd⟩
    obtain ⟨rfl, rfl⟩ := yields_done_iff.mp hd
    exact ⟨a, by simpa using hp, rfl⟩
  · rintro ⟨a, hp, rfl⟩
    exact ⟨h, a, [], by simp, hp, .refl _⟩

theorem yields_request_iff {q : Request} {h : List Exchange} {r : Except RelayError q.Answer} :
    (Attempt.request q).run.Yields h r ↔ ∃ a, h = [.answered q a] ∧ r = .ok a := by
  simp only [Attempt.request, yields_lift_iff, Program.yields_request_iff]

theorem yields_request_bind_iff {q : Request} {f : q.Answer → Attempt α} {h : List Exchange}
    {r : Except RelayError α} :
    (Attempt.request q >>= f).run.Yields h r ↔
      ∃ a h', h = .answered q a :: h' ∧ (f a).run.Yields h' r := by
  rw [yields_bind_iff]
  constructor
  · rintro (⟨e, hq, rfl⟩ | ⟨h₁, a, h₂, rfl, hq, hf⟩)
    · obtain ⟨a, _, he⟩ := yields_request_iff.mp hq
      cases he
    · obtain ⟨b, rfl, hb⟩ := yields_request_iff.mp hq
      cases hb
      exact ⟨a, h₂, rfl, hf⟩
  · rintro ⟨a, h', rfl, hf⟩
    exact .inr ⟨[_], a, h', rfl, yields_request_iff.mpr ⟨a, rfl, rfl⟩, hf⟩

theorem exists_reaches_bind {x : Attempt α} {q : Program (Except RelayError α)}
    {h : List Exchange} (hx : x.run.Reaches h q) (f : α → Attempt β) :
    ∃ q', (x >>= f).run.Reaches h q' := by
  rw [ExceptT.run_bind, bind_eq]
  exact ⟨_, hx.bind _⟩

theorem throw_bind (e : RelayError) (f : α → Attempt β) : (throw e >>= f) = throw e := rfl

theorem yields_outcome_iff {x : Attempt α} {h : List Exchange}
    {r : Except RelayError (Except RelayError α)} :
    (outcome x).run.Yields h r ↔ ∃ a, x.run.Yields h a ∧ r = .ok a := yields_lift_iff

end Attempt

end PacketRelay
