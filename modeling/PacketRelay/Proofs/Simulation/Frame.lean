import PacketRelay.Simulation.Schedule

/-!
# What the simulated world leaves alone

Most of what the world does moves locks, timers and strands that are ready.  It leaves alone the
signals and the strands themselves, on which depends what may happen to a program, and the accounts
of the stations and the registries, which are the books.
-/

namespace PacketRelay

/-- Answering the request leaves signals, strands, accounts and registries alone. -/
def Request.Quiet : Request → Prop
  | .signal _ | .fire _ | .spawn .. | .record .. | .spend .. => False
  | _ => True

namespace Simulation.World

variable {ρ : Type} {w w' w'' : World ρ}

/-- The signals and the strands are the same. -/
structure Keeps (w w' : World ρ) : Prop where
  signals : w'.signals = w.signals
  strands : w'.strands = w.strands

/-- Where the station of a number exports, and its totals. -/
def account (w : World ρ) (id : Nat) : Option (Option String × FeeTotals) :=
  (w.stations[id]?).map fun s => (s.registry, s.totals)

/-- The accounts and the registries are the same. -/
structure KeepsBooks (w w' : World ρ) : Prop where
  account : w'.account = w.account
  registries : w'.registries = w.registries

structure Preserves (w w' : World ρ) : Prop extends w.Keeps w', w.KeepsBooks w'

theorem Keeps.trans (h : w.Keeps w') (h' : w'.Keeps w'') : w.Keeps w'' :=
  ⟨h'.signals.trans h.signals, h'.strands.trans h.strands⟩

theorem KeepsBooks.trans (h : w.KeepsBooks w') (h' : w'.KeepsBooks w'') : w.KeepsBooks w'' :=
  ⟨h'.account.trans h.account, h'.registries.trans h.registries⟩

theorem Preserves.trans (h : w.Preserves w') (h' : w'.Preserves w'') : w.Preserves w'' :=
  ⟨h.toKeeps.trans h'.toKeeps, h.toKeepsBooks.trans h'.toKeepsBooks⟩

theorem preserves_wake (w : World ρ) (strand : Nat) : w.Preserves (w.wake strand) := by
  unfold wake
  split
  · exact ⟨⟨rfl, rfl⟩, rfl, rfl⟩
  · split
    · split <;> exact ⟨⟨rfl, rfl⟩, rfl, rfl⟩
    · exact ⟨⟨rfl, rfl⟩, rfl, rfl⟩

theorem preserves_foldl_wake (strands : List Nat) (w : World ρ) :
    w.Preserves (strands.foldl wake w) := by
  induction strands generalizing w with
  | nil => exact ⟨⟨rfl, rfl⟩, rfl, rfl⟩
  | cons strand strands ih => exact (w.preserves_wake strand).trans (ih _)

theorem preserves_passOn (w : World ρ) (l : KeyLock) : w.Preserves (w.passOn l) := by
  unfold passOn
  split
  · exact ⟨⟨rfl, rfl⟩, rfl, rfl⟩
  · next strand rest _ =>
    have hlock : w.Preserves (w.setLock { l with holder := some strand, queue := rest }) :=
      ⟨⟨rfl, rfl⟩, rfl, rfl⟩
    exact hlock.trans (preserves_wake _ _)

theorem preserves_atTime {α : Type} (w : World ρ) (due : Nat) (a : α) :
    w.Preserves (w.atTime due a).1 := by
  unfold atTime
  split <;> exact ⟨⟨rfl, rfl⟩, rfl, rfl⟩

theorem account_setStation {p : Provider} {station : Station}
    (hw : w.stations[p.id]? = some station) (station' : Station) (id : Nat) :
    (w.setStation p station').account id =
      if id = p.id then some (station'.registry, station'.totals) else w.account id := by
  have hid := (Array.getElem?_eq_some_iff.mp hw).1
  simp only [account, setStation, Array.getElem?_setIfInBounds, hid, if_true]
  by_cases hp : id = p.id
  · rw [if_pos hp.symm, if_pos hp, Option.map_some]
  · rw [if_neg (Ne.symm hp), if_neg hp]

theorem preserves_setStation {p : Provider} {station : Station}
    (hw : w.stations[p.id]? = some station) {station' : Station}
    (hregistry : station'.registry = station.registry) (htotals : station'.totals = station.totals) :
    w.Preserves (w.setStation p station') := by
  refine ⟨⟨rfl, rfl⟩, funext fun id => ?_, rfl⟩
  rw [account_setStation hw, hregistry, htotals]
  split
  · next hp => rw [hp, account, hw, Option.map_some]
  · rfl

theorem preserves_address (w : World ρ) (p : Provider) : w.Preserves (w.address p).1 := by
  unfold address
  split
  · exact ⟨⟨rfl, rfl⟩, rfl, rfl⟩
  · next station hw =>
    dsimp only
    split <;> exact preserves_setStation hw rfl rfl

theorem preserves_sign (w : World ρ) (p : Provider) (document : Bytes) :
    w.Preserves (w.sign p document).1 := by
  unfold sign
  split
  · exact ⟨⟨rfl, rfl⟩, rfl, rfl⟩
  · next station hw =>
    dsimp only
    split <;> exact preserves_setStation hw rfl rfl

/-- The requests that do more than this are for signals, jobs, counts and fees. -/
theorem preserves_answer (w : World ρ) (self : Nat) {r : Request} (hr : r.Quiet) :
    w.Preserves (w.answer self r).1 := by
  cases r with
  | signal _ | fire _ | spawn _ _ | record _ _ | spend _ _ => exact hr.elim
  | address p => exact w.preserves_address p
  | sign p document => exact w.preserves_sign p document
  | release p state => exact w.preserves_passOn _
  | notify caller result =>
      have hreported : w.Preserves { w with reports := w.reports ++ [(caller, result)] } :=
        ⟨⟨rfl, rfl⟩, rfl, rfl⟩
      exact hreported.trans (preserves_foldl_wake _ _)
  | await c ticket =>
      unfold answer
      dsimp only
      split
      · exact ⟨⟨rfl, rfl⟩, rfl, rfl⟩
      · exact w.preserves_atTime _ _
  | awaitEither c₁ ticket₁ c₂ ticket₂ =>
      unfold answer
      dsimp only
      split
      · split <;> exact w.preserves_atTime _ _
      · exact ⟨⟨rfl, rfl⟩, rfl, rfl⟩
  | _ =>
      unfold answer
      dsimp only
      repeat' split
      all_goals exact ⟨⟨rfl, rfl⟩, rfl, rfl⟩

end Simulation.World

end PacketRelay
