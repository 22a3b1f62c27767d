import PacketRelay.Proofs.Metrics.Books
import PacketRelay.Proofs.Simulation.Frame

/-!
# The accounts of the simulated world

The stations and registries of the simulated world are books of what its strands did.  Every request
that a strand makes while it runs is entered, and what a strand reads of totals and registries is
what the books show at that moment.
-/

namespace PacketRelay

/-- What an exchange reads of the books is what they show. -/
def Books.Reads (b : Books) : Exchange → Prop
  | .answered (.totals p) totals => totals = b.totals p.id
  | .answered (.registry name) registry => registry = b.registries name
  | _ => True

/-- The books after a history that finds `b`. -/
def Books.follow (exports : Nat → Option String) (b : Books) (h : List Exchange) : Books :=
  h.foldl (fun b x => b.note exports x) b

theorem Books.after_eq_follow (exports : Nat → Option String) (h : List (Agent × Exchange)) :
    after exports h = opening.follow exports (h.map Prod.snd) := List.foldl_map.symm

/-- Everything that a history reads of the books is what they show at that moment. -/
def Books.ReadBy (exports : Nat → Option String) : Books → List Exchange → Prop
  | _, [] => True
  | b, x :: h => b.Reads x ∧ (b.note exports x).ReadBy exports h

namespace Simulation.World

variable {ρ : Type} {w w' : World ρ}

theorem keepsBooks_fire (w : World ρ) (s : Signal) : w.KeepsBooks (w.fire s) := by
  cases s with
  | none => exact ⟨rfl, rfl⟩
  | some n =>
      have hfired : w.KeepsBooks { w with signals := w.signals.setIfInBounds n true } := ⟨rfl, rfl⟩
      exact hfired.trans (preserves_foldl_wake _ _).toKeepsBooks

theorem keepsBooks_addSignal (w : World ρ) (millis : Nat) :
    w.KeepsBooks (w.addSignal millis).1 := by
  unfold addSignal
  dsimp only
  split
  · exact ⟨rfl, rfl⟩
  · exact ⟨rfl, rfl⟩

/-- The stations and registries of the world are these books. -/
structure ShowsBooks (exports : Nat → Option String) (w : World ρ) (b : Books) : Prop where
  exports : ∀ id, (w.account id).bind Prod.fst = exports id
  totals : ∀ id, ((w.account id).map Prod.snd).getD [] = b.totals id
  registries : ∀ name, w.registryOf name = b.registries name

variable {exports : Nat → Option String} {b : Books}

theorem showsBooks_opening (hw : ∀ s ∈ w.stations, s.totals = []) (hregistries : w.registries = []) :
    w.ShowsBooks (fun id => (w.account id).bind Prod.fst) .opening := by
  refine ⟨fun _ => rfl, fun id => ?_, fun name => ?_⟩
  · rw [account]
    cases hs : w.stations[id]? with
    | none => rfl
    | some s => exact hw s (Array.mem_of_getElem? hs)
  · rw [registryOf, hregistries]
    rfl

theorem ShowsBooks.of_keeps (hb : w.ShowsBooks exports b) (h : w.KeepsBooks w') :
    w'.ShowsBooks exports b := by
  obtain ⟨hexports, htotals, hregistries⟩ := hb
  refine ⟨by rwa [h.account], by rwa [h.account], fun name => ?_⟩
  rw [registryOf, h.registries]
  exact hregistries name

theorem lookup_filter_ne {name name' : String} (hne : name' ≠ name)
    (registries : List (String × Registry)) :
    (registries.filter (·.1 ≠ name)).lookup name' = registries.lookup name' := by
  induction registries with
  | nil => rfl
  | cons first rest ih =>
      obtain ⟨n, r⟩ := first
      by_cases hn : n = name
      · have hother : (name' == n) = false := by simpa [hn] using hne
        rw [List.filter_cons_of_neg (by simpa using hn), ih, List.lookup_cons, hother]
      · rw [List.filter_cons_of_pos (by simpa using hn), List.lookup_cons, List.lookup_cons, ih]

/-- Only the registry of the provider changes. -/
theorem ShowsBooks.exportTo (hb : w.ShowsBooks exports b) {p : Provider} {name : String}
    (hp : exports p.id = some name) (f : Registry → Registry) :
    (w.exportTo p f).ShowsBooks exports
      { b with registries := Function.update b.registries name (f (b.registries name)) } := by
  have hstation : w.stations[p.id]?.bind (·.registry) = some name := by
    rw [← hp, ← hb.exports p.id, account, Option.bind_map]
    rfl
  have hexported : w.exportTo p f =
      { w with registries :=
          (name, f (w.registryOf name)) :: w.registries.filter (·.1 ≠ name) } := by
    rw [World.exportTo, hstation]
  rw [hexported]
  refine ⟨hb.exports, hb.totals, fun name' => ?_⟩
  by_cases hn : name' = name
  · subst hn
    simp [registryOf, ← hb.registries name']
  · have hne : (name' == name) = false := by simpa using hn
    simp only [Function.update_of_ne hn, ← hb.registries name', registryOf, List.lookup_cons, hne,
      lookup_filter_ne hn]

theorem exportTo_of_none (hb : w.ShowsBooks exports b) {p : Provider} (hp : exports p.id = none)
    (f : Registry → Registry) : w.exportTo p f = w := by
  have hstation : w.stations[p.id]?.bind (·.registry) = none := by
    rw [← hp, ← hb.exports p.id, account, Option.bind_map]
    rfl
  rw [World.exportTo, hstation]

theorem ShowsBooks.setTotals (hb : w.ShowsBooks exports b) {p : Provider} {station : Station}
    (hw : w.stations[p.id]? = some station) (totals : FeeTotals) :
    (w.setStation p { station with totals }).ShowsBooks exports
      { b with totals := Function.update b.totals p.id totals } := by
  refine ⟨fun id => ?_, fun id => ?_, hb.registries⟩
  · rw [account_setStation hw]
    split
    · next hp =>
      rw [hp, ← hb.exports p.id, account, hw]
      rfl
    · exact hb.exports id
  · rw [account_setStation hw]
    split
    · next hp => simp [hp]
    · next hp => simpa [Function.update_of_ne hp] using hb.totals id

theorem ShowsBooks.spend (hb : w.ShowsBooks exports b) (p : Provider) (fees : List Coin) :
    (w.spend p fees).ShowsBooks exports (b.record exports (.spend p fees)) := by
  have hexports := hb.exports p.id
  have htotals := hb.totals p.id
  cases hw : w.stations[p.id]? with
  | none =>
      rw [account, hw] at hexports
      rw [World.spend, hw, Books.record, ← hexports]
      exact hb
  | some station =>
      rw [account, hw] at hexports htotals
      cases hregistry : station.registry with
      | none =>
          have hspent : w.spend p fees = w := by simp [World.spend, hw, hregistry]
          rw [hspent, Books.record, ← hexports, Option.map_some, Option.bind_some, hregistry]
          exact hb
      | some name =>
          have hp : exports p.id = some name := hexports.symm.trans hregistry
          have hspent : w.spend p fees =
              (w.setStation p { station with totals := station.totals.addAll fees }).exportTo p
                (·.setFees p.key (station.totals.addAll fees)) := by
            simp [World.spend, hw, hregistry]
          have hshows := (hb.setTotals hw (station.totals.addAll fees)).exportTo hp
            (·.setFees p.key (station.totals.addAll fees))
          have hsame : station.totals = b.totals p.id := htotals
          rw [hspent, Books.record, hp, Option.elim_some]
          rw [hsame] at hshows ⊢
          exact ⟨hshows.exports, hshows.totals, hshows.registries⟩

theorem ShowsBooks.count (hb : w.ShowsBooks exports b) (p : Provider) (m : Metric) :
    (w.exportTo p (·.count p.chainId m)).ShowsBooks exports (b.record exports (.record p m)) := by
  cases hp : exports p.id with
  | none =>
      rw [exportTo_of_none hb hp, Books.record, hp]
      exact hb
  | some name =>
      rw [Books.record, hp]
      exact hb.exportTo hp _

/-- Answering a request enters it in the books. -/
theorem ShowsBooks.answer (hb : w.ShowsBooks exports b) (self : Nat) (r : Request) :
    (w.answer self r).1.ShowsBooks exports (b.record exports r) := by
  cases r with
  | record p m => exact hb.count p m
  | spend p fees => exact hb.spend p fees
  | fire s => exact hb.of_keeps (w.keepsBooks_fire s)
  | signal millis => exact hb.of_keeps (w.keepsBooks_addSignal millis)
  | spawn p j => exact hb.of_keeps ⟨rfl, rfl⟩
  | _ => exact hb.of_keeps (w.preserves_answer self (by trivial)).toKeepsBooks

/-- A request that has to wait enters nothing. -/
theorem record_of_suspended {self : Nat} {r : Request} {on : Suspension r.Answer}
    (h : w.answer self r = (w', .inr on)) : b.record exports r = b := by
  cases r with
  | record p m => cases h
  | spend p fees => cases h
  | _ => rfl

/-- What a strand is told of the books is what they show. -/
theorem ShowsBooks.reads (hb : w.ShowsBooks exports b) {self : Nat} {r : Request} {a : r.Answer}
    (h : w.answer self r = (w', .inl a)) : b.Reads (.answered r a) := by
  cases r with
  | totals p =>
      cases h
      have htotals := hb.totals p.id
      change w.totals p = b.totals p.id
      rw [← htotals, World.totals, account]
      cases w.stations[p.id]? <;> rfl
  | registry name =>
      cases h
      exact hb.registries name
  | _ => trivial

/-- A strand that runs until it has to wait enters in the books what it did, and reads them so. -/
theorem ShowsBooks.run (hb : w.ShowsBooks exports b) (self : Nat) (p : Program (Outcome ρ)) :
    ∃ h q, p.Reaches h q ∧ (∀ result, (run self p w).2 = .finished result → q = .done result) ∧
      b.ReadBy exports h ∧ (run self p w).1.ShowsBooks exports (b.follow exports h) := by
  induction p generalizing w b with
  | done result =>
      refine ⟨[], _, .refl _, fun result' hdone => ?_, trivial, hb⟩
      rw [Status.finished.inj hdone]
  | ask r next ih =>
      have hanswered := hb.answer self r
      unfold World.run
      rcases hr : w.answer self r with ⟨w', a | on⟩
      · rw [hr] at hanswered
        obtain ⟨h, q, hreach, hend, hread, hshows⟩ := ih a hanswered
        exact ⟨_ :: h, q, .step (.ask a) hreach, hend, ⟨hb.reads hr, hread⟩, hshows⟩
      · -- The strand waits here; what it waits for enters nothing.
        rw [hr, record_of_suspended hr] at hanswered
        exact ⟨[], _, .refl _, nofun, trivial, hanswered⟩
  | watch s r next stop ih ihs =>
      unfold World.run
      by_cases hfired : w.fired s = true
      · rw [if_pos hfired]
        obtain ⟨h, q, hreach, hend, hread, hshows⟩ := ihs hb
        cases s with
        | none => cases hfired
        | some n =>
            exact ⟨.stopped n r :: h, q, .step .stop hreach, hend, ⟨trivial, hread⟩, hshows⟩
      · rw [if_neg hfired]
        have hanswered := hb.answer self r
        rcases hr : w.answer self r with ⟨w', a | on⟩
        · rw [hr] at hanswered
          obtain ⟨h, q, hreach, hend, hread, hshows⟩ := ih a hanswered
          exact ⟨_ :: h, q, .step (.watch a) hreach, hend, ⟨hb.reads hr, hread⟩, hshows⟩
        · rw [hr, record_of_suspended hr] at hanswered
          exact ⟨[], _, .refl _, nofun, trivial, hanswered⟩

/-- In a world where nothing was exported or spent, the strand's history is what the books of its
run are kept from. -/
theorem exists_books_after_run (hw : ∀ s ∈ w.stations, s.totals = []) (hregistries : w.registries = [])
    (self : Nat) (a : Agent) (p : Program (Outcome ρ)) : ∃ h q, p.Reaches h q ∧
      (run self p w).1.ShowsBooks (fun id => (w.account id).bind Prod.fst)
        (Books.after (fun id => (w.account id).bind Prod.fst) (h.map fun x => (a, x))) := by
  obtain ⟨h, q, hreach, _, _, hshows⟩ := (showsBooks_opening hw hregistries).run self p
  refine ⟨h, q, hreach, ?_⟩
  rw [Books.after_eq_follow, List.map_map]
  simpa [Function.comp_def] using hshows

end Simulation.World

end PacketRelay
