import PacketRelay.Proofs.Metrics.Samples
import PacketRelay.Proofs.System.Tally

/-!
# The books of a run

Providers that export metrics share registries and keep totals of their fees.  What stands in the
registries and totals after a run is read off its history: a counter counts the records that were
made, a total adds up the fees that were spent, and a gauge shows the total exported last.
-/

namespace PacketRelay

/-- The fee totals of providers and the registries to which they export. -/
structure Books where
  totals : Nat → FeeTotals
  registries : String → Registry
  /-- The amount of a key and a denomination last exported to a registry, before it is rounded. -/
  exported : String → KeyId → String → Option Nat

/-- The provider exports to a registry about a chain. -/
def Provider.exporting (exports : Nat → Option String) (name chain : String) (p : Provider) : Bool :=
  exports p.id = some name && p.config.chainId = chain

/-- The provider has this number and keeps totals. -/
def Provider.keeping (exports : Nat → Option String) (id : Nat) (p : Provider) : Bool :=
  p.id = id && (exports id).isSome

/-- The request records something about one of the providers. -/
def Request.records (among : Provider → Bool) (m : Metric) : Request → Bool
  | .record p m' => among p && m' = m
  | _ => false

/-- The fees that one of the providers spends. -/
def Request.fees (among : Provider → Bool) : Request → Multiset Coin
  | .spend p fees => if among p then fees else 0
  | _ => 0

theorem Exchange.spends_or_not (x : Exchange) : (∃ p fees, x = .answered (.spend p fees) ()) ∨
    ∀ among, x.amount (Request.fees among) = 0 := by
  cases x with
  | stopped n r => exact .inr fun _ => rfl
  | answered r b =>
      cases r with
      | spend p fees => exact .inl ⟨p, fees, rfl⟩
      | _ => exact .inr fun _ => rfl

/-- The fees that some of the providers spent in a run. -/
def System.spent (among : Provider → Bool) (h : List (Agent × Exchange)) : Multiset Coin :=
  tally (fun _ x => x.amount (Request.fees among)) h

namespace System

variable {among among' : Provider → Bool} {h : List (Agent × Exchange)}

theorem spent_append (among : Provider → Bool) (h h' : List (Agent × Exchange)) :
    spent among (h ++ h') = spent among h + spent among h' := tally_append h h'

theorem spent_congr (heq : ∀ a p fees, (a, .answered (.spend p fees) ()) ∈ h → among p = among' p) :
    spent among h = spent among' h := by
  refine congrArg List.sum (List.map_congr_left fun e he => ?_)
  obtain ⟨a, x⟩ := e
  obtain ⟨p, fees, rfl⟩ | hnone := x.spends_or_not
  · have hsame := heq a p fees he
    simp [Exchange.amount, Request.fees, hsame]
  · exact (hnone among).trans (hnone among').symm

theorem spent_eq_zero (hnone : ∀ a p fees, (a, .answered (.spend p fees) ()) ∈ h → among p = false) :
    spent among h = 0 := by
  rw [spent_congr hnone]
  refine List.sum_eq_zero fun coins hcoins => ?_
  obtain ⟨⟨a, x⟩, _, rfl⟩ := List.mem_map.mp hcoins
  obtain ⟨p, fees, rfl⟩ | hzero := x.spends_or_not
  · rfl
  · exact hzero _

theorem spent_split (among other : Provider → Bool) (h : List (Agent × Exchange)) :
    spent among h = spent (fun p => among p && other p) h +
      spent (fun p => among p && !other p) h := by
  induction h with
  | nil => rfl
  | cons e h ih =>
      obtain ⟨a, x⟩ := e
      have hfirst : x.amount (Request.fees among) =
          x.amount (Request.fees fun p => among p && other p) +
            x.amount (Request.fees fun p => among p && !other p) := by
        obtain ⟨p, fees, rfl⟩ | hnone := x.spends_or_not
        · cases hp : other p <;> simp [Exchange.amount, Request.fees, hp]
        · rw [hnone, hnone, hnone, add_zero]
      simp only [spent, tally_cons] at ih ⊢
      rw [ih, hfirst]
      exact add_add_add_comm _ _ _ _

end System

theorem Provider.keeping_of_some {exports : Nat → Option String} {id : Nat} {name : String}
    (hid : exports id = some name) : Provider.keeping exports id = fun p => decide (p.id = id) := by
  funext p
  simp [Provider.keeping, hid]

namespace Books

def opening : Books := ⟨fun _ => [], fun _ => .empty, fun _ _ _ => none⟩

def count (b : Books) (name chain : String) (m : Metric) : Books :=
  { b with registries := Function.update b.registries name ((b.registries name).count chain m) }

/-- Adds fees to the totals of a provider and exports these. -/
def charge (b : Books) (name : String) (p : Provider) (fees : List Coin) : Books :=
  let totals := (b.totals p.id).addAll fees
  let exported (k : KeyId) (d : String) : Option Nat :=
    if k = p.key then (totals.lookup d).or (b.exported name k d) else b.exported name k d
  { totals := Function.update b.totals p.id totals
    registries := Function.update b.registries name ((b.registries name).setFees p.key totals)
    exported := Function.update b.exported name exported }

/-- What a request changes.  Only providers that export metrics keep books. -/
def record (exports : Nat → Option String) (b : Books) : Request → Books
  | .record p m => (exports p.id).elim b fun name => b.count name p.chainId m
  | .spend p fees => (exports p.id).elim b fun name => b.charge name p fees
  | _ => b

def note (exports : Nat → Option String) (b : Books) : Exchange → Books
  | .answered r _ => b.record exports r
  | .stopped .. => b

/-- The books after a run. -/
def after (exports : Nat → Option String) (h : List (Agent × Exchange)) : Books :=
  h.foldl (fun b e => b.note exports e.2) opening

/-- An exchange by its part in the books. -/
inductive Noted (exports : Nat → Option String) : Exchange → Prop where
  | counted {p : Provider} {m : Metric} {name : String} :
    exports p.id = some name → Noted exports (.answered (.record p m) ())
  | charged {p : Provider} {fees : List Coin} {name : String} :
    exports p.id = some name → Noted exports (.answered (.spend p fees) ())
  | nothing {x : Exchange} : (∀ p m, x = .answered (.record p m) () → exports p.id = none) →
    (∀ p fees, x = .answered (.spend p fees) () → exports p.id = none) → Noted exports x

variable {exports : Nat → Option String} {b : Books}

theorem noted (exports : Nat → Option String) (x : Exchange) : Noted exports x := by
  cases x with
  | stopped n r => exact .nothing (by simp) (by simp)
  | answered r a =>
      cases r with
      | record p m =>
          cases hp : exports p.id with
          | none =>
              refine .nothing (fun q m' hx => ?_) (by simp)
              cases hx
              exact hp
          | some name => exact .counted hp
      | spend p fees =>
          cases hp : exports p.id with
          | none =>
              refine .nothing (by simp) fun q fees' hx => ?_
              cases hx
              exact hp
          | some name => exact .charged hp
      | _ => exact .nothing (by simp) (by simp)

theorem note_record {p : Provider} {m : Metric} {name : String} (hp : exports p.id = some name) :
    b.note exports (.answered (.record p m) ()) = b.count name p.chainId m := by
  rw [note, record, hp, Option.elim_some]

theorem note_spend {p : Provider} {fees : List Coin} {name : String}
    (hp : exports p.id = some name) :
    b.note exports (.answered (.spend p fees) ()) = b.charge name p fees := by
  rw [note, record, hp, Option.elim_some]

theorem note_nothing {x : Exchange}
    (hm : ∀ p m, x = .answered (.record p m) () → exports p.id = none)
    (hs : ∀ p fees, x = .answered (.spend p fees) () → exports p.id = none) :
    b.note exports x = b := by
  cases x with
  | stopped n r => rfl
  | answered r a =>
      cases r with
      | record p m => rw [note, record, hm p m rfl, Option.elim_none]
      | spend p fees => rw [note, record, hs p fees rfl, Option.elim_none]
      | _ => rfl

/-- Samples and totals stand in order, and a gauge shows what was exported last. -/
structure WellKept (b : Books) : Prop where
  totals : ∀ id, (b.totals id).Sorted
  registries : ∀ name, (b.registries name).Ordered
  gauges : ∀ name k d, (b.registries name).fees.lookup (Registry.feeLabels k d) =
    (b.exported name k d).map Decimal.Binary64.ofNat

theorem wellKept_opening : opening.WellKept :=
  ⟨fun _ => .nil, fun _ => Registry.ordered_empty, fun _ _ _ => rfl⟩

theorem WellKept.count (hb : b.WellKept) (name chain : String) (m : Metric) :
    (b.count name chain m).WellKept := by
  refine ⟨hb.totals, fun name' => ?_, fun name' k d => ?_⟩
  · by_cases hn : name' = name
    · subst hn
      simpa [Books.count] using (hb.registries name').count chain m
    · simpa [Books.count, Function.update_of_ne hn] using hb.registries name'
  · have hgauges := hb.gauges name' k d
    by_cases hn : name' = name
    · subst hn
      cases m <;> simpa [Books.count, Registry.count] using hgauges
    · simpa [Books.count, Function.update_of_ne hn] using hgauges

theorem WellKept.charge (hb : b.WellKept) (name : String) (p : Provider) (fees : List Coin) :
    (b.charge name p fees).WellKept := by
  have htotals := (hb.totals p.id).addAll fees
  refine ⟨fun id => ?_, fun name' => ?_, fun name' k d => ?_⟩
  · by_cases hid : id = p.id
    · subst hid
      simpa [Books.charge] using htotals
    · simpa [Books.charge, Function.update_of_ne hid] using hb.totals id
  · by_cases hn : name' = name
    · subst hn
      simpa [Books.charge] using (hb.registries name').setFees p.key _
    · simpa [Books.charge, Function.update_of_ne hn] using hb.registries name'
  · by_cases hn : name' = name
    · subst hn
      simp only [Books.charge, Function.update_self]
      rw [(hb.registries name').lookup_setFees htotals, hb.gauges]
      split
      · rw [Option.map_or]
      · rfl
    · simpa [Books.charge, Function.update_of_ne hn] using hb.gauges name' k d

theorem WellKept.note (hb : b.WellKept) (x : Exchange) : (b.note exports x).WellKept := by
  cases noted exports x with
  | counted hp =>
      rw [note_record hp]
      exact hb.count _ _ _
  | charged hp =>
      rw [note_spend hp]
      exact hb.charge _ _ _
  | nothing hm hs =>
      rw [note_nothing hm hs]
      exact hb

@[simp] theorem after_nil : after exports [] = opening := rfl

theorem after_append (h h' : List (Agent × Exchange)) :
    after exports (h ++ h') = h'.foldl (fun b e => b.note exports e.2) (after exports h) :=
  List.foldl_append

theorem after_snoc (h : List (Agent × Exchange)) (e : Agent × Exchange) :
    after exports (h ++ [e]) = (after exports h).note exports e.2 := after_append h [e]

theorem wellKept_after (h : List (Agent × Exchange)) : (after exports h).WellKept := by
  induction h using List.reverseRecOn with
  | nil => exact wellKept_opening
  | append_singleton h e ih =>
      rw [after_snoc]
      exact ih.note e.2

/-- A counter shows how often its event was recorded. -/
theorem value_after (name chain : String) (m : Metric) (h : List (Agent × Exchange)) :
    ((after exports h).registries name).value chain m =
      h.countP fun e => e.2.answers (Request.records (Provider.exporting exports name chain) m) := by
  induction h using List.reverseRecOn with
  | nil => cases m <;> rfl
  | append_singleton h e ih =>
      rw [after_snoc, List.countP_append, List.countP_singleton, ← ih]
      generalize hb : after exports h = b
      have hkept : b.WellKept := hb ▸ wellKept_after h
      obtain ⟨a, x⟩ := e
      cases noted exports x with
      | @counted p m' name' hp =>
          rw [note_record hp, count]
          by_cases hn : name = name'
          · subst hn
            simp only [Function.update_self, (hkept.registries name).value_count,
              Exchange.answers, Request.records, Provider.exporting, Provider.chainId, hp, decide_true,
              Bool.true_and, Bool.and_eq_true, decide_eq_true_eq]
          · have hother : ¬ some name' = some name := fun heq => hn (Option.some.inj heq).symm
            simp [Function.update_of_ne hn, Exchange.answers, Request.records, Provider.exporting, hp,
              hother]
      | @charged p fees name' hp =>
          rw [note_spend hp, charge]
          by_cases hn : name = name'
          · subst hn
            simp [Exchange.answers, Request.records, Registry.setFees_value]
          · simp [Function.update_of_ne hn, Exchange.answers, Request.records]
      | nothing hm hs =>
          have hnone :
              x.answers (Request.records (Provider.exporting exports name chain) m) = false := by
            cases x with
            | stopped n r => rfl
            | answered r a =>
                cases r with
                | record p m' =>
                    simp [Exchange.answers, Request.records, Provider.exporting, hm p m' rfl]
                | _ => rfl
          simp [note_nothing hm hs, hnone]

/-- The totals of a provider that exports metrics add up what it spent, in any order. -/
theorem totals_after (id : Nat) (h : List (Agent × Exchange)) :
    ∃ coins : List Coin, (after exports h).totals id = FeeTotals.addAll [] coins ∧
      (coins : Multiset Coin) = System.spent (Provider.keeping exports id) h := by
  induction h using List.reverseRecOn with
  | nil => exact ⟨[], rfl, rfl⟩
  | append_singleton h e ih =>
      obtain ⟨coins, htotals, hcoins⟩ := ih
      rw [after_snoc, System.spent_append, ← hcoins]
      generalize after exports h = b at htotals
      obtain ⟨a, x⟩ := e
      cases noted exports x with
      | @counted p m name hp =>
          rw [note_record hp]
          exact ⟨coins, htotals, by simp [System.spent, Exchange.amount, Request.fees]⟩
      | @charged p fees name hp =>
          rw [note_spend hp, charge]
          by_cases hid : id = p.id
          · subst hid
            refine ⟨coins ++ fees, ?_, ?_⟩
            · rw [FeeTotals.addAll_append, ← htotals]
              exact Function.update_self _ _ _
            · simp [System.spent, Exchange.amount, Request.fees, Provider.keeping, hp]
          · refine ⟨coins, (Function.update_of_ne hid _ _).trans htotals, ?_⟩
            simp [System.spent, Exchange.amount, Request.fees, Provider.keeping, Ne.symm hid]
      | nothing hm hs =>
          rw [note_nothing hm hs]
          refine ⟨coins, htotals, ?_⟩
          have hnone : x.amount (Request.fees (Provider.keeping exports id)) = 0 := by
            obtain ⟨p, fees, rfl⟩ | hzero := x.spends_or_not
            · refine if_neg fun hp => ?_
              simp only [Provider.keeping, Bool.and_eq_true, decide_eq_true_eq] at hp
              obtain ⟨rfl, hsome⟩ := hp
              rw [hs p fees rfl] at hsome
              cases hsome
            · exact hzero _
          simp [System.spent, hnone]

theorem lookup_totals_after (id : Nat) (d : String) (h : List (Agent × Exchange)) :
    ((after exports h).totals id).lookup d =
      if FeeTotals.amounts d (System.spent (Provider.keeping exports id) h) = 0 then none
      else some (FeeTotals.amounts d (System.spent (Provider.keeping exports id) h)).sum := by
  obtain ⟨coins, htotals, hcoins⟩ := @totals_after exports id h
  have hempty : FeeTotals.Sorted [] := .nil
  rw [htotals, hempty.lookup_addAll, hcoins]
  simp

/-- While what a provider spent in a run adds up to numbers of 128 bits, its totals were such numbers
at any time. -/
theorem fits_after {id : Nat} {g h : List (Agent × Exchange)} (hpart : g <+: h)
    (hbound : exports id ≠ none →
      ∀ d, (FeeTotals.amounts d (System.spent (fun p => p.id = id) h)).sum < 1 <<< 128) :
    ((after exports g).totals id).Fits := by
  intro d n hn
  obtain ⟨g', rfl⟩ := hpart
  rw [lookup_totals_after] at hn
  split at hn
  · cases hn
  next hpaid =>
    obtain rfl := Option.some.inj hn
    cases hid : exports id with
    | none =>
        refine absurd ?_ hpaid
        rw [System.spent_eq_zero fun _ _ _ _ => by simp [Provider.keeping, hid]]
        rfl
    | some name =>
        have hsum := hbound (by simp [hid]) d
        rw [System.spent_append, FeeTotals.amounts_add, Multiset.sum_add] at hsum
        rw [Provider.keeping_of_some hid]
        exact (Nat.le_add_right _ _).trans_lt hsum

@[simp] theorem totals_charge (name : String) (p : Provider) (fees : List Coin) :
    (b.charge name p fees).totals p.id = (b.totals p.id).addAll fees := Function.update_self _ _ _

theorem exported_charge (name : String) (p : Provider) (fees : List Coin) (k : KeyId) (d : String) :
    (b.charge name p fees).exported name k d = if k = p.key then
      (((b.charge name p fees).totals p.id).lookup d).or (b.exported name k d)
    else b.exported name k d := by
  rw [totals_charge]
  simp only [charge, Function.update_self]

/-- What is exported stays if no provider of its key spends that has this denomination. -/
theorem exported_note_of_lookup_eq_none {name : String} {k : KeyId} {d : String} {x : Exchange}
    (hx : ∀ p fees, x = .answered (.spend p fees) () → exports p.id = some name → p.key = k →
      ((b.note exports x).totals p.id).lookup d = none) :
    (b.note exports x).exported name k d = b.exported name k d := by
  cases noted exports x with
  | counted hp =>
      rw [note_record hp]
      rfl
  | @charged p fees name' hp =>
      have hlookup := hx p fees rfl
      rw [note_spend hp] at hlookup ⊢
      by_cases hn : name = name'
      · subst hn
        rw [exported_charge]
        split
        · next hk => rw [hlookup hp hk.symm, Option.none_or]
        · rfl
      · simp [charge, Function.update_of_ne hn]
  | nothing hm hs => rw [note_nothing hm hs]

/-- The amount exported last is the total of the last provider that spent and has the denomination,
whatever the other providers of its key spent. -/
theorem exported_after {g g' : List (Agent × Exchange)} {a : Agent} {p : Provider}
    {fees : List Coin} {name d : String} (hp : exports p.id = some name)
    (hpaid : FeeTotals.amounts d (System.spent (Provider.keeping exports p.id)
      (g ++ [(a, .answered (.spend p fees) ())])) ≠ 0)
    (hlast : ∀ e ∈ g', ∀ q fees', e.2 = .answered (.spend q fees') () → exports q.id = some name →
      q.key = p.key → FeeTotals.amounts d (System.spent (Provider.keeping exports q.id)
        (g ++ [(a, .answered (.spend p fees) ())] ++ g')) = 0) :
    (after exports (g ++ [(a, .answered (.spend p fees) ())] ++ g')).exported name p.key d =
      some (FeeTotals.amounts d (System.spent (Provider.keeping exports p.id)
        (g ++ [(a, .answered (.spend p fees) ())]))).sum := by
  -- From the end of the run: what comes after `p` spent leaves the gauge of the denomination alone.
  induction g' using List.reverseRecOn with
  | nil =>
      have hlookup := @lookup_totals_after exports p.id d (g ++ [(a, .answered (.spend p fees) ())])
      rw [if_neg hpaid, after_snoc, note_spend hp] at hlookup
      rw [List.append_nil, after_snoc, note_spend hp, exported_charge, if_pos rfl, hlookup]
      rfl
  | append_singleton g' e ih =>
      rw [← List.append_assoc] at hlast ⊢
      rw [after_snoc, exported_note_of_lookup_eq_none, ih]
      · intro e' he' q fees' hspend hq hk
        have hnone := hlast e' (List.mem_append_left _ he') q fees' hspend hq hk
        rw [System.spent_append, FeeTotals.amounts_add] at hnone
        exact Multiset.le_zero.mp (hnone ▸ Multiset.le_add_right _ _)
      · intro q fees' hspend hq hk
        rw [← after_snoc, lookup_totals_after,
          if_pos (hlast e (by simp) q fees' hspend hq hk)]

end Books

end PacketRelay
