import Mathlib.Algebra.BigOperators.Group.Multiset.Basic
import Mathlib.Data.List.Lex
import Mathlib.Data.Multiset.Filter
import Mathlib.Data.String.Basic
import PacketRelay.Metrics

/-!
# Samples by label

Samples and fee totals are lists in the order of their keys, so that a key has one entry.  Changing
the entry of a key leaves the others as they are, and such a list is known by its look-ups.
-/

namespace PacketRelay

section Ordered

variable {κ ν α : Type} [LinearOrder ν] {key : κ → ν}

/-- The entries stand in the order of their keys, and every key has at most one. -/
def InOrder (key : κ → ν) (entries : List (κ × α)) : Prop :=
  entries.Pairwise fun e e' => key e.1 < key e'.1

variable {entries entries' : List (κ × α)} {k : κ}

theorem lookup_eq_none_of_lt [BEq κ] [LawfulBEq κ] (key : κ → ν)
    (h : ∀ e ∈ entries, key k < key e.1) : entries.lookup k = none := by
  rw [List.lookup_eq_none_iff]
  intro e he
  have hne : k ≠ e.1 := fun heq => lt_irrefl (key k) (by simpa [heq] using h e he)
  simpa using hne

theorem lookup_cons_of_ne [BEq κ] [LawfulBEq κ] {k' : κ} (hne : k ≠ k') (a : α) :
    ((k', a) :: entries).lookup k = entries.lookup k := by
  rw [List.lookup_cons, beq_eq_false_iff_ne.mpr hne]

theorem lookup_cons_eq_none [BEq κ] [LawfulBEq κ] {k' : κ} {a : α} (hlt : key k < key k')
    (h : ∀ e ∈ entries, key k' < key e.1) : ((k', a) :: entries).lookup k = none :=
  lookup_eq_none_of_lt key
    (List.forall_mem_cons.mpr ⟨hlt, fun e he => lt_trans hlt (h e he)⟩)

/-- Entries in order are determined by their look-ups. -/
theorem InOrder.ext [BEq κ] [LawfulBEq κ] (hkey : Function.Injective key) (h : InOrder key entries)
    (h' : InOrder key entries') (hlookup : ∀ k, entries.lookup k = entries'.lookup k) :
    entries = entries' := by
  induction entries generalizing entries' with
  | nil =>
      cases entries' with
      | nil => rfl
      | cons e' entries' =>
          have hnone := hlookup e'.1
          rw [List.lookup_cons_self] at hnone
          cases hnone
  | cons e entries ih =>
      obtain ⟨he, hrest⟩ := List.pairwise_cons.mp h
      cases entries' with
      | nil =>
          have hnone := hlookup e.1
          rw [List.lookup_cons_self] at hnone
          cases hnone
      | cons e' entries' =>
          obtain ⟨he', hrest'⟩ := List.pairwise_cons.mp h'
          obtain ⟨k, a⟩ := e
          obtain ⟨k', a'⟩ := e'
          have hfirst : k = k' := by
            rcases lt_trichotomy (key k) (key k') with hlt | heq | hlt
            · have hsome := hlookup k
              rw [List.lookup_cons_self, lookup_cons_eq_none hlt he'] at hsome
              cases hsome
            · exact hkey heq
            · have hsome := hlookup k'
              rw [List.lookup_cons_self, lookup_cons_eq_none hlt he] at hsome
              cases hsome
          subst hfirst
          have hvalue := hlookup k
          rw [List.lookup_cons_self, List.lookup_cons_self] at hvalue
          obtain rfl := Option.some.inj hvalue
          refine congrArg ((k, a) :: ·) (ih hrest hrest' fun k' => ?_)
          by_cases hk : k' = k
          · rw [hk, lookup_eq_none_of_lt key he, lookup_eq_none_of_lt key he']
          · have hsame := hlookup k'
            rwa [lookup_cons_of_ne hk, lookup_cons_of_ne hk] at hsame

variable [DecidableEq κ]

/-- Changes the entry of a key, which starts from `start`. -/
def upsert (key : κ → ν) (k : κ) (start : α) (f : α → α) : List (κ × α) → List (κ × α)
  | [] => [(k, f start)]
  | e :: rest =>
    if e.1 = k then (e.1, f e.2) :: rest
    else if key k < key e.1 then (k, f start) :: e :: rest
    else e :: upsert key k start f rest

theorem key_upsert {P : κ → Prop} {start : α} {f : α → α} (hk : P k)
    (h : ∀ e ∈ entries, P e.1) : ∀ e ∈ upsert key k start f entries, P e.1 := by
  induction entries with
  | nil => simpa [upsert] using hk
  | cons first rest ih =>
      obtain ⟨hfirst, hrest⟩ := List.forall_mem_cons.mp h
      unfold upsert
      split
      · exact List.forall_mem_cons.mpr ⟨hfirst, hrest⟩
      · split
        · exact List.forall_mem_cons.mpr ⟨hk, h⟩
        · exact List.forall_mem_cons.mpr ⟨hfirst, ih hrest⟩

theorem InOrder.upsert (h : InOrder key entries) {start : α} {f : α → α}
    (hkey : ∀ e ∈ entries, key e.1 = key k → e.1 = k) :
    InOrder key (upsert key k start f entries) := by
  induction entries with
  | nil => exact List.pairwise_singleton _ _
  | cons first rest ih =>
      obtain ⟨hfirst, hrest⟩ := List.pairwise_cons.mp h
      obtain ⟨hkfirst, hkrest⟩ := List.forall_mem_cons.mp hkey
      unfold PacketRelay.upsert
      split
      · exact List.pairwise_cons.mpr ⟨hfirst, hrest⟩
      · next hne =>
        split
        · next hlt =>
          refine List.pairwise_cons.mpr ⟨List.forall_mem_cons.mpr ⟨hlt, fun e he => ?_⟩, h⟩
          exact lt_trans hlt (hfirst e he)
        · next hnlt =>
          have hlt : key first.1 < key k :=
            lt_of_le_of_ne (not_lt.mp hnlt) fun heq => hne (hkfirst heq)
          exact List.pairwise_cons.mpr
            ⟨key_upsert (P := fun k' => key first.1 < key k') hlt hfirst, ih hrest hkrest⟩

/-- Changing the entry of a key leaves the others as they are. -/
theorem InOrder.lookup_upsert [BEq κ] [LawfulBEq κ] (h : InOrder key entries) {start : α}
    {f : α → α} (k' : κ) : (PacketRelay.upsert key k start f entries).lookup k' =
      if k' = k then some (f ((entries.lookup k).getD start)) else entries.lookup k' := by
  induction entries with
  | nil =>
      by_cases hk : k' = k
      · simp [PacketRelay.upsert, hk]
      · simp [PacketRelay.upsert, List.lookup_cons, hk, beq_eq_false_iff_ne.mpr hk]
  | cons first rest ih =>
      obtain ⟨k₁, a⟩ := first
      obtain ⟨hfirst, hrest⟩ := List.pairwise_cons.mp h
      unfold PacketRelay.upsert
      split
      · next heq =>
        obtain rfl : k₁ = k := heq
        by_cases hk : k' = k₁
        · rw [if_pos hk, hk, List.lookup_cons_self, List.lookup_cons_self, Option.getD_some]
        · rw [if_neg hk, lookup_cons_of_ne hk, lookup_cons_of_ne hk]
      · next hne =>
        split
        · next hlt =>
          by_cases hk : k' = k
          · rw [if_pos hk, hk, lookup_cons_eq_none hlt hfirst, List.lookup_cons_self,
              Option.getD_none]
          · rw [if_neg hk, lookup_cons_of_ne hk]
        · by_cases hk : k' = k₁
          · have hk' : k' ≠ k := fun h => hne (hk.symm.trans h)
            rw [if_neg hk', hk, List.lookup_cons_self, List.lookup_cons_self]
          · rw [lookup_cons_of_ne hk, ih hrest, lookup_cons_of_ne (Ne.symm hne),
              lookup_cons_of_ne hk]

end Ordered

namespace FeeTotals

def Sorted (totals : FeeTotals) : Prop := InOrder id totals

/-- No total has more than 128 bits. -/
def Fits (totals : FeeTotals) : Prop := ∀ d n, totals.lookup d = some n → n < 1 <<< 128

theorem add_eq_upsert (denom : String) (amount : Nat) (totals : FeeTotals) :
    totals.add denom amount = upsert id denom 0 (· + amount) totals := by
  induction totals with
  | nil => simp [add, upsert]
  | cons first rest ih =>
      rw [add, upsert, ih]
      simp only [Nat.zero_add, id]

theorem Sorted.add {totals : FeeTotals} (h : totals.Sorted) (denom : String) (amount : Nat) :
    (totals.add denom amount).Sorted := by
  rw [add_eq_upsert]
  exact InOrder.upsert h fun _ _ heq => heq

/-- Adding an amount changes the entry of its denomination, which is there from then on. -/
theorem Sorted.lookup_add {totals : FeeTotals} (h : totals.Sorted) (denom : String) (amount : Nat)
    (d : String) : (totals.add denom amount).lookup d =
      if d = denom then some ((totals.lookup denom).getD 0 + amount) else totals.lookup d := by
  rw [add_eq_upsert]
  exact InOrder.lookup_upsert h d

/-- The amounts of coins of a denomination, as far as they can be read. -/
def amounts (d : String) (coins : Multiset Coin) : Multiset Nat :=
  coins.filterMap fun c => if c.denom = d then amountOf c else none

@[simp] theorem amounts_add (d : String) (coins coins' : Multiset Coin) :
    amounts d (coins + coins') = amounts d coins + amounts d coins' :=
  Multiset.filterMap_add _ coins coins'

theorem sum_amounts_singleton_le (d : String) (c : Coin) :
    (amounts d {c}).sum ≤ (amountOf c).getD 0 := by
  by_cases hd : c.denom = d <;> cases hc : amountOf c <;>
    simp [amounts, ← Multiset.cons_zero, hd, hc]

theorem addAll_cons (totals : FeeTotals) (c : Coin) (fees : List Coin) :
    totals.addAll (c :: fees) = (match amountOf c with
      | some n => totals.add c.denom n
      | none => totals).addAll fees := rfl

theorem addAll_append (totals : FeeTotals) (fees fees' : List Coin) :
    totals.addAll (fees ++ fees') = (totals.addAll fees).addAll fees' := List.foldl_append

theorem Sorted.addAll {totals : FeeTotals} (h : totals.Sorted) (fees : List Coin) :
    (totals.addAll fees).Sorted := by
  induction fees generalizing totals with
  | nil => exact h
  | cons c fees ih =>
      rw [addAll_cons]
      cases amountOf c with
      | none => exact ih h
      | some n => exact ih (h.add c.denom n)

/-- Coins add to the entry of their denomination what can be read of their amounts. -/
theorem Sorted.lookup_addAll {totals : FeeTotals} (h : totals.Sorted) (fees : List Coin)
    (d : String) : (totals.addAll fees).lookup d =
      if amounts d fees = 0 then totals.lookup d
      else some ((totals.lookup d).getD 0 + (amounts d fees).sum) := by
  induction fees generalizing totals with
  | nil => rfl
  | cons c fees ih =>
      rw [addAll_cons, ← Multiset.cons_coe]
      cases hamount : amountOf c with
      | none =>
          have hskip : amounts d (c ::ₘ fees) = amounts d fees :=
            Multiset.filterMap_cons_none c _ (by rw [hamount, ite_self])
          rw [hskip]
          exact ih h
      | some n =>
          dsimp only
          rw [ih (h.add c.denom n), h.lookup_add]
          by_cases hd : c.denom = d
          · have hread : amounts d (c ::ₘ fees) = n ::ₘ amounts d fees :=
              Multiset.filterMap_cons_some _ c _ (by rw [if_pos hd, hamount])
            rw [hread, if_pos hd.symm, if_neg (Multiset.cons_ne_zero), Multiset.sum_cons, hd,
              Option.getD_some]
            split
            · next hzero => rw [hzero, Multiset.sum_zero, Nat.add_zero]
            · rw [Nat.add_assoc]
          · have hskip : amounts d (c ::ₘ fees) = amounts d fees :=
              Multiset.filterMap_cons_none c _ (if_neg hd)
            rw [hskip, if_neg (Ne.symm hd)]

/-- The order in which fees are added up does not matter. -/
theorem Sorted.addAll_congr {totals : FeeTotals} (h : totals.Sorted) {fees fees' : List Coin}
    (hsame : (fees : Multiset Coin) = fees') : totals.addAll fees = totals.addAll fees' :=
  (h.addAll fees).ext Function.injective_id (h.addAll fees') fun d => by
    rw [h.lookup_addAll, h.lookup_addAll, hsame]

end FeeTotals

/-- The labels under which something is counted on a chain. -/
def Metric.labels (chain : String) : Metric → Labels
  | .broadcast accepted =>
    [("chain_id", chain), ("outcome", if accepted then "accepted" else "rejected")]
  | .confirmation outcome => [("chain_id", chain), ("outcome", outcome)]
  | .rpcError => [("chain_id", chain)]

namespace Registry

variable {α : Type}

/-- The samples have labels of these names and stand in the order of their values. -/
structure Sorted (names : List String) (samples : List (Labels × α)) : Prop where
  named : ∀ e ∈ samples, e.1.map Prod.fst = names
  ordered : InOrder (fun labels : Labels => labels.map Prod.snd) samples

theorem update_eq_upsert (labels : Labels) (start : α) (f : α → α) (samples : List (Labels × α)) :
    update labels start f samples =
      upsert (fun labels : Labels => labels.map Prod.snd) labels start f samples := by
  induction samples with
  | nil => rfl
  | cons first rest ih =>
      rw [update, upsert, ih]
      congr

theorem sorted_nil (names : List String) : Sorted names ([] : List (Labels × α)) :=
  ⟨by simp, .nil⟩

theorem Sorted.update {names : List String} {samples : List (Labels × α)}
    (h : Sorted names samples) {labels : Labels} (hlabels : labels.map Prod.fst = names) {start : α}
    {f : α → α} : Sorted names (update labels start f samples) := by
  rw [update_eq_upsert]
  refine ⟨key_upsert (P := fun labels : Labels => labels.map Prod.fst = names) hlabels h.named,
    h.ordered.upsert fun e he heq => ?_⟩
  rw [List.zip_of_prod (h.named e he) heq, ← List.zip_of_prod hlabels rfl]

theorem Sorted.lookup_update {names : List String} {samples : List (Labels × α)}
    (h : Sorted names samples) {labels : Labels} {start : α} {f : α → α} (l : Labels) :
    (Registry.update labels start f samples).lookup l =
      if l = labels then some (f ((samples.lookup labels).getD start)) else samples.lookup l := by
  rw [update_eq_upsert]
  exact h.ordered.lookup_upsert l

theorem Sorted.getD_lookup_count {names : List String} {samples : List (Labels × Nat)}
    (h : Sorted names samples) (labels l : Labels) :
    ((Registry.update labels 0 (· + 1) samples).lookup l).getD 0 =
      (samples.lookup l).getD 0 + if l = labels then 1 else 0 := by
  rw [h.lookup_update]
  split
  · next heq => rw [heq, Option.getD_some]
  · rfl

def counters (r : Registry) : Metric → List (Labels × Nat)
  | .broadcast _ => r.broadcasts
  | .confirmation _ => r.confirmations
  | .rpcError => r.rpcErrors

/-- How often something was counted on a chain. -/
def value (r : Registry) (chain : String) (m : Metric) : Nat :=
  ((r.counters m).lookup (m.labels chain)).getD 0

/-- The labels under which the fees of a key are exported. -/
def feeLabels (key : KeyId) (denom : String) : Labels :=
  [("chain_id", key.chainId), ("denom", denom), ("key", key.keyName)]

theorem feeLabels_inj {key key' : KeyId} {d d' : String} :
    feeLabels key d = feeLabels key' d' ↔ key = key' ∧ d = d' := by
  obtain ⟨chainId, keyName⟩ := key
  obtain ⟨chainId', keyName'⟩ := key'
  simp only [feeLabels, List.cons.injEq, Prod.mk.injEq, true_and, and_true, KeyId.mk.injEq]
  tauto

/-- All samples of a registry stand in order under the names of their kind. -/
structure Ordered (r : Registry) : Prop where
  fees : Sorted ["chain_id", "denom", "key"] r.fees
  broadcasts : Sorted ["chain_id", "outcome"] r.broadcasts
  confirmations : Sorted ["chain_id", "outcome"] r.confirmations
  rpcErrors : Sorted ["chain_id"] r.rpcErrors

theorem ordered_empty : empty.Ordered :=
  ⟨sorted_nil _, sorted_nil _, sorted_nil _, sorted_nil _⟩

variable {r : Registry}

theorem Ordered.count (h : r.Ordered) (chain : String) (m : Metric) : (r.count chain m).Ordered := by
  cases m with
  | broadcast accepted => exact { h with broadcasts := h.broadcasts.update rfl }
  | confirmation outcome => exact { h with confirmations := h.confirmations.update rfl }
  | rpcError => exact { h with rpcErrors := h.rpcErrors.update rfl }

theorem Ordered.value_count (h : r.Ordered) (chain chain' : String) (m m' : Metric) :
    (r.count chain m).value chain' m' =
      r.value chain' m' + if chain = chain' ∧ m = m' then 1 else 0 := by
  cases m with
  | broadcast accepted =>
      cases m' with
      | broadcast accepted' =>
          refine (h.broadcasts.getD_lookup_count _ _).trans (congrArg _ (if_congr ?_ rfl rfl))
          cases accepted <;> cases accepted' <;> simp [Metric.labels, eq_comm]
      | _ => simp [value, counters, Registry.count]
  | confirmation outcome =>
      cases m' with
      | confirmation outcome' =>
          refine (h.confirmations.getD_lookup_count _ _).trans (congrArg _ (if_congr ?_ rfl rfl))
          simp [Metric.labels, eq_comm]
      | _ => simp [value, counters, Registry.count]
  | rpcError =>
      cases m' with
      | rpcError =>
          refine (h.rpcErrors.getD_lookup_count _ _).trans (congrArg _ (if_congr ?_ rfl rfl))
          simp [Metric.labels, eq_comm]
      | _ => simp [value, counters, Registry.count]

def setFee (r : Registry) (key : KeyId) (denom : String) (amount : Nat) : Registry :=
  let gauge (_ : Float) : Float := Decimal.Binary64.ofNat amount
  { r with fees := update (feeLabels key denom) 0 gauge r.fees }

theorem setFees_cons (key : KeyId) (denom : String) (amount : Nat) (totals : FeeTotals) :
    r.setFees key ((denom, amount) :: totals) = (r.setFee key denom amount).setFees key totals := rfl

theorem Ordered.setFee (h : r.Ordered) (key : KeyId) (denom : String) (amount : Nat) :
    (r.setFee key denom amount).Ordered :=
  ⟨h.fees.update rfl, h.broadcasts, h.confirmations, h.rpcErrors⟩

theorem Ordered.lookup_setFee (h : r.Ordered) (key k : KeyId) (denom d : String) (amount : Nat) :
    (r.setFee key denom amount).fees.lookup (feeLabels k d) =
      if k = key ∧ d = denom then some (Decimal.Binary64.ofNat amount)
      else r.fees.lookup (feeLabels k d) :=
  (h.fees.lookup_update _).trans (if_congr feeLabels_inj rfl rfl)

theorem Ordered.setFees (h : r.Ordered) (key : KeyId) (totals : FeeTotals) :
    (r.setFees key totals).Ordered := by
  induction totals generalizing r with
  | nil => exact h
  | cons first rest ih =>
      rw [setFees_cons]
      exact ih (h.setFee key first.1 first.2)

theorem setFees_value (key : KeyId) (totals : FeeTotals) (chain : String) (m : Metric) :
    (r.setFees key totals).value chain m = r.value chain m := by
  cases m <;> rfl

/-- Exported fees replace those of their key and denominations and no others. -/
theorem Ordered.lookup_setFees (h : r.Ordered) {totals : FeeTotals} (ht : totals.Sorted)
    (key k : KeyId) (d : String) : (r.setFees key totals).fees.lookup (feeLabels k d) =
      if k = key then
        ((totals.lookup d).map Decimal.Binary64.ofNat).or (r.fees.lookup (feeLabels k d))
      else r.fees.lookup (feeLabels k d) := by
  induction totals generalizing r with
  | nil => exact (ite_self _).symm
  | cons first rest ih =>
      obtain ⟨denom, amount⟩ := first
      obtain ⟨hfirst, hrest⟩ := List.pairwise_cons.mp ht
      rw [setFees_cons, ih (h.setFee key denom amount) hrest, h.lookup_setFee]
      by_cases hk : k = key
      · by_cases hd : d = denom
        · subst hk hd
          rw [if_pos rfl, if_pos rfl, if_pos ⟨rfl, rfl⟩, lookup_eq_none_of_lt id hfirst,
            List.lookup_cons_self]
          rfl
        · rw [if_pos hk, if_pos hk, if_neg fun hboth => hd hboth.2, lookup_cons_of_ne hd]
      · rw [if_neg hk, if_neg hk, if_neg fun hboth => hk hboth.1]

end Registry

end PacketRelay
