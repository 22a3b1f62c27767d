import PacketRelay.Proofs.Submission.KeyEvents
import PacketRelay.Proofs.Submission.Progress

/-!
# Accepted sequences of a key have no gaps

If nobody is told of a mismatch and account look-ups do not run ahead of what was accepted, a key's
accepted transactions carry consecutive sequences, whatever else fails or is dropped.  The invariant
pins the cache: together with what the holder of the lock looked up and had accepted, it tells how
many transactions were accepted so far.
-/

namespace PacketRelay

open Program

theorem Submission.program_ne_done {c : Submission} {r : Except RelayError PendingTx} :
    c.program ≠ .done r := by
  intro hdone
  have hy : c.program.Yields [] r := reaches_nil_iff.mpr hdone
  generalize hnil : ([] : List Exchange) = h at hy
  cases Provider.yields_submit hy with
  | waited hg =>
      obtain ⟨_, n, _, rfl | rfl⟩ := hg.request_error <;> cases hnil
  | held _ => cases hnil

namespace System

variable {caches : KeyId → SequenceState} {calls : Nat → Submission} {k : KeyId} {s₀ : UInt64}
  {σ τ : System (Except RelayError PendingTx)} {h : List (Agent × Exchange)} {a : Agent}
  {x : Exchange}

/-- A run from these caches in which the sequences of the key begin at `s₀`, its look-ups lag behind
and its submissions do not fail with a mismatch. -/
structure Orderly (caches : KeyId → SequenceState) (calls : Nat → Submission) (k : KeyId)
    (s₀ : UInt64) (h : List (Agent × Exchange)) (σ : System (Except RelayError PendingTx)) :
    Prop where
  first : ∀ q, (lookups calls k h).head? = some q → max (caches k).next q = s₀
  lagging : ∀ before e after q, h = before ++ e :: after → lookup? calls k before e = some q →
    q.toNat ≤ s₀.toNat + (acceptances k before).length
  failures : ∀ i e, (calls i).provider.key = k → σ.calls i = .done (.error e) →
    e.isSequenceMismatch = false
  room : s₀.toNat + (acceptances k h).length < UInt64.size

theorem Orderly.of_snoc (ho : Orderly caches calls k s₀ (h ++ [(a, x)]) τ)
    (hstep : Step σ a x τ) : Orderly caches calls k s₀ h σ := by
  refine ⟨?_, ?_, ?_, ?_⟩
  · intro q hq
    refine ho.first q ?_
    rw [lookups_snoc, List.head?_append, hq]
    rfl
  · rintro before e after q rfl hq
    exact ho.lagging before e (after ++ [(a, x)]) q (by simp) hq
  · intro i e hkey hdone
    exact ho.failures i e hkey (((Run.nil σ).snoc hstep).done hdone)
  · have hroom := ho.room
    rw [acceptances_append, List.length_append] at hroom
    omega

/-- The sequence is the one in the beginning, or it is as far ahead of `s₀` as transactions were
accepted, less the pending ones. -/
def Balanced (caches : KeyId → SequenceState) (calls : Nat → Submission) (k : KeyId) (s₀ : UInt64)
    (h : List (Agent × Exchange)) (next : UInt64) (pending : Nat) : Prop :=
  (lookups calls k h = [] ∧ acceptances k h = [] ∧ next = (caches k).next) ∨
    (lookups calls k h ≠ [] ∧ next.toNat + pending = s₀.toNat + (acceptances k h).length)

/-- A free lock's cache is balanced.  A held one is so with what its holder looked up, and one
transaction is pending if the holder had one accepted. -/
structure Pinned (caches : KeyId → SequenceState) (calls : Nat → Submission) (k : KeyId)
    (s₀ : UInt64) (h : List (Agent × Exchange)) (σ : System (Except RelayError PendingTx)) :
    Prop where
  free : σ.holders k = none → Balanced caches calls k s₀ h (σ.caches k).next 0
  held : ∀ a, σ.holders k = some a → (∃ i, a = .call i ∧ (calls i).provider.key = k) ∧
    Balanced caches calls k s₀ h ((σ.caches k).afterLookup (own a h)).next
      ((own a h).any (Exchange.acceptedFor k)).toNat

theorem Balanced.congr {h' : List (Agent × Exchange)} {next : UInt64} {pending : Nat}
    (hb : Balanced caches calls k s₀ h next pending) (hlookups : lookups calls k h' = lookups calls k h)
    (haccepted : acceptances k h' = acceptances k h) :
    Balanced caches calls k s₀ h' next pending := by
  rw [Balanced, hlookups, haccepted]
  exact hb

/-- A pending transaction is settled by the next sequence. -/
theorem Balanced.settle {next : UInt64} (hb : Balanced caches calls k s₀ h next 1)
    (hsome : acceptances k h ≠ [])
    (hroom : s₀.toNat + (acceptances k h).length < UInt64.size) :
    Balanced caches calls k s₀ h (max next (next + 1)) 0 := by
  obtain ⟨_, hnone, _⟩ | ⟨hlooked, hnext⟩ := hb
  · exact absurd hnone hsome
  · rw [← hnext] at hroom
    refine .inr ⟨hlooked, ?_⟩
    rw [max_succ hroom, toNat_succ hroom]
    exact hnext

theorem pinned_start : Pinned caches calls k s₀ [] (submitting caches calls) := by
  refine ⟨fun _ => .inl ⟨rfl, rfl, rfl⟩, fun a ha => ?_⟩
  cases ha

theorem Pinned.acquired {i : Nat} {p : Provider} {st : SequenceState}
    (hp : Pinned caches calls k s₀ h σ) (hkey : (calls i).provider.key = k)
    (hown : own (.call i) h = [.answered .rest ()]) (hfree : σ.holders k = none)
    (hheld : τ.holders k = some (.call i)) (hcache : τ.caches k = σ.caches k) :
    Pinned caches calls k s₀ (h ++ [(.call i, .answered (.acquire p) st)]) τ := by
  refine ⟨fun hnone => ?_, fun b hb => ?_⟩
  · rw [hheld] at hnone
    cases hnone
  · obtain rfl : .call i = b := Option.some.inj (hheld.symm.trans hb)
    refine ⟨⟨i, rfl, hkey⟩, ?_⟩
    rw [own_append, hown, own_singleton_self, hcache]
    exact (hp.free hfree).congr (lookups_snoc_of_not_asksAccount h _ id)
      (acceptances_snoc_of_not_accepted h _ rfl)

/-- Who gives the lock back leaves the cache settled. -/
theorem Pinned.released {i : Nat} {body : List Exchange} {st : SequenceState}
    {r : Except RelayError PendingTx} (hp : Pinned caches calls k s₀ h σ)
    (ho : Orderly caches calls k s₀ (h ++ [(.call i, .answered (.release (calls i).provider st) ())]) τ)
    (hkey : (calls i).provider.key = k) (hl : (calls i).Locked (σ.caches k) body st r)
    (hown : own (.call i) h =
      .answered .rest () :: .answered (.acquire (calls i).provider) (σ.caches k) :: body)
    (hdone : τ.calls i = .done r) (hheld : σ.holders k = some (.call i))
    (hfree : τ.holders k = none) (hcache : τ.caches k = st) :
    Pinned caches calls k s₀ (h ++ [(.call i, .answered (.release (calls i).provider st) ())]) τ := by
  have haccepted : acceptances k
      (h ++ [(.call i, .answered (.release (calls i).provider st) ())]) = acceptances k h :=
    acceptances_snoc_of_not_accepted h _ rfl
  have hroom := ho.room
  rw [haccepted] at hroom
  obtain ⟨_, hbalanced⟩ := hp.held _ hheld
  have hpending : (own (.call i) h).any (Exchange.acceptedFor k) =
      body.any (Exchange.acceptedFor k) := by
    rw [hown]
    rfl
  have hlooked : (σ.caches k).afterLookup (own (.call i) h) = (σ.caches k).afterLookup body := by
    rw [hown]
    rfl
  have hnext := hl.next_eq fun e he => ho.failures i e hkey (he ▸ hdone)
  rw [hkey] at hnext
  rw [hpending, hlooked] at hbalanced
  refine ⟨fun _ => ?_, fun b hb => ?_⟩
  · rw [hcache]
    refine Balanced.congr ?_ (lookups_snoc_of_not_asksAccount h _ id) haccepted
    -- only an accepted transaction is pending, and only it moves the cache
    cases hany : body.any (Exchange.acceptedFor k) with
    | false =>
        rw [hany] at hbalanced hnext
        rw [hnext]
        exact hbalanced
    | true =>
        have hsome : acceptances k h ≠ [] := by
          obtain ⟨x, hx, hacc⟩ := List.any_eq_true.mp (hpending.trans hany)
          exact List.ne_nil_of_mem (List.mem_filter.mpr ⟨mem_own.mp hx, hacc⟩)
        rw [hany] at hbalanced hnext
        rw [hnext]
        exact hbalanced.settle hsome hroom
  · rw [hfree] at hb
    cases hb

/-- What the holder looks up does not run ahead, and the first look-up sets the beginning. -/
theorem Pinned.lookedUp {q : UInt64} (hp : Pinned caches calls k s₀ h σ)
    (ho : Orderly caches calls k s₀ (h ++ [(a, x)]) τ) (hr : Run (submitting caches calls) h σ)
    (hstep : Step σ a x τ) (hq : lookup? calls k h (a, x) = some q)
    (hholders : τ.holders k = σ.holders k) (hcache : τ.caches k = σ.caches k) :
    Pinned caches calls k s₀ (h ++ [(a, x)]) τ := by
  obtain ⟨hheld, hasks⟩ := hr.lookup_step hstep hq
  obtain ⟨i, number, _, hkey, hnone, hlooked⟩ := lookup?_eq_some_iff.mp hq
  have hquiet : x.acceptedFor k = false := by
    rw [← Bool.not_eq_true, Exchange.acceptedFor_iff]
    rintro ⟨p, tx, answer, rfl, _⟩
    exact hasks
  have hnothing : (own a h).any (Exchange.acceptedFor k) = false := by
    rw [List.any_eq_false]
    intro y hy hacc
    obtain ⟨_, _, _, hsome⟩ := hr.lookedUp_of_accepted hy hacc
    rw [hnone] at hsome
    cases hsome
  have hnew : lookups calls k (h ++ [(a, x)]) = lookups calls k h ++ [q] := by
    rw [lookups_snoc, hq]
    rfl
  have hlag := ho.lagging h (a, x) [] q rfl hq
  refine ⟨fun hfree => ?_, fun b hb => ?_⟩
  · rw [hholders, hheld] at hfree
    cases hfree
  · rw [hholders, hheld] at hb
    obtain rfl := Option.some.inj hb
    obtain ⟨howner, hbalanced⟩ := hp.held a hheld
    refine ⟨howner, .inr ⟨by simp [hnew], ?_⟩⟩
    have hnext : ((τ.caches k).afterLookup (own a h ++ [x])).next = max (σ.caches k).next q := by
      rw [SequenceState.afterLookup, hlooked, hcache]
    have hbefore : ((σ.caches k).afterLookup (own a h)).next = (σ.caches k).next := by
      rw [SequenceState.afterLookup, hnone]
    rw [hnothing, hbefore] at hbalanced
    rw [own_append, own_singleton_self, hnext, List.any_append, hnothing,
      acceptances_snoc_of_not_accepted h a hquiet]
    have hlast : [x].any (Exchange.acceptedFor k) = false := by simp [hquiet]
    rw [hlast]
    -- the first look-up of all sets `s₀`, and a later one is not above the cache
    obtain ⟨hempty, hnobody, hcaches⟩ | ⟨_, hcaches⟩ := hbalanced
    · rw [hcaches, hnobody, ho.first q (by rw [hnew, hempty]; rfl)]
      rfl
    · rw [Bool.toNat_false] at hcaches
      have hle : q ≤ (σ.caches k).next := by
        rw [UInt64.le_iff_toNat_le]
        omega
      rw [max_eq_left_of_le hle]
      exact hcaches

/-- What the holder has accepted carries the next sequence. -/
theorem Pinned.accepted (hp : Pinned caches calls k s₀ h σ)
    (hr : Run (submitting caches calls) h σ) (hstep : Step σ a x τ)
    (hx : x.acceptedFor k = true) (hholders : τ.holders k = σ.holders k)
    (hcache : τ.caches k = σ.caches k) :
    Pinned caches calls k s₀ (h ++ [(a, x)]) τ ∧ ∃ n : UInt64,
      n.toNat = s₀.toNat + (acceptances k h).length ∧ x.Accepts k n := by
  obtain ⟨i, number, q, rfl, hkey, hheld, hlooked, haccepts, hquiet⟩ := hr.acceptance_step hstep hx
  have hsends : ¬ x.request.AsksAccount := by
    obtain ⟨p, tx, answer, rfl, _⟩ := Exchange.acceptedFor_iff.mp hx
    exact id
  have hsome : lookups calls k h ≠ [] := lookups_ne_nil hkey (by rw [hlooked]; rfl)
  have hnothing : (own (.call i) h).any (Exchange.acceptedFor k) = false :=
    List.any_eq_false.mpr fun y hy => by simp [hquiet y hy]
  obtain ⟨howner, hbalanced⟩ := hp.held _ hheld
  have hbefore : ((σ.caches k).afterLookup (own (.call i) h)).next = max (σ.caches k).next q := by
    rw [SequenceState.afterLookup, hlooked]
  have hnext : (max (σ.caches k).next q).toNat = s₀.toNat + (acceptances k h).length := by
    rw [hbefore, hnothing] at hbalanced
    obtain ⟨hempty, _⟩ | ⟨_, hnext⟩ := hbalanced
    · exact absurd hempty hsome
    · exact hnext
  refine ⟨⟨fun hfree => ?_, fun b hb => ⟨?_, .inr ⟨?_, ?_⟩⟩⟩, _, hnext, haccepts⟩
  · rw [hholders, hheld] at hfree
    cases hfree
  · rw [hholders, hheld] at hb
    obtain rfl := Option.some.inj hb
    exact howner
  · rw [lookups_snoc_of_not_asksAccount h _ hsends]
    exact hsome
  · rw [hholders, hheld] at hb
    obtain rfl := Option.some.inj hb
    have hlater : ((τ.caches k).afterLookup (own (.call i) h ++ [x])).next =
        max (σ.caches k).next q := by
      rw [SequenceState.afterLookup, lookedUp?_append_of_some hlooked, hcache]
    have hpending : (own (.call i) h ++ [x]).any (Exchange.acceptedFor k) = true := by
      simp [hx]
    rw [own_append, own_singleton_self, hlater, hpending, acceptances_snoc_of_accepted h _ hx,
      List.length_append, hnext]
    rfl

theorem Pinned.quiet (hp : Pinned caches calls k s₀ h σ) (hx : x.acceptedFor k = false)
    (hq : lookup? calls k h (a, x) = none) (hholders : τ.holders k = σ.holders k)
    (hcache : τ.caches k = σ.caches k) : Pinned caches calls k s₀ (h ++ [(a, x)]) τ := by
  have hlookups : lookups calls k (h ++ [(a, x)]) = lookups calls k h := by
    rw [lookups_snoc, hq]
    exact List.append_nil _
  have haccepted := acceptances_snoc_of_not_accepted h a hx
  refine ⟨fun hfree => ?_, fun b hb => ?_⟩
  · rw [hholders] at hfree
    rw [hcache]
    exact (hp.free hfree).congr hlookups haccepted
  · rw [hholders] at hb
    obtain ⟨⟨i, rfl, hkey⟩, hbalanced⟩ := hp.held b hb
    refine ⟨⟨i, rfl, hkey⟩, Balanced.congr ?_ hlookups haccepted⟩
    rw [own_append, hcache]
    by_cases ha : a = .call i
    · subst ha
      rw [own_singleton_self]
      have hlooked : lookedUp? (own (.call i) h ++ [x]) = lookedUp? (own (.call i) h) := by
        cases hbefore : lookedUp? (own (.call i) h) with
        | some v => exact lookedUp?_append_of_some hbefore
        | none =>
            rw [lookup?, if_pos ⟨hkey, hbefore⟩] at hq
            exact Option.map_eq_none_iff.mp hq
      have hany : (own (.call i) h ++ [x]).any (Exchange.acceptedFor k) =
          (own (.call i) h).any (Exchange.acceptedFor k) := by simp [hx]
      rw [SequenceState.afterLookup, hlooked, hany]
      exact hbalanced
    · rw [own_singleton_ne ha, List.append_nil]
      exact hbalanced

theorem Run.pinned (hr : Run (submitting caches calls) h σ)
    (ho : Orderly caches calls k s₀ h σ) : Pinned caches calls k s₀ h σ ∧
      ∀ j e, (acceptances k h)[j]? = some e →
        ∃ n : UInt64, n.toNat = s₀.toNat + j ∧ e.2.Accepts k n := by
  -- by the steps of the run; what was accepted is numbered where the lock's holder has it accepted
  induction hr with
  | nil =>
      refine ⟨pinned_start, fun j e he => ?_⟩
      cases he
  | @snoc σ τ h a x hrun hstep ih =>
      obtain ⟨hpinned, hnumbered⟩ := ih (ho.of_snoc hstep)
      have hsame (hx : x.acceptedFor k = false) : ∀ j e,
          (acceptances k (h ++ [(a, x)]))[j]? = some e →
            ∃ n : UInt64, n.toNat = s₀.toNat + j ∧ e.2.Accepts k n := by
        rw [acceptances_snoc_of_not_accepted h a hx]
        exact hnumbered
      cases hrun.lock_step (k := k) hstep with
      | acquired hi hkey hx hown hfree hheld hcache =>
          subst hi hx
          exact ⟨hpinned.acquired hkey hown hfree hheld hcache, hsame rfl⟩
      | released hi hkey hx hl hown hdone hheld hfree hcache =>
          subst hi hx
          exact ⟨hpinned.released ho hkey hl hown hdone hheld hfree hcache, hsame rfl⟩
      | kept hholders hcache =>
          by_cases hx : x.acceptedFor k = true
          · obtain ⟨hlater, hnext⟩ := hpinned.accepted hrun hstep hx hholders hcache
            refine ⟨hlater, fun j e he => ?_⟩
            rw [acceptances_snoc_of_accepted h a hx] at he
            obtain he | ⟨hj, he⟩ := getElem?_snoc_eq_some he
            · exact hnumbered j e he
            · rw [hj, he]
              exact hnext
          · have hquiet : x.acceptedFor k = false := Bool.not_eq_true _ ▸ hx
            refine ⟨?_, hsame hquiet⟩
            cases hq : lookup? calls k h (a, x) with
            | some q => exact hpinned.lookedUp ho hrun hstep hq hholders hcache
            | none => exact hpinned.quiet hquiet hq hholders hcache

theorem mem_or_of_append_eq {α : Type} {l₁ l₂ h₁ h₂ : List α} {e : α}
    (h : l₁ ++ l₂ = h₁ ++ e :: h₂) : e ∈ l₁ ∨ e ∈ l₂ ∧ ∃ t, h₁ = l₁ ++ t := by
  obtain ⟨t, rfl, ht⟩ | ⟨t, rfl, ht⟩ := List.append_eq_append_iff.mp h
  · exact .inr ⟨by rw [ht]; simp, t, rfl⟩
  · cases t with
    | nil =>
        rw [List.nil_append] at ht
        exact .inr ⟨by rw [← ht]; simp, [], by simp⟩
    | cons z t =>
        obtain ⟨rfl, _⟩ := List.cons.inj ht
        exact .inl (by simp)

theorem own_map_self (a : Agent) (g : List Exchange) : own a (g.map fun x => (a, x)) = g := by
  induction g with
  | nil => rfl
  | cons x g ih =>
      have hcons : own a ((x :: g).map fun x => (a, x)) =
          own a [(a, x)] ++ own a (g.map fun x => (a, x)) := own_append a [(a, x)] _
      rw [hcons, own_singleton_self, ih]
      rfl

theorem length_acceptances_map (a : Agent) (g : List Exchange) :
    (acceptances k (g.map fun x => (a, x))).length = g.countP (Exchange.acceptedFor k) := by
  rw [acceptances, ← List.countP_eq_length_filter, List.countP_map]
  rfl

theorem countP_acceptedFor_le (g : List Exchange) :
    g.countP (Exchange.acceptedFor k) ≤ (g.filterMap Exchange.broadcast?).length := by
  induction g with
  | nil => exact Nat.le_refl 0
  | cons x g ih =>
      cases hx : x.broadcast? with
      | none =>
          have hquiet := Exchange.acceptedFor_eq_false (k := k) hx
          rw [List.countP_cons_of_neg (by simp [hquiet]), List.filterMap_cons_none hx]
          exact ih
      | some tx =>
          have hle : (x :: g).countP (Exchange.acceptedFor k) ≤
              g.countP (Exchange.acceptedFor k) + 1 := by
            rw [List.countP_cons]
            split <;> omega
          rw [List.filterMap_cons_some hx, List.length_cons]
          omega

theorem Run.countP_own_le (hr : Run (submitting caches calls) h σ) (i : Nat) :
    (own (.call i) h).countP (Exchange.acceptedFor k) ≤ 1 := by
  obtain ⟨h', r, hy⟩ := (hr.reaches i).exists_yields
  have hlen := (Provider.yields_submit hy).broadcast?_length_le
  have hcount := countP_acceptedFor_le (k := k) (own (.call i) h)
  rw [List.filterMap_append, List.length_append] at hlen
  omega

theorem lookup?_le {p : Provider} {expected q : UInt64} (hobeys : p.Obeys expected x)
    (hq : lookup? calls k h (a, x) = some q) : q ≤ expected := by
  obtain ⟨_, number, _, _, hnone, hlooked⟩ := lookup?_eq_some_iff.mp hq
  obtain ⟨account, hshown, heq⟩ := exists_shownAccount_of_lookedUp hnone hlooked
  obtain ⟨_, rfl⟩ := Prod.mk.inj heq
  obtain ⟨_, data, height, prove, answer, rfl, _, haccount⟩ := Exchange.exists_of_shownAccount? hshown
  obtain ⟨answer', account', hok, _, hread, hle⟩ := hobeys.1 rfl
  obtain rfl := Except.ok.inj hok
  obtain rfl := Except.ok.inj (haccount.symm.trans (hread ""))
  exact hle

theorem lookup?_le_of_mem_map {p : Provider} {expected q : UInt64} {g : List Exchange}
    {before : List (Agent × Exchange)} {e : Agent × Exchange} (hobeys : ∀ y ∈ g, p.Obeys expected y)
    (he : e ∈ g.map fun x => (a, x)) (hq : lookup? calls k before e = some q) : q ≤ expected := by
  obtain ⟨y, hy, rfl⟩ := List.mem_map.mp he
  exact lookup?_le (hobeys y hy) hq

theorem head?_lookups_append_le {p : Provider} {expected q : UInt64} {g : List Exchange}
    {h' : List (Agent × Exchange)} (hobeys : ∀ y ∈ g, p.Obeys expected y)
    (hsome : lookups calls k (g.map fun x => (a, x)) ≠ [])
    (hq : (lookups calls k ((g.map fun x => (a, x)) ++ h')).head? = some q) : q ≤ expected := by
  obtain ⟨l, hl⟩ := lookups_append (k := k) (g.map fun x => (a, x)) h'
  obtain ⟨q', hq'⟩ := Option.isSome_iff_exists.mp (List.isSome_head?.mpr hsome)
  rw [hl, List.head?_append, hq'] at hq
  obtain rfl := Option.some.inj hq
  obtain ⟨before, e, after, hsplit, hevent⟩ := exists_lookup_of_mem (List.mem_of_head? hq')
  exact lookup?_le_of_mem_map hobeys (by rw [hsplit]; simp) hevent

/-- Two submissions of a key can have their transactions accepted one after the other, in an orderly
run. -/
theorem exists_orderly_run {expected : UInt64} {anys₀ anys₁ : List Any}
    (hexpected : expected.toNat + 2 < UInt64.size)
    (hanys₀ : (calls 0).msgs.mapM Outgoing.toAny = .ok anys₀)
    (hanys₁ : (calls 1).msgs.mapM Outgoing.toAny = .ok anys₁)
    (hmode₀ : (calls 0).provider.config.signMode = .direct)
    (hmode₁ : (calls 1).provider.config.signMode = .direct)
    (hkey₀ : (calls 0).provider.key = k) (hkey₁ : (calls 1).provider.key = k)
    (hcache : (caches k).next = expected) :
    ∃ h σ, Run (submitting caches calls) h σ ∧ Orderly caches calls k expected h σ ∧
      (acceptances k h).length = 2 ∧ σ.holders k = none := by
  subst hkey₀
  obtain ⟨g₀, τ, hrun₀, ⟨x, hx, haccepts⟩, hobeys₀, hfree₀, hcache₀, ⟨pending₀, hdone₀⟩, hrest₀⟩ :=
    exists_obeying_run (σ := submitting caches calls) (i := 0) (c := calls 0) (by omega) hanys₀ hmode₀
      rfl rfl hcache
  have hcall₁ : τ.calls 1 = (calls 1).program := hrest₀ 1 Nat.one_ne_zero
  rw [← hkey₁] at hfree₀ hcache₀
  have hnext : (expected + 1).toNat = expected.toNat + 1 :=
    toNat_succ (Nat.lt_of_succ_lt hexpected)
  obtain ⟨g₁, υ, hrun₁, ⟨y, hy, haccepts'⟩, hobeys₁, hfree₁, _, ⟨pending₁, hdone₁⟩, hrest₁⟩ :=
    exists_obeying_run (i := 1) (c := calls 1) (by omega) hanys₁ hmode₁ hcall₁ hfree₀ hcache₀
  have hrun := hrun₀.append hrun₁
  have hmem₀ : (.call 0, x) ∈ g₀.map fun x => (Agent.call 0, x) := List.mem_map_of_mem hx
  rw [hkey₁] at haccepts' hfree₁
  have haccepted := haccepts.acceptedFor
  have hcount₀ : g₀.countP (Exchange.acceptedFor (calls 0).provider.key) = 1 := by
    have hle := hrun₀.countP_own_le (k := (calls 0).provider.key) 0
    have hpos := List.countP_pos_iff.mpr ⟨x, hx, haccepted⟩
    rw [own_map_self] at hle
    omega
  have hcount₁ : g₁.countP (Exchange.acceptedFor (calls 0).provider.key) = 1 := by
    have hle := hrun.countP_own_le (k := (calls 0).provider.key) 1
    have hpos := List.countP_pos_iff.mpr ⟨y, hy, haccepts'.acceptedFor⟩
    rw [own_append, own_map_self, List.countP_append] at hle
    omega
  refine ⟨_, υ, hrun, ⟨?_, ?_, ?_, ?_⟩, ?_, ?_⟩
  · intro q hq
    have hlooked : lookups calls (calls 0).provider.key (g₀.map fun x => (.call 0, x)) ≠ [] := by
      obtain ⟨i, hi, hkey, hsome⟩ := hrun₀.lookedUp_of_accepted (mem_own.mpr hmem₀) haccepted
      cases hi
      exact lookups_ne_nil hkey hsome
    rw [hcache, max_eq_left_of_le (head?_lookups_append_le hobeys₀ hlooked hq)]
  · intro before e after q hsplit hq
    obtain he | ⟨he, t, rfl⟩ := mem_or_of_append_eq hsplit
    · have hle := UInt64.le_iff_toNat_le.mp (lookup?_le_of_mem_map hobeys₀ he hq)
      omega
    · have hle := UInt64.le_iff_toNat_le.mp (lookup?_le_of_mem_map hobeys₁ he hq)
      rw [acceptances_append, List.length_append, length_acceptances_map]
      omega
  · intro i e _ hdone
    by_cases h₁ : i = 1
    · subst h₁
      rw [hdone₁] at hdone
      cases hdone
    rw [hrest₁ i h₁] at hdone
    by_cases h₀ : i = 0
    · subst h₀
      rw [hdone₀] at hdone
      cases hdone
    · rw [hrest₀ i h₀] at hdone
      exact absurd hdone (calls i).program_ne_done
  · rw [acceptances_append, List.length_append, length_acceptances_map, length_acceptances_map]
    omega
  · rw [acceptances_append, List.length_append, length_acceptances_map, length_acceptances_map]
    omega
  · exact hfree₁

/-- The accepted transactions of a key carry consecutive sequences in the order in which their
submissions held the lock, and at the end the cache is past the last one.  The first look-up decides
where they begin. -/
theorem accepted_sequences_consecutive (hr : Run (submitting caches calls) h σ)
    (ho : Orderly caches calls k s₀ h σ) (hsome : acceptances k h ≠ []) :
    (∃ first, (lookups calls k h).head? = some first ∧ s₀ = max (caches k).next first) ∧
    (∀ j e, (acceptances k h)[j]? = some e →
      ∃ n : UInt64, n.toNat = s₀.toNat + j ∧ e.2.Accepts k n) ∧
    (∀ before e after, h = before ++ e :: after → e.2.acceptedFor k = true →
      ∃ τ, Run (submitting caches calls) before τ ∧ τ.holders k = some e.1) ∧
    (σ.holders k = none → (σ.caches k).next.toNat = s₀.toNat + (acceptances k h).length) := by
  obtain ⟨hpinned, hnumbered⟩ := hr.pinned ho
  refine ⟨?_, hnumbered, ?_, fun hfree => ?_⟩
  · obtain ⟨⟨a, x⟩, he⟩ := List.exists_mem_of_ne_nil _ hsome
    obtain ⟨hmem, hacc⟩ := List.mem_filter.mp he
    obtain ⟨i, rfl, hkey, hlooked⟩ := hr.lookedUp_of_accepted (mem_own.mpr hmem) hacc
    obtain ⟨q, hq⟩ := Option.isSome_iff_exists.mp
      (List.isSome_head?.mpr (lookups_ne_nil hkey hlooked))
    exact ⟨q, hq, (ho.first q hq).symm⟩
  · rintro before ⟨a, x⟩ after rfl hacc
    obtain ⟨τ, hbefore, hrest⟩ := hr.split
    obtain ⟨τ', hstep, _⟩ := hrest.step
    obtain ⟨_, _, _, _, _, hheld, _⟩ := hbefore.acceptance_step hstep hacc
    exact ⟨τ, hbefore, hheld⟩
  · obtain ⟨_, hnone, _⟩ | ⟨_, hnext⟩ := hpinned.free hfree
    · exact absurd hnone hsome
    · exact hnext

/-- Two providers share the key. -/
theorem accepted_sequences_consecutive_shared_key :
    ∃ (calls : Nat → Submission) (h : List (Agent × Exchange))
      (σ : System (Except RelayError PendingTx)),
      (calls 0).provider.id ≠ (calls 1).provider.id ∧
      Run (submitting (fun _ => ⟨3, 0⟩) calls) h σ ∧
      Orderly (fun _ => ⟨3, 0⟩) calls Provider.twice.key 3 h σ ∧
      (acceptances Provider.twice.key h).length = 2 ∧
      (∃ first, (lookups calls Provider.twice.key h).head? = some first ∧ (3 : UInt64) = max 3 first) ∧
      (∀ j e, (acceptances Provider.twice.key h)[j]? = some e →
        ∃ n : UInt64, n.toNat = 3 + j ∧ e.2.Accepts Provider.twice.key n) ∧
      (σ.caches Provider.twice.key).next.toNat = 5 := by
  let c (i : Nat) : Submission := ⟨{ Provider.twice with id := i }, [], "", none, none⟩
  obtain ⟨h, σ, hr, ho, htwo, hfree⟩ : ∃ h σ, Run (submitting (fun _ => ⟨3, 0⟩) c) h σ ∧
      Orderly (fun _ => ⟨3, 0⟩) c Provider.twice.key 3 h σ ∧
      (acceptances Provider.twice.key h).length = 2 ∧ σ.holders Provider.twice.key = none :=
    exists_orderly_run (by decide) rfl rfl rfl rfl rfl rfl rfl
  have hsome : acceptances Provider.twice.key h ≠ [] :=
    List.ne_nil_of_length_pos (by rw [htwo]; exact Nat.zero_lt_two)
  obtain ⟨hfirst, hnumbered, _, hlast⟩ := accepted_sequences_consecutive hr ho hsome
  refine ⟨c, h, σ, Nat.zero_ne_one, hr, ho, htwo, hfirst, hnumbered, ?_⟩
  rw [hlast hfree, htwo]
  rfl

end System

end PacketRelay
