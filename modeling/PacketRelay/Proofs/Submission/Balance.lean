import PacketRelay.Proofs.Submission.Booking
import PacketRelay.Proofs.System.Jobs
import PacketRelay.Proofs.System.Tally

/-!
# The books balance

What answers to broadcasts are worth is what was entered for them and what is still owed.  A call
that does not stand before an entry owes nothing, so once no call does, the broadcasts of a run are
worth its entries.
-/

namespace PacketRelay

open Program

namespace Program

/-- The program is done, or what it requests next enters nothing. -/
def Settled {α : Type} : Program α → Prop
  | .done _ => True
  | .ask r _ | .watch _ r _ _ => ¬ r.Enters

end Program

theorem Request.Aside.not_enters {r : Request} (h : r.Aside) : ¬ r.Enters := by
  intro hr
  cases r with
  | record p m => cases m <;> first | exact h.elim | exact hr.elim
  | spend p fees => exact h.elim
  | spawn p j => cases j <;> first | exact h.elim | exact hr.elim
  | _ => exact hr.elim

variable {M : Type} [AddCommMonoid M] {Fees : List Coin → Bytes → Prop} {value : Exchange → M}
  {w : Request → M}

/-- Only answers to broadcasts are worth something, and only entries weigh something.  An answer is
worth the entries that it makes a provider owe. -/
structure Worth (Fees : List Coin → Bytes → Prop) (value : Exchange → M) (w : Request → M) :
    Prop where
  answered : ∀ {p tx fees waitSignal answer}, Fees fees tx →
    value (.answered (.call p (.broadcast tx)) answer) =
      ((p.dues tx fees waitSignal answer).map w).sum
  stopped : ∀ n r, value (.stopped n r) = 0
  other : ∀ {r a}, (∀ p tx, r ≠ .call p (.broadcast tx)) → value (.answered r a) = 0
  weight : ∀ {r}, ¬ r.Enters → w r = 0

namespace Worth

theorem aside (hb : Worth Fees value w) {x : Exchange} (hx : x.request.Aside) :
    value x = 0 ∧ x.amount w = 0 := by
  cases x with
  | stopped n r => exact ⟨hb.stopped n r, rfl⟩
  | answered r a =>
      refine ⟨hb.other fun p tx hr => ?_, hb.weight hx.not_enters⟩
      subst hr
      exact hx

/-- One move keeps the balance of what is worth, entered and owed. -/
theorem move (hb : Worth Fees value w) {owed owed' : List Request} {x : Exchange}
    (hmove : Bookkeeping Fees owed x owed') :
    (owed.map w).sum + value x = x.amount w + (owed'.map w).sum := by
  cases hmove with
  | @entered r a owed hr =>
      have hvalue : value (.answered r a) = 0 := by
        refine hb.other fun p tx hcall => ?_
        rw [hcall] at hr
        exact hr
      rw [hvalue, add_zero, List.map_cons, List.sum_cons]
      rfl
  | @incurred p tx fees waitSignal answer hfees =>
      have hweight : w (.call p (.broadcast tx)) = 0 := hb.weight not_false
      have hvalue : value (.answered (.call p (.broadcast tx)) answer) =
          ((p.dues tx fees waitSignal answer).map w).sum := hb.answered hfees
      rw [hvalue, Exchange.amount, hweight, List.map_nil, List.sum_nil]
  | unsent => rw [hb.stopped, Exchange.amount, add_comm]
  | aside hx => rw [(hb.aside hx).1, (hb.aside hx).2, add_comm]

theorem path (hb : Worth Fees value w) {owed owed' : List Request} {h : List Exchange}
    (hpath : Path (Bookkeeping Fees) owed h owed') :
    (owed.map w).sum + (h.map value).sum =
      (h.map (Exchange.amount w)).sum + (owed'.map w).sum := by
  induction hpath with
  | nil owed => simp
  | @cons owed owed₁ owed₂ x h hmove _ ih =>
      rw [List.map_cons, List.sum_cons, List.map_cons, List.sum_cons, ← add_assoc, hb.move hmove,
        add_assoc, ih, add_assoc]

end Worth

/-- Who owes an entry stands before it. -/
theorem Program.Follows.owes_nothing {α : Type} {T : Exchange → Prop} {q : Program α}
    {owed : List Request} (hq : Follows (Bookkeeping Fees) T (fun owed _ => owed = []) owed q)
    (hsettled : q.Settled) : owed = [] := by
  cases owed with
  | nil => rfl
  | cons due owed =>
      -- The only move from here is to enter `due`, so the next request does.
      have hstands {r : Request} {a : r.Answer} {owed' : List Request}
          (hmove : Bookkeeping Fees (due :: owed) (.answered r a) owed') : r.Enters := by
        cases hmove with
        | entered hr => exact hr
      cases q with
      | done a => exact hq
      | ask r next =>
          obtain ⟨a⟩ := r.nonempty_answer
          obtain ⟨_, hmove, _⟩ := hq a
          exact absurd (hstands hmove) hsettled
      | watch s r next stop =>
          obtain ⟨a⟩ := r.nonempty_answer
          obtain ⟨_, hmove, _⟩ := hq.1 a
          exact absurd (hstands hmove) hsettled

/-- The broadcasts of a program that books them are worth its entries. -/
theorem Program.Reaches.balance {α : Type} {T : Exchange → Prop} {p q : Program α}
    {h : List Exchange} (hreach : Reaches p h q) (hh : ∀ x ∈ h, T x)
    (hp : Follows (Bookkeeping Fees) T (fun owed _ => owed = []) [] p) (hsettled : q.Settled)
    (hb : Worth Fees value w) : (h.map value).sum = (h.map (Exchange.amount w)).sum := by
  obtain ⟨owed, hpath, hq⟩ := hreach.follows hh hp
  have hbalance := hb.path hpath
  rw [hq.owes_nothing hsettled] at hbalance
  simpa using hbalance

theorem Request.OfLookup.aside (r : Request) (h : r.OfLookup) : r.Aside := by
  cases r with
  | call p c => cases c <;> first | exact h.elim | trivial
  | record p m => cases m <;> first | exact h.elim | trivial
  | _ => first | exact h.elim | trivial

/-- Jobs neither broadcast nor enter broadcasts in the books. -/
theorem Provider.runJob_aside (p : Provider) (j : Job) : Asks Request.Aside (p.runJob j) := by
  cases j with
  | confirm hash s =>
      have hconfirm : Asks Request.Aside (p.confirm hash s) :=
        (asks_awaitInclusion.mono Request.OfLookup.aside).bind fun _ =>
          (asks_request trivial).bind fun _ => trivial
      exact hconfirm.bind fun _ => trivial
  | report caller outcome =>
      cases outcome with
      | error e => exact (asks_request trivial).bind fun _ => trivial
      | ok job =>
          exact (asks_request trivial).bind fun _ => (asks_request trivial).bind fun _ => trivial

namespace System

variable {ρ : Type} {caches : KeyId → SequenceState} {calls : Nat → Program ρ} {τ : System ρ}
  {h : List (Agent × Exchange)}

theorem Run.job_aside (hr : Run (start caches calls) h τ) {n : Nat} {x : Exchange}
    (hx : x ∈ own (.job n) h) : x.request.Aside :=
  hr.asks_of_job Provider.runJob_aside (by simp [start]) (mem_own.mp hx)

/-- The broadcasts of a run are worth its entries if those of each call are. -/
theorem Run.balance {value : Agent → Exchange → M} (hr : Run (start caches calls) h τ)
    (hcalls : ∀ i, ((own (.call i) h).map (value (.call i))).sum =
      ((own (.call i) h).map (Exchange.amount w)).sum)
    (hjobs : ∀ n {x : Exchange}, x.request.Aside → value (.job n) x = 0 ∧ x.amount w = 0) :
    tally value h = tally (fun _ => Exchange.amount w) h := by
  refine tally_congr fun a => ?_
  cases a with
  | call i => exact hcalls i
  | job n =>
      refine congrArg List.sum (List.map_congr_left fun x hx => ?_)
      obtain ⟨hvalue, hentry⟩ := hjobs n (hr.job_aside hx)
      rw [hvalue, hentry]

end System

end PacketRelay
