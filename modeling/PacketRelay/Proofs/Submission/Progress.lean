import PacketRelay.Proofs.Submission.Concurrent
import PacketRelay.Proofs.Submission.Recovery
import PacketRelay.Proofs.System.Lifting

/-!
# A submission that nothing hinders

In a system whose lock on the key is free and whose cache shows the sequence that the chain expects,
a submission can be run to its end, and its transaction is taken.
-/

namespace PacketRelay

open Program

namespace Provider

variable {p : Provider} {expected : UInt64} {s waitSignal : Signal} {msgs : List Outgoing}
  {anys : List Any} {memo : String} {c : SequenceState} {n : Nat}

theorem plain_of_builds {r : Request} (h : r.Builds p) : r.Plain := by
  cases r <;> first | exact h.elim | trivial

/-- The call is alone on its key, on a chain that expects a sequence, and its jobs get one number. -/
def Unhindered (p : Provider) (expected : UInt64) (c : SequenceState) (n : Nat)
    (h : List Exchange) : Prop :=
  p.Obeying expected c h ∧ ∀ q j m, .answered (.spawn q j) m ∈ h → m = n

theorem Unhindered.exists_answer (h : List Exchange) (r : Request)
    (hh : p.Unhindered expected c n h) : ∃ a, p.Unhindered expected c n (h ++ [.answered r a]) := by
  obtain ⟨hobeying, hjobs⟩ := hh
  by_cases hspawn : ∃ q j, r = .spawn q j
  · obtain ⟨q, j, rfl⟩ := hspawn
    refine ⟨n, ⟨?_, threads_append_iff.mpr ⟨hobeying.2, ?_, trivial⟩⟩, ?_⟩
    · intro x hx
      obtain hx | hx := List.mem_append.mp hx
      · exact hobeying.1 x hx
      · rw [List.mem_singleton.mp hx]
        trivial
    · intro q' st hx
      cases hx
    · intro q' j' m hm
      obtain hm | hm := List.mem_append.mp hm
      · exact hjobs q' j' m hm
      · cases List.mem_singleton.mp hm
        rfl
  · obtain ⟨a, ha⟩ := Obeying.exists_answer h r hobeying
    refine ⟨a, ha, fun q j m hm => ?_⟩
    obtain hm | hm := List.mem_append.mp hm
    · exact hjobs q j m hm
    · cases List.mem_singleton.mp hm
      exact absurd ⟨q, j, rfl⟩ hspawn

/-- A submission that finds the expected sequence has a history in which it is accepted. -/
theorem exists_accepted_history (hexpected : expected.toNat + 1 < UInt64.size)
    (hanys : msgs.mapM Outgoing.toAny = .ok anys) (hmode : p.config.signMode = .direct)
    (hc : c.next = expected) (memo : String) (s waitSignal : Signal) (n : Nat) :
    ∃ h₁ x h₂ j st pending, (p.submit msgs memo s waitSignal).run.Yields
      (.answered .rest () :: .answered (.acquire p) c ::
        ((h₁ ++ x :: h₂) ++ [.answered (.spawn p j) n, .answered (.release p st) ()]))
          (.ok pending) ∧
      x.Accepts p.key expected ∧ st.next = expected + 1 ∧
      ∀ y ∈ h₁ ++ x :: h₂, y.request.Plain ∧ p.Obeys expected y := by
  have hnil : p.Unhindered expected c n [] := by
    refine ⟨⟨?_, trivial⟩, ?_⟩ <;> simp
  obtain ⟨h, r, hy, ⟨hobeys, hthreads⟩, hjobs⟩ :=
    exists_yields_within Unhindered.exists_answer (p.submit msgs memo s waitSignal).run hnil
  rw [List.nil_append] at hobeys hthreads hjobs
  cases yields_submit hy with
  | waited hg =>
      obtain ⟨h', rfl, hreq⟩ := hg.answered fun x hx => Obeys.isAnswer x (hobeys x hx)
      obtain ⟨_, _, hr⟩ := Attempt.yields_request_iff.mp hreq
      cases hr
  | @held body state st _ hl =>
      obtain ⟨_, hstate, _⟩ := hthreads
      obtain rfl := hstate p state rfl rfl
      obtain ⟨⟨_, _, _, _, hsigned', _⟩, hnext, pending, rfl⟩ | ⟨hne, _⟩ :=
        hl.recovers hexpected hanys hmode fun x hx => hobeys x (by simp [hx])
      · cases hl with
        | @accepted hb hs st₀ built pending hbuild hsend =>
            obtain ⟨_, hsigned, _⟩ := yields_build_ok hbuild
            obtain ⟨rfl, _⟩ | ⟨_, _, hr, _⟩ := hsend.obeying hsigned
              fun x hx => hobeys x (by simp [hx])
            · cases hsend with
              | @accepted a job hcode =>
                  obtain rfl := hjobs p (.confirm (a.lookupHash built.bytes) waitSignal) job (by simp)
                  refine ⟨hb ++ [.answered .rest ()], _, p.booking built.fees (.ok a), _, _, _,
                    by simpa using hy, ⟨p, built.bytes, a, rfl, hcode, rfl, hsigned⟩, hnext, ?_⟩
                  intro y hmem
                  simp only [List.mem_append, List.mem_cons, List.not_mem_nil, or_false] at hmem
                  obtain (hmem | rfl) | rfl | hmem := hmem
                  · exact ⟨plain_of_builds (Program.Yields.asks hbuild asks_build y hmem),
                      hobeys y (by simp [hmem])⟩
                  · exact ⟨trivial, trivial⟩
                  · exact ⟨trivial, hobeys _ (by simp)⟩
                  · obtain ⟨m, rfl⟩ | rfl := mem_booking hmem
                    · exact ⟨trivial, trivial⟩
                    · exact ⟨trivial, trivial⟩
            · cases hr
      · exact absurd hc hne

end Provider

namespace System

variable {σ : System (Except RelayError PendingTx)} {i : Nat} {c : Submission}
  {expected : UInt64} {anys : List Any}

/-- A submission that finds the lock free and the expected sequence in the cache can be run to its
end on a chain that expects it.  It is accepted on the way, and leaves the lock free and the cache
one ahead. -/
theorem exists_obeying_run (hexpected : expected.toNat + 1 < UInt64.size)
    (hanys : c.msgs.mapM Outgoing.toAny = .ok anys)
    (hmode : c.provider.config.signMode = .direct) (hcall : σ.calls i = c.program)
    (hfree : σ.holders c.provider.key = none)
    (hcache : (σ.caches c.provider.key).next = expected) :
    ∃ (g : List Exchange) (τ : System (Except RelayError PendingTx)),
      Run σ (g.map fun x => (.call i, x)) τ ∧ (∃ x ∈ g, x.Accepts c.provider.key expected) ∧
      (∀ y ∈ g, c.provider.Obeys expected y) ∧ τ.holders c.provider.key = none ∧
      (τ.caches c.provider.key).next = expected + 1 ∧ (∃ pending, τ.calls i = .done (.ok pending)) ∧
      ∀ j, j ≠ i → τ.calls j = σ.calls j := by
  obtain ⟨h₁, x, h₂, j, st, pending, hy, haccepts, hnext, hbody⟩ :=
    Provider.exists_accepted_history hexpected hanys hmode hcache c.memo c.signal c.waitSignal
      σ.jobs.length
  have hplain : ∀ y ∈ h₁ ++ x :: h₂, y.request.Plain := fun y hy => (hbody y hy).1
  rw [← Submission.program, ← hcall] at hy
  generalize c.provider = p at *
  have hallow : σ.AllowsAll (.call i) (.answered .rest () ::
      .answered (.acquire p) (σ.caches p.key) :: ((h₁ ++ x :: h₂) ++
        [.answered (.spawn p j) σ.jobs.length, .answered (.release p st) ()])) := by
    refine ⟨trivial, ⟨hfree, rfl⟩, ?_⟩
    rw [(allowsAll_plain_append_iff hplain).1]
    exact ⟨rfl, Function.update_self _ _ _, trivial⟩
  have hafter (y : Exchange) (g : List Exchange) :
      σ.afterAll (.call i) (y :: g) = (σ.after (.call i) y).afterAll (.call i) g := rfl
  have hrun := Run.of_reaches hy hallow
  rw [hafter, afterAll, List.foldl_cons, ← afterAll, (allowsAll_plain_append_iff hplain).2] at hrun
  refine ⟨_, _, hrun, ⟨x, by simp, haccepts⟩, ?_, ?_, ?_, ⟨pending, ?_⟩, ?_⟩
  · refine List.forall_mem_cons.mpr ⟨trivial, List.forall_mem_cons.mpr ⟨trivial, fun y hy => ?_⟩⟩
    obtain hy | hy := List.mem_append.mp hy
    · exact (hbody y hy).2
    · simp only [List.mem_cons, List.not_mem_nil, or_false] at hy
      obtain rfl | rfl := hy
      · trivial
      · trivial
  · exact Function.update_self _ _ _
  · exact (congrArg SequenceState.next (Function.update_self _ _ _)).trans hnext
  · exact Function.update_self _ _ _
  · intro k hk
    exact Function.update_of_ne hk _ _

theorem exists_accepted_run (hexpected : expected.toNat + 1 < UInt64.size)
    (hanys : c.msgs.mapM Outgoing.toAny = .ok anys)
    (hmode : c.provider.config.signMode = .direct) (hcall : σ.calls i = c.program)
    (hfree : σ.holders c.provider.key = none)
    (hcache : (σ.caches c.provider.key).next = expected) :
    ∃ g σ₁ x σ₂ g' τ, Run σ g σ₁ ∧ Step σ₁ (.call i) x σ₂ ∧ x.Accepts c.provider.key expected ∧
      Run σ₂ g' τ ∧ τ.holders c.provider.key = none ∧
      (τ.caches c.provider.key).next = expected + 1 ∧ ∀ j, j ≠ i → τ.calls j = σ.calls j := by
  obtain ⟨g, τ, hrun, ⟨x, hx, haccepts⟩, _, hheld, hnext, _, hcalls⟩ :=
    exists_obeying_run hexpected hanys hmode hcall hfree hcache
  obtain ⟨g₁, g₂, rfl⟩ := List.append_of_mem hx
  rw [List.map_append] at hrun
  obtain ⟨σ₁, hbefore, hrest⟩ := hrun.split
  obtain ⟨σ₂, hstep, hlater⟩ := hrest.step
  exact ⟨_, σ₁, x, σ₂, _, τ, hbefore, hstep, haccepts, hlater, hheld, hnext, hcalls⟩

end System

end PacketRelay
