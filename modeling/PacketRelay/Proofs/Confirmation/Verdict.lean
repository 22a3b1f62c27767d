import PacketRelay.Proofs.Confirmation.Deadline

/-!
# What a wait concludes

When look-ups are answered at once they are made at the multiples of the interval, and the first
answer that is decisive is the last one heard.  What came before it makes no difference to the
confirmation.
-/

namespace PacketRelay

open Program Timed

/-- What the answer to a look-up says of a transaction, if it settles its confirmation. -/
inductive Concludes : Except RelayError (Option TxResult) → Confirmation → Prop where
  | included {r : TxResult} : r.code = 0 → Concludes (.ok (some r)) (.confirmed (.ofResult r))
  | rejected {r : TxResult} : r.code ≠ 0 →
      Concludes (.ok (some r)) (.failed (some (.ofResult r)) (.ofTxCode r.codespace r.code r.log))
  | cancelled : Concludes (.error .cancelled) (.failed none .cancelled)
  | unindexed {e : RelayError} :
      Provider.indexingDisabledText.toList <:+: e.message.toList →
      Concludes (.error e) (.failed none .indexingDisabled)

/-- The answer settles the confirmation. -/
def Decisive (found : Except RelayError (Option TxResult)) : Prop := ∃ c, Concludes found c

/-- Answer `k` is the first one that is decisive. -/
def FirstDecisive (answers : Nat → Except RelayError (Option TxResult)) (k : Nat) : Prop :=
  Decisive (answers k) ∧ ∀ j < k, ¬ Decisive (answers j)

theorem FirstDecisive.unique {answers : Nat → Except RelayError (Option TxResult)} {j k : Nat}
    (hj : FirstDecisive answers j) (hk : FirstDecisive answers k) : j = k := by
  obtain hlt | heq | hlt := Nat.lt_trichotomy j k
  · exact absurd hj.1 (hk.2 j hlt)
  · exact heq
  · exact absurd hk.1 (hj.2 k hlt)

namespace Provider

variable {q : Provider} {hash : String} {timeout : Duration} {deadline interval : Nat} {s : Signal}
  {answers : Nat → Except RelayError (Option TxResult)}

namespace Rounds

variable {now : Nat} {ls : List Lookup} {h : List Timed} {r : Except RelayError TxResult}

end Rounds

end Provider

end PacketRelay
