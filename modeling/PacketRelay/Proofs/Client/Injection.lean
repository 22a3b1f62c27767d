import PacketRelay.Proofs.Cancellation
import PacketRelay.Proofs.Handshake
import PacketRelay.Proofs.Program.Composite

/-!
# Cancelling an injection

An injection reads the client's latest height and then, in a retry loop, the header that is trusted at
it.  A signal that fires while the height is read cancels it.  Whatever ends the loop is reported as
the loss of the header, also a signal, and so what was cancelled looks as if it could be tried again.
-/

namespace PacketRelay

open Program
open Schema (Message)

variable {source dest : Provider} {header : Message} {client : String} {policy : RetryPolicy}
  {n : Nat} {s : Signal} {F : Set Nat} {es es' : List Occurrence}

def trustedPart (header : Message) (dest : Provider) (client : String) (s : Signal) :
    Attempt Height :=
  Attempt.guard s (dest.trustedHeight (Height.ofMessage? (header.message? 3)).revisionHeight client)

/-- What an injection makes of the loop's result.  The error may be a cancellation. -/
def heedHeader (header : Message) (trusted : Height) :
    Except RelayError Header → Program (Except RelayError Message)
  | .error e => done (.error (.prunedHeader trusted.revisionHeight e))
  | .ok found => done (.ok (withTrust header trusted found.validatorSet))

def headerPart (source : Provider) (header : Message) (policy : RetryPolicy) (s : Signal) :
    Except RelayError Height → Program (Except RelayError Message)
  | .error e => done (.error e)
  | .ok trusted =>
    (policy.step s (source.header (trusted.revisionHeight + 1))).run.bind (heedHeader header trusted)

theorem injectTrust_run_eq : (injectTrust source header dest client policy s).run =
    (trustedPart header dest client s).run.bind (headerPart source header policy s) := by
  rw [injectTrust, ExceptT.run_bind, bind_eq]
  refine congrArg (Program.bind · _) (funext fun r => ?_)
  cases r with
  | error e => rfl
  | ok trusted =>
      dsimp only
      rw [ExceptT.run_bind, Attempt.outcome, ExceptT.run_lift, map_eq_pure_bind, bind_eq, bind_eq,
        Program.bind_assoc]
      refine congrArg (Program.bind · _) (funext fun found => ?_)
      cases found <;> rfl

/-- The client's latest height is known by now. -/
def HeightFound (header : Message) (dest : Provider) (client : String) (n : Nat) (F : Set Nat)
    (es : List Occurrence) (trusted : Height) : Prop :=
  ∃ es₁ es₂ F', es = es₁ ++ es₂ ∧ Moment.Run ⟨F, .running (trustedPart header dest client (some n)).run⟩
    es₁ ⟨F', .running (.done (.ok trusted))⟩

/-- The program has no other result than the error, and can come to it. -/
def Moment.EndsWith {α : Type} (m : Moment (Except RelayError α)) (e : RelayError) : Prop :=
  (∀ result, m.stage = .running (.done result) → result = .error e) ∧
    ∃ es, Run m es ⟨m.fired, .running (.done (.error e))⟩

theorem Moment.endsWith_of_stopped {α : Type} {m : Moment (Except RelayError α)} {e : RelayError}
    {X : Request → Prop} (hn : n ∈ m.fired) (hm : m.stage.Stopped n X (· = .error e)) :
    m.EndsWith e := by
  obtain ⟨es, _, hr, rfl⟩ := exists_run_of_stopped hn hm
  exact ⟨fun _ => result_of_stopped hm, es, hr⟩

theorem cancels_trustedPart {X : Request → Prop} :
    (trustedPart header dest client s).run.Cancels s X Attempt.IsCancelled :=
  Attempt.cancels_guard Provider.bare_trustedHeight

/-- The loop is cancelled by its signal, which is reported as the loss of the header. -/
theorem cancels_headerPart {X : Request → Prop} (trusted : Height) :
    (headerPart source header policy s (.ok trusted)).Cancels s X
      (· = .error (.prunedHeader trusted.revisionHeight .cancelled)) := by
  refine Cancels.bind (RetryPolicy.cancels_step Provider.bare_header) (fun found => ?_) ?_
  · cases found <;> trivial
  · rintro found rfl
    rfl

theorem not_heightFound_nil (trusted : Height) :
    ¬ HeightFound header dest client n F [] trusted := by
  rintro ⟨es₁, es₂, F', hnil, hr⟩
  obtain ⟨rfl, rfl⟩ := List.append_eq_nil_iff.mp hnil.symm
  cases hr

/-- An injection that is suspended before the height is known is cancelled by its signal. -/
theorem stopped_of_not_heightFound {F' : Set Nat} {r : Request}
    {next : r.Answer → Program (Except RelayError Message)}
    {interrupt : Option (Signal × Program (Except RelayError Message))}
    (hr : Moment.Run ⟨F, .running (injectTrust source header dest client policy (some n)).run⟩ es
      ⟨F', .waiting r next interrupt⟩) (hwaits : r.Waits)
    (hnot : ∀ trusted, ¬ HeightFound header dest client n F es trusted) :
    (Stage.waiting r next interrupt).Stopped n (fun _ => False) Attempt.IsCancelled := by
  rw [injectTrust_run_eq] at hr
  have hbind : Moment.Run ⟨F, (Stage.running (trustedPart header dest client (some n)).run).bind
      (headerPart source header policy (some n))⟩ es ⟨F', .waiting r next interrupt⟩ := hr
  obtain ⟨stage, hstage, hfirst⟩ | ⟨es₁, es₂, F₁, result, rfl, hfirst, hsecond⟩ := hbind.of_bind
  -- the first part is suspended itself, so it is cancelled and the second part passes that on
  · cases stage with
    | running p => cases hstage
    | waiting r' next' interrupt' =>
        cases hstage
        have hstopped := (hfirst.suspended cancels_trustedPart.cancelsBefore hwaits).2
        refine Moment.stopped_bind hstopped ?_
        rintro result rfl
        exact Attempt.winds_cancelled
  · cases result with
    | error e => cases hsecond.stage_of_done
    | ok trusted => exact absurd ⟨es₁, es₂, F₁, rfl, hfirst⟩ (hnot trusted)

/-- An injection that is suspended after the height is known is ended by its signal as well. -/
theorem stopped_of_heightFound {F' : Set Nat} {trusted : Height} {r : Request}
    {next : r.Answer → Program (Except RelayError Message)}
    {interrupt : Option (Signal × Program (Except RelayError Message))}
    (hr : Moment.Run ⟨F, .running (injectTrust source header dest client policy (some n)).run⟩ es
      ⟨F', .waiting r next interrupt⟩) (hwaits : r.Waits)
    (hfound : HeightFound header dest client n F es trusted) :
    (Stage.waiting r next interrupt).Stopped n (fun _ => False)
      (· = .error (.prunedHeader trusted.revisionHeight .cancelled)) := by
  obtain ⟨es₁, es₂, F₁, rfl, hfirst⟩ := hfound
  rw [injectTrust_run_eq] at hr
  exact ((hr.after_first hfirst).suspended (cancels_headerPart trusted).cancelsBefore hwaits).2

/-- A signal that fires before or during the query for the client's height cancels an injection for
good.  One that fires later, during a query for the header or a pause between two of them, is
reported as the loss of the header, and that counts as worth another attempt. -/
theorem injectTrust_reports_signal {m : Moment (Except RelayError Message)}
    (hcaught : Moment.Caught n (injectTrust source header dest client policy (some n)).run F es es' m) :
    ((∀ trusted, ¬ HeightFound header dest client n F es trusted) →
      m.EndsWith .cancelled ∧ RelayError.cancelled.isRetryable = false) ∧
    ∀ trusted, HeightFound header dest client n F es trusted →
      m.EndsWith (.prunedHeader trusted.revisionHeight .cancelled) ∧
        (RelayError.prunedHeader trusted.revisionHeight .cancelled).isRetryable = true := by
  cases hcaught with
  | before hn hr =>
      have hstart : (Stage.running (injectTrust source header dest client policy (some n)).run).Stopped
          n (fun _ => False) Attempt.IsCancelled := .inr ⟨.rest, _, _, rfl, rfl⟩
      refine ⟨fun _ => ⟨?_, rfl⟩, fun trusted hfound => absurd hfound (not_heightFound_nil trusted)⟩
      exact Moment.endsWith_of_stopped (hr.fired_mono hn) (hr.stopped hn hstart).1
  | @suspended _ _ r next interrupt F' _ hr hwaits hr' =>
      have hn : n ∈ insert n F' := Set.mem_insert n F'
      refine ⟨fun hnot => ⟨?_, rfl⟩, fun trusted hfound => ⟨?_, rfl⟩⟩
      · have hstopped := stopped_of_not_heightFound hr hwaits hnot
        exact Moment.endsWith_of_stopped (hr'.fired_mono hn) (hr'.stopped hn hstopped).1
      · have hstopped := stopped_of_heightFound hr hwaits hfound
        exact Moment.endsWith_of_stopped (hr'.fired_mono hn) (hr'.stopped hn hstopped).1

/-- A node can answer that the client knows nothing yet. -/
theorem exists_run_trustedPart (dest : Provider) (client : String) (s : Signal) :
    ∃ es, Moment.Run ⟨∅, .running (trustedPart [] dest client s).run⟩ es
      ⟨∅, .running (.done (.ok .zero))⟩ := by
  have hproves : dest.Proves 0 (.clientState client)
      (Provider.storeAnswer Provider.bareClient.toMessage.encode 9)
      ⟨[0x0a, 0x00], ⟨dest.revision, 9 + 1⟩⟩ _ :=
    ⟨0, rfl, rfl, Provider.accepts_storeAnswer _ _⟩
  have hstate : (dest.clientState 0 client).run.Yields _
      (.ok ⟨[], [0x0a, 0x00], ⟨dest.revision, 9 + 1⟩⟩) :=
    Provider.yields_clientState_ok_iff.mpr
      ⟨_, hproves, Provider.clientStateOf_bareClient client⟩
  have hheight : (dest.trustedHeight 0 client).run.Yields _ (.ok .zero) :=
    Attempt.yields_bind_ok_iff.mpr ⟨_, _, [], rfl, hstate, Attempt.yields_pure_iff.mpr ⟨rfl, rfl⟩⟩
  rw [List.append_nil] at hheight
  exact Moment.exists_run_of_reaches (Attempt.yields_guard_of hheight hproves.isAnswer)
    (List.forall_mem_cons.mpr ⟨trivial, hproves.isAnswer⟩)

/-- A loop's first call begins by asking for the header. -/
theorem exists_headerPart_eq (source : Provider) (header : Message) (n : Nat) :
    ∃ stop next stop', headerPart source header .standard (some n) (.ok .zero) =
      .ask (.attempting 1) fun _ => .watch (some n) .rest
        (fun _ => .watch (some n) (.call source (.lightBlock 1)) next stop') stop := by
  obtain ⟨next, hheader⟩ : ∃ next, (source.header (Height.zero.revisionHeight + 1)).run =
      .ask (.call source (.lightBlock 1)) next := ⟨_, rfl⟩
  have hpart : headerPart source header .standard (some n) (.ok .zero) =
      (RetryPolicy.standard.attemptsFrom .step (some n)
        (fun _ => source.header (Height.zero.revisionHeight + 1)) 4 1 []).bind
        (heedHeader header .zero) := rfl
  rw [hpart, RetryPolicy.attemptsFrom_eq]
  simp only [Attempt.guard_run_eq, hheader]
  exact ⟨_, _, _, rfl⟩

/-- The signal fires while the header is asked for. -/
theorem injectTrust_reports_signal_late : ∃ es es' m,
    Moment.Run ⟨∅, .running (injectTrust (transferEnd 0 "near") [] (transferEnd 1 "far")
      "07-tendermint-0" .standard (some 0)).run⟩
      (es ++ [.made (.call (transferEnd 0 "near") (.lightBlock 1))] ++ .fired 0 :: es') m ∧
    m.stage = .running (.done (.error (.prunedHeader 0 .cancelled))) := by
  let near := transferEnd 0 "near"
  let far := transferEnd 1 "far"
  have hlive : ¬ Signal.FiredIn ∅ (some 0) := Set.notMem_empty 0
  obtain ⟨es, hfirst⟩ := exists_run_trustedPart far "07-tendermint-0" (some 0)
  obtain ⟨stop, next, stop', hsecond⟩ := exists_headerPart_eq near [] 0
  let begun : List Occurrence :=
    [.made (.attempting 1), .answered (.attempting 1) (), .made .rest, .answered .rest ()]
  have hasked : Moment.Run ⟨∅, .running (headerPart near [] .standard (some 0) (.ok .zero))⟩
      (begun ++ [.made (.call near (.lightBlock 1))])
      ⟨∅, .waiting (.call near (.lightBlock 1)) next (some (some 0, stop'))⟩ := by
    rw [hsecond]
    exact .step .ask (.step (.answer (r := .attempting 1) () nofun)
      (.watched (r := .rest) hlive () (.step (.watch hlive) (.refl _))))
  have hwhole : Moment.Run ⟨∅, .running (injectTrust near [] far "07-tendermint-0" .standard
      (some 0)).run⟩ (es ++ (begun ++ [.made (.call near (.lightBlock 1))]))
      ⟨∅, .waiting (.call near (.lightBlock 1)) next (some (some 0, stop'))⟩ := by
    rw [injectTrust_run_eq]
    exact (hfirst.bind (f := headerPart near [] .standard (some 0))).append hasked
  have hcaught := Moment.Caught.suspended (n := 0) hwhole trivial (.refl _)
  obtain ⟨_, es', hend⟩ :=
    ((injectTrust_reports_signal hcaught).2 .zero ⟨es, _, ∅, rfl, hfirst⟩).1
  rw [← List.append_assoc] at hwhole
  exact ⟨es ++ begun, es', _, hwhole.append (.step (.fire 0) hend), rfl⟩

end PacketRelay
