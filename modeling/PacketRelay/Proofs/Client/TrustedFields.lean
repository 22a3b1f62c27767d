import PacketRelay.Proofs.Client.Injection
import PacketRelay.Proofs.Query.Assembly
import PacketRelay.Proofs.Retry.Calls

/-!
# The trusted fields that an injection sets

The height that a header trusts so far decides where the client's state is read.  The latest height
in that state becomes the trusted one, and the validators of the block after it are asked for on the
other chain, until a light block comes with both of its parts.
-/

namespace PacketRelay

open Program
open Schema (Message MessageType)
open Schema.Message

/-- A request for a light block that was answered. -/
structure LightBlockCall where
  provider : Provider
  height : UInt64
  answer : Except RelayError LightBlock

def Exchange.lightBlock? : Exchange → Option LightBlockCall
  | .answered (.call p (.lightBlock height)) answer => some ⟨p, height, answer⟩
  | _ => none

/-- The answered requests for light blocks, in their order. -/
def lightBlocks (h : List Exchange) : List LightBlockCall := h.filterMap Exchange.lightBlock?

@[simp] theorem lightBlocks_append (h h' : List Exchange) :
    lightBlocks (h ++ h') = lightBlocks h ++ lightBlocks h' := List.filterMap_append

theorem lightBlocks_cons_of_none {x : Exchange} {h : List Exchange} (hx : x.lightBlock? = none) :
    lightBlocks (x :: h) = lightBlocks h := List.filterMap_cons_none hx

/-- The answer is a light block with a signed header and with validators. -/
def Usable (a : Except RelayError LightBlock) : Prop :=
  ∃ signedHeader validators, a = .ok ⟨some signedHeader, some validators⟩

/-- A header is made of the last answer, and none before it was usable.  Without a header, none was
usable at all. -/
def FirstUsable (answers : List (Except RelayError LightBlock)) : Except RelayError Header → Prop
  | .ok found => ∃ failed, answers = failed ++ [.ok ⟨some found.signedHeader, some found.validatorSet⟩] ∧
      ∀ a ∈ failed, ¬ Usable a
  | .error _ => ∀ a ∈ answers, ¬ Usable a

theorem FirstUsable.append {failed answers : List (Except RelayError LightBlock)}
    {r : Except RelayError Header} (hfailed : ∀ a ∈ failed, ¬ Usable a)
    (h : FirstUsable answers r) : FirstUsable (failed ++ answers) r := by
  cases r with
  | ok found =>
      obtain ⟨before, rfl, hbefore⟩ := h
      exact ⟨failed ++ before, by simp, List.forall_mem_append.mpr ⟨hfailed, hbefore⟩⟩
  | error e => exact List.forall_mem_append.mpr ⟨hfailed, h⟩

theorem LightBlock.header_ok_iff {b : LightBlock} {found : Header} :
    b.header = .ok found ↔ b = ⟨some found.signedHeader, some found.validatorSet⟩ := by
  obtain ⟨signedHeader, validatorSet⟩ := b
  cases signedHeader <;> cases validatorSet <;> simp [header]
  constructor
  · rintro rfl
    exact ⟨rfl, rfl⟩
  · rintro ⟨rfl, rfl⟩
    rfl

theorem firstUsable_singleton (a : Except RelayError LightBlock) :
    FirstUsable [a] (a.bind LightBlock.header) := by
  cases hfound : a.bind LightBlock.header with
  | ok found =>
      obtain ⟨b, rfl, hb⟩ := bind_eq_ok_iff.mp hfound
      rw [LightBlock.header_ok_iff.mp hb]
      exact ⟨[], rfl, by simp⟩
  | error e =>
      refine List.forall_mem_singleton.mpr ?_
      rintro ⟨signedHeader, validators, rfl⟩
      cases hfound

theorem toNat_succ_of_ne_zero {n : UInt64} (hn : n + 1 ≠ 0) : (n + 1).toNat = n.toNat + 1 := by
  have hbound := n.toNat_lt
  rw [ne_eq, ← UInt64.toNat_inj, UInt64.toNat_add] at hn
  rw [UInt64.toNat_add]
  simp only [UInt64.reduceToNat] at hn ⊢
  omega

section Loop

variable {source : Provider} {policy : RetryPolicy} {s : Signal} {height : UInt64}
  {h : List Exchange}

/-- One request for a light block, whose failure is counted. -/
def Provider.fetching (p : Provider) (height : UInt64) (a : Except RelayError LightBlock) :
    List Exchange :=
  .answered (.call p (.lightBlock height)) a :: match a with
    | .ok _ => []
    | .error _ => [.answered (.record p .rpcError) ()]

theorem lightBlocks_fetching (p : Provider) (height : UInt64) (a : Except RelayError LightBlock) :
    lightBlocks (p.fetching height a) = [⟨p, height, a⟩] := by
  cases a <;> rfl

theorem Provider.asks_header {R : Request → Prop} {p : Provider}
    (hcall : R (.call p (.lightBlock height))) (hrecord : R (.record p .rpcError)) :
    Asks R (p.header height).run := by
  unfold header
  split
  · exact Attempt.asks_throw _
  · exact Attempt.asks_bind (Attempt.asks_request hcall) fun _ =>
      Attempt.asks_bind (asks_counted hrecord) fun _ => Attempt.asks_ofExcept _

theorem Provider.yields_header_iff {p : Provider} {r : Except RelayError Header} :
    (p.header height).run.Yields h r ↔
      (height = 0 ∧ h = [] ∧ r = .error (.invalidHeight "height cannot be 0")) ∨
      height ≠ 0 ∧ ∃ a, h = p.fetching height a ∧ r = a.bind LightBlock.header := by
  unfold header
  by_cases hheight : height = 0
  · simp only [hheight, Attempt.throw_bind, if_true, Attempt.yields_throw_iff]
    simp
  · simp only [hheight, if_false, false_and, false_or, ne_eq, not_false_eq_true, true_and]
    constructor
    · intro hy
      obtain ⟨a, h', rfl, hcounted⟩ := Attempt.yields_request_bind_iff.mp hy
      obtain ⟨b, rfl, hread⟩ | ⟨e, rfl, rfl, rfl⟩ := yields_counted_bind hcounted
      · obtain ⟨rfl, rfl⟩ := Attempt.yields_ofExcept_iff.mp hread
        exact ⟨.ok b, rfl, rfl⟩
      · exact ⟨.error e, rfl, rfl⟩
    · rintro ⟨a, rfl, rfl⟩
      refine Attempt.yields_request_bind_iff.mpr ⟨a, _, rfl, ?_⟩
      cases a with
      | ok b => exact Attempt.yields_ofExcept_iff.mpr ⟨rfl, rfl⟩
      | error e =>
          refine Attempt.yields_bind_iff.mpr (.inl ⟨e, ?_, rfl⟩)
          exact Attempt.yields_request_bind_iff.mpr
            ⟨(), [], rfl, Attempt.yields_throw_iff.mpr ⟨rfl, rfl⟩⟩

/-- The light blocks asked for are all of one height, at most `limit` many, and lead to the result. -/
structure Fetches (p : Provider) (height : UInt64) (limit : Nat) (h : List Exchange)
    (answers : List (Except RelayError LightBlock)) (r : Except RelayError Header) : Prop where
  asked : lightBlocks h = answers.map (⟨p, height, ·⟩)
  few : answers.length ≤ limit
  positive : answers ≠ [] → height ≠ 0
  first : FirstUsable answers r

namespace Fetches

variable {h' : List Exchange} {limit limit' : Nat}
  {answers answers' : List (Except RelayError LightBlock)} {r : Except RelayError Header}
  {e : RelayError}

theorem mono (hf : Fetches source height limit h answers r) (hlimit : limit ≤ limit') :
    Fetches source height limit' h answers r where
  asked := hf.asked
  few := hf.few.trans hlimit
  positive := hf.positive
  first := hf.first

theorem cons {x : Exchange} (hf : Fetches source height limit h answers r)
    (hx : x.lightBlock? = none) : Fetches source height limit (x :: h) answers r where
  asked := (lightBlocks_cons_of_none hx).trans hf.asked
  few := hf.few
  positive := hf.positive
  first := hf.first

/-- What comes after a failure decides. -/
theorem append (hf : Fetches source height limit h answers (.error e))
    (hf' : Fetches source height limit' h' answers' r) :
    Fetches source height (limit + limit') (h ++ h') (answers ++ answers') r where
  asked := by rw [lightBlocks_append, hf.asked, hf'.asked, List.map_append]
  few := by
    rw [List.length_append]
    exact Nat.add_le_add hf.few hf'.few
  positive := by
    rw [ne_eq, List.append_eq_nil_iff]
    intro hsome
    by_cases hnone : answers = []
    · exact hf'.positive fun hnil => hsome ⟨hnone, hnil⟩
    · exact hf.positive hnone
  first := hf'.first.append hf.first

end Fetches

/-- One attempt asks for one light block, if any. -/
theorem fetches_of_attempt {r : Except RelayError Header}
    (hg : Attempt.Guarded s (source.header height) h r) (hh : ∀ x ∈ h, x.IsAnswer) :
    ∃ answers, Fetches source height 1 h answers r := by
  obtain ⟨h', rfl, hy⟩ := hg.answered hh
  obtain ⟨_, rfl, rfl⟩ | ⟨hheight, a, rfl, rfl⟩ := Provider.yields_header_iff.mp hy
  · exact ⟨[], rfl, Nat.zero_le 1, fun hnil => absurd rfl hnil, by simp [FirstUsable]⟩
  · exact ⟨[a], lightBlocks_fetching source height a, Nat.le_refl 1, fun _ => hheight,
      firstUsable_singleton a⟩

/-- An uninterrupted loop asks for one block, as often as the policy allows, up to the first usable
answer. -/
theorem fetches_of_rounds {left n : Nat} {history : List String} {r : Except RelayError Header}
    (hr : policy.Rounds .step s (fun _ => source.header height) left n history h r)
    (hh : ∀ x ∈ h, x.IsAnswer) : ∃ answers, Fetches source height (left + 1) h answers r := by
  have hlast {left n : Nat} {g : List Exchange} {x : Except RelayError Header}
      (hg : Attempt.Guarded s (source.header height) g x)
      (hanswered : ∀ y ∈ (.answered (.attempting n) () :: g : List Exchange), y.IsAnswer) :
      ∃ answers, Fetches source height (left + 1) (.answered (.attempting n) () :: g) answers x := by
    obtain ⟨answers, hf⟩ := fetches_of_attempt hg (List.forall_mem_cons.mp hanswered).2
    exact ⟨answers, (hf.cons rfl).mono (Nat.le_add_left 1 left)⟩
  induction hr with
  | succeeded hg => exact hlast hg hh
  | failed hg _ => exact hlast hg hh
  | exhausted hg _ =>
      obtain ⟨answers, hf⟩ := hlast hg hh
      exact ⟨answers, hf.asked, hf.few, hf.positive, hf.first⟩
  | interrupted _ _ hpause =>
      -- A pause is only interrupted by an exchange that is no answer.
      have hpaused := List.forall_mem_append.mp (List.forall_mem_append.mp
        (List.forall_mem_cons.mp hh).2).2
      obtain ⟨_, _, hrequest⟩ := hpause.answered hpaused.2
      obtain ⟨_, _, hok⟩ := Attempt.yields_request_iff.mp hrequest
      cases hok
  | @again left n history g h' e r hg _ _ ih =>
      obtain ⟨hcall, hrest⟩ := List.forall_mem_append.mp (List.forall_mem_cons.mp hh).2
      have hnext := (List.forall_mem_append.mp hrest).2
      simp only [List.forall_mem_cons] at hnext
      obtain ⟨failed, hfailed⟩ := fetches_of_attempt hg hcall
      obtain ⟨answers, hf⟩ := ih hnext.2.2
      have hpaused : Fetches source height (left + 1) (RetryPolicy.announcement .step n e ++
          .answered .rest () :: .answered (.pause policy.delay.millis) () :: h') answers r :=
        (hf.cons rfl).cons rfl
      refine ⟨failed ++ answers, ((hfailed.append hpaused).cons rfl).mono ?_⟩
      omega

/-- Answers that do not decide the loop may come before the usable one. -/
theorem exists_yields_loop (source : Provider) (policy : RetryPolicy) (s : Signal)
    (hheight : height ≠ 0) (found : Header) {failed : List (Except RelayError LightBlock)}
    {left n : Nat} {history : List String}
    (hfailed : ∀ a ∈ failed, ∃ e, a.bind LightBlock.header = .error e ∧
      RetryScope.step.isFinal e = false) (hleft : failed.length ≤ left) :
    ∃ h, (policy.attemptsFrom .step s (fun _ => source.header height) left n history).Yields h
      (.ok found) ∧ ∀ x ∈ h, x.IsAnswer := by
  have hguarded (a : Except RelayError LightBlock) :
      (Attempt.guard s (source.header height)).run.Yields
          (.answered .rest () :: source.fetching height a) (a.bind LightBlock.header) ∧
        ∀ x ∈ source.fetching height a, x.IsAnswer := by
    have hanswered : ∀ x ∈ source.fetching height a, x.IsAnswer := by
      cases a <;> simp [Provider.fetching, Exchange.IsAnswer]
    exact ⟨Attempt.yields_guard_of (Provider.yields_header_iff.mpr (.inr ⟨hheight, a, rfl, rfl⟩))
      hanswered, hanswered⟩
  induction failed generalizing left n history with
  | nil =>
      obtain ⟨hfetch, hanswered⟩ :=
        hguarded (.ok ⟨some found.signedHeader, some found.validatorSet⟩)
      exact ⟨_, RetryPolicy.yields_attemptsFrom_of_ok hfetch,
        by simpa [Exchange.IsAnswer] using hanswered⟩
  | cons a failed ih =>
      obtain ⟨⟨e, he, hfinal⟩, hfailed⟩ := List.forall_mem_cons.mp hfailed
      obtain ⟨hfetch, hanswered⟩ := hguarded a
      rw [he] at hfetch
      obtain _ | left := left
      · cases hleft
      obtain ⟨t, hrest, ht⟩ := ih hfailed (Nat.le_of_succ_le_succ hleft)
      refine ⟨_, RetryPolicy.yields_attemptsFrom_of_error hfetch hfinal hrest, ?_⟩
      simp only [List.forall_mem_cons, List.forall_mem_append, RetryPolicy.interlude,
        RetryPolicy.announcement]
      simpa [Exchange.IsAnswer] using ⟨hanswered, ht⟩

end Loop

section Setting

/-- The signed header and the validators of a header are kept, and the trusted fields are these. -/
structure SetsTrust (m header : Message) (trusted : Height) (validators : Message) : Prop where
  kept : m.filter (·.1 < 3) = header.filter (·.1 < 3)
  trustedHeight : m.message? 3 = some trusted.toMessage
  trustedValidators : m.message? 4 = some validators
  others : m.filter (fun field => ¬ field.1 < 3) =
    [(3, .message trusted.toMessage), (4, .message validators)]

theorem lookup_kept {field : Nat} (hfield : 3 ≤ field) (header : Message) :
    (header.filter (·.1 < 3)).lookup field = none := by
  rw [List.lookup_eq_none_iff]
  intro x hx
  have hlow : x.1 < 3 := by simpa using (List.mem_filter.mp hx).2
  rw [bne_iff_ne]
  omega

theorem setsTrust_withTrust (header : Message) (trusted : Height) (validators : Message) :
    SetsTrust (withTrust header trusted validators) header trusted validators where
  kept := by
    simp [withTrust, ofMessage]
  trustedHeight := by
    rw [withTrust, List.append_assoc, message?_append (lookup_kept (by decide) header)]
    exact message?_ofMessage_append 3 _ _
  trustedValidators := by
    rw [withTrust, List.append_assoc, message?_append (lookup_kept (by decide) header),
      message?_append (lookup_ofMessage_of_ne (by decide) _)]
    simp [message?, ofMessage]
  others := by
    simp [withTrust, ofMessage]

end Setting

section Client

variable {p : Provider} {height : UInt64} {client : String} {state : Message} {g h : List Exchange}

theorem clientStateOf_ok_iff {value : Bytes} :
    clientStateOf client value = .ok state ↔
      value ≠ [] ∧ ∃ packed, Schema.decode .any value = some packed ∧
        (Any.ofMessage packed).typeUrl = MessageType.clientState.typeUrl ∧
        Schema.decode .clientState (Any.ofMessage packed).value = some state := by
  cases value with
  | nil => exact iff_of_false nofun fun h => h.1 rfl
  | cons b rest =>
      have hread : clientStateOf client (b :: rest) = decodeAnswer .any (b :: rest) >>= fun packed =>
          if (Any.ofMessage packed).typeUrl ≠ MessageType.clientState.typeUrl then
            .error (.decode ("expected tendermint client state, got "
              ++ (Any.ofMessage packed).typeUrl))
          else decodeAnswer .clientState (Any.ofMessage packed).value := by
        unfold clientStateOf
        refine congrArg (_ >>= ·) (funext fun packed => ?_)
        dsimp only
        split <;> rfl
      rw [hread]
      simp only [bind_eq_ok_iff, decodeAnswer_ok_iff, ne_eq, List.cons_ne_nil, not_false_eq_true,
        true_and]
      refine exists_congr fun packed => and_congr_right fun _ => ?_
      split
      · next htype => exact iff_of_false nofun fun h => htype h.1
      · next htype => rw [decodeAnswer_ok_iff, and_iff_right (Decidable.not_not.mp htype)]

/-- The entry of a client holds this state of a light client, and was read at this height. -/
def Provider.ShowsClient (p : Provider) (height : UInt64) (client : String) (state : Message)
    (g : List Exchange) : Prop :=
  ∃ a proof packed, p.Proves height (.clientState client) a proof g ∧ a.value ≠ [] ∧
    Schema.decode .any a.value = some packed ∧
    (Any.ofMessage packed).typeUrl = MessageType.clientState.typeUrl ∧
    Schema.decode .clientState (Any.ofMessage packed).value = some state

theorem Provider.yields_trustedHeight_ok_iff {trusted : Height} :
    (p.trustedHeight height client).run.Yields g (.ok trusted) ↔
      ∃ state, p.ShowsClient height client state g ∧ trusted = clientLatestHeight state := by
  unfold trustedHeight ShowsClient
  simp only [Attempt.yields_bind_ok_iff, yields_clientState_ok_iff, clientStateOf_ok_iff,
    Attempt.yields_pure_ok_iff]
  constructor
  · rintro ⟨g, proven, _, rfl, ⟨a, hproves, hvalue, packed, hpacked, htype, hstate⟩, rfl, rfl⟩
    rw [List.append_nil]
    exact ⟨proven.value, ⟨a, _, packed, hproves, hvalue, hpacked, htype, hstate⟩, rfl⟩
  · rintro ⟨state, ⟨a, proof, packed, hproves, hvalue, hpacked, htype, hstate⟩, rfl⟩
    exact ⟨g, ⟨state, proof.proof, proof.height⟩, [], (List.append_nil g).symm,
      ⟨a, hproves, hvalue, packed, hpacked, htype, hstate⟩, rfl, rfl⟩

end Client

section Injecting

variable {source dest : Provider} {header m : Message} {client : String} {policy : RetryPolicy}
  {s : Signal} {h : List Exchange} {r : Except RelayError Message} {state : Message}

/-- An injection first reads the client's state, at the height that the header trusts so far.  An
absent height reads as zero. -/
def ReadsClient (dest : Provider) (header : Message) (client : String) (h : List Exchange)
    (state : Message) : Prop :=
  ∃ g g', h = .answered .rest () :: (g ++ g') ∧
    dest.ShowsClient (Height.ofMessage? (header.message? 3)).revisionHeight client state g

/-- The requests of an injection: the client's state from the destination, light blocks from the
source, and what belongs to retrying and counting. -/
def Request.Injecting (source dest : Provider) : Request → Prop
  | .rest | .attempting _ | .pause _ => True
  | .call p (.abciQuery ..) => p = dest
  | .call p (.lightBlock _) => p = source
  | .record p m => (p = dest ∨ p = source) ∧ m = .rpcError
  | _ => False

theorem Provider.asks_trustedHeight {R : Request → Prop} {p : Provider} {height : UInt64}
    (hcall : ∀ height, R (.call p ((StoreKey.clientState client).query height)))
    (hrecord : R (.record p .rpcError)) : Asks R (p.trustedHeight height client).run := by
  refine Attempt.asks_bind ?_ fun _ => Attempt.asks_pure _
  rw [clientState_eq]
  exact Attempt.asks_bind (asks_queryProof hcall hrecord) fun _ =>
    Attempt.asks_bind (Attempt.asks_ofExcept _) fun _ => Attempt.asks_pure _

theorem asks_injectTrust : Asks (Request.Injecting source dest)
    (injectTrust source header dest client policy s).run := by
  rw [injectTrust_run_eq]
  have hread : Asks (Request.Injecting source dest) (trustedPart header dest client s).run :=
    Attempt.asks_guard trivial (Provider.asks_trustedHeight (fun _ => rfl) ⟨.inl rfl, rfl⟩)
  refine hread.bind fun trusted => ?_
  cases trusted with
  | error e => trivial
  | ok trusted =>
      have hloop : ∀ q, RetryScope.step.LoopRequest q → q.Injecting source dest := by
        intro q hq
        cases q with
        | rest => trivial
        | attempting n => trivial
        | pause millis => trivial
        | retrying n e => cases hq
        | _ => exact hq.elim
      refine (RetryPolicy.asks_step hloop ?_).bind fun found => ?_
      · exact Provider.asks_header rfl ⟨.inr rfl, rfl⟩
      · cases found <;> trivial

theorem lightBlocks_eq_nil {R : Request → Prop} (hR : ∀ p k, ¬ R (.call p (.lightBlock k)))
    (hh : ∀ x ∈ h, R x.request) : lightBlocks h = [] := by
  rw [lightBlocks, List.filterMap_eq_nil_iff]
  intro x hx
  cases x with
  | stopped n q => rfl
  | answered q a =>
      cases q with
      | call p c =>
          cases c with
          | lightBlock height => exact absurd (hh _ hx) (hR p height)
          | _ => rfl
      | _ => rfl

/-- Once the client's state was read, the rest of the injection is the loop for the header. -/
theorem ReadsClient.yields_headerPart (hread : ReadsClient dest header client h state)
    (hy : (injectTrust source header dest client policy s).run.Yields h r) :
    ∃ g, (∀ x ∈ g, x ∈ h) ∧ lightBlocks h = lightBlocks g ∧
      (headerPart source header policy s (.ok (clientLatestHeight state))).Yields g r := by
  obtain ⟨g, g', rfl, hshows⟩ := hread
  have hasked : lightBlocks g = [] ∧ ∀ x ∈ g, x.IsAnswer := by
    obtain ⟨a, proof, packed, hproves, _⟩ := hshows
    refine ⟨?_, hproves.isAnswer⟩
    obtain ⟨queryHeight, _, rfl, _⟩ := hproves
    rfl
  have hfirst : (trustedPart header dest client s).run.Yields (.answered .rest () :: g)
      (.ok (clientLatestHeight state)) :=
    Attempt.yields_guard_of (Provider.yields_trustedHeight_ok_iff.mpr ⟨state, hshows, rfl⟩) hasked.2
  rw [injectTrust_run_eq] at hy
  refine ⟨g', fun x hx => by simp [hx], ?_, hfirst.of_bind hy⟩
  rw [lightBlocks_cons_of_none rfl, lightBlocks_append, hasked.1, List.nil_append]

/-- A history shows one state of the client. -/
theorem ReadsClient.unique {state' : Message} (hread : ReadsClient dest header client h state)
    (hread' : ReadsClient dest header client h state') : state = state' := by
  obtain ⟨g, g', rfl, a, proof, packed, ⟨k, _, rfl, _⟩, _, hpacked, _, hstate⟩ := hread
  obtain ⟨_, _, heq, a', proof', packed', ⟨k', _, rfl, _⟩, _, hpacked', _, hstate'⟩ := hread'
  simp only [List.cons_append, List.nil_append, List.cons.injEq, Exchange.answered.injEq] at heq
  obtain ⟨_, ⟨hcall, hanswer⟩, _⟩ := heq
  cases hcall
  obtain rfl := Except.ok.inj (eq_of_heq hanswer)
  obtain rfl := Option.some.inj (hpacked.symm.trans hpacked')
  exact Option.some.inj (hstate.symm.trans hstate')

/-- An uninterrupted injection reads the client's state, or fails before it asks for a block. -/
theorem readsClient_or_fails
    (hy : (injectTrust source header dest client policy s).run.Yields h r)
    (hanswered : ∀ x ∈ h, x.IsAnswer) :
    (∃ state, ReadsClient dest header client h state) ∨ lightBlocks h = [] ∧ ∃ e, r = .error e := by
  rw [injectTrust_run_eq] at hy
  obtain ⟨g, x, g', rfl, hfirst, hsecond⟩ := yields_bind_iff.mp hy
  obtain ⟨g, rfl, hfound⟩ := (Attempt.yields_guard hfirst).answered
    (List.forall_mem_append.mp hanswered).1
  cases x with
  | error e =>
      obtain ⟨rfl, rfl⟩ := yields_done_iff.mp hsecond
      refine .inr ⟨?_, e, rfl⟩
      have hnone : Asks (fun q => ∀ p k, q ≠ .call p (.lightBlock k))
          (dest.trustedHeight (Height.ofMessage? (header.message? 3)).revisionHeight client).run :=
        Provider.asks_trustedHeight (fun _ _ _ => nofun) fun _ _ => nofun
      rw [List.append_nil, lightBlocks_cons_of_none rfl]
      exact lightBlocks_eq_nil (fun p k hcall => hcall p k rfl) (hfound.asks hnone)
  | ok trusted =>
      obtain ⟨state, hshows, _⟩ := Provider.yields_trustedHeight_ok_iff.mp hfound
      exact .inl ⟨state, g, g', rfl, hshows⟩

/-- The loop for the header ends with the first usable block, or with none, and the injection as that
result says. -/
theorem ReadsClient.fetches (hread : ReadsClient dest header client h state)
    (hy : (injectTrust source header dest client policy s).run.Yields h r)
    (hanswered : ∀ x ∈ h, x.IsAnswer) :
    ∃ answers x, Fetches source ((clientLatestHeight state).revisionHeight + 1)
        (max 1 policy.maxAttempts) h answers x ∧
      (heedHeader header (clientLatestHeight state) x).Yields [] r := by
  obtain ⟨g, hsub, hblocks, hpart⟩ := hread.yields_headerPart hy
  obtain ⟨g, x, g', rfl, hloop, hheed⟩ := yields_bind_iff.mp hpart
  have hend : g' = [] ∧ (heedHeader header (clientLatestHeight state) x).Yields [] r := by
    cases x with
    | ok found =>
        obtain ⟨rfl, rfl⟩ := yields_done_iff.mp hheed
        exact ⟨rfl, hheed⟩
    | error e =>
        obtain ⟨rfl, rfl⟩ := yields_done_iff.mp hheed
        exact ⟨rfl, hheed⟩
  obtain ⟨rfl, hend⟩ := hend
  rw [List.append_nil] at hsub hblocks
  obtain ⟨answers, hf⟩ := fetches_of_rounds (RetryPolicy.yields_attemptsFrom hloop)
    fun x hx => hanswered x (hsub x hx)
  have hattempts : policy.attempts - 1 + 1 = max 1 policy.maxAttempts :=
    Nat.sub_add_cancel (Nat.le_max_left 1 _)
  exact ⟨answers, x, ⟨hblocks.trans hf.asked, hattempts ▸ hf.few, hf.positive, hf.first⟩, hend⟩

/-- An injection sets the trusted fields to what the chains say and leaves the others.  The trusted
height is the latest one of the destination's client, read at the height that the header trusted
before; the trusted validators are those of the first usable light block of the source after that
height.  No other light block is asked for, and none more often than the policy allows.  If none is
usable, the error names the trusted height. -/
theorem injectTrust_trusts
    (hy : (injectTrust source header dest client policy s).run.Yields h r)
    (hanswered : ∀ x ∈ h, x.IsAnswer) :
    (∀ x ∈ h, x.request.Injecting source dest) ∧
    (∀ m, r = .ok m → ∃ state signedHeader validators failed,
      ReadsClient dest header client h state ∧
      (lightBlocks h).map LightBlockCall.answer =
        failed ++ [.ok ⟨some signedHeader, some validators⟩] ∧ (∀ a ∈ failed, ¬ Usable a) ∧
      SetsTrust m header (clientLatestHeight state) validators) ∧
    (∀ state, ReadsClient dest header client h state →
      (∀ c ∈ lightBlocks h, c.provider = source ∧
        c.height.toNat = (clientLatestHeight state).revisionHeight.toNat + 1) ∧
      (lightBlocks h).length ≤ max 1 policy.maxAttempts ∧
      ((∀ c ∈ lightBlocks h, ¬ Usable c.answer) →
        ∃ e, r = .error (.prunedHeader (clientLatestHeight state).revisionHeight e))) ∧
    ((∀ state, ¬ ReadsClient dest header client h state) →
      lightBlocks h = [] ∧ ∃ e, r = .error e) := by
  have hcases := readsClient_or_fails hy hanswered
  refine ⟨hy.asks asks_injectTrust, ?_, ?_, ?_⟩
  · rintro m rfl
    obtain ⟨state, hread⟩ | ⟨_, e, herror⟩ := hcases
    · obtain ⟨answers, x, hf, hheed⟩ := hread.fetches hy hanswered
      cases x with
      | error e => cases (yields_done_iff.mp hheed).2
      | ok found =>
          obtain rfl := Except.ok.inj (yields_done_iff.mp hheed).2
          obtain ⟨failed, rfl, hfailed⟩ := hf.first
          refine ⟨state, found.signedHeader, found.validatorSet, failed, hread, ?_, hfailed,
            setsTrust_withTrust _ _ _⟩
          rw [hf.asked, List.map_map]
          exact List.map_id _
    · cases herror
  · intro state hread
    obtain ⟨answers, x, hf, hheed⟩ := hread.fetches hy hanswered
    rw [hf.asked]
    refine ⟨fun c hc => ?_, by simpa using hf.few, fun hunusable => ?_⟩
    · obtain ⟨a, ha, rfl⟩ := List.mem_map.mp hc
      exact ⟨rfl, toNat_succ_of_ne_zero (hf.positive (List.ne_nil_of_mem ha))⟩
    · cases x with
      | error e => exact ⟨e, (yields_done_iff.mp hheed).2⟩
      | ok found =>
          obtain ⟨failed, rfl, _⟩ := hf.first
          exact absurd ⟨_, _, rfl⟩ (hunusable ⟨source, _, _⟩
            (List.mem_map.mpr ⟨_, List.mem_append_right _ (List.mem_singleton.mpr rfl), rfl⟩))
  · intro hnone
    obtain ⟨state, hread⟩ | hfails := hcases
    · exact absurd hread (hnone state)
    · exact hfails

/-- An injection succeeds if the client's state is shown and a usable block comes within the
attempts, after failures that may be tried again. -/
theorem exists_yields_injectTrust (source : Provider) (policy : RetryPolicy) (s : Signal)
    {g : List Exchange} (found : Header) {failed : List (Except RelayError LightBlock)}
    (hshows : dest.ShowsClient (Height.ofMessage? (header.message? 3)).revisionHeight client state g)
    (hheight : (clientLatestHeight state).revisionHeight + 1 ≠ 0)
    (hfailed : ∀ a ∈ failed, ∃ e, a.bind LightBlock.header = .error e ∧
      RetryScope.step.isFinal e = false) (hcount : failed.length < policy.attempts) :
    ∃ h m, (injectTrust source header dest client policy s).run.Yields h (.ok m) ∧
      (∀ x ∈ h, x.IsAnswer) ∧ ReadsClient dest header client h state := by
  have hasked : ∀ x ∈ g, x.IsAnswer := by
    obtain ⟨a, proof, packed, hproves, _⟩ := hshows
    exact hproves.isAnswer
  have hfirst : (trustedPart header dest client s).run.Yields (.answered .rest () :: g)
      (.ok (clientLatestHeight state)) :=
    Attempt.yields_guard_of (Provider.yields_trustedHeight_ok_iff.mpr ⟨state, hshows, rfl⟩) hasked
  obtain ⟨g', hloop, hanswered⟩ : ∃ g', (policy.attemptsFrom .step s
        (fun _ => source.header ((clientLatestHeight state).revisionHeight + 1))
        (policy.attempts - 1) 1 []).Yields g' (.ok found) ∧ ∀ x ∈ g', x.IsAnswer :=
    exists_yields_loop source policy s hheight found hfailed (by omega)
  have hsecond : (headerPart source header policy s (.ok (clientLatestHeight state))).Yields g'
      (.ok (withTrust header (clientLatestHeight state) found.validatorSet)) :=
    yields_bind_iff.mpr ⟨g', .ok found, [], (List.append_nil g').symm, hloop, .refl _⟩
  refine ⟨.answered .rest () :: (g ++ g'),
    withTrust header (clientLatestHeight state) found.validatorSet, ?_, ?_, g, g', rfl, hshows⟩
  · rw [injectTrust_run_eq]
    exact yields_bind_iff.mpr ⟨_, _, g', rfl, hfirst, hsecond⟩
  · exact List.forall_mem_cons.mpr ⟨trivial, List.forall_mem_append.mpr ⟨hasked, hanswered⟩⟩

/-- A header that trusts height 30. -/
def staleHeader : Message :=
  ofMessage 1 [] ++ ofMessage 2 [] ++ ofMessage 3 (Height.mk 1 30).toMessage

/-- The state of a client whose latest height is 40, as it is stored. -/
def laterState : Message := ofMessage 7 (Height.mk 1 40).toMessage

def laterClient : Any :=
  ⟨MessageType.clientState.typeUrl, [0x3a, 0x04, 0x08, 0x01, 0x10, 0x28]⟩

theorem showsClient_laterClient (p : Provider) (client : String) : ∃ g,
    p.ShowsClient (Height.ofMessage? (staleHeader.message? 3)).revisionHeight client laterState g := by
  have hpacked : Schema.decode .any laterClient.toMessage.encode = some laterClient.toMessage :=
    Schema.decode_encode (laterClient.conforms _) (by decide +kernel)
  have hunpacked : Any.ofMessage laterClient.toMessage = laterClient := by
    decide +kernel
  refine ⟨_, Provider.storeAnswer laterClient.toMessage.encode 29,
    ⟨[0x0a, 0x00], ⟨p.revision, 30⟩⟩, laterClient.toMessage,
    ⟨29, rfl, rfl, Provider.accepts_storeAnswer _ _⟩, by decide +kernel, hpacked, ?_, ?_⟩
  · rw [hunpacked]
    rfl
  · rw [hunpacked]
    rfl

/-- The first light block comes without validators, the second one with them. -/
theorem injectTrust_trusts_second_block : ∃ h m,
    (injectTrust (transferEnd 0 "near") staleHeader (transferEnd 1 "far") "07-tendermint-0"
      .standard none).run.Yields h (.ok m) ∧
    m.message? 3 = some (Height.mk 1 40).toMessage ∧
    m.filter (·.1 < 3) = staleHeader.filter (·.1 < 3) ∧
    (∀ c ∈ lightBlocks h, c.provider = transferEnd 0 "near" ∧ c.height.toNat = 41) ∧
    (lightBlocks h).length ≤ 5 := by
  obtain ⟨g, hshows⟩ := showsClient_laterClient (transferEnd 1 "far") "07-tendermint-0"
  have hmalformed : ∀ a ∈ ([.ok ⟨some [], none⟩] : List (Except RelayError LightBlock)),
      ∃ e, a.bind LightBlock.header = .error e ∧ RetryScope.step.isFinal e = false :=
    List.forall_mem_singleton.mpr ⟨_, rfl, by decide +kernel⟩
  obtain ⟨h, m, hy, hanswered, hread⟩ := exists_yields_injectTrust (transferEnd 0 "near") .standard
    none ⟨[], [(1, .number 7)]⟩ hshows (by decide) hmalformed (by decide)
  obtain ⟨_, hmade, hblocks, _⟩ := injectTrust_trusts hy hanswered
  obtain ⟨state, _, validators, _, hread', _, _, hsets⟩ := hmade m rfl
  obtain ⟨hheights, hcount, _⟩ := hblocks _ hread
  obtain rfl := hread.unique hread'
  have hlatest : clientLatestHeight laterState = ⟨1, 40⟩ := rfl
  rw [hlatest] at hsets hheights
  exact ⟨h, m, hy, hsets.trustedHeight, hsets.kept, hheights, hcount⟩

end Injecting

end PacketRelay
