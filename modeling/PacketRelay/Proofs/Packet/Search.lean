import Mathlib.Logic.Relation
import PacketRelay.Proofs.Packet.Reading
import PacketRelay.Proofs.Query

/-!
# Looking packets up

A node is not trusted to filter what it is asked for.  A lookup takes the first event of its kind
that records a packet with the wanted sequence, channel and port; every other event is irrelevant to
it, and so is what follows the first one.
-/

namespace PacketRelay

namespace Packet

def SentWith (channel port : String) (sequence : UInt64) (p : Packet) : Prop :=
  p.sequence = sequence ∧ p.sourceChannel = channel ∧ p.sourcePort = port

def ReceivedWith (channel port : String) (sequence : UInt64) (p : Packet) : Prop :=
  p.sequence = sequence ∧ p.destChannel = channel ∧ p.destPort = port

instance (channel port : String) (sequence : UInt64) :
    DecidablePred (SentWith channel port sequence) := fun _ =>
  inferInstanceAs (Decidable (_ ∧ _ ∧ _))

instance (channel port : String) (sequence : UInt64) :
    DecidablePred (ReceivedWith channel port sequence) := fun _ =>
  inferInstanceAs (Decidable (_ ∧ _ ∧ _))

section Search

variable (kind : String) (Wanted : Packet → Prop)

/-- The event, of a transaction at the height, is of the kind and records this wanted packet. -/
def Records (height : UInt64) (e : Event) (packet : Packet) : Prop :=
  e.kind = kind ∧ ofEvent? height e = some packet ∧ Wanted packet

/-- The event is of another kind, unreadable, or records a packet that is not wanted. -/
inductive Irrelevant (height : UInt64) (e : Event) : Prop where
  | otherKind (h : e.kind ≠ kind)
  | unreadable (h : ofEvent? height e = none)
  | unwanted {packet : Packet} (h : ofEvent? height e = some packet) (hnot : ¬ Wanted packet)

/-- The first event that records a wanted packet, in the order of transactions and events, records
this one. -/
def FirstRecorded (txs : List TxResult) (packet : Packet) : Prop :=
  ∃ earlier tx later before e after,
    txs = earlier ++ tx :: later ∧ tx.events = before ++ e :: after ∧
    Records kind Wanted tx.height e packet ∧ packet.height = tx.height ∧
    (∀ t ∈ earlier, ∀ e ∈ t.events, Irrelevant kind Wanted t.height e) ∧
    ∀ e ∈ before, Irrelevant kind Wanted tx.height e

/-- The second list has one more irrelevant event, or one more transaction of only such events. -/
inductive Adds : List TxResult → List TxResult → Prop where
  | transaction {tx : TxResult} (earlier later : List TxResult)
      (h : ∀ e ∈ tx.events, Irrelevant kind Wanted tx.height e) :
      Adds (earlier ++ later) (earlier ++ tx :: later)
  | event {tx : TxResult} {before after : List Event} {e : Event} (earlier later : List TxResult)
      (hevents : tx.events = before ++ after) (h : Irrelevant kind Wanted tx.height e) :
      Adds (earlier ++ tx :: later)
        (earlier ++ { tx with events := before ++ e :: after } :: later)

variable [DecidablePred Wanted]

/-- The wanted packet that an event of the kind records. -/
def pick? (height : UInt64) (e : Event) : Option Packet :=
  if e.kind = kind then (ofEvent? height e).filter fun p => Wanted p else none

variable {kind Wanted} {height : UInt64} {e : Event} {txs : List TxResult} {packet : Packet}

theorem pick?_eq_some_iff : pick? kind Wanted height e = some packet ↔
    Records kind Wanted height e packet := by
  simp [pick?, Records, Option.filter_eq_some_iff]

theorem pick?_eq_none_iff : pick? kind Wanted height e = none ↔
    Irrelevant kind Wanted height e := by
  rw [pick?]
  constructor
  · intro h
    split at h
    · cases hread : ofEvent? height e with
      | none => exact .unreadable hread
      | some packet => exact .unwanted hread (by simpa [hread] using h)
    · next hkind => exact .otherKind hkind
  · rintro (hkind | hread | ⟨hread, hnot⟩)
    · rw [if_neg hkind]
    · simp [hread]
    · simp [hread, hnot]

theorem irrelevant_iff : Irrelevant kind Wanted height e ↔
    ∀ packet, ¬ Records kind Wanted height e packet := by
  simp only [← pick?_eq_none_iff, ← pick?_eq_some_iff, Option.eq_none_iff_forall_ne_some, ne_eq]

theorem find?_recorded (txs : List TxResult) :
    (recorded kind txs).find? (fun p => Wanted p) =
      txs.findSome? fun tx => tx.events.findSome? (pick? kind Wanted tx.height) := by
  have hevents (height : UInt64) (events : List Event) :
      ((events.filter (·.kind = kind)).filterMap (ofEvent? height)).find? (fun p => Wanted p) =
        events.findSome? (pick? kind Wanted height) := by
    induction events with
    | nil => rfl
    | cons e events ih =>
        rw [List.findSome?_cons, ← ih, pick?]
        by_cases hkind : e.kind = kind
        · rw [List.filter_cons_of_pos (by simpa using hkind), if_pos hkind]
          cases hread : ofEvent? height e with
          | none => simp [hread]
          | some q => by_cases hq : Wanted q <;> simp [hread, hq, Option.filter_some]
        · rw [List.filter_cons_of_neg (by simpa using hkind), if_neg hkind]
  rw [recorded, List.find?_flatMap]
  exact congrArg (txs.findSome? ·) (funext fun tx => hevents tx.height tx.events)

theorem find?_recorded_eq_some_iff :
    (recorded kind txs).find? (fun p => Wanted p) = some packet ↔
      FirstRecorded kind Wanted txs packet := by
  rw [find?_recorded, List.findSome?_eq_some_iff]
  constructor
  · rintro ⟨earlier, tx, later, rfl, hfound, hearlier⟩
    obtain ⟨before, e, after, hevents, hpick, hbefore⟩ := List.findSome?_eq_some_iff.mp hfound
    have hrecords := pick?_eq_some_iff.mp hpick
    refine ⟨earlier, tx, later, before, e, after, rfl, hevents, hrecords,
      (ofEvent?_eq_some_iff.mp hrecords.2.1).1, ?_, ?_⟩
    · exact fun t ht e he => pick?_eq_none_iff.mp
        (List.findSome?_eq_none_iff.mp (hearlier t ht) e he)
    · exact fun e he => pick?_eq_none_iff.mp (hbefore e he)
  · rintro ⟨earlier, tx, later, before, e, after, rfl, hevents, hrecords, -, hearlier, hbefore⟩
    refine ⟨earlier, tx, later, rfl, ?_, ?_⟩
    · exact List.findSome?_eq_some_iff.mpr ⟨before, e, after, hevents,
        pick?_eq_some_iff.mpr hrecords, fun e he => pick?_eq_none_iff.mpr (hbefore e he)⟩
    · exact fun t ht => List.findSome?_eq_none_iff.mpr fun e he =>
        pick?_eq_none_iff.mpr (hearlier t ht e he)

theorem find?_recorded_eq_none_iff :
    (recorded kind txs).find? (fun p => Wanted p) = none ↔
      ∀ tx ∈ txs, ∀ e ∈ tx.events, Irrelevant kind Wanted tx.height e := by
  simp only [find?_recorded, List.findSome?_eq_none_iff, pick?_eq_none_iff]

/-- Irrelevant events and transactions may stand anywhere. -/
theorem find?_recorded_of_adds {txs' : List TxResult}
    (h : Relation.EqvGen (Adds kind Wanted) txs txs') :
    (recorded kind txs).find? (fun p => Wanted p) =
      (recorded kind txs').find? fun p => Wanted p := by
  induction h with
  | rel txs txs' hadds =>
      simp only [find?_recorded]
      cases hadds with
      | @transaction tx earlier later h =>
          have hnone : tx.events.findSome? (pick? kind Wanted tx.height) = none :=
            List.findSome?_eq_none_iff.mpr fun e he => pick?_eq_none_iff.mpr (h e he)
          simp only [List.findSome?_append, List.findSome?_cons, hnone]
      | @event tx before after e earlier later hevents h =>
          simp only [List.findSome?_append, List.findSome?_cons, hevents,
            pick?_eq_none_iff.mpr h]
  | refl txs => rfl
  | symm txs txs' _ ih => exact ih.symm
  | trans txs txs' txs'' _ _ ih ih' => exact ih.trans ih'

omit [DecidablePred Wanted] in
theorem FirstRecorded.wanted (h : FirstRecorded kind Wanted txs packet) : Wanted packet := by
  obtain ⟨_, _, _, _, _, _, _, _, ⟨_, _, hwanted⟩, _⟩ := h
  exact hwanted

omit [DecidablePred Wanted] in
theorem FirstRecorded.append (h : FirstRecorded kind Wanted txs packet) (more : List TxResult) :
    FirstRecorded kind Wanted (txs ++ more) packet := by
  obtain ⟨earlier, tx, later, before, e, after, rfl, hrest⟩ := h
  exact ⟨earlier, tx, later ++ more, before, e, after, by simp, hrest⟩

end Search

theorem findSent_eq (txs : List TxResult) (channel port : String) (sequence : UInt64) :
    findSent txs channel port sequence =
      (recorded "send_packet" txs).find? fun p => SentWith channel port sequence p :=
  congrArg (fun wanted => (recorded "send_packet" txs).find? wanted)
    (funext fun p => Bool.eq_iff_iff.mpr (by
      rw [decide_eq_true_iff]
      simp [SentWith, and_assoc]))

theorem findReceived_eq (txs : List TxResult) (channel port : String) (sequence : UInt64) :
    findReceived txs channel port sequence =
      (recorded "write_acknowledgement" txs).find?
        fun p => ReceivedWith channel port sequence p :=
  congrArg (fun wanted => (recorded "write_acknowledgement" txs).find? wanted)
    (funext fun p => Bool.eq_iff_iff.mpr (by
      rw [decide_eq_true_iff]
      simp [ReceivedWith, and_assoc]))

end Packet

namespace Provider

open Packet

variable {p : Provider}

/-- A lookup makes one search, and its result is the first recorded packet of the answer; an answer
without one is invalid.  What is irrelevant does not change the result, wherever it stands, and
neither does what follows a packet that was found. -/
structure LooksUp (p : Provider) (query kind missing : String) (Wanted : Packet → Prop)
    (lookup : Attempt Packet) : Prop where
  run (h : List Exchange) (r : Except RelayError Packet) : lookup.run.Yields h r ↔
    (∃ txs packet, h = p.searched query txs ∧ FirstRecorded kind Wanted txs packet ∧
      r = .ok packet) ∨
    (∃ txs, h = p.searched query txs ∧
      (∀ tx ∈ txs, ∀ e ∈ tx.events, Irrelevant kind Wanted tx.height e) ∧
      r = .error (.invalidResponse missing)) ∨
    ∃ e, h = [.answered (.call p (.txSearch query)) (.error e),
      .answered (.record p .rpcError) ()] ∧ r = .error e
  found (txs : List TxResult) : (∃ packet, lookup.run.Yields (p.searched query txs) (.ok packet)) ↔
    ∃ tx ∈ txs, ∃ e ∈ tx.events, ∃ packet, Records kind Wanted tx.height e packet
  stable {txs txs' : List TxResult} (h : Relation.EqvGen (Adds kind Wanted) txs txs')
    (r : Except RelayError Packet) :
    lookup.run.Yields (p.searched query txs) r ↔ lookup.run.Yields (p.searched query txs') r
  settled {txs : List TxResult} {packet : Packet}
    (h : lookup.run.Yields (p.searched query txs) (.ok packet)) (more : List TxResult) :
    lookup.run.Yields (p.searched query (txs ++ more)) (.ok packet)

theorem yields_searched_iff {kind side channel port : String} {sequence : UInt64}
    {find : List TxResult → Option Packet} {txs : List TxResult} {r : Except RelayError Packet} :
    (p.searchPacket kind side channel port sequence find).run.Yields
        (p.searched (packetSearch kind side channel port sequence) txs) r ↔
      r = (find txs).elim (.error (.invalidResponse ("no " ++ kind ++ " event for sequence "
        ++ Decimal.text sequence.toNat ++ " on " ++ port ++ "/" ++ channel))) .ok := by
  rw [yields_searchPacket_iff]
  constructor
  · rintro (⟨txs', packet, htxs, hfound, rfl⟩ | ⟨txs', htxs, hnone, rfl⟩ | ⟨e, htxs, rfl⟩)
    · obtain rfl : txs = txs' := by simpa [searched] using htxs
      rw [hfound, Option.elim_some]
    · obtain rfl : txs = txs' := by simpa [searched] using htxs
      rw [hnone, Option.elim_none]
    · simp [searched] at htxs
  · intro h
    cases hfind : find txs with
    | none => exact .inr (.inl ⟨txs, rfl, hfind, by rw [h, hfind, Option.elim_none]⟩)
    | some packet => exact .inl ⟨txs, packet, rfl, hfind, by rw [h, hfind, Option.elim_some]⟩

theorem looksUp_searchPacket {kind side channel port : String} {sequence : UInt64}
    {find : List TxResult → Option Packet} {Wanted : Packet → Prop} [DecidablePred Wanted]
    (hfind : ∀ txs, find txs = (recorded kind txs).find? fun p => Wanted p) :
    p.LooksUp (packetSearch kind side channel port sequence) kind
      ("no " ++ kind ++ " event for sequence " ++ Decimal.text sequence.toNat ++ " on " ++ port
        ++ "/" ++ channel)
      Wanted (p.searchPacket kind side channel port sequence find) := by
  have hsome {txs : List TxResult} {packet : Packet} :
      find txs = some packet ↔ FirstRecorded kind Wanted txs packet := by
    rw [hfind, find?_recorded_eq_some_iff]
  have hnone {txs : List TxResult} : find txs = none ↔
      ∀ tx ∈ txs, ∀ e ∈ tx.events, Irrelevant kind Wanted tx.height e := by
    rw [hfind, find?_recorded_eq_none_iff]
  have hok {txs : List TxResult} {packet : Packet} :
      (p.searchPacket kind side channel port sequence find).run.Yields
        (p.searched (packetSearch kind side channel port sequence) txs) (.ok packet) ↔
          find txs = some packet := by
    rw [yields_searched_iff]
    cases find txs <;> simp [eq_comm]
  constructor
  case run =>
    intro h r
    rw [yields_searchPacket_iff]
    simp only [hsome, hnone]
  case found =>
    intro txs
    calc (∃ packet, (p.searchPacket kind side channel port sequence find).run.Yields
        (p.searched (packetSearch kind side channel port sequence) txs) (.ok packet))
      _ ↔ ∃ packet, find txs = some packet := exists_congr fun _ => hok
      _ ↔ ¬ find txs = none := Option.ne_none_iff_exists'.symm
      _ ↔ ∃ tx ∈ txs, ∃ e ∈ tx.events, ∃ packet, Records kind Wanted tx.height e packet := by
        rw [hnone]
        simp only [irrelevant_iff, not_forall, exists_prop, not_not]
  case stable =>
    intro txs txs' h r
    rw [yields_searched_iff, yields_searched_iff, hfind, hfind, find?_recorded_of_adds h]
  case settled =>
    intro txs packet h more
    exact hok.mpr (hsome.mpr ((hsome.mp (hok.mp h)).append more))

theorem looksUp_sentPacket (p : Provider) (channel port : String) (sequence : UInt64) :
    p.LooksUp (packetSearch "send_packet" "src" channel port sequence) "send_packet"
      ("no send_packet event for sequence " ++ Decimal.text sequence.toNat ++ " on " ++ port
        ++ "/" ++ channel)
      (SentWith channel port sequence) (p.sentPacket channel port sequence) :=
  looksUp_searchPacket fun txs => findSent_eq txs channel port sequence

theorem looksUp_receivedPacket (p : Provider) (channel port : String) (sequence : UInt64) :
    p.LooksUp (packetSearch "write_acknowledgement" "dst" channel port sequence)
      "write_acknowledgement"
      ("no write_acknowledgement event for sequence " ++ Decimal.text sequence.toNat ++ " on "
        ++ port ++ "/" ++ channel)
      (ReceivedWith channel port sequence) (p.receivedPacket channel port sequence) :=
  looksUp_searchPacket fun txs => findReceived_eq txs channel port sequence

/-- A packet sent, or one received, is the first one that the answer records with the sequence, and
with the channel and port of its own side. -/
theorem lookups_find_first (p : Provider) (channel port : String) (sequence : UInt64) :
    p.LooksUp (packetSearch "send_packet" "src" channel port sequence) "send_packet"
        ("no send_packet event for sequence " ++ Decimal.text sequence.toNat ++ " on " ++ port
          ++ "/" ++ channel)
        (SentWith channel port sequence) (p.sentPacket channel port sequence) ∧
      p.LooksUp (packetSearch "write_acknowledgement" "dst" channel port sequence)
        "write_acknowledgement"
        ("no write_acknowledgement event for sequence " ++ Decimal.text sequence.toNat ++ " on "
          ++ port ++ "/" ++ channel)
        (ReceivedWith channel port sequence) (p.receivedPacket channel port sequence) :=
  ⟨p.looksUp_sentPacket channel port sequence, p.looksUp_receivedPacket channel port sequence⟩

/-- A transaction in which an unreadable event comes before the one of the packet. -/
def mixedTx : TxResult where
  hash := "AB"
  height := 12
  code := 0
  codespace := ""
  log := ""
  data := []
  gasWanted := 0
  gasUsed := 0
  events := [⟨"write_acknowledgement", [("packet_sequence", "seven")]⟩, mixedEvent]

theorem firstRecorded_mixedTx :
    FirstRecorded "write_acknowledgement" (ReceivedWith "channel-1" "transfer" 7) [mixedTx]
      mixedPacket := by
  refine ⟨[], mixedTx, [], [_], mixedEvent, [], rfl, rfl, ⟨rfl, ?_, ?_⟩, rfl, by simp, ?_⟩
  · exact ofEvent?_eq_some_iff.mpr ⟨rfl, mixedPacket_writtenIn.readFrom⟩
  · decide
  · intro e he
    rw [List.mem_singleton.mp he]
    exact .unreadable (by decide +kernel)

/-- The end of the channel on which the packet was received. -/
def searchEnd : Provider :=
  ⟨0, ⟨"far", "key", "cosmos", 1, ⟨0, "stake"⟩, 0, 0, .direct, .ofSeconds 10, .ofSeconds 1,
    ⟨1, .ofMillis 10, true⟩⟩, []⟩

theorem receivedPacket_mixedTx :
    (searchEnd.receivedPacket "channel-1" "transfer" 7).run.Yields
      (searchEnd.searched (packetSearch "write_acknowledgement" "dst" "channel-1" "transfer" 7)
        [mixedTx]) (.ok mixedPacket) :=
  ((lookups_find_first searchEnd "channel-1" "transfer" 7).2.run _ _).mpr
    (.inl ⟨[mixedTx], mixedPacket, rfl, firstRecorded_mixedTx, rfl⟩)

end Provider

end PacketRelay
