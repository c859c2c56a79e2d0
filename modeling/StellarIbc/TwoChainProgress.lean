import StellarIbc.RouterEnabled
import StellarIbc.TwoChainSafety

/-!
# Progress across two linked chains

No packet is stuck.  Wherever an interleaving of two linked chains has led, a packet whose
commitment is still stored can be settled from there: acknowledged if the other chain has
its receipt, timed out if it does not.  While its timeout has not passed and its ports are
held, it can also be delivered first.  The world these continuations run in is any one whose
light clients are truthful and know the closed ledgers, and whose apps accept the callbacks
that are needed, in every state that the run can still come to; an app that refuses to be
called back keeps its packet where it is.
-/

namespace StellarIbc

open Router Contract

namespace Chain

variable {X : Type} {sha256 : Bytes → Hash}
variable {history : List (Entry (Chain X) (Act X))} {chain : Chain X}

/-- The router step of a chain step. -/
def Act.onRouter : Act X → Option (Router.Act X)
  | .router act => some act
  | .close _ => none

/-- The steps of the router in a run of its chain. -/
theorem exists_routerRun (hrun : Run sha256 history chain) :
    ∃ steps, Router.Run sha256 steps chain.router := by
  refine ⟨_, hrun.project Chain.router Act.onRouter ?_ ?_ ?_⟩
  · rintro chain ⟨hinit, -⟩
    exact hinit
  · intro pre act post routerAct hstep hact
    cases act with
    | router act =>
        obtain rfl := Option.some.inj hact
        exact hstep.1.1
    | close timestamp => cases hact
  · intro pre act post hstep hact
    cases act with
    | router act => cases hact
    | close timestamp => rw [hstep.2]

theorem Step.port_stays {entry : Entry (Chain X) (Act X)}
    (hstep : Step sha256 entry.pre entry.act entry.post) {p : HostString} {app : Address}
    (hport : entry.pre.router.storage.port p = some app) :
    entry.post.router.storage.port p = some app := by
  cases hstep.move with
  | registry hregistry hquiet hclosed htimestamp => exact hregistry.port p app hport
  | close hact hle hpost =>
      rw [hpost]
      exact hport
  | lifecycle hact htime hlifecycle hclosed htimestamp =>
      rw [hlifecycle.port_eq]
      exact hport

/-- An app found at a port at some step of a run is there at its end. -/
theorem port_final (hrun : Run sha256 history chain) {entry : Entry (Chain X) (Act X)}
    (hmem : entry ∈ history) {p : HostString} {app : Address}
    (hport : entry.pre.router.storage.port p = some app) :
    chain.router.storage.port p = some app := by
  have hstep := hrun.step_of_mem hmem
  refine hrun.since (fun chain => chain.router.storage.port p = some app) ?_ hmem
    (hstep.port_stays hport)
  intro entry hstep hport
  exact hstep.port_stays hport

end Chain

namespace TwoChain

variable {X : Type} {link : Link} {sha256 : Bytes → Hash}
variable {history : List (Entry (System X) (Act X))} {system : System X}
variable {entry : Entry (System X) (Act X)} {side : Side} {packet : Packet}

/-! ### The world of a call -/

/-- What surrounds a call that a chain makes now. -/
abbrev World (X : Type) := System X → Side → Env X

/-- The clocks are right, and the light clients are ideal, have the time of every closed ledger
of the other chain and accept some proof of everything that it stores or does not store. -/
structure Honest (link : Link) (world : World X) (system : System X) : Prop where
  timestamp : ∀ side, (world system side).timestamp = (system side).timestamp
  ideal : ∀ side lcAddr,
    (system side).router.storage.clientLcAddr (link.client side) = some lcAddr →
    IdealClient link system side (world system side) lcAddr
  time : ∀ side lcAddr height ledger,
    (system side).router.storage.clientLcAddr (link.client side) = some lcAddr →
    (system side.other).closed[height.toNat]? = some ledger →
    (world system side).Answers lcAddr (.getTimestampAtHeight (link.client side) height)
      ledger.timestamp
  membership : ∀ side lcAddr height ledger key value,
    (system side).router.storage.clientLcAddr (link.client side) = some lcAddr →
    (system side.other).closed[height.toNat]? = some ledger →
    ledger.provable key = some value →
    ∃ proof, (world system side).Answers lcAddr (.verifyMembership (link.client side) height
      proof (prefixedPath (link.commitmentPrefix side.other) key) value) true
  nonMembership : ∀ side lcAddr height ledger key,
    (system side).router.storage.clientLcAddr (link.client side) = some lcAddr →
    (system side.other).closed[height.toNat]? = some ledger → ledger.provable key = none →
    ∃ proof, (world system side).Answers lcAddr (.verifyNonMembership (link.client side) height
      proof (prefixedPath (link.commitmentPrefix side.other) key)) true

/-- The apps that hold the destination ports take the payloads of `packet`. -/
def AcceptPacket (world : World X) (side : Side) (packet : Packet) (system : System X) : Prop :=
  AppsAccept (world system side) (system side).router.storage Payload.destPort
    (recvInvocation packet) packet.payloads

/-- The apps that hold the source ports take their parts of the acknowledgement. -/
def AcceptAcks (world : World X) (sha256 : Bytes → Hash) (side : Side) (packet : Packet)
    (acks : List Bytes) (system : System X) : Prop :=
  AppsAccept (world system side) (system side).router.storage (fun item => item.1.sourcePort)
    (ackInvocation sha256 packet acks) packet.payloads.zipIdx

/-- The apps that hold the source ports take the timeout. -/
def AcceptTimeout (world : World X) (side : Side) (packet : Packet) (system : System X) :
    Prop :=
  AppsAccept (world system side) (system side).router.storage Payload.sourcePort
    (timeoutInvocation packet) packet.payloads

/-- What holds in every state that a run can come to after `history`. -/
def Ahead (link : Link) (sha256 : Bytes → Hash) (history : List (Entry (System X) (Act X)))
    (Q : System X → Prop) : Prop :=
  ∀ later system, Run link sha256 (history ++ later) system → Q system

theorem Ahead.append {Q : System X → Prop} (hahead : Ahead link sha256 history Q)
    {more : List (Entry (System X) (Act X))} : Ahead link sha256 (history ++ more) Q := by
  intro later system hrun
  rw [List.append_assoc] at hrun
  exact hahead _ system hrun

/-- The calls of `later` were made in `world`. -/
def MadeIn (world : World X) (later : List (Entry (System X) (Act X))) : Prop :=
  ∀ entry ∈ later, ∀ tx, entry.act.act = .router (.tx tx) →
    tx.env = world entry.pre entry.act.side

variable {world : World X}

theorem MadeIn.append {earlier later : List (Entry (System X) (Act X))}
    (hearlier : MadeIn world earlier) (hlater : MadeIn world later) :
    MadeIn world (earlier ++ later) := by
  intro entry hmem
  rcases List.mem_append.mp hmem with hmem | hmem
  · exact hearlier entry hmem
  · exact hlater entry hmem

/-! ### Extending a run -/

/-- A call that returns in `world` is a step. -/
theorem exists_call (hhonest : Honest link world system) (hrun : Run link sha256 history system)
    (side : Side) {call : Call} {Q : call.Result → Storage → Prop}
    (hattains : Attains Ctx.storage (call.exec sha256 (world system side))
      (system side).router.storage Q) (hguarded : call.kind ≠ .rawSetter) :
    ∃ entry value s' ext log, Run link sha256 (history ++ [entry]) entry.post ∧
      MadeIn world [entry] ∧ Q value s' ∧
      entry.act = ⟨side, .router (.tx ⟨world system side, call, .returned value log⟩)⟩ ∧
      entry.post = Function.update system side { system side with router := ⟨s', ext⟩ } := by
  obtain ⟨value, post, hpost, hvalue⟩ := hattains (system side).router.start rfl
  let after : System X := Function.update system side
    { system side with router := ⟨post.storage, post.ext⟩ }
  have hreturned : Returned sha256 (world system side) call (system side).router value
      post.log ⟨post.storage, post.ext⟩ := hpost
  refine ⟨⟨system, ⟨side, .router (.tx ⟨_, call, .returned value post.log⟩)⟩, after⟩, value,
    post.storage, post.ext, post.log,
    hrun.next ⟨⟨⟨?_, hguarded⟩, ?_, ?_, ?_⟩, ?_, ?_⟩, ?_, hvalue, rfl, rfl⟩
  · simp only [after, Function.update_self]
    exact hreturned
  · intro tx htx
    rw [← Router.Act.tx.inj htx]
    exact hhonest.timestamp side
  · simp only [after, Function.update_self]
  · simp only [after, Function.update_self]
  · simp only [after, Function.update_of_ne side.other_ne]
  · intro tx lcAddr htx hlc
    rw [← Router.Act.tx.inj (Chain.Act.router.inj htx)]
    exact hhonest.ideal side lcAddr hlc
  · intro entry hmem tx htx
    obtain rfl := List.mem_singleton.mp hmem
    rw [← Router.Act.tx.inj (Chain.Act.router.inj htx)]

/-- `side` closes its ledger and opens one at `timestamp`. -/
def closeAt (system : System X) (side : Side) (timestamp : UInt64) : System X :=
  Function.update system side ⟨(system side).router, timestamp, (system side).closed ++
    [⟨(system side).timestamp, (system side).router.storage.provable⟩]⟩

theorem madeIn_closeAt (system : System X) (side : Side) (timestamp : UInt64) :
    MadeIn world [⟨system, ⟨side, .close timestamp⟩, closeAt system side timestamp⟩] := by
  intro entry hmem tx htx
  obtain rfl := List.mem_singleton.mp hmem
  cases htx

theorem run_closeAt (hrun : Run link sha256 history system) (side : Side) {timestamp : UInt64}
    (hle : (system side).timestamp ≤ timestamp) :
    Run link sha256
      (history ++ [⟨system, ⟨side, .close timestamp⟩, closeAt system side timestamp⟩])
      (closeAt system side timestamp) := by
  refine hrun.next ⟨⟨hle, ?_⟩, ?_, ?_⟩
  · simp only [closeAt, Function.update_self]
  · simp only [closeAt, Function.update_of_ne side.other_ne]
  · rintro _ _ ⟨⟩

@[simp] theorem closeAt_self (system : System X) (side : Side) (timestamp : UInt64) :
    closeAt system side timestamp side = ⟨(system side).router, timestamp,
      (system side).closed ++
        [⟨(system side).timestamp, (system side).router.storage.provable⟩]⟩ :=
  Function.update_self ..

@[simp] theorem closeAt_other (system : System X) (side : Side) (timestamp : UInt64) :
    closeAt system side.other timestamp side = system side :=
  Function.update_of_ne side.other_ne.symm ..

/-- The height at which the open ledger will be found once it is closed. -/
def openHeight (chain : Chain X) : UInt64 := UInt64.ofNat chain.closed.length

theorem toNat_openHeight {chain : Chain X} (hroom : chain.closed.length < 2 ^ 64) :
    (openHeight chain).toNat = chain.closed.length := by
  rw [openHeight, UInt64.toNat_ofNat']
  exact Nat.mod_eq_of_lt hroom

theorem closed_closeAt (system : System X) (side : Side) (timestamp : UInt64)
    (hroom : (system side).closed.length < 2 ^ 64) :
    (closeAt system side timestamp side).closed[(openHeight (system side)).toNat]? =
      some ⟨(system side).timestamp, (system side).router.storage.provable⟩ := by
  rw [toNat_openHeight hroom, closeAt_self, List.getElem?_append_right (Nat.le_refl _),
    Nat.sub_self, List.getElem?_cons_zero]

/-! ### What a sent packet needs to be settled -/

/-- `packet` was sent on `side` and has not been settled. -/
structure Outstanding (side : Side) (history : List (Entry (System X) (Act X)))
    (system : System X) (packet : Packet) : Prop where
  sent : ∃ entry ∈ history, SentOn side entry packet
  stored : (system side).router.storage.provable
    (commitmentKey packet.sourceClient packet.sequence) ≠ none

/-- The router with storage `s` on `side` settles `packet` once it is given a proof. -/
structure Settleable (link : Link) (sha256 : Bytes → Hash) (side : Side) (packet : Packet)
    (s : Storage) : Prop where
  fits : PacketFits packet
  source : packet.sourceClient = link.client side
  dest : packet.destClient = link.client side.other
  lcAddr : ∃ lcAddr, s.clientLcAddr packet.sourceClient = some lcAddr
  committed : CommittedSpec sha256 packet
    ⟨link.client side.other, link.commitmentPrefix side.other⟩ s
  ports : PortsHeld s Payload.sourcePort packet

/-- The linked client of a chain exists, and its id fits the buffers. -/
theorem Linked.client (hlinked : Linked link system) (hrun : Run link sha256 history system)
    (side : Side) :
    (∃ lcAddr, (system side).router.storage.clientLcAddr (link.client side) = some lcAddr) ∧
      (link.client side).length ≤ 64 := by
  obtain ⟨steps, hrouter⟩ := Chain.exists_routerRun (hrun.on side)
  obtain ⟨lcAddr, hlc⟩ := lcAddr_of_counterparty hrouter (hlinked side)
  exact ⟨⟨lcAddr, hlc⟩, length_of_lcAddr hrouter hlc⟩

/-- The ports a packet was sent from are still held, and its strings fit. -/
theorem SentOn.payloads (hsent : SentOn side entry packet)
    (hrun : Run link sha256 history system) (hmem : entry ∈ history) :
    PortsHeld (system side).router.storage Payload.sourcePort packet ∧
      ∀ payload ∈ packet.payloads, Payload.Fits payload := by
  obtain ⟨env, log, -, hspec⟩ := hsent.spec hrun hmem
  have hchain : onChain side entry ∈ historyOf side history :=
    mem_historyOf.mpr ⟨entry, hmem, hsent.1, rfl⟩
  refine ⟨?_, ?_⟩
  · intro payload hpayload
    obtain ⟨app, happ, -⟩ := hspec.authorised payload hpayload
    exact ⟨app, Chain.port_final (hrun.on side) hchain happ⟩
  · have hstep := (hrun.on side).step_of_mem hchain
    obtain ⟨hside, env, log, hact, -⟩ := hsent
    rw [onChain, hact] at hstep
    exact payloadsFit_of_sendPacket hstep.1.1.returned

theorem Outstanding.settleable (hout : Outstanding side history system packet)
    (hrun : Run link sha256 history system) (hlinked : Linked link system)
    (hsource : packet.sourceClient = link.client side) :
    Settleable link sha256 side packet (system side).router.storage := by
  obtain ⟨⟨entry, hmem, hsent⟩, hstored⟩ := hout
  obtain ⟨hports, hpayloads⟩ := hsent.payloads hrun hmem
  obtain ⟨env, log, -, hspec⟩ := hsent.spec hrun hmem
  obtain ⟨cp, hcp, hdest⟩ := hspec.counterparty
  rw [hsource] at hcp
  obtain rfl := hlinked.counterparty_eq hrun hmem hsent.1 hcp
  have hdest : link.client side.other = packet.destClient := hdest
  obtain ⟨⟨lcAddr, hlc⟩, hlength⟩ := hlinked.client hrun side
  obtain ⟨-, hlength'⟩ := hlinked.client hrun side.other
  rw [hdest] at hlength'
  rw [← hsource] at hlc hlength
  -- the stored commitment is that of a packet sent at the same place, which is `packet`
  obtain ⟨value, hvalue⟩ := Option.ne_none_iff_exists'.mp hstored
  have hcommitted := hvalue
  obtain ⟨step, hstep, sent, hsent', hclient, hsequence, rfl⟩ :=
    Chain.commitment_origin (hrun.on side) (.inl rfl) hvalue
  have hsentOn : Chain.Sent (onChain side entry) packet := hsent.2
  obtain rfl := Chain.sent_unique (hrun.on side) step hstep _
    (mem_historyOf.mpr ⟨entry, hmem, hsent.1, rfl⟩) sent packet hsent' hsentOn hclient hsequence
  have hlinkedSide := hlinked side
  rw [← hsource] at hlinkedSide
  exact ⟨⟨by omega, by omega, hpayloads⟩, hsource, hdest.symm, ⟨lcAddr, hlc⟩,
    ⟨hcommitted, hlinkedSide, hdest⟩, hports⟩

/-! ### Settling -/

/-- Once the other chain has closed a ledger with the acknowledgement, `packet` can be
acknowledged, if the apps take it. -/
theorem Settleable.acknowledge
    (hsettle : Settleable link sha256 side packet (system side).router.storage)
    (hhonest : Honest link world system) (hrun : Run link sha256 history system)
    {height : UInt64} {ledger : Ledger} {acks : List Bytes}
    (hledger : (system side.other).closed[height.toNat]? = some ledger)
    (hack : ledger.provable (ackKey packet.destClient packet.sequence) =
      some (v2AckCommitment sha256 acks).val)
    (haccept : AcceptAcks world sha256 side packet acks system) :
    ∃ entry ext log, Run link sha256 (history ++ [entry]) entry.post ∧
      MadeIn world [entry] ∧ AckedOn side entry packet acks log ∧
      entry.post = Function.update system side { system side with
        router := ⟨(system side).router.storage.erase
          (commitmentKey packet.sourceClient packet.sequence), ext⟩ } := by
  obtain ⟨hfits, hsource, hdest, ⟨lcAddr, hlc⟩, hcommitted, hports⟩ := hsettle
  have hlinkLc := hlc
  rw [hsource] at hlinkLc
  obtain ⟨proof, hyes⟩ :=
    hhonest.membership side lcAddr height ledger _ _ hlinkLc hledger hack
  rw [← hsource] at hyes
  have hstores : Stores ((Call.acknowledgePacket packet acks proof height).exec sha256
      (world system side)) (system side).router.storage () ((system side).router.storage.erase
        (commitmentKey packet.sourceClient packet.sequence)) :=
    stores_acknowledgePacket hfits hcommitted hlc hyes hports haccept
  have hattains : Attains Ctx.storage _ _ fun _ s' => s' = (system side).router.storage.erase
      (commitmentKey packet.sourceClient packet.sequence) := hstores.attains rfl
  obtain ⟨entry, _, _, ext, log, hnext, hmade, rfl, hact, hpost⟩ :=
    exists_call hhonest hrun side hattains nofun
  exact ⟨entry, ext, log, hnext, hmade,
    ⟨congrArg Act.side hact, _, _, _, congrArg Act.act hact⟩, hpost⟩

/-- Once the other chain has closed a ledger past the timeout without the receipt, `packet`
can be timed out, if the apps take that. -/
theorem Settleable.timeOut
    (hsettle : Settleable link sha256 side packet (system side).router.storage)
    (hhonest : Honest link world system) (hrun : Run link sha256 history system)
    {height : UInt64} {ledger : Ledger}
    (hledger : (system side.other).closed[height.toNat]? = some ledger)
    (hlate : packet.timeoutTimestamp < ledger.timestamp)
    (habsent : ledger.provable (receiptKey packet.destClient packet.sequence) = none)
    (haccept : AcceptTimeout world side packet system) :
    ∃ entry ext, Run link sha256 (history ++ [entry]) entry.post ∧
      MadeIn world [entry] ∧ TimedOutOn side entry packet ∧
      entry.post = Function.update system side { system side with
        router := ⟨(system side).router.storage.erase
          (commitmentKey packet.sourceClient packet.sequence), ext⟩ } := by
  obtain ⟨hfits, hsource, hdest, ⟨lcAddr, hlc⟩, hcommitted, hports⟩ := hsettle
  have hlinkLc := hlc
  rw [hsource] at hlinkLc
  have htime := hhonest.time side lcAddr height ledger hlinkLc hledger
  obtain ⟨proof, hyes⟩ :=
    hhonest.nonMembership side lcAddr height ledger _ hlinkLc hledger habsent
  rw [← hsource] at htime hyes
  have hstores : Stores ((Call.timeoutPacket packet proof height).exec sha256
      (world system side)) (system side).router.storage () ((system side).router.storage.erase
        (commitmentKey packet.sourceClient packet.sequence)) :=
    stores_timeoutPacket hfits hcommitted hlc htime hlate hyes hports haccept
  have hattains : Attains Ctx.storage _ _ fun _ s' => s' = (system side).router.storage.erase
      (commitmentKey packet.sourceClient packet.sequence) := hstores.attains rfl
  obtain ⟨entry, _, _, ext, log, hnext, hmade, rfl, hact, hpost⟩ :=
    exists_call hhonest hrun side hattains nofun
  exact ⟨entry, ext, hnext, hmade,
    ⟨congrArg Act.side hact, _, _, _, log, congrArg Act.act hact⟩, hpost⟩

/-- What the other chain has acknowledged can be acknowledged here: it closes its ledger,
and the proof is for that one. -/
theorem Settleable.close_acknowledge
    (hsettle : Settleable link sha256 side packet (system side).router.storage)
    (hhonest : Ahead link sha256 history (Honest link world))
    (hrun : Run link sha256 history system)
    (hroom : (system side.other).closed.length < 2 ^ 64) {acks : List Bytes}
    (hack : (system side.other).router.storage.provable
      (ackKey packet.destClient packet.sequence) = some (v2AckCommitment sha256 acks).val)
    (haccept : Ahead link sha256 history (AcceptAcks world sha256 side packet acks)) :
    ∃ later final, Run link sha256 (history ++ later) final ∧ MadeIn world later ∧
      (∃ entry ∈ later, ∃ log, AckedOn side entry packet acks log) ∧
      (final side).router.storage = (system side).router.storage.erase
        (commitmentKey packet.sourceClient packet.sequence) ∧
      (final side.other).router = (system side.other).router := by
  have hclosed := run_closeAt hrun side.other (UInt64.le_refl (system side.other).timestamp)
  have hledger := closed_closeAt system side.other (system side.other).timestamp hroom
  have hsame : (closeAt system side.other (system side.other).timestamp side) = system side :=
    closeAt_other ..
  rw [← hsame] at hsettle
  obtain ⟨entry, ext, log, hnext, hmade, hacked, hpost⟩ :=
    hsettle.acknowledge (hhonest _ _ hclosed) hclosed hledger hack (haccept _ _ hclosed)
  rw [List.append_assoc] at hnext
  refine ⟨_, entry.post, hnext, MadeIn.append (madeIn_closeAt _ _ _) hmade,
    ⟨entry, by simp, log, hacked⟩, ?_, ?_⟩
  · rw [hpost, Function.update_self, hsame]
  · rw [hpost, Function.update_of_ne side.other_ne, closeAt_self]

/-- What `later` does about `packet`: it is acknowledged as the other chain acknowledged it
if that has the receipt, and timed out if not, and nothing else is touched. -/
structure Settled (sha256 : Bytes → Hash) (side : Side) (packet : Packet)
    (system : System X) (later : List (Entry (System X) (Act X))) (final : System X) :
    Prop where
  acked : (system side.other).router.storage.provable
      (receiptKey packet.destClient packet.sequence) ≠ none →
    ∃ acks, (system side.other).router.storage.provable
        (ackKey packet.destClient packet.sequence) = some (v2AckCommitment sha256 acks).val ∧
      ∃ entry ∈ later, ∃ log, AckedOn side entry packet acks log
  timedOut : (system side.other).router.storage.provable
      (receiptKey packet.destClient packet.sequence) = none →
    ∃ entry ∈ later, TimedOutOn side entry packet
  erased : (final side).router.storage = (system side).router.storage.erase
    (commitmentKey packet.sourceClient packet.sequence)
  other : (final side.other).router = (system side.other).router

/-- Unless the timeout is the last timestamp there is, the clock can pass it. -/
theorem exists_late (now : UInt64) {timeout : UInt64} (htimeout : timeout.toNat + 1 < 2 ^ 64) :
    ∃ late, now ≤ late ∧ timeout < late := by
  have hnext : (timeout + 1).toNat = timeout.toNat + 1 := by
    rw [UInt64.toNat_add]
    exact Nat.mod_eq_of_lt htimeout
  have hlt : timeout < timeout + 1 := by
    rw [UInt64.lt_iff_toNat_lt, hnext]
    exact Nat.lt_succ_self _
  rcases UInt64.le_total now (timeout + 1) with hle | hle
  · exact ⟨timeout + 1, hle, hlt⟩
  · exact ⟨now, UInt64.le_refl now, UInt64.lt_of_lt_of_le hlt hle⟩

/-- **No packet is stuck.**  From every state that a run of two linked chains reaches, a
packet that was sent and not settled can be settled, in every world whose apps take the
acknowledgement that is stored, or the timeout where there is no receipt. -/
theorem outstanding_settles (hhonest : Ahead link sha256 history (Honest link world))
    (hrun : Run link sha256 history system) (hlinked : Linked link system)
    (hout : Outstanding side history system packet)
    (hsource : packet.sourceClient = link.client side)
    (hroom : (system side.other).closed.length + 1 < 2 ^ 64)
    (htimeout : packet.timeoutTimestamp.toNat + 1 < 2 ^ 64)
    (hacks : ∀ acks, (system side.other).router.storage.provable
        (ackKey packet.destClient packet.sequence) = some (v2AckCommitment sha256 acks).val →
      Ahead link sha256 history (AcceptAcks world sha256 side packet acks))
    (htimedOut : (system side.other).router.storage.provable
        (receiptKey packet.destClient packet.sequence) = none →
      Ahead link sha256 history (AcceptTimeout world side packet)) :
    ∃ later final, Run link sha256 (history ++ later) final ∧ MadeIn world later ∧
      Settled sha256 side packet system later final := by
  have hsettle := hout.settleable hrun hlinked hsource
  by_cases hreceipt : (system side.other).router.storage.provable
      (receiptKey packet.destClient packet.sequence) = none
  · -- a ledger of the other chain opens after the timeout and is closed
    obtain ⟨late, hle, hlate⟩ := exists_late (system side.other).timestamp htimeout
    have hopened := run_closeAt hrun side.other hle
    have hnow : (closeAt system side.other late side.other).timestamp ≤ late := by simp
    have hclosed := run_closeAt hopened side.other hnow
    have hledger := closed_closeAt (closeAt system side.other late) side.other late
      (by simpa using hroom)
    have hsame : closeAt (closeAt system side.other late) side.other late side =
        system side := by simp
    rw [← hsame] at hsettle
    obtain ⟨entry, ext, hnext, hmade, hentry, hpost⟩ :=
      hsettle.timeOut (hhonest.append _ _ hclosed) hclosed hledger (by simpa using hlate)
        (by simpa using hreceipt) ((htimedOut hreceipt).append _ _ hclosed)
    rw [List.append_assoc, List.append_assoc] at hnext
    refine ⟨_, entry.post, hnext,
      MadeIn.append (madeIn_closeAt _ _ _) (.append (madeIn_closeAt _ _ _) hmade),
      fun hpresent => absurd hreceipt hpresent, fun _ => ⟨entry, by simp, hentry⟩, ?_, ?_⟩
    · rw [hpost, Function.update_self, hsame]
    · rw [hpost, Function.update_of_ne side.other_ne, closeAt_self, closeAt_self]
  · -- a receipt comes with an acknowledgement, which is that of some received packet
    have hother := hrun.on side.other
    obtain ⟨value, hvalue⟩ := Option.ne_none_iff_exists'.mp
      (Chain.receiptsAcknowledged hother _ _ hreceipt)
    obtain ⟨_, -, _, _, _, _, _, acks, _, -, -, -, -, rfl⟩ :=
      Chain.ack_origin hother (.inl rfl) hvalue
    obtain ⟨later, final, hnext, hmade, hacked, herased, hsame⟩ :=
      hsettle.close_acknowledge hhonest hrun (by omega) hvalue (hacks _ hvalue)
    exact ⟨later, final, hnext, hmade, fun _ => ⟨_, hvalue, hacked⟩,
      fun hnone => absurd hnone hreceipt, herased, hsame⟩

/-- `SentOn` for a recorded step. -/
def sends (side : Side) (packet : Packet) (entry : Entry (System X) (Act X)) : Bool :=
  match entry.act with
  | ⟨side', .router (.tx ⟨_, .sendPacket c timeout payloads, .returned sequence log⟩)⟩ =>
      side' = side ∧ (c = packet.sourceClient ∧ timeout = packet.timeoutTimestamp ∧
        payloads = packet.payloads) ∧ sequence = packet.sequence ∧ sentPackets log = [packet]
  | _ => false

theorem sentOn_of_sends (h : sends side packet entry = true) : SentOn side entry packet := by
  unfold sends at h
  split at h
  · next hact =>
      simp only [Bool.decide_and, Bool.and_eq_true, decide_eq_true_eq] at h
      obtain ⟨rfl, ⟨rfl, rfl, rfl⟩, rfl, hsent⟩ := h
      exact ⟨congrArg Act.side hact, _, _, congrArg Act.act hact, hsent⟩
  · cases h

theorem afterSend_evaluated :
    afterSend.1.any (sends .a samplePacket) = true ∧ linked sampleLink afterSend.2 = true ∧
      ((afterSend.2 .a).router.storage.provable
        (commitmentKey samplePacket.sourceClient samplePacket.sequence)).isSome = true ∧
      (afterSend.2 .b).router.storage.provable
        (receiptKey samplePacket.destClient samplePacket.sequence) = none ∧
      (afterSend.2 .b).router.storage.port (ascii "transfer") = some zeroAddress ∧
      (afterSend.2 .b).timestamp = 10 ∧
      [Side.a, Side.b].all (fun side => (afterSend.2 side).closed.length ≤ 1) = true := by
  unfold afterSend
  rw [Sha256.sha256_eq_eval]
  decide +kernel

theorem afterSend_outstanding : Outstanding .a afterSend.1 afterSend.2 samplePacket := by
  obtain ⟨entry, hmem, hsends⟩ := List.any_eq_true.mp afterSend_evaluated.1
  exact ⟨⟨entry, hmem, sentOn_of_sends hsends⟩,
    Option.isSome_iff_ne_none.mp afterSend_evaluated.2.2.1⟩

theorem afterSend_closed (side : Side) : (afterSend.2 side).closed.length ≤ 1 := by
  have hclosed := afterSend_evaluated.2.2.2.2.2.2
  simp only [List.all_cons, List.all_nil, Bool.and_true, Bool.and_eq_true,
    decide_eq_true_eq] at hclosed
  cases side with
  | a => exact hclosed.1
  | b => exact hclosed.2

theorem storedAt_prefixed {system : System Unit} {height : UInt64} {ledger : Ledger}
    {key : Bytes} (hledger : (system side.other).closed[height.toNat]? = some ledger) :
    storedAt link system side height (prefixedPath (link.commitmentPrefix side.other) key) =
      some (ledger.provable key) := by
  have hfound : ledgerAt system side height = some ledger := hledger
  simp [storedAt, hfound, prefixedPath]

/-- The truthful callees take everything. -/
theorem truthfulEnv_accepts (link : Link) (system : System Unit) (side : Side)
    (callee : Address) (call : Invocation) : (truthfulEnv link system side).Accepts callee call :=
  fun _ => ⟨_, (), rfl⟩

theorem truthfulEnv_membership {system : System Unit} {height : UInt64} {ledger : Ledger}
    {c : HostString} {lcAddr : Address} {key value : Bytes}
    (hledger : (system side.other).closed[height.toNat]? = some ledger)
    (hvalue : ledger.provable key = some value) :
    (truthfulEnv link system side).Answers lcAddr (.verifyMembership c height []
      (prefixedPath (link.commitmentPrefix side.other) key) value) true := by
  have hyes : truthfulAnswer link system side (.verifyMembership c height []
      (prefixedPath (link.commitmentPrefix side.other) key) value) = true :=
    decide_eq_true ((storedAt_prefixed hledger).trans (congrArg some hvalue))
  exact fun _ => ⟨(), congrArg (fun result => some (result, ())) hyes⟩

theorem honest_truthfulEnv (link : Link) (system : System Unit) :
    Honest link (truthfulEnv link) system where
  timestamp _ := rfl
  ideal side lcAddr _ := truthfulEnv_ideal link system side lcAddr
  time side lcAddr height ledger _ hledger := by
    have htime : truthfulAnswer link system side
        (.getTimestampAtHeight (link.client side) height) = ledger.timestamp := by
      have hfound : ledgerAt system side height = some ledger := hledger
      simp [truthfulAnswer, hfound]
    exact fun _ => ⟨(), congrArg (fun result => some (result, ())) htime⟩
  membership side lcAddr height ledger key value _ hledger hvalue :=
    ⟨[], truthfulEnv_membership hledger hvalue⟩
  nonMembership side lcAddr height ledger key _ hledger hnone := by
    have hyes : truthfulAnswer link system side (.verifyNonMembership (link.client side) height
        [] (prefixedPath (link.commitmentPrefix side.other) key)) = true :=
      decide_eq_true ((storedAt_prefixed hledger).trans (congrArg some hnone))
    exact ⟨[], fun _ => ⟨(), congrArg (fun result => some (result, ())) hyes⟩⟩

/-- The sample packet was never received: it can be timed out. -/
theorem outstanding_settles_sample :
    ∃ later final, Run sampleLink Sha256.sha256 (afterSend.1 ++ later) final ∧
      MadeIn (truthfulEnv sampleLink) later ∧
      ∃ entry ∈ later, TimedOutOn .a entry samplePacket := by
  have hroom := afterSend_closed .b
  have hcount : (afterSend.2 .b).closed.length + 1 < 2 ^ 64 := by omega
  obtain ⟨later, final, hrun, hmade, hsettled⟩ := outstanding_settles
    (fun _ system _ => honest_truthfulEnv sampleLink system) afterSend_run
    (linked_iff afterSend_evaluated.2.1) afterSend_outstanding rfl hcount (by decide)
    (fun acks _ _ system _ item _ app _ => truthfulEnv_accepts _ _ _ _ _)
    (fun _ _ system _ payload _ app _ => truthfulEnv_accepts _ _ _ _ _)
  exact ⟨later, final, hrun, hmade, hsettled.timedOut afterSend_evaluated.2.2.2.1⟩

/-! ### Delivering -/

/-- A packet that can be settled, is not late there and whose ports are held there can be
received: its chain closes its ledger, and the proof is for that one. -/
theorem Settleable.close_receive
    (hsettle : Settleable link sha256 side packet (system side).router.storage)
    (hhonest : Ahead link sha256 history (Honest link world))
    (hrun : Run link sha256 history system)
    (hlinked : Linked link system) (hroom : (system side).closed.length < 2 ^ 64)
    (htime : (system side.other).timestamp < packet.timeoutTimestamp)
    (hfresh : (system side.other).router.storage.provable
      (receiptKey packet.destClient packet.sequence) = none)
    (hports : PortsHeld (system side.other).router.storage Payload.destPort packet)
    (haccept : Ahead link sha256 history (AcceptPacket world side.other packet)) :
    ∃ later final acks, Run link sha256 (history ++ later) final ∧ MadeIn world later ∧
      (∃ entry ∈ later, ∃ log, ReceivedOn side.other entry packet log) ∧
      (final side).router = (system side).router ∧
      (final side.other).router.storage = ((system side.other).router.storage.write
        (receiptKey packet.destClient packet.sequence) [RECEIPT_SENTINEL]).write
          (ackKey packet.destClient packet.sequence) (v2AckCommitment sha256 acks).val ∧
      (final side.other).closed = (system side.other).closed := by
  obtain ⟨hfits, hsource, hdest, -, hcommitted, -⟩ := hsettle
  obtain ⟨⟨lcAddr, hlc⟩, -⟩ := hlinked.client hrun side.other
  have hcounterparty := hlinked side.other
  rw [← hdest] at hlc hcounterparty
  let ready := closeAt system side (system side).timestamp
  have hready : Run link sha256 _ ready :=
    run_closeAt hrun side (UInt64.le_refl (system side).timestamp)
  have hsame : ready side.other = system side.other := by
    have hother := closeAt_other system side.other (system side).timestamp
    rwa [Side.other_other] at hother
  have hledger : (ready side.other.other).closed[(openHeight (system side)).toNat]? = some
      ⟨(system side).timestamp, (system side).router.storage.provable⟩ := by
    rw [Side.other_other]
    exact closed_closeAt _ _ _ hroom
  rw [← hsame] at hlc hcounterparty hfresh hports htime
  have hlinkLc := hlc
  rw [hdest] at hlinkLc
  obtain ⟨proof, hyes⟩ :=
    (hhonest _ _ hready).membership side.other lcAddr _ _ _ _ hlinkLc hledger hcommitted.stored
  rw [← hdest] at hyes
  have hclock : (world ready side.other).timestamp < packet.timeoutTimestamp := by
    rwa [(hhonest _ _ hready).timestamp]
  have hattains : Attains Ctx.storage
      ((Call.recvPacket packet proof (openHeight (system side))).exec sha256
        (world ready side.other)) (ready side.other).router.storage _ :=
    attains_recvPacket hfits hcounterparty (by rw [Side.other_other, hsource]) hclock hfresh
      hlc hyes hports (haccept _ _ hready)
  obtain ⟨entry, _, _, ext, log, hnext, hmade, ⟨acks, rfl⟩, hact, hpost⟩ :=
    exists_call (hhonest _ _ hready) hready side.other hattains nofun
  rw [List.append_assoc] at hnext
  refine ⟨_, entry.post, acks, hnext, MadeIn.append (madeIn_closeAt _ _ _) hmade,
    ⟨entry, by simp, log, congrArg Act.side hact, _, _, _, congrArg Act.act hact⟩, ?_, ?_, ?_⟩
  · rw [hpost, Function.update_of_ne side.other_ne.symm]
    simp [ready]
  · rw [hpost, Function.update_self, hsame]
  · rw [hpost, Function.update_self, hsame]

/-- **Packets can be delivered.**  From every state that a run of two linked chains reaches,
a packet that was sent and not settled can be received and acknowledged, as long as the
other chain has not received it, has not reached its timeout and holds its ports, in every
world whose apps take the packet there and the acknowledgement here. -/
theorem outstanding_delivers (hhonest : Ahead link sha256 history (Honest link world))
    (hrun : Run link sha256 history system) (hlinked : Linked link system)
    (hout : Outstanding side history system packet)
    (hsource : packet.sourceClient = link.client side)
    (hroom : ∀ side, (system side).closed.length < 2 ^ 64)
    (htime : (system side.other).timestamp < packet.timeoutTimestamp)
    (hfresh : (system side.other).router.storage.provable
      (receiptKey packet.destClient packet.sequence) = none)
    (hports : PortsHeld (system side.other).router.storage Payload.destPort packet)
    (haccept : Ahead link sha256 history (AcceptPacket world side.other packet))
    (hacks : ∀ acks, Ahead link sha256 history (AcceptAcks world sha256 side packet acks)) :
    ∃ later final acks, Run link sha256 (history ++ later) final ∧ MadeIn world later ∧
      (∃ received ∈ later, ∃ log, ReceivedOn side.other received packet log) ∧
      (∃ acked ∈ later, ∃ log, AckedOn side acked packet acks log) ∧
      (final side).router.storage = (system side).router.storage.erase
        (commitmentKey packet.sourceClient packet.sequence) ∧
      (final side.other).router.storage = ((system side.other).router.storage.write
        (receiptKey packet.destClient packet.sequence) [RECEIPT_SENTINEL]).write
          (ackKey packet.destClient packet.sequence) (v2AckCommitment sha256 acks).val := by
  have hsettle := hout.settleable hrun hlinked hsource
  obtain ⟨delivery, delivered, acks, hdelivered, hmade, ⟨received, hmem, hreceived⟩, hsame,
    hstorage, hclosed⟩ :=
    hsettle.close_receive hhonest hrun hlinked (hroom side) htime hfresh hports haccept
  rw [← hsame] at hsettle
  have hack : (delivered side.other).router.storage.provable
      (ackKey packet.destClient packet.sequence) = some (v2AckCommitment sha256 acks).val := by
    rw [hstorage, Storage.write_provable, Function.update_self]
  obtain ⟨settling, final, hfinal, hmade', ⟨acked, hmem', hacked⟩, herased, hother⟩ :=
    hsettle.close_acknowledge hhonest.append hdelivered (hclosed ▸ hroom side.other) hack
      (hacks acks).append
  rw [List.append_assoc] at hfinal
  refine ⟨_, final, acks, hfinal, hmade.append hmade',
    ⟨received, List.mem_append_left _ hmem, hreceived⟩,
    ⟨acked, List.mem_append_right _ hmem', hacked⟩, ?_, ?_⟩
  · rw [herased, hsame]
  · rw [hother, hstorage]

/-- So can the sample packet, to its end. -/
theorem outstanding_delivers_sample :
    ∃ later final, Run sampleLink Sha256.sha256 (afterSend.1 ++ later) final ∧
      MadeIn (truthfulEnv sampleLink) later ∧
      (∃ received ∈ later, ∃ log, ReceivedOn .b received samplePacket log) ∧
      ∃ acked ∈ later, ∃ acks log, AckedOn .a acked samplePacket acks log := by
  obtain ⟨-, hlinked, -, hfresh, hport, htimestamp, -⟩ := afterSend_evaluated
  have hroom : ∀ side, (afterSend.2 side).closed.length < 2 ^ 64 :=
    fun side => Nat.lt_of_le_of_lt (afterSend_closed side) (by decide)
  have htime : (afterSend.2 .b).timestamp < samplePacket.timeoutTimestamp := by
    rw [htimestamp]
    decide
  have hports : PortsHeld (afterSend.2 .b).router.storage Payload.destPort samplePacket := by
    intro payload hpayload
    rw [List.mem_singleton.mp hpayload]
    exact ⟨_, hport⟩
  obtain ⟨later, final, acks, hrun, hmade, hreceived, ⟨acked, hmem, log, hacked⟩, -, -⟩ :=
    outstanding_delivers (fun _ system _ => honest_truthfulEnv sampleLink system) afterSend_run
      (linked_iff hlinked) afterSend_outstanding rfl hroom htime hfresh hports
      (fun _ system _ payload _ app _ => truthfulEnv_accepts _ _ _ _ _)
      (fun acks _ system _ item _ app _ => truthfulEnv_accepts _ _ _ _ _)
  exact ⟨later, final, hrun, hmade, hreceived, acked, hmem, acks, log, hacked⟩

end TwoChain

end StellarIbc
