import StellarIbc.Sha256
import StellarIbc.TransferSystem

/-!
# Refunds of failed transfers

`initiate_transfer` sends the packet as JSON, and the callbacks that should give the
escrow back decode the same payload as XDR.  No JSON of a packet is the XDR of one, so
for every accepted transfer in every run the refund aborts, and with it the router's
`timeout_packet` or `acknowledge_packet`: the escrow of a failed transfer stays locked.
-/

namespace StellarIbc.TransferSystem

open Contract

variable {Y : Type} (d : Deployment) (codec : Transfer.Codec) (sha256 : Bytes → Hash)

/-! ### Accepted transfers and reports of failure -/

/-- An earlier `initiate_transfer` of this sender, denom and amount returned, and the
router sent `packet` in it. -/
def Transferred (history : List (Entry (World Y) (Act Y))) (sender : Address)
    (denom : HostString) (amount : I128) (packet : Packet) : Prop :=
  ∃ entry ∈ history, ∃ host client receiver timeout memo sequence log,
    entry.act = .transfer host
      (.initiateTransfer sender client denom amount receiver timeout memo)
      (.returned sequence log) ∧
    packet ∈ Router.sentPackets log

/-- In `world` the router, called with `call`, gets as far as calling the transfer
contract with `invocation`, in the context `ctx`, to report that `packet` failed: it timed
out, or its acknowledgement is not a success. -/
inductive Dispatched (world : World Y) (host : Host Y) (packet : Packet) :
    Router.Call → Router.Ctx (Transfer.Storage × Y) → Router.Invocation → Prop
  | timeout {proof : Bytes} {height : UInt64} {ctx : Router.Ctx (Transfer.Storage × Y)}
      {payload : Payload}
      (hchecks : Returns
        (Router.timeoutChecks sha256 (d.routerEnv codec host) packet proof height)
        world.routerState.start () ctx)
      (hpayloads : packet.payloads = [payload])
      (hport : ctx.storage.port payload.sourcePort = some d.transfer) :
      Dispatched world host packet (.timeoutPacket packet proof height) ctx
        (.onTimeoutPacket (Router.timeoutCallback packet payload))
  | ack {acks : List Bytes} {proof : Bytes} {height : UInt64}
      {checked ctx : Router.Ctx (Transfer.Storage × Y)} {payload : Payload} {ack : Bytes}
      (hchecks : Returns
        (Router.ackChecks sha256 (d.routerEnv codec host) packet acks proof height)
        world.routerState.start () checked)
      (hpayloads : packet.payloads = [payload])
      (hack : Returns (Router.ackAt sha256 acks 0) checked ack ctx)
      (hport : ctx.storage.port payload.sourcePort = some d.transfer)
      (hfailed : Transfer.isSuccessAck ack = false) :
      Dispatched world host packet (.acknowledgePacket packet acks proof height) ctx
        (.onAcknowledgementPacket (Router.ackCallback packet payload ack))

/-- The callback returns, and moves exactly `amount` of `denom` from the escrow back to
the sender. -/
def Refunded (host : Host Y) (ctx : Router.Ctx (Transfer.Storage × Y))
    (invocation : Router.Invocation) (sender : Address) (denom : HostString)
    (amount : I128) : Prop :=
  ∃ result ext, (d.routerEnv codec host).invoke d.transfer invocation ctx.ext =
      some (result, ext) ∧
    Transfer.Moves d.transfer sender denom amount ctx.ext.1 ext.1

/-- In every run, every failed transfer is refunded. -/
def RefundComplete (Y : Type) : Prop :=
  ∀ (history : List (Entry (World Y) (Act Y))) (world : World Y),
    Run d codec sha256 history world →
    ∀ sender denom amount packet, Transferred history sender denom amount packet →
    ∀ host call ctx invocation,
      Dispatched d codec sha256 world host packet call ctx invocation →
      Refunded d codec host ctx invocation sender denom amount

variable {d codec sha256} {history : List (Entry (World Y) (Act Y))} {world : World Y}

/-! ### What a transfer sends -/

theorem returns_of_sendPacket {host : Host Y} {router : Address} {client : HostString}
    {timeout sequence : UInt64} {payloads : List Payload} {pre post : Router.Ctx Y}
    (h : (d.transferEnv sha256 host).sendPacket router client timeout payloads pre =
      some (sequence, post)) :
    Returns (Router.sendPacket sha256 (d.sendEnv host) client timeout payloads) pre sequence
      post := by
  simp only [Deployment.transferEnv] at h
  split at h
  · cases hrun : (Router.sendPacket sha256 (d.sendEnv host) client timeout payloads).run pre with
    | error panic =>
        rw [hrun] at h
        cases h
    | ok result =>
        rw [hrun] at h
        cases h
        exact hrun
  · cases h

/-- Every packet of an accepted transfer carries one payload, for the transfer port, that
holds the JSON of a packet with a positive amount. -/
theorem Transferred.payload {sender : Address} {denom : HostString} {amount : I128}
    {packet : Packet} (hrun : Run d codec sha256 history world)
    (h : Transferred history sender denom amount packet) :
    ∃ (payload : Payload) (data : Transfer.FungibleTokenPacketData),
      packet.payloads = [payload] ∧ 0 < data.token.amount.val ∧
      Transfer.encodeIcs20Json data = some payload.value := by
  obtain ⟨entry, hentry, host, client, receiver, timeout, memo, sequence, log, hact,
    hpacket⟩ := h
  have hstep := hrun.step_of_mem hentry
  rw [hact] at hstep
  obtain ⟨text, value, hspec⟩ := Transfer.returns_initiateTransfer hstep
  obtain ⟨router, -, hsend⟩ := hspec.sent
  obtain ⟨dest, hsent⟩ := Router.returns_sendPacket (returns_of_sendPacket hsend)
  have hlog : Router.sentPackets log = _ := hsent.sent
  rw [hlog] at hpacket
  obtain rfl := List.mem_singleton.mp hpacket
  exact ⟨_, _, rfl, hspec.positive, hspec.encoded⟩

/-! ### The callback fails, and the router's call with it -/

theorem runCallback_eq_none {α : Type} {program : Transfer.TransferM Y α}
    {ext : Transfer.Storage × Y}
    (h : ∀ value post, ¬ Returns program ⟨ext.1, ext.2⟩ value post) :
    runCallback program ext = none := by
  unfold runCallback
  cases hrun : program.run ⟨ext.1, ext.2⟩ with
  | error panic => rfl
  | ok outcome => exact absurd hrun (h outcome.1 outcome.2)

variable {host : Host Y} {packet : Packet} {call : Router.Call}
  {ctx : Router.Ctx (Transfer.Storage × Y)} {invocation : Router.Invocation}

/-- Where the payload does not decode, the callback for a failed packet aborts. -/
theorem Dispatched.invoke_eq_none
    (hdispatch : Dispatched d codec sha256 world host packet call ctx invocation)
    (hdecode : ∀ payload ∈ packet.payloads, codec.packetFromXdr payload.value = none) :
    (d.routerEnv codec host).invoke d.transfer invocation ctx.ext = none := by
  cases hdispatch with
  | timeout hchecks hpayloads hport =>
      rw [hpayloads] at hdecode
      have hnone := hdecode _ (List.mem_singleton_self _)
      simp only [Deployment.routerEnv, if_true, Deployment.answer]
      apply runCallback_eq_none
      intro value post hreturns
      obtain ⟨-, -, data, hdata, -⟩ := Transfer.returns_onTimeoutPacket.mp hreturns
      exact absurd (hnone.symm.trans hdata) (by simp)
  | ack hchecks hpayloads hack hport hfailed =>
      rw [hpayloads] at hdecode
      have hnone := hdecode _ (List.mem_singleton_self _)
      simp only [Deployment.routerEnv, if_true, Deployment.answer]
      apply runCallback_eq_none
      intro value post hreturns
      obtain ⟨-, -, ⟨hsuccess, -⟩ | ⟨-, data, hdata, -⟩⟩ :=
        Transfer.returns_onAcknowledgementPacket.mp hreturns
      · exact absurd (hfailed.symm.trans hsuccess) (by simp)
      · exact absurd (hnone.symm.trans hdata) (by simp)

/-- A failed callback takes the router's call down with it. -/
theorem Dispatched.aborts
    (hdispatch : Dispatched d codec sha256 world host packet call ctx invocation)
    (hinvoke : (d.routerEnv codec host).invoke d.transfer invocation ctx.ext = none) :
    Aborts (call.exec sha256 (d.routerEnv codec host)) world.routerState.start := by
  rw [aborts_iff]
  intro value post hreturns
  cases hdispatch with
  | timeout hchecks hpayloads hport =>
      simp only [Router.Call.exec, Router.timeoutPacket_eq, returns_bind] at hreturns
      obtain ⟨_, middle, hchecks', _, _, hcallbacks, -⟩ := hreturns
      obtain ⟨-, rfl⟩ := hchecks'.deterministic hchecks
      simp only [Router.dispatchTimeoutCallbacks, hpayloads, List.forM_eq_forM,
        List.forM_cons, Router.onTimeoutPayload, Router.portApp, returns_bind,
        Router.returns_storage, returns_pure, returns_unwrapOr] at hcallbacks
      obtain ⟨_, _, ⟨_, _, ⟨_, _, ⟨rfl, rfl⟩, rfl, rfl⟩, app, _, ⟨happ, rfl⟩, hcallback⟩,
        -⟩ := hcallbacks
      obtain ⟨ext, hsome, -⟩ := Router.returns_invokeContract.mp hcallback
      obtain rfl : d.transfer = app := Option.some.inj (hport.symm.trans happ)
      exact absurd (hinvoke.symm.trans hsome) (by simp)
  | ack hchecks hpayloads hack hport hfailed =>
      simp only [Router.Call.exec, Router.acknowledgePacket_eq, returns_bind] at hreturns
      obtain ⟨_, middle, hchecks', _, _, hcallbacks, -⟩ := hreturns
      obtain ⟨-, rfl⟩ := hchecks'.deterministic hchecks
      simp only [Router.dispatchAckCallbacks, hpayloads, List.zipIdx_cons, List.zipIdx_nil,
        List.forM_eq_forM, List.forM_cons, Router.onAckPayload, Router.portApp, returns_bind,
        Router.returns_storage, returns_pure, returns_unwrapOr] at hcallbacks
      obtain ⟨_, _, ⟨ack, _, hack', _, _, ⟨_, _, ⟨rfl, rfl⟩, rfl, rfl⟩, app, _, ⟨happ, rfl⟩,
        hcallback⟩, -⟩ := hcallbacks
      obtain ⟨ext, hsome, -⟩ := Router.returns_invokeContract.mp hcallback
      obtain ⟨rfl, rfl⟩ := hack'.deterministic hack
      obtain rfl : d.transfer = app := Option.some.inj (hport.symm.trans happ)
      exact absurd (hinvoke.symm.trans hsome) (by simp)

/-- **No refund ever completes.**  In every run, for every transfer that was accepted and
every time the router reports to the transfer contract that it failed, the escrow does
not go back to the sender: the callback aborts, and so does the router's call. -/
theorem refund_never_completes (hcodec : codec.RejectsOthers)
    (hrun : Run d codec sha256 history world) {sender : Address} {denom : HostString}
    {amount : I128} (hsent : Transferred history sender denom amount packet)
    (hdispatch : Dispatched d codec sha256 world host packet call ctx invocation) :
    ¬ Refunded d codec host ctx invocation sender denom amount ∧
      Aborts (call.exec sha256 (d.routerEnv codec host)) world.routerState.start := by
  obtain ⟨payload, data, hpayloads, hamount, hvalue⟩ := hsent.payload hrun
  have hinvoke : (d.routerEnv codec host).invoke d.transfer invocation ctx.ext = none := by
    apply hdispatch.invoke_eq_none
    rw [hpayloads, List.forall_mem_singleton]
    exact Transfer.packetFromXdr_encodeIcs20Json hcodec hamount hvalue
  refine ⟨?_, hdispatch.aborts hinvoke⟩
  rintro ⟨result, ext, hsome, -⟩
  exact absurd (hinvoke.symm.trans hsome) (by simp)

/-! ### A transfer that times out -/

def sampleDeployment : Deployment where
  router := .contract (.fill 32 1)
  transfer := .contract (.fill 32 2)

def sampleSender : Address := .account (.fill 32 3)

/-- The XDR of an address. -/
def addressXdr : Address → Bytes
  | .account key => ScVal.uint32 18 ++ ScVal.uint32 0 ++ ScVal.uint32 0 ++ key.val
  | .contract id => ScVal.uint32 18 ++ ScVal.uint32 1 ++ id.val

/-- A codec that knows one address and one packet. -/
def sampleCodec : Transfer.Codec where
  addressToXdr := addressXdr
  addressFromXdr bytes := if bytes = addressXdr sampleSender then some sampleSender else none
  packetFromXdr bytes :=
    if bytes = Transfer.samplePacket.toScVal.toXdr then some Transfer.samplePacket else none

theorem sampleCodec_rejectsOthers : sampleCodec.RejectsOthers := by
  intro bytes packet h
  simp only [sampleCodec] at h
  split at h
  · cases h
    assumption
  · cases h

/-- A host at time 10 where everyone signed, every other contract accepts, and the
counterparty's clock stands at 1000. -/
def sampleHost : Host Unit where
  timestamp := 10
  authorized _ := true
  invoke _ call ext :=
    match call with
    | .getTimestampAtHeight .. => some (1000, ext)
    | call => some (call.accept, ext)

def freshWorld : World Unit :=
  ⟨.initial sampleDeployment.router, .initial sampleDeployment.router sampleDeployment.router, ()⟩

/-- Set up a client and the transfer port, and give the sender 500 units. -/
def sampleSetup : List (Host Unit × (Router.Call ⊕ Transfer.Call)) :=
  [(sampleHost, .inl (.registerClientType (ascii "stellar") sampleDeployment.router)),
    (sampleHost, .inl (.createClient (ascii "stellar") [] [] 1)),
    (sampleHost, .inl (.registerCounterparty (ascii "stellar-0") (ascii "cosmos-7")
      [ascii "ibc"])),
    (sampleHost, .inl (.registerPort Transfer.PORT sampleDeployment.transfer)),
    (sampleHost, .inr (.mint sampleSender (ascii "stroop") (.ofUInt32 500)))]

def sampleAmount : I128 := .ofUInt32 250

def sampleCall : Transfer.Call :=
  .initiateTransfer sampleSender (ascii "stellar-0") (ascii "stroop") sampleAmount
    (ascii "cosmos1receiver") 100 (ascii "gift")

/-- The history and the ledger after the setup. -/
def sampleReady : List (Entry (World Unit) (Act Unit)) × World Unit :=
  freshWorld.executeAll sampleDeployment sampleCodec Sha256.sha256 [] sampleSetup

/-- The transfer, as it was recorded. -/
def sampleTransfer : Entry (World Unit) (Act Unit) :=
  sampleReady.2.execute sampleDeployment sampleCodec Sha256.sha256 sampleHost (.inr sampleCall)

def sampleHistory : List (Entry (World Unit) (Act Unit)) := sampleReady.1 ++ [sampleTransfer]

/-- The packet of the transfer. -/
def sampleSent : Packet where
  sequence := 1
  sourceClient := ascii "stellar-0"
  destClient := ascii "cosmos-7"
  timeoutTimestamp := 100
  payloads := [⟨Transfer.PORT, Transfer.PORT, Transfer.VERSION, Transfer.ENCODING,
    (Transfer.encodeIcs20Json ⟨⟨ascii "stroop", sampleAmount⟩,
      (Transfer.addressToString sampleCodec sampleSender).getD [], ascii "cosmos1receiver",
      ascii "gift"⟩).getD []⟩]

theorem sample_run :
    Run sampleDeployment sampleCodec Sha256.sha256 sampleHistory sampleTransfer.post :=
  (Run.executeAll (.start ⟨_, _, rfl, rfl⟩) sampleSetup).execute sampleHost (.inr sampleCall)

theorem sample_transferred :
    Transferred sampleHistory sampleSender (ascii "stroop") sampleAmount sampleSent := by
  have hpasses : passes
      (sampleCall.exec sampleCodec (sampleDeployment.transferEnv Sha256.sha256 sampleHost))
      (sampleReady.2.transferCtx [])
      (fun _ ctx => decide (sampleSent ∈ Router.sentPackets ctx.ext.log)) = true := by
    decide +kernel
  obtain ⟨sequence, ctx, hreturns, hpacket⟩ := exists_returns_of_passes hpasses
  refine ⟨sampleTransfer, by simp [sampleHistory], sampleHost, _, _, _, _, sequence,
    ctx.ext.log, World.execute_transfer hreturns, ?_⟩
  exact of_decide_eq_true hpacket

/-- The payload of the transfer. -/
def samplePayload : Payload := sampleSent.payloads.head (by simp [sampleSent])

/-- What the router tells the transfer contract when the transfer times out. -/
def sampleInvocation : Router.Invocation :=
  .onTimeoutPacket (Router.timeoutCallback sampleSent samplePayload)

/-- The timeout passes the router's checks, and the transfer contract turns it down. -/
theorem sample_dispatched :
    ∃ ctx, Dispatched sampleDeployment sampleCodec Sha256.sha256 sampleTransfer.post
        sampleHost sampleSent (.timeoutPacket sampleSent [] 1) ctx sampleInvocation ∧
      ((sampleDeployment.routerEnv sampleCodec sampleHost).invoke sampleDeployment.transfer
        sampleInvocation ctx.ext).isNone = true := by
  have hpasses : passes
      (Router.timeoutChecks Sha256.sha256 (sampleDeployment.routerEnv sampleCodec sampleHost)
        sampleSent [] 1)
      sampleTransfer.post.routerState.start
      (fun _ ctx => decide (ctx.storage.port Transfer.PORT = some sampleDeployment.transfer) &&
        ((sampleDeployment.routerEnv sampleCodec sampleHost).invoke sampleDeployment.transfer
          sampleInvocation ctx.ext).isNone) = true := by
    unfold sampleTransfer sampleReady
    rw [Sha256.sha256_eq_eval]
    decide +kernel
  obtain ⟨_, ctx, hreturns, hcheck⟩ := exists_returns_of_passes hpasses
  rw [Bool.and_eq_true] at hcheck
  exact ⟨ctx, .timeout hreturns rfl (of_decide_eq_true hcheck.1), hcheck.2⟩

theorem refund_never_completes_sample :
    Transferred sampleHistory sampleSender (ascii "stroop") sampleAmount sampleSent ∧
      ∃ ctx, Dispatched sampleDeployment sampleCodec Sha256.sha256 sampleTransfer.post
          sampleHost sampleSent (.timeoutPacket sampleSent [] 1) ctx sampleInvocation ∧
        ¬ Refunded sampleDeployment sampleCodec sampleHost ctx sampleInvocation sampleSender
          (ascii "stroop") sampleAmount ∧
        Aborts (Router.Call.exec Sha256.sha256
          (sampleDeployment.routerEnv sampleCodec sampleHost) (.timeoutPacket sampleSent [] 1))
          sampleTransfer.post.routerState.start := by
  obtain ⟨ctx, hdispatch, -⟩ := sample_dispatched
  exact ⟨sample_transferred, ctx, hdispatch,
    refund_never_completes sampleCodec_rejectsOthers sample_run sample_transferred hdispatch⟩

/-- The sample transfer of 250 units, timed out, is one that is not refunded. -/
theorem refundComplete_fails_on_timeout :
    ¬ RefundComplete sampleDeployment sampleCodec Sha256.sha256 Unit := by
  intro hcomplete
  obtain ⟨ctx, hdispatch, hnone⟩ := sample_dispatched
  obtain ⟨result, ext, hsome, -⟩ := hcomplete _ _ sample_run _ _ _ _ sample_transferred _ _ _ _
    hdispatch
  rw [hsome] at hnone
  cases hnone

end StellarIbc.TransferSystem
