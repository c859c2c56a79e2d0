import StellarIbc.RouterIntegrity
import StellarIbc.RouterInvocations
import StellarIbc.TransferRefunds
import StellarIbc.TransferSupply

/-!
# What a transfer puts into escrow stays there

Only a refund takes anything out of the escrow, and a refund needs a packet for the transfer
port whose payload decodes.  Such a packet is settled only if its commitment stands, which
the transfer contract alone can have made for its port, and it sends JSON.  So over every run
of the two contracts the escrow holds at least what all transfers put in, whatever the
counterparty reports about them.
-/

namespace StellarIbc.Transfer

open Contract

variable {X : Type} {codec : Codec} {env : Env X} {pre post : Ctx X}

/-! ### The calls of the transfer contract -/

/-- The view shows nothing of the storage but the router and the admin. -/
class SeesNoBalances {υ : Type} (view : Ctx X → υ) : Prop where
  storage : ∀ (ctx : Ctx X) (s : Storage), s.router = ctx.storage.router →
    view { ctx with storage := s } = view ctx

instance : SeesNoBalances (fun ctx : Ctx X => ctx.storage.router) where
  storage _ _ h := h

instance : SeesNoBalances (fun ctx : Ctx X => ctx.ext) where
  storage _ _ _ := rfl

section

variable {υ : Type} {view : Ctx X → υ}

instance : Keeps view (storage : TransferM X Storage) := by
  unfold storage
  infer_instance

instance {address : Address} : Keeps view (requireAuth env address) := by
  unfold requireAuth
  infer_instance

instance : Keeps view (requireRouter env) := by
  unfold requireRouter
  infer_instance

instance {value : Bytes} : Keeps view (decodePacket codec value : TransferM X _) := by
  unfold decodePacket
  infer_instance

variable [hsees : SeesNoBalances view]

instance {who : Address} {denom : HostString} {amount : I128} :
    Keeps view (setStorage fun s => s.setBalance who denom amount) :=
  .modify fun ctx => hsees.storage ctx _ rfl

instance {denom : HostString} {cap : I128} :
    Keeps view (setStorage fun s => s.setDailyCap denom cap) :=
  .modify fun ctx => hsees.storage ctx _ rfl

instance {denom : HostString} {day : UInt64} {used : I128} :
    Keeps view (setStorage fun s => s.setUsage denom day used) :=
  .modify fun ctx => hsees.storage ctx _ rfl

instance {who : Address} {denom : HostString} {amount : I128} :
    Keeps view (debit who denom amount) := by
  unfold debit
  infer_instance

instance {who : Address} {denom : HostString} {amount : I128} :
    Keeps view (credit who denom amount) := by
  unfold credit
  infer_instance

instance {packet : FungibleTokenPacketData} : Keeps view (refund codec env packet) := by
  unfold refund
  infer_instance

instance {denom : HostString} {amount : I128} :
    Keeps view (enforceRateLimit env denom amount) where
  keeps h := by
    rcases returns_enforceRateLimit.mp h with ⟨-, rfl⟩ | ⟨cap, total, -, -, -, rfl⟩
    · rfl
    · exact hsees.storage _ _ rfl

/-- Only `initiate_transfer` calls another contract. -/
theorem keeps_exec {call : Call}
    (hcall : ∀ sender client denom amount receiver timeout memo,
      call ≠ .initiateTransfer sender client denom amount receiver timeout memo) :
    Keeps view (call.exec codec env) := by
  cases call with
  | initiateTransfer => exact absurd rfl (hcall _ _ _ _ _ _ _)
  | setRateLimit denom cap =>
      unfold Call.exec setRateLimit
      infer_instance
  | dailyCap denom =>
      unfold Call.exec dailyCap
      infer_instance
  | dailyUsage denom =>
      unfold Call.exec dailyUsage
      infer_instance
  | mint recipient denom amount =>
      unfold Call.exec mint
      infer_instance
  | balanceOf who denom =>
      unfold Call.exec balanceOf
      infer_instance
  | onRecvPacket callback =>
      unfold Call.exec onRecvPacket
      infer_instance
  | onAcknowledgementPacket callback =>
      unfold Call.exec onAcknowledgementPacket
      infer_instance
  | onTimeoutPacket callback =>
      unfold Call.exec onTimeoutPacket
      infer_instance

end

instance {router : Address} {client : HostString} {timeout : UInt64} {payloads : List Payload} :
    Keeps (fun ctx : Ctx X => ctx.storage.router)
      (invokeSendPacket env router client timeout payloads) where
  keeps h := by
    obtain ⟨ext, -, rfl⟩ := returns_invokeSendPacket.mp h
    rfl

set_option synthInstance.maxSize 1024 in
instance {sender : Address} {client denom receiver memo : HostString} {amount : I128}
    {timeout : UInt64} : Keeps (fun ctx : Ctx X => ctx.storage.router)
      (initiateTransfer codec env sender client denom amount receiver timeout memo) := by
  unfold initiateTransfer
  dsimp only
  infer_instance

theorem router_of_returns (call : Call) {value : call.Result}
    (h : Returns (call.exec codec env) pre value post) :
    post.storage.router = pre.storage.router := by
  have hkeeps : Keeps (fun ctx : Ctx X => ctx.storage.router) (call.exec codec env) := by
    cases call with
    | initiateTransfer sender client denom amount receiver timeout memo =>
        unfold Call.exec
        infer_instance
    | _ => exact keeps_exec (by simp)
  exact hkeeps.keeps h

/-- What a call that returns takes into escrow. -/
def Call.escrowed (denom : HostString) : Call → ℤ
  | .initiateTransfer _ _ coin amount _ _ _ => if denom = coin then amount.val else 0
  | _ => 0

/-- A call that neither the router nor the escrow signed takes nothing out of the escrow. -/
theorem escrow_of_returns {call : Call} {value : call.Result}
    (h : Returns (call.exec codec env) pre value post) {router : Address}
    (hrouter : pre.storage.router = some router) (hunsigned : env.authorized router = false)
    (hself : env.authorized env.self = false) (denom : HostString) :
    (pre.storage.balanceOf env.self denom).val + call.escrowed denom ≤
      (post.storage.balanceOf env.self denom).val := by
  have hcallback : ¬ FromRouter env pre.storage := by
    rintro ⟨router', hrouter', hsigned⟩
    obtain rfl := Option.some.inj (hrouter.symm.trans hrouter')
    rw [hunsigned] at hsigned
    cases hsigned
  have hquiet : ¬ call.Issues → call.parties codec env = none → call.escrowed denom = 0 →
      (pre.storage.balanceOf env.self denom).val + call.escrowed denom ≤
        (post.storage.balanceOf env.self denom).val := by
    intro hissues hparties hzero
    have hsame := (conserves_of_returns h hissues).others env.self denom (by simp [hparties])
    rw [hsame, hzero, add_zero]
  cases call with
  | setRateLimit coin cap => exact hquiet id rfl rfl
  | dailyCap coin => exact hquiet id rfl rfl
  | dailyUsage coin => exact hquiet id rfl rfl
  | balanceOf who coin => exact hquiet id rfl rfl
  | mint recipient coin amount =>
      simp only [Call.exec, mint, returns_bind, returns_storage, returns_orTrap,
        returns_panicIf, returns_setStorage, I128.checkedAdd_eq_some_iff, Int.not_le] at h
      obtain ⟨_, _, ⟨hpositive, rfl⟩, _, _, ⟨rfl, rfl⟩, sum, _, ⟨hsum, rfl⟩, rfl⟩ := h
      have hadds := adds_setBalance hsum env.self denom
      have hzero : Call.escrowed denom (.mint recipient coin amount) = 0 := rfl
      rw [hadds, hzero]
      split <;> omega
  | initiateTransfer sender client coin amount receiver timeout memo =>
      obtain ⟨text, json, hspec⟩ := returns_initiateTransfer h
      have hother : env.self ≠ sender := by
        intro heq
        have hauthorised := hspec.authorised
        rw [← heq, hself] at hauthorised
        cases hauthorised
      have hmoved := hspec.escrowed env.self denom
      rw [hmoved, Call.escrowed]
      simp [hother]
  | onRecvPacket callback => exact absurd (returns_onRecvPacket.mp h).1 hcallback
  | onAcknowledgementPacket callback =>
      exact absurd (returns_onAcknowledgementPacket.mp h).1 hcallback
  | onTimeoutPacket callback => exact absurd (returns_onTimeoutPacket.mp h).1 hcallback

end StellarIbc.Transfer

namespace StellarIbc.TransferSystem

open Contract

variable {Y : Type}

/-! ### What the other contracts can do -/

/-- The host of a call of the transfer contract that does not come from the router: neither
contract has signed for it. -/
structure Deployment.Outside (d : Deployment) {X : Type} (env : Transfer.Env X) : Prop where
  self : env.self = d.transfer
  router : env.authorized d.router = false
  transfer : env.authorized d.transfer = false

/-- A call of the transfer contract by a contract that the router called; the router is not
entered again. -/
def NestedCall (d : Deployment) (codec : Transfer.Codec) (s s' : Transfer.Storage) : Prop :=
  ∃ (env : Transfer.Env Unit) (call : Transfer.Call) (value : call.Result), d.Outside env ∧
    (∀ router client timeout payloads x,
      env.sendPacket router client timeout payloads x = none) ∧
    Returns (call.exec codec env) ⟨s, ()⟩ value ⟨s', ()⟩

/-- Contracts sign for nothing but what they call themselves, and the other contracts change
the storage of the transfer contract by calling it only. -/
structure Deployment.Isolated (d : Deployment) (codec : Transfer.Codec) (host : Host Y) :
    Prop where
  router : host.authorized d.router = false
  transfer : host.authorized d.transfer = false
  others : ∀ callee (call : Router.Invocation) ext value ext',
    host.invoke callee call ext = some (value, ext') →
    Relation.ReflTransGen (NestedCall d codec) ext.1 ext'.1

/-- No packet that is received carries a negative amount. -/
def Incoming (codec : Transfer.Codec) (call : Router.Call) : Prop :=
  ∀ packet proof height, call = .recvPacket packet proof height →
    ∀ payload ∈ packet.payloads, ∀ data, codec.packetFromXdr payload.value = some data →
      0 ≤ data.token.amount.val

/-- A step on an isolated ledger in which nobody calls a raw setter of the router. -/
def Act.Ordinary (d : Deployment) (codec : Transfer.Codec) : Act Y → Prop
  | .router host call _ => d.Isolated codec host ∧ call.kind ≠ .rawSetter ∧ Incoming codec call
  | .transfer host _ _ => d.Isolated codec host
  | .elsewhere => True

/-! ### What was transferred -/

/-- What a step takes into escrow; a call that aborts takes nothing. -/
def Act.escrowed (denom : HostString) : Act Y → ℤ
  | .transfer _ call (.returned ..) => call.escrowed denom
  | _ => 0

def transferred (denom : HostString) (history : List (Entry (World Y) (Act Y))) : ℤ :=
  (history.map fun entry => entry.act.escrowed denom).sum

/-- What the router recorded in a step. -/
def Act.log : Act Y → List Router.Effect
  | .router _ _ (.returned _ log) => log
  | .transfer _ _ (.returned _ log) => log
  | _ => []

/-- The strings the router hashed in a run. -/
def hashedIn (history : List (Entry (World Y) (Act Y))) : Set Bytes :=
  { data | ∃ entry ∈ history, data ∈ Router.hashedStrings entry.act.log }

variable {d : Deployment} {codec : Transfer.Codec} {sha256 : Bytes → Hash}

/-! ### The escrow grows -/

/-- The escrow holds no less than before, and the contract has the same router. -/
structure Grown (d : Deployment) (s s' : Transfer.Storage) : Prop where
  router : s'.router = s.router
  escrow : ∀ denom, (s.balanceOf d.transfer denom).val ≤ (s'.balanceOf d.transfer denom).val

section

variable {s s' s'' : Transfer.Storage}

theorem Grown.refl (s : Transfer.Storage) : Grown d s s :=
  ⟨rfl, fun _ => Int.le_refl _⟩

theorem Grown.trans (h : Grown d s s') (h' : Grown d s' s'') : Grown d s s'' :=
  ⟨h'.router.trans h.router, fun denom => Int.le_trans (h.escrow denom) (h'.escrow denom)⟩

theorem escrowed_nonneg {X : Type} {env : Transfer.Env X} {pre post : Transfer.Ctx X}
    {call : Transfer.Call} {value : call.Result}
    (h : Returns (call.exec codec env) pre value post) (denom : HostString) :
    0 ≤ call.escrowed denom := by
  cases call with
  | initiateTransfer sender client coin amount receiver timeout memo =>
      obtain ⟨text, json, hspec⟩ := Transfer.returns_initiateTransfer h
      have hpositive : 0 < amount.val := hspec.positive
      show 0 ≤ if denom = coin then amount.val else 0
      split
      · exact Int.le_of_lt hpositive
      · exact Int.le_refl _
  | _ => exact Int.le_refl _

theorem NestedCall.grown (h : NestedCall d codec s s') (hrouter : s.router = some d.router) :
    Grown d s s' := by
  obtain ⟨env, call, value, houtside, -, hreturns⟩ := h
  refine ⟨Transfer.router_of_returns _ hreturns, ?_⟩
  intro denom
  have hself : env.authorized env.self = false := by
    rw [houtside.self]
    exact houtside.transfer
  have hescrow := Transfer.escrow_of_returns hreturns hrouter houtside.router hself denom
  rw [houtside.self] at hescrow
  have hnonneg := escrowed_nonneg hreturns denom
  dsimp only at hescrow
  omega

theorem Deployment.Isolated.grown {host : Host Y} (h : d.Isolated codec host)
    {callee : Address} {call : Router.Invocation} {ext ext' : Transfer.Storage × Y}
    {value : call.Result} (hinvoke : host.invoke callee call ext = some (value, ext'))
    (hrouter : ext.1.router = some d.router) : Grown d ext.1 ext'.1 := by
  have hcalls := h.others callee call ext value ext' hinvoke
  generalize ext'.1 = s' at hcalls
  induction hcalls with
  | refl => exact .refl _
  | tail _ hlast ih => exact ih.trans (hlast.grown (ih.router.trans hrouter))

end

theorem returns_of_runCallback {α : Type} {program : Transfer.TransferM Y α} {value : α}
    {ext ext' : Transfer.Storage × Y} (h : runCallback program ext = some (value, ext')) :
    Returns program ⟨ext.1, ext.2⟩ value ⟨ext'.1, ext'.2⟩ := by
  unfold runCallback at h
  cases hrun : program.run ⟨ext.1, ext.2⟩ with
  | error panic =>
      rw [hrun] at h
      cases h
  | ok outcome =>
      rw [hrun] at h
      cases h
      exact hrun

section

variable {host : Host Y} {ext ext' : Transfer.Storage × Y}

theorem grown_of_receive {callback : OnRecvPacketCallback} {value : Bytes}
    (h : d.answer codec host (.onRecvPacket callback) ext = some (value, ext'))
    (hamount : ∀ data, codec.packetFromXdr callback.payload.value = some data →
      0 ≤ data.token.amount.val) : Grown d ext.1 ext'.1 := by
  have hreturns := returns_of_runCallback h
  have hrouter : ext'.1.router = ext.1.router :=
    Transfer.router_of_returns (.onRecvPacket callback) hreturns
  refine ⟨hrouter, ?_⟩
  obtain ⟨-, -, data, receiver, hdata, -, -, hcredit⟩ :=
    Transfer.returns_onRecvPacket.mp hreturns
  obtain ⟨sum, hsum, hpost⟩ := Transfer.returns_credit.mp hcredit
  obtain ⟨hstorage, -⟩ := Transfer.Ctx.mk.inj hpost
  intro denom
  rw [hstorage, Transfer.adds_setBalance hsum d.transfer denom]
  have hnonneg := hamount data hdata
  dsimp only
  split <;> omega

theorem grown_of_acknowledge {callback : OnAcknowledgementPacketCallback} {value : Unit}
    (h : d.answer codec host (.onAcknowledgementPacket callback) ext = some (value, ext'))
    (hdecode : codec.packetFromXdr callback.payload.value = none) : Grown d ext.1 ext'.1 := by
  have hreturns := returns_of_runCallback h
  obtain ⟨-, -, ⟨-, hsame⟩ | ⟨-, data, hdata, -⟩⟩ :=
    Transfer.returns_onAcknowledgementPacket.mp hreturns
  · rw [(Transfer.Ctx.mk.inj hsame).1]
    exact .refl _
  · rw [hdecode] at hdata
    cases hdata

theorem not_answer_timeout {callback : OnTimeoutPacketCallback} {value : Unit}
    (hdecode : codec.packetFromXdr callback.payload.value = none) :
    d.answer codec host (.onTimeoutPacket callback) ext ≠ some (value, ext') := by
  intro h
  have hreturns := returns_of_runCallback h
  obtain ⟨-, -, data, hdata, -⟩ := Transfer.returns_onTimeoutPacket.mp hreturns
  rw [hdecode] at hdata
  cases hdata

/-- The payloads whose fate a call reports to the apps that sent them. -/
def settled : Router.Call → List Payload
  | .acknowledgePacket packet _ _ _ | .timeoutPacket packet _ _ => packet.payloads
  | _ => []

/-- Where no payload for the transfer contract that is settled decodes, a call of the router
takes nothing out of the escrow. -/
theorem grown_of_returned (hisolated : d.Isolated codec host) {pre post : World Y}
    {call : Router.Call} {value : call.Result} {log : List Router.Effect}
    (hreturned : Router.Returned sha256 (d.routerEnv codec host) call pre.routerState value log
      post.routerState)
    (hincoming : Incoming codec call) (hrouter : pre.transfer.router = some d.router)
    (hsettled : ∀ payload ∈ settled call, pre.router.port payload.sourcePort = some d.transfer →
      codec.packetFromXdr payload.value = none) : Grown d pre.transfer post.transfer := by
  refine hreturned.reaches.keeps (P := fun ext => Grown d pre.transfer ext.1) ?_ (.refl _)
  intro callee inv value ext ext' hmakes hinvoke hgrown
  refine hgrown.trans ?_
  have hrouter' : ext.1.router = some d.router := hgrown.router.trans hrouter
  by_cases hcallee : callee = d.transfer
  · subst hcallee
    simp only [Deployment.routerEnv, if_true] at hinvoke
    cases hmakes with
    | receive hmem hport =>
        exact grown_of_receive hinvoke (hincoming _ _ _ rfl _ hmem)
    | acknowledge hmem hport =>
        exact grown_of_acknowledge hinvoke (hsettled _ hmem hport)
    | timeout hmem hport =>
        exact absurd hinvoke (not_answer_timeout (hsettled _ hmem hport))
    | _ => cases hinvoke
  · simp only [Deployment.routerEnv, if_neg hcallee] at hinvoke
    exact hisolated.grown hinvoke hrouter'

end

/-! ### What the commitments stand for -/

/-- Every payload has an app for its source port, and none of the transfer contract's
decodes. -/
def Sendable (d : Deployment) (codec : Transfer.Codec) (s : Router.Storage)
    (payloads : List Payload) : Prop :=
  ∀ payload ∈ payloads, ∃ app, s.port payload.sourcePort = some app ∧
    (app = d.transfer → codec.packetFromXdr payload.value = none)

/-- Every commitment that stands is of such a packet, hashed among `strings`. -/
def Committed (d : Deployment) (codec : Transfer.Codec) (sha256 : Bytes → Hash)
    (strings : Set Bytes) (s : Router.Storage) : Prop :=
  ∀ c n commitment, s.provable (Router.commitmentKey c n) = some commitment →
    ∃ packet, commitment = (Router.v2PacketCommitment sha256 packet).val ∧
      (∀ data ∈ Router.packetStrings sha256 packet, data ∈ strings) ∧
      Sendable d codec s packet.payloads

section

variable {strings : Set Bytes} {s s' : Router.Storage}

theorem Sendable.mono {payloads : List Payload} (h : Sendable d codec s payloads)
    (hport : ∀ p app, s.port p = some app → s'.port p = some app) :
    Sendable d codec s' payloads := by
  intro payload hmem
  obtain ⟨app, happ, hdecode⟩ := h payload hmem
  exact ⟨app, hport _ _ happ, hdecode⟩

/-- Registering ports and erasing commitments keep it. -/
theorem Committed.mono (h : Committed d codec sha256 strings s)
    (hport : ∀ p app, s.port p = some app → s'.port p = some app)
    (hprovable : ∀ c n commitment, s'.provable (Router.commitmentKey c n) = some commitment →
      s.provable (Router.commitmentKey c n) = some commitment) :
    Committed d codec sha256 strings s' := by
  intro c n commitment hstands
  obtain ⟨packet, hcommitment, hhashed, hsendable⟩ := h c n commitment (hprovable c n _ hstands)
  exact ⟨packet, hcommitment, hhashed, hsendable.mono hport⟩

theorem Committed.send (h : Committed d codec sha256 strings s) {packet : Packet}
    (hstorage : s' = (s.assignSequence packet.sourceClient packet.sequence).write
      (Router.commitmentKey packet.sourceClient packet.sequence)
      (Router.v2PacketCommitment sha256 packet).val)
    (hhashed : ∀ data ∈ Router.packetStrings sha256 packet, data ∈ strings)
    (hsendable : Sendable d codec s packet.payloads) : Committed d codec sha256 strings s' := by
  subst hstorage
  intro c n commitment hstands
  rw [Router.Storage.write_provable] at hstands
  by_cases hkey : Router.commitmentKey c n = Router.commitmentKey packet.sourceClient packet.sequence
  · rw [hkey, Function.update_self, Option.some.injEq] at hstands
    exact ⟨packet, hstands.symm, hhashed, hsendable⟩
  · rw [Function.update_of_ne hkey] at hstands
    exact h c n commitment hstands

/-- An entry that stands after another was erased stood before. -/
theorem stands_of_erase {key erased value : Bytes}
    (h : (s.erase erased).provable key = some value) : s.provable key = some value := by
  rw [Router.Storage.erase_provable] at h
  by_cases hkey : key = erased
  · rw [hkey, Function.update_self] at h
    cases h
  · rwa [Function.update_of_ne hkey] at h

/-- What is settled was committed, so none of the transfer contract's payloads decodes. -/
theorem Committed.settled (h : Committed d codec sha256 strings s)
    (hinj : Set.InjOn sha256 strings) {packet : Packet} {cp : Counterparty}
    (hcommitted : Router.CommittedSpec sha256 packet cp s)
    (hhashed : ∀ data ∈ Router.packetStrings sha256 packet, data ∈ strings) {payload : Payload}
    (hmem : payload ∈ packet.payloads) (hport : s.port payload.sourcePort = some d.transfer) :
    codec.packetFromXdr payload.value = none := by
  obtain ⟨sent, hcommitment, hsent, hsendable⟩ := h _ _ _ hcommitted.stored
  obtain ⟨-, -, hpayloads⟩ := Router.v2PacketCommitment_binding hinj hhashed hsent
    (BytesN.ext hcommitment)
  rw [hpayloads] at hmem
  obtain ⟨app, happ, hdecode⟩ := hsendable payload hmem
  obtain rfl := Option.some.inj (hport.symm.trans happ)
  exact hdecode rfl

end

/-- What holds in every state of a run: the transfer contract knows its router, and the
commitments of the router are of sendable packets. -/
structure EscrowInv (d : Deployment) (codec : Transfer.Codec) (sha256 : Bytes → Hash)
    (strings : Set Bytes) (world : World Y) : Prop where
  router : world.transfer.router = some d.router
  committed : Committed d codec sha256 strings world.router

section

variable {strings : Set Bytes} {pre post : World Y} {host : Host Y}

/-- A call of the router that returned leaves commitments of sendable packets. -/
theorem EscrowInv.committed_of_returned (hinv : EscrowInv d codec sha256 strings pre)
    (hisolated : d.Isolated codec host) {call : Router.Call} {value : call.Result}
    {log : List Router.Effect} (hguarded : call.kind ≠ .rawSetter)
    (hhashed : ∀ data ∈ Router.hashedStrings log, data ∈ strings)
    (hreturned : Router.Returned sha256 (d.routerEnv codec host) call pre.routerState value log
      post.routerState) : Committed d codec sha256 strings post.router := by
  cases hkind : call.kind with
  | rawSetter => exact absurd hkind hguarded
  | registry =>
      have hregistry := hreturned.registry hkind
      refine hinv.committed.mono hregistry.port ?_
      intro c n commitment hstands
      have hprovable : post.router.provable = pre.router.provable := hregistry.provable
      rw [← hprovable]
      exact hstands
  | lifecycle =>
      have hlifecycle := hreturned.lifecycle hkind
      have hport : post.router.port = pre.router.port := hlifecycle.port_eq
      have hports : ∀ p app, pre.router.port p = some app → post.router.port p = some app := by
        rw [hport]
        exact fun _ _ h => h
      cases hlifecycle with
      | send hspec =>
          refine hinv.committed.send hspec.storage (fun data hdata => hhashed _
            (hspec.hashed data hdata)) ?_
          intro payload hmem
          obtain ⟨app, happ, hsigned⟩ := hspec.authorised payload hmem
          refine ⟨app, happ, ?_⟩
          rintro rfl
          exact absurd (hsigned.symm.trans hisolated.transfer) (by simp)
      | recv hspec =>
          refine hinv.committed.mono hports ?_
          have hstorage : post.router = _ := hspec.storage
          intro c n commitment hstands
          simp only [hstorage, Router.Storage.write_provable,
            Function.update_of_ne (Router.commitmentKey_ne_receiptKey _ _ _ _),
            Function.update_of_ne (Router.commitmentKey_ne_ackKey _ _ _ _)] at hstands
          exact hstands
      | ack hspec =>
          refine hinv.committed.mono hports ?_
          have hstorage : post.router = _ := hspec.storage
          intro c n commitment hstands
          rw [hstorage] at hstands
          exact stands_of_erase hstands
      | timeout hspec =>
          refine hinv.committed.mono hports ?_
          have hstorage : post.router = _ := hspec.storage
          intro c n commitment hstands
          rw [hstorage] at hstands
          exact stands_of_erase hstands
      | writeAck hreceipt hack hwritten =>
          refine hinv.committed.mono hports ?_
          have hstorage : post.router = _ := hwritten
          intro c n commitment hstands
          simp only [hstorage, Router.Storage.write_provable,
            Function.update_of_ne (Router.commitmentKey_ne_ackKey _ _ _ _)] at hstands
          exact hstands

/-- What a call of the router settles does not decode, where it is the transfer contract's. -/
theorem EscrowInv.settled_of_returned (hinv : EscrowInv d codec sha256 strings pre)
    (hinj : Set.InjOn sha256 strings) {call : Router.Call} {value : call.Result}
    {log : List Router.Effect} (hhashed : ∀ data ∈ Router.hashedStrings log, data ∈ strings)
    (hreturned : Router.Returned sha256 (d.routerEnv codec host) call pre.routerState value log
      post.routerState) {payload : Payload} (hmem : payload ∈ settled call)
    (hport : pre.router.port payload.sourcePort = some d.transfer) :
    codec.packetFromXdr payload.value = none := by
  cases call with
  | acknowledgePacket packet acks proof height =>
      obtain ⟨cp, hspec⟩ := Router.returns_acknowledgePacket hreturned
      exact hinv.committed.settled hinj hspec.committed
        (fun data hdata => hhashed _ (hspec.hashedPacket data hdata)) hmem hport
  | timeoutPacket packet proof height =>
      obtain ⟨cp, hspec⟩ := Router.returns_timeoutPacket hreturned
      exact hinv.committed.settled hinj hspec.committed
        (fun data hdata => hhashed _ (hspec.hashed data hdata)) hmem hport
  | _ => cases hmem

theorem EscrowInv.router_step (hinv : EscrowInv d codec sha256 strings pre)
    (hinj : Set.InjOn sha256 strings) (hisolated : d.Isolated codec host) {call : Router.Call}
    {outcome : Router.Outcome call} (hguarded : call.kind ≠ .rawSetter)
    (hincoming : Incoming codec call)
    (hhashed : ∀ data ∈ Router.hashedStrings (Act.router host call outcome).log,
      data ∈ strings)
    (hstep : Step d codec sha256 pre (.router host call outcome) post) :
    EscrowInv d codec sha256 strings post ∧ Grown d pre.transfer post.transfer := by
  cases outcome with
  | aborted =>
      have hsame : post.routerState = pre.routerState := hstep.2
      have hrouter : post.router = pre.router := congrArg Router.State.storage hsame
      have htransfer : post.transfer = pre.transfer := congrArg (·.ext.1) hsame
      rw [htransfer]
      exact ⟨⟨htransfer ▸ hinv.router, hrouter ▸ hinv.committed⟩, .refl _⟩
  | returned value log =>
      have hreturned : Router.Returned sha256 (d.routerEnv codec host) call pre.routerState
          value log post.routerState := hstep
      have hgrown := grown_of_returned hisolated hreturned hincoming hinv.router
        fun payload hmem hport =>
          hinv.settled_of_returned hinj hhashed hreturned hmem hport
      have hcommitted := hinv.committed_of_returned hisolated hguarded hhashed hreturned
      exact ⟨⟨hgrown.router.trans hinv.router, hcommitted⟩, hgrown⟩

/-- A transfer commits to JSON; the other calls of the transfer contract do not reach the
router. -/
theorem EscrowInv.committed_of_transfer (hcodec : codec.RejectsOthers)
    (hinv : EscrowInv d codec sha256 strings pre) {call : Transfer.Call} {value : call.Result}
    {log : List Router.Effect} (hhashed : ∀ data ∈ Router.hashedStrings log, data ∈ strings)
    (hreturns : Returns (call.exec codec (d.transferEnv sha256 host)) (pre.transferCtx []) value
      (post.transferCtx log)) : Committed d codec sha256 strings post.router := by
  have hquiet : Keeps (fun ctx : Transfer.Ctx (Router.Ctx Y) => ctx.ext)
      (call.exec codec (d.transferEnv sha256 host)) →
      Committed d codec sha256 strings post.router := by
    intro hkeeps
    have hsame : post.router = pre.router := congrArg Router.Ctx.storage (hkeeps.keeps hreturns)
    rw [hsame]
    exact hinv.committed
  cases call with
  | initiateTransfer sender client denom amount receiver timeout memo =>
      obtain ⟨text, json, hspec⟩ := Transfer.returns_initiateTransfer hreturns
      obtain ⟨router, -, hsend⟩ := hspec.sent
      obtain ⟨dest, hsent⟩ := Router.returns_sendPacket (returns_of_sendPacket hsend)
      refine hinv.committed.send hsent.storage (fun data hdata => hhashed _
        (hsent.hashed data hdata)) ?_
      intro payload hmem
      obtain ⟨app, happ, -⟩ := hsent.authorised payload hmem
      refine ⟨app, happ, ?_⟩
      intro _
      obtain rfl := List.mem_singleton.mp hmem
      exact Transfer.packetFromXdr_encodeIcs20Json hcodec hspec.positive hspec.encoded
  | _ => exact hquiet (Transfer.keeps_exec (by simp))

theorem EscrowInv.transfer_step (hcodec : codec.RejectsOthers)
    (hinv : EscrowInv d codec sha256 strings pre) (hisolated : d.Isolated codec host)
    {call : Transfer.Call} {outcome : Outcome call}
    (hhashed : ∀ data ∈ Router.hashedStrings (Act.transfer host call outcome).log,
      data ∈ strings)
    (hstep : Step d codec sha256 pre (.transfer host call outcome) post) (denom : HostString) :
    EscrowInv d codec sha256 strings post ∧
      (pre.transfer.balanceOf d.transfer denom).val +
          (Act.transfer host call outcome).escrowed denom ≤
        (post.transfer.balanceOf d.transfer denom).val := by
  cases outcome with
  | aborted =>
      obtain ⟨-, rfl⟩ := hstep
      exact ⟨hinv, Int.le_of_eq (add_zero _)⟩
  | returned value log =>
      have hrouter : post.transfer.router = pre.transfer.router :=
        Transfer.router_of_returns call hstep
      have hcommitted := hinv.committed_of_transfer hcodec hhashed hstep
      have hescrow := Transfer.escrow_of_returns hstep hinv.router hisolated.router
        hisolated.transfer denom
      exact ⟨⟨hrouter.trans hinv.router, hcommitted⟩, hescrow⟩

/-- One step: the escrow grows by what the step takes into it. -/
theorem EscrowInv.step (hcodec : codec.RejectsOthers) (hinj : Set.InjOn sha256 strings)
    {act : Act Y} (hinv : EscrowInv d codec sha256 strings pre) (hordinary : act.Ordinary d codec)
    (hhashed : ∀ data ∈ Router.hashedStrings act.log, data ∈ strings)
    (hstep : Step d codec sha256 pre act post) (denom : HostString) :
    EscrowInv d codec sha256 strings post ∧
      (pre.transfer.balanceOf d.transfer denom).val + act.escrowed denom ≤
        (post.transfer.balanceOf d.transfer denom).val := by
  cases act with
  | router host call outcome =>
      obtain ⟨hisolated, hguarded, hincoming⟩ := hordinary
      obtain ⟨hpost, hgrown⟩ := hinv.router_step hinj hisolated hguarded hincoming hhashed hstep
      exact ⟨hpost, Int.le_trans (Int.le_of_eq (add_zero _)) (hgrown.escrow denom)⟩
  | transfer host call outcome =>
      exact hinv.transfer_step hcodec hordinary hhashed hstep denom
  | elsewhere =>
      obtain ⟨hrouter, htransfer⟩ := hstep
      rw [htransfer]
      exact ⟨⟨htransfer ▸ hinv.router, hrouter ▸ hinv.committed⟩, Int.le_of_eq (add_zero _)⟩

/-- Nothing is committed on a new ledger. -/
theorem EscrowInv.init (h : Init d pre) : EscrowInv d codec sha256 strings pre := by
  obtain ⟨routerAdmin, admin, hrouter, htransfer⟩ := h
  refine ⟨by rw [htransfer]; rfl, ?_⟩
  intro c n commitment hstands
  rw [hrouter] at hstands
  cases hstands

end

variable {history : List (Entry (World Y) (Act Y))} {world : World Y}

theorem EscrowInv.of_run {strings : Set Bytes} (hcodec : codec.RejectsOthers)
    (hinj : Set.InjOn sha256 strings) (hrun : Run d codec sha256 history world)
    (hallowed : ∀ entry ∈ history, entry.act.Ordinary d codec ∧
      ∀ data ∈ Router.hashedStrings entry.act.log, data ∈ strings) (denom : HostString) :
    EscrowInv d codec sha256 strings world ∧
      transferred denom history ≤ (world.transfer.balanceOf d.transfer denom).val := by
  refine (hrun.restrictEntries hallowed).invariant (fun history world =>
    EscrowInv d codec sha256 strings world ∧
      transferred denom history ≤ (world.transfer.balanceOf d.transfer denom).val) ?_ ?_
  · intro world hinit
    refine ⟨.init hinit, ?_⟩
    obtain ⟨routerAdmin, admin, -, htransfer⟩ := hinit
    rw [htransfer]
    exact Int.le_refl 0
  · rintro history entry - ⟨hinv, hheld⟩ ⟨hstep, hordinary, hhashed⟩
    obtain ⟨hpost, hescrow⟩ := hinv.step hcodec hinj hordinary hhashed hstep denom
    refine ⟨hpost, ?_⟩
    have hsum : transferred denom (history ++ [entry]) =
        transferred denom history + entry.act.escrowed denom := by
      simp [transferred]
    rw [hsum]
    exact Int.le_trans (Int.add_le_add_right hheld _) hescrow

theorem Act.escrowed_nonneg {act : Act Y} {pre post : World Y}
    (hstep : Step d codec sha256 pre act post) (denom : HostString) : 0 ≤ act.escrowed denom := by
  cases act with
  | transfer host call outcome =>
      cases outcome with
      | returned value log => exact TransferSystem.escrowed_nonneg hstep denom
      | aborted => exact Int.le_refl _
  | router host call outcome => exact Int.le_refl _
  | elsewhere => exact Int.le_refl _

/-- What holds of the escrow over a run. -/
structure Escrowed (d : Deployment) (codec : Transfer.Codec)
    (history : List (Entry (World Y) (Act Y))) (world : World Y) (denom : HostString) : Prop where
  /-- All that was transferred is there. -/
  held : transferred denom history ≤ (world.transfer.balanceOf d.transfer denom).val
  /-- No step took anything out. -/
  grew : ∀ entry ∈ history, (entry.pre.transfer.balanceOf d.transfer denom).val ≤
    (entry.post.transfer.balanceOf d.transfer denom).val
  /-- What was acknowledged or timed out for the transfer contract did not decode. -/
  undecoded : ∀ entry ∈ history, ∀ host call value log,
    entry.act = .router host call (.returned value log) → ∀ payload ∈ settled call,
      entry.pre.router.port payload.sourcePort = some d.transfer →
      codec.packetFromXdr payload.value = none

/-- **What was transferred is in escrow.** -/
theorem transfers_stay_escrowed (hcodec : codec.RejectsOthers)
    (hrun : Run d codec sha256 history world)
    (hordinary : ∀ entry ∈ history, entry.act.Ordinary d codec)
    (hfree : ¬ Collision sha256 (hashedIn history)) (denom : HostString) :
    Escrowed d codec history world denom := by
  have hinj := not_collision_iff_injOn.mp hfree
  have hallowed : ∀ entry ∈ history, entry.act.Ordinary d codec ∧
      ∀ data ∈ Router.hashedStrings entry.act.log, data ∈ hashedIn history :=
    fun entry hentry => ⟨hordinary entry hentry, fun data hdata => ⟨entry, hentry, hdata⟩⟩
  -- before every step of the run the invariant holds
  have hbefore : ∀ entry ∈ history, EscrowInv d codec sha256 (hashedIn history) entry.pre ∧
      Step d codec sha256 entry.pre entry.act entry.post := by
    intro entry hmem
    obtain ⟨before, after, hsplit⟩ := List.append_of_mem hmem
    obtain ⟨hran, hstep⟩ := hrun.split hsplit
    have hearlier : ∀ earlier ∈ before, earlier ∈ history := by
      intro earlier hearlier
      rw [hsplit]
      exact List.mem_append_left _ hearlier
    exact ⟨(EscrowInv.of_run hcodec hinj hran
      (fun earlier hmem => hallowed earlier (hearlier earlier hmem)) denom).1, hstep⟩
  refine ⟨(EscrowInv.of_run hcodec hinj hrun hallowed denom).2, ?_, ?_⟩
  · intro entry hmem
    obtain ⟨hinv, hstep⟩ := hbefore entry hmem
    obtain ⟨hallow, hhashed⟩ := hallowed entry hmem
    have hgrown := (hinv.step hcodec hinj hallow hhashed hstep denom).2
    have hnonneg := Act.escrowed_nonneg hstep denom
    omega
  · intro entry hmem host call value log hact payload hpayload hport
    obtain ⟨hinv, hstep⟩ := hbefore entry hmem
    obtain ⟨-, hhashed⟩ := hallowed entry hmem
    rw [hact] at hstep hhashed
    exact hinv.settled_of_returned hinj hhashed hstep hpayload hport

/-! ### A transfer whose timeout fails -/

/-- A host like the sample's that neither contract has signed for. -/
def outsideHost : Host Unit where
  timestamp := sampleHost.timestamp
  authorized address :=
    decide (address ≠ sampleDeployment.router ∧ address ≠ sampleDeployment.transfer)
  invoke := sampleHost.invoke

theorem outsideHost_isolated : sampleDeployment.Isolated sampleCodec outsideHost := by
  refine ⟨by decide, by decide, ?_⟩
  intro callee call ext value ext' hinvoke
  have hsame : ext' = ext := by
    cases call <;> (cases hinvoke; rfl)
  rw [hsame]

/-- The setup, the transfer, and the attempt to time it out. -/
def escrowCalls : List (Router.Call ⊕ Transfer.Call) :=
  sampleSetup.map Prod.snd ++ [.inr sampleCall, .inl (.timeoutPacket sampleSent [] 1)]

def escrowWorld : World Unit :=
  ⟨.initial sampleSender, .initial sampleDeployment.router sampleSender, ()⟩

def escrowRun : List (Entry (World Unit) (Act Unit)) × World Unit :=
  escrowWorld.executeAll sampleDeployment sampleCodec Sha256.sha256 []
    (escrowCalls.map fun call => (outsideHost, call))

theorem escrowRun_run :
    Run sampleDeployment sampleCodec Sha256.sha256 escrowRun.1 escrowRun.2 :=
  Run.executeAll (.start ⟨_, _, rfl, rfl⟩) _

/-- What the router hashes in it, each string once. -/
def escrowStrings : List Bytes := (Router.packetStrings Sha256.sha256 sampleSent).dedup

theorem escrowRun_evaluated :
    transferred (ascii "stroop") escrowRun.1 = 250 ∧
      (escrowStrings.map Sha256.sha256).Nodup ∧
      ∀ entry ∈ escrowRun.1, ∀ s ∈ Router.hashedStrings entry.act.log, s ∈ escrowStrings := by
  unfold escrowRun escrowStrings
  rw [Sha256.sha256_eq_eval]
  decide +kernel

theorem escrowRun_no_collision : ¬ Collision Sha256.sha256 (hashedIn escrowRun.1) := by
  obtain ⟨-, hnodup, hstrings⟩ := escrowRun_evaluated
  apply not_collision_iff_injOn.mpr
  rintro left ⟨entry, hmem, hleft⟩ right ⟨entry', hmem', hright⟩ hequal
  exact List.inj_on_of_nodup_map hnodup (hstrings entry hmem left hleft)
    (hstrings entry' hmem' right hright) hequal

theorem ordinary_execute {host : Host Y} (hisolated : d.Isolated codec host)
    {call : Router.Call ⊕ Transfer.Call}
    (hcall : ∀ routed, call = .inl routed → routed.kind ≠ .rawSetter ∧ Incoming codec routed)
    (world : World Y) : (world.execute d codec sha256 host call).act.Ordinary d codec := by
  cases call with
  | inl call =>
      simp only [World.execute, World.callRouter]
      split
      · exact ⟨hisolated, hcall call rfl⟩
      · exact ⟨hisolated, hcall call rfl⟩
  | inr call =>
      simp only [World.execute, World.callTransfer]
      split
      · exact hisolated
      · exact hisolated

theorem escrowRun_ordinary :
    ∀ entry ∈ escrowRun.1, entry.act.Ordinary sampleDeployment sampleCodec := by
  have hcalls : ∀ call ∈ escrowCalls, ∀ routed, call = .inl routed →
      routed.kind ≠ .rawSetter ∧ Incoming sampleCodec routed := by
    simp [escrowCalls, sampleSetup, Incoming, Router.Call.kind]
  refine forall_mem_feed (by simp) ?_
  intro input hinput world
  obtain ⟨call, hcall, rfl⟩ := List.mem_map.mp hinput
  exact ordinary_execute outsideHost_isolated (hcalls call hcall) world

theorem transfers_stay_escrowed_sample :
    250 ≤ (escrowRun.2.transfer.balanceOf sampleDeployment.transfer (ascii "stroop")).val := by
  have hescrowed := transfers_stay_escrowed sampleCodec_rejectsOthers escrowRun_run
    escrowRun_ordinary escrowRun_no_collision (ascii "stroop")
  rw [← escrowRun_evaluated.1]
  exact hescrowed.held

end StellarIbc.TransferSystem
