import StellarIbc.Trace
import StellarIbc.Transfer

/-!
# The balances of the `ibc-transfer` contract

`mint` and `initiate_transfer` refuse amounts that are not positive; the callbacks take
whatever amount a packet carries.  A received packet with a negative amount takes from
its receiver, and a refund of one takes from its sender, without looking at what they
hold.  In a run the balances stay nonnegative exactly as long as no callback overdraws
one.
-/

namespace StellarIbc.Transfer

open Contract

variable {X : Type} {codec : Codec} {env : Env X} {pre post : Ctx X} {s : Storage}

/-! ### Nonnegative balances -/

def Storage.NonNegative (s : Storage) : Prop := ∀ who denom, 0 ≤ (s.balanceOf who denom).val

/-- What is added to a balance leaves it negative. -/
def Storage.Overdraws (s : Storage) (who : Address) (denom : HostString) (amount : I128) :
    Prop :=
  (s.balanceOf who denom).val + amount.val < 0

theorem Storage.NonNegative.setBalance (h : s.NonNegative) {amount : I128}
    (hamount : 0 ≤ amount.val) (who : Address) (denom : HostString) :
    (s.setBalance who denom amount).NonNegative := by
  intro who' denom'
  rw [Storage.balanceOf_setBalance]
  split
  · exact hamount
  · exact h who' denom'

theorem nonNegative_debit {who : Address} {denom : HostString} {amount : I128} {result : Unit}
    (h : Returns (debit who denom amount) pre result post) (hpre : pre.storage.NonNegative) :
    post.storage.NonNegative := by
  obtain ⟨rest, hle, hrest, rfl⟩ := returns_debit.mp h
  exact hpre.setBalance (by omega) who denom

theorem nonNegative_credit {who : Address} {denom : HostString} {amount : I128}
    {result : Unit} (h : Returns (credit who denom amount) pre result post)
    (hpre : pre.storage.NonNegative) (hcovered : ¬ pre.storage.Overdraws who denom amount) :
    post.storage.NonNegative := by
  obtain ⟨sum, hsum, rfl⟩ := returns_credit.mp h
  unfold Storage.Overdraws at hcovered
  exact hpre.setBalance (by omega) who denom

/-- Adding what is not negative overdraws nothing. -/
theorem Storage.NonNegative.not_overdraws (h : s.NonNegative) {amount : I128}
    (hamount : 0 ≤ amount.val) (who : Address) (denom : HostString) :
    ¬ s.Overdraws who denom amount := by
  have hbalance := h who denom
  unfold Storage.Overdraws
  omega

/-! ### Calls that overdraw -/

/-- A refund of the payload overdraws its sender: the sender is not the escrow, and the
escrow can take up the amount. -/
def RefundOverdraws (codec : Codec) (env : Env X) (s : Storage) (value : Bytes) : Prop :=
  ∃ packet sender, codec.packetFromXdr value = some packet ∧
    stringToAddress codec packet.sender = some sender ∧ sender ≠ env.self ∧
    s.Overdraws sender packet.token.denom packet.token.amount ∧
    (s.balanceOf env.self packet.token.denom).val - packet.token.amount.val < 2 ^ 127

/-- A callback of the router takes more from an address than it holds. -/
def Call.Overdraws (codec : Codec) (env : Env X) (s : Storage) : Call → Prop
  | .onRecvPacket callback =>
      FromRouter env s ∧ callback.payload.destPort = PORT ∧
        ∃ packet receiver, codec.packetFromXdr callback.payload.value = some packet ∧
          stringToAddress codec packet.receiver = some receiver ∧
          s.Overdraws receiver packet.token.denom packet.token.amount
  | .onAcknowledgementPacket callback =>
      FromRouter env s ∧ callback.payload.sourcePort = PORT ∧
        ¬ isSuccessAck callback.acknowledgement = true ∧
        RefundOverdraws codec env s callback.payload.value
  | .onTimeoutPacket callback =>
      FromRouter env s ∧ callback.payload.sourcePort = PORT ∧
        RefundOverdraws codec env s callback.payload.value
  | _ => False

theorem Refunds.nonNegative {value : Bytes} (h : Refunds codec env value pre post)
    (hpre : pre.storage.NonNegative)
    (hcovered : ¬ RefundOverdraws codec env pre.storage value) : post.storage.NonNegative := by
  obtain ⟨packet, hpacket, hrefund⟩ := h
  obtain ⟨sender, middle, hsender, hdebit, hcredit⟩ := returns_refund.mp hrefund
  refine nonNegative_credit hcredit (nonNegative_debit hdebit hpre) ?_
  obtain ⟨rest, hle, hrest, rfl⟩ := returns_debit.mp hdebit
  intro hoverdraws
  unfold Storage.Overdraws at hoverdraws
  rw [Storage.balanceOf_setBalance] at hoverdraws
  by_cases hself : sender = env.self
  · -- what the escrow was debited it gets back
    have hbalance := hpre env.self packet.token.denom
    rw [if_pos ⟨hself, rfl⟩] at hoverdraws
    omega
  · rw [if_neg (by simp [hself])] at hoverdraws
    have hfits := rest.property
    exact hcovered ⟨packet, sender, hpacket, hsender, hself, hoverdraws, by omega⟩

theorem nonNegative_enforceRateLimit {denom : HostString} {amount : I128} {result : Unit}
    (h : Returns (enforceRateLimit env denom amount) pre result post)
    (hpre : pre.storage.NonNegative) : post.storage.NonNegative := by
  rcases returns_enforceRateLimit.mp h with ⟨-, rfl⟩ | ⟨cap, total, -, -, -, rfl⟩
  · exact hpre
  · exact hpre

theorem nonNegative_initiateTransfer {sender : Address}
    {client denom receiver memo : HostString} {amount : I128} {timeout sequence : UInt64}
    (h : Returns (initiateTransfer codec env sender client denom amount receiver timeout memo)
      pre sequence post)
    (hpre : pre.storage.NonNegative) : post.storage.NonNegative := by
  simp only [initiateTransfer, returns_bind, returns_requireAuth, returns_panicIf,
    returns_orTrap, returns_storage, returns_unwrapOr, returns_invokeSendPacket,
    Int.not_le] at h
  obtain ⟨_, _, ⟨-, rfl⟩, _, _, ⟨hamount, rfl⟩, _, limited, hlimit, _, debited, hdebit, _,
    credited, hcredit, _, _, ⟨-, rfl⟩, _, _, ⟨-, rfl⟩, _, _, ⟨rfl, rfl⟩, _, _, ⟨-, rfl⟩, ext,
    -, rfl⟩ := h
  have hdebited := nonNegative_debit hdebit (nonNegative_enforceRateLimit hlimit hpre)
  have hcovered := hdebited.not_overdraws (Int.le_of_lt hamount) env.self denom
  have hcredited := nonNegative_credit hcredit hdebited hcovered
  exact hcredited

/-- A call that overdraws nothing leaves the balances nonnegative. -/
theorem nonNegative_of_returns {call : Call} {value : call.Result}
    (h : Returns (call.exec codec env) pre value post) (hpre : pre.storage.NonNegative)
    (hcovered : ¬ call.Overdraws codec env pre.storage) : post.storage.NonNegative := by
  cases call with
  | setRateLimit denom cap =>
      simp only [Call.exec, setRateLimit, returns_bind, returns_storage, returns_unwrapOr,
        returns_requireAuth, returns_panicIf, returns_setStorage] at h
      obtain ⟨_, _, ⟨rfl, rfl⟩, _, _, ⟨-, rfl⟩, _, _, ⟨-, rfl⟩, _, _, ⟨-, rfl⟩, rfl⟩ := h
      exact hpre
  | dailyCap denom =>
      simp only [Call.exec, dailyCap, returns_bind, returns_storage, returns_pure] at h
      obtain ⟨_, _, ⟨-, rfl⟩, -, rfl⟩ := h
      exact hpre
  | dailyUsage denom =>
      simp only [Call.exec, dailyUsage, returns_bind, returns_storage, returns_pure] at h
      obtain ⟨_, _, ⟨-, rfl⟩, -, rfl⟩ := h
      exact hpre
  | mint recipient denom amount =>
      simp only [Call.exec, mint, returns_bind, returns_storage, returns_orTrap,
        returns_panicIf, returns_setStorage, I128.checkedAdd_eq_some_iff, Int.not_le] at h
      obtain ⟨_, _, ⟨hamount, rfl⟩, _, _, ⟨rfl, rfl⟩, sum, _, ⟨hsum, rfl⟩, rfl⟩ := h
      have hbalance := hpre recipient denom
      exact hpre.setBalance (by omega) recipient denom
  | balanceOf who denom =>
      simp only [Call.exec, balanceOf, returns_bind, returns_storage, returns_pure] at h
      obtain ⟨_, _, ⟨-, rfl⟩, -, rfl⟩ := h
      exact hpre
  | initiateTransfer sender client denom amount receiver timeout memo =>
      exact nonNegative_initiateTransfer h hpre
  | onRecvPacket callback =>
      obtain ⟨hrouter, hport, packet, receiver, hpacket, hreceiver, -, hcredit⟩ :=
        returns_onRecvPacket.mp h
      refine nonNegative_credit hcredit hpre ?_
      intro hoverdraws
      exact hcovered ⟨hrouter, hport, packet, receiver, hpacket, hreceiver, hoverdraws⟩
  | onAcknowledgementPacket callback =>
      obtain ⟨hrouter, hport, ⟨-, rfl⟩ | ⟨hack, hrefunds⟩⟩ :=
        returns_onAcknowledgementPacket.mp h
      · exact hpre
      · exact hrefunds.nonNegative hpre fun hoverdraws =>
          hcovered ⟨hrouter, hport, hack, hoverdraws⟩
  | onTimeoutPacket callback =>
      obtain ⟨hrouter, hport, hrefunds⟩ := returns_onTimeoutPacket.mp h
      exact hrefunds.nonNegative hpre fun hoverdraws => hcovered ⟨hrouter, hport, hoverdraws⟩

theorem credit_overdrawn {who : Address} {denom : HostString} {amount : I128}
    (hbalance : 0 ≤ (pre.storage.balanceOf who denom).val)
    (h : pre.storage.Overdraws who denom amount) :
    ∃ post, Returns (credit who denom amount) pre () post ∧ ¬ post.storage.NonNegative := by
  unfold Storage.Overdraws at h
  have hfits : -(2 ^ 127) ≤ (pre.storage.balanceOf who denom).val + amount.val ∧
      (pre.storage.balanceOf who denom).val + amount.val < 2 ^ 127 := by
    have hamount := amount.property
    omega
  refine ⟨_, returns_credit.mpr ⟨⟨_, hfits⟩, rfl, rfl⟩, ?_⟩
  intro hnonNegative
  have hwho := hnonNegative who denom
  rw [Storage.balanceOf_setBalance, if_pos ⟨rfl, rfl⟩] at hwho
  exact absurd hwho (Int.not_le.mpr h)

theorem refunds_overdrawn {value : Bytes} (hpre : pre.storage.NonNegative)
    (h : RefundOverdraws codec env pre.storage value) :
    ∃ post, Refunds codec env value pre post ∧ ¬ post.storage.NonNegative := by
  obtain ⟨packet, sender, hpacket, hsender, hself, hoverdraws, hroom⟩ := h
  have hescrow := hpre env.self packet.token.denom
  have hbalance := hpre sender packet.token.denom
  have hnegative : packet.token.amount.val < 0 := by
    unfold Storage.Overdraws at hoverdraws
    omega
  have hfits : -(2 ^ 127) ≤
        (pre.storage.balanceOf env.self packet.token.denom).val - packet.token.amount.val ∧
      (pre.storage.balanceOf env.self packet.token.denom).val - packet.token.amount.val <
        2 ^ 127 := by
    omega
  have hdebit : Returns (debit env.self packet.token.denom packet.token.amount) pre ()
      { pre with storage := pre.storage.setBalance env.self packet.token.denom ⟨_, hfits⟩ } :=
    returns_debit.mpr ⟨⟨_, hfits⟩, by omega, rfl, rfl⟩
  -- the sender is another address, so it still holds what it held
  have hkept : ∀ amount : I128,
      (pre.storage.setBalance env.self packet.token.denom amount).balanceOf sender
        packet.token.denom = pre.storage.balanceOf sender packet.token.denom := by
    intro amount
    rw [Storage.balanceOf_setBalance, if_neg (by simp [hself])]
  have hoverdraws' : ∀ amount : I128,
      (pre.storage.setBalance env.self packet.token.denom amount).Overdraws sender
        packet.token.denom packet.token.amount := by
    intro amount
    unfold Storage.Overdraws
    rw [hkept]
    exact hoverdraws
  rw [← hkept ⟨_, hfits⟩] at hbalance
  obtain ⟨post, hcredit, hnegativePost⟩ := @credit_overdrawn X
    { pre with storage := pre.storage.setBalance env.self packet.token.denom ⟨_, hfits⟩ }
    sender packet.token.denom packet.token.amount hbalance (hoverdraws' _)
  have hrefund : Returns (refund codec env packet) pre () post :=
    returns_refund.mpr ⟨sender, _, hsender, hdebit, hcredit⟩
  exact ⟨post, ⟨packet, hpacket, hrefund⟩, hnegativePost⟩

/-- A call that overdraws returns and leaves a negative balance. -/
theorem negative_of_overdraws {call : Call} (hpre : pre.storage.NonNegative)
    (h : call.Overdraws codec env pre.storage) :
    ∃ value post, Returns (call.exec codec env) pre value post ∧
      ¬ post.storage.NonNegative := by
  cases call with
  | onRecvPacket callback =>
      obtain ⟨hrouter, hport, packet, receiver, hpacket, hreceiver, hoverdraws⟩ := h
      obtain ⟨post, hcredit, hnegative⟩ := credit_overdrawn (hpre _ _) hoverdraws
      exact ⟨_, post, returns_onRecvPacket.mpr ⟨hrouter, hport, packet, receiver, hpacket,
        hreceiver, rfl, hcredit⟩, hnegative⟩
  | onAcknowledgementPacket callback =>
      obtain ⟨hrouter, hport, hack, hoverdraws⟩ := h
      obtain ⟨post, hrefunds, hnegative⟩ := refunds_overdrawn hpre hoverdraws
      exact ⟨(), post, returns_onAcknowledgementPacket.mpr
        ⟨hrouter, hport, .inr ⟨hack, hrefunds⟩⟩, hnegative⟩
  | onTimeoutPacket callback =>
      obtain ⟨hrouter, hport, hoverdraws⟩ := h
      obtain ⟨post, hrefunds, hnegative⟩ := refunds_overdrawn hpre hoverdraws
      exact ⟨(), post, returns_onTimeoutPacket.mpr ⟨hrouter, hport, hrefunds⟩, hnegative⟩
  | setRateLimit denom cap => exact h.elim
  | dailyCap denom => exact h.elim
  | dailyUsage denom => exact h.elim
  | mint recipient denom amount => exact h.elim
  | balanceOf who denom => exact h.elim
  | initiateTransfer sender client denom amount receiver timeout memo => exact h.elim

/-! ### Runs -/

inductive Outcome (call : Call) where
  | returned (value : call.Result)
  | aborted

/-- A step: a call by anyone in any environment, or a step of the rest of the chain. -/
inductive Act (X : Type) where
  | invoke (env : Env X) (call : Call) (outcome : Outcome call)
  | elsewhere

def Step (codec : Codec) (pre : Ctx X) (act : Act X) (post : Ctx X) : Prop :=
  match act with
  | .invoke env call (.returned value) => Returns (call.exec codec env) pre value post
  | .invoke env call .aborted => Aborts (call.exec codec env) pre ∧ post = pre
  | .elsewhere => post.storage = pre.storage

/-- Every run of the contract from its construction. -/
abbrev Run (codec : Codec) : List (Entry (Ctx X) (Act X)) → Ctx X → Prop :=
  Reach (fun ctx => ∃ router admin, ctx.storage = .initial router admin) (Step codec)

/-- No balance is negative in any state of the run. -/
def NonNegativeThroughout (history : List (Entry (Ctx X) (Act X))) (ctx : Ctx X) : Prop :=
  (∀ entry ∈ history, entry.pre.storage.NonNegative) ∧ ctx.storage.NonNegative

def Act.Overdraws (codec : Codec) (s : Storage) : Act X → Prop
  | .invoke env call _ => call.Overdraws codec env s
  | .elsewhere => False

theorem Step.nonNegative {act : Act X} (hstep : Step codec pre act post)
    (hpre : pre.storage.NonNegative) (hcovered : ¬ act.Overdraws codec pre.storage) :
    post.storage.NonNegative := by
  cases act with
  | invoke env call outcome =>
      cases outcome with
      | returned value => exact nonNegative_of_returns hstep hpre hcovered
      | aborted =>
          have hsame : post = pre := hstep.2
          rw [hsame]
          exact hpre
  | elsewhere =>
      have hsame : post.storage = pre.storage := hstep
      rw [hsame]
      exact hpre

theorem Step.negative {act : Act X} (hstep : Step codec pre act post)
    (hpre : pre.storage.NonNegative) (hoverdraws : act.Overdraws codec pre.storage) :
    ¬ post.storage.NonNegative := by
  cases act with
  | invoke env call outcome =>
      obtain ⟨value, negative, hreturns, hnegative⟩ := negative_of_overdraws hpre hoverdraws
      cases outcome with
      | returned value' =>
          have hstep' : Returns (call.exec codec env) pre value' post := hstep
          rw [(hstep'.deterministic hreturns).2]
          exact hnegative
      | aborted => exact absurd hreturns (aborts_iff.mp hstep.1 value negative)
  | elsewhere => exact hoverdraws.elim

theorem nonNegative_initial (router admin : Address) :
    (Storage.initial router admin).NonNegative := by
  intro who denom
  exact Int.le_refl 0

/-- **Balances are nonnegative** in every state of a run exactly when none of its callbacks
overdraws. -/
theorem nonNegative_iff_covered {history : List (Entry (Ctx X) (Act X))} {ctx : Ctx X}
    (hrun : Run codec history ctx) :
    NonNegativeThroughout history ctx ↔
      ∀ entry ∈ history, ¬ entry.act.Overdraws codec entry.pre.storage := by
  refine hrun.invariant (fun history ctx => NonNegativeThroughout history ctx ↔
    ∀ entry ∈ history, ¬ entry.act.Overdraws codec entry.pre.storage) ?_ ?_
  · rintro ctx ⟨router, admin, hstorage⟩
    have hstart : ctx.storage.NonNegative := by
      rw [hstorage]
      exact nonNegative_initial router admin
    simp [NonNegativeThroughout, hstart]
  · intro history entry hprev hiff hstep
    rw [List.forall_mem_append, List.forall_mem_singleton, ← hiff]
    unfold NonNegativeThroughout
    rw [List.forall_mem_append, List.forall_mem_singleton]
    constructor
    · rintro ⟨hbefore, hpost⟩
      exact ⟨hbefore, fun hoverdraws => hstep.negative hbefore.2 hoverdraws hpost⟩
    · rintro ⟨hbefore, hcovered⟩
      exact ⟨hbefore, hstep.nonNegative hbefore.2 hcovered⟩

/-! ### Executing a run -/

/-- Execute one call and record it. -/
def Ctx.execute (codec : Codec) (ctx : Ctx X) (env : Env X) (call : Call) :
    Entry (Ctx X) (Act X) :=
  match (call.exec codec env).run ctx with
  | .ok (value, ctx') => ⟨ctx, .invoke env call (.returned value), ctx'⟩
  | .error _ => ⟨ctx, .invoke env call .aborted, ctx⟩

/-- Execute calls one after the other from `ctx`, which `history` led to. -/
def Ctx.executeAll (codec : Codec) (history : List (Entry (Ctx X) (Act X))) (ctx : Ctx X)
    (calls : List (Env X × Call)) : List (Entry (Ctx X) (Act X)) × Ctx X :=
  feed (fun ctx call => ctx.execute codec call.1 call.2) history ctx calls

theorem Ctx.execute_step (codec : Codec) (ctx : Ctx X) (env : Env X) (call : Call) :
    (ctx.execute codec env call).pre = ctx ∧
      Step codec ctx (ctx.execute codec env call).act (ctx.execute codec env call).post ∧
      ∃ outcome, (ctx.execute codec env call).act = .invoke env call outcome := by
  unfold Ctx.execute
  cases hcall : (call.exec codec env).run ctx with
  | error panic => exact ⟨rfl, ⟨⟨panic, hcall⟩, rfl⟩, _, rfl⟩
  | ok outcome => exact ⟨rfl, hcall, _, rfl⟩

theorem Run.executeAll {history : List (Entry (Ctx X) (Act X))} {ctx : Ctx X}
    (hrun : Run codec history ctx) (calls : List (Env X × Call)) :
    Run codec (ctx.executeAll codec history calls).1
      (ctx.executeAll codec history calls).2 := by
  refine Reach.feed_of_step ?_ hrun calls
  intro ctx item
  obtain ⟨hpre, hstep, -⟩ := ctx.execute_step codec item.1 item.2
  exact ⟨hpre, hstep⟩

/-- What an executed call overdraws depends on the call and the state before it. -/
theorem Ctx.overdraws_execute {ctx : Ctx X} {call : Call} :
    (ctx.execute codec env call).act.Overdraws codec (ctx.execute codec env call).pre.storage ↔
      call.Overdraws codec env ctx.storage := by
  obtain ⟨hpre, -, outcome, hact⟩ := ctx.execute_step codec env call
  rw [hpre, hact]
  rfl

/-! ### A payment and a withdrawal -/

/-- The contract at time 10; everyone signed. -/
def sampleEnv : Env Unit where
  self := .contract (.fill 32 2)
  timestamp := 10
  authorized _ := true
  sendPacket _ _ _ _ _ := none

/-- The address with the text `zeroAddressText`. -/
def sampleReceiver : Address := .contract (.fill 32 0)

/-- `amount` units sent from the counterparty to the sample receiver. -/
def incomingPacket (amount : I128) : FungibleTokenPacketData where
  token := ⟨ascii "stroop", amount⟩
  sender := ascii "cosmos1sender"
  receiver := zeroAddressText
  memo := []

def paid : I128 := .ofUInt32 250

def withdrawn : I128 := ⟨-250, by decide⟩

/-- The host decodes the two packets and the receiver's address. -/
def incomingCodec : Codec where
  addressToXdr _ := []
  addressFromXdr bytes :=
    if some bytes = decodeHex zeroAddressText then some sampleReceiver else none
  packetFromXdr bytes :=
    [incomingPacket paid, incomingPacket withdrawn].find? fun packet =>
      decide (packet.toScVal.toXdr = bytes)

/-- The callback of the router for an incoming packet. -/
def incoming (amount : I128) : Call :=
  .onRecvPacket ⟨ascii "cosmos-7", ascii "stellar-0", 1,
    ⟨PORT, PORT, VERSION, ENCODING, (incomingPacket amount).toScVal.toXdr⟩⟩

/-- The contract as constructed. -/
def freshCtx : Ctx Unit :=
  ⟨.initial (.contract (.fill 32 1)) sampleReceiver, ()⟩

/-- Mint 100 units for the receiver, then receive `amount` more. -/
def executeIncoming (amount : I128) : List (Entry (Ctx Unit) (Act Unit)) × Ctx Unit :=
  freshCtx.executeAll incomingCodec []
    [(sampleEnv, .mint sampleReceiver (ascii "stroop") ⟨100, by decide⟩),
      (sampleEnv, incoming amount)]

theorem run_incoming (amount : I128) :
    Run incomingCodec (executeIncoming amount).1 (executeIncoming amount).2 :=
  Run.executeAll (.start ⟨_, _, rfl⟩) _

theorem covered_paid :
    ∀ entry ∈ (executeIncoming paid).1, ¬ entry.act.Overdraws incomingCodec
      entry.pre.storage := by
  unfold executeIncoming Ctx.executeAll
  simp only [feed, List.nil_append, List.cons_append, List.forall_mem_cons,
    Ctx.overdraws_execute]
  refine ⟨fun h => h, ?_, by simp⟩
  have hminted : (freshCtx.execute incomingCodec sampleEnv
      (.mint sampleReceiver (ascii "stroop") ⟨100, by decide⟩)).post.storage.NonNegative := by
    obtain ⟨-, hstep, outcome, hact⟩ := freshCtx.execute_step incomingCodec sampleEnv
      (.mint sampleReceiver (ascii "stroop") ⟨100, by decide⟩)
    refine hstep.nonNegative (nonNegative_initial _ _) ?_
    rw [hact]
    exact fun h => h
  rintro ⟨-, -, packet, receiver, hpacket, -, hoverdraws⟩
  have hpaid : incomingCodec.packetFromXdr (incomingPacket paid).toScVal.toXdr =
      some (incomingPacket paid) := by
    decide +kernel
  obtain rfl : incomingPacket paid = packet := Option.some.inj (hpaid.symm.trans hpacket)
  exact hminted.not_overdraws (by decide) _ _ hoverdraws

/-- A payment of 250 units keeps the balances nonnegative. -/
theorem nonNegative_paid :
    Run incomingCodec (executeIncoming paid).1 (executeIncoming paid).2 ∧
      NonNegativeThroughout (executeIncoming paid).1 (executeIncoming paid).2 :=
  ⟨run_incoming paid, (nonNegative_iff_covered (run_incoming paid)).mpr covered_paid⟩

/-- A packet of -250 units leaves a receiver who held 100 with -150. -/
theorem nonNegative_fails_on_withdrawal :
    Run incomingCodec (executeIncoming withdrawn).1 (executeIncoming withdrawn).2 ∧
      ((executeIncoming withdrawn).2.storage.balanceOf sampleReceiver (ascii "stroop")).val =
        -150 ∧
      ¬ NonNegativeThroughout (executeIncoming withdrawn).1 (executeIncoming withdrawn).2 := by
  have hbalance : ((executeIncoming withdrawn).2.storage.balanceOf sampleReceiver
      (ascii "stroop")).val = -150 := by
    decide +kernel
  refine ⟨run_incoming withdrawn, hbalance, ?_⟩
  rintro ⟨-, hlast⟩
  have hnonNegative := hlast sampleReceiver (ascii "stroop")
  rw [hbalance] at hnonNegative
  exact absurd hnonNegative (by decide)

end StellarIbc.Transfer
