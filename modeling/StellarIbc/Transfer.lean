import StellarIbc.TransferPacket

/-!
# Entrypoints of the `ibc-transfer` contract

Balances, the daily rate limit, `initiate_transfer` and the three callbacks of the
router, as state transformers.  `Call` lists the public methods and `Call.exec`
dispatches them.  A callback that refunds a transfer first decodes the payload, and
returns only if the payload is the XDR of packet data.
-/

namespace StellarIbc.Transfer

open Contract

variable {X : Type}

/-! ### Balances -/

def debit (who : Address) (denom : HostString) (amount : I128) : TransferM X Unit := do
  let cur := (← storage).balanceOf who denom
  panicIf (cur.val < amount.val) .insufficientBalance
  let rest ← orTrap (cur.checkedSub amount)
  setStorage fun s => s.setBalance who denom rest

def credit (who : Address) (denom : HostString) (amount : I128) : TransferM X Unit := do
  let cur := (← storage).balanceOf who denom
  let sum ← orTrap (cur.checkedAdd amount)
  setStorage fun s => s.setBalance who denom sum

def mint (recipient : Address) (denom : HostString) (amount : I128) : TransferM X Unit := do
  panicIf (amount.val ≤ 0) .amountMustBePositive
  let cur := (← storage).balanceOf recipient denom
  let sum ← orTrap (cur.checkedAdd amount)
  setStorage fun s => s.setBalance recipient denom sum

def balanceOf (who : Address) (denom : HostString) : TransferM X I128 := do
  return (← storage).balanceOf who denom

/-! ### Rate limit -/

def currentDay (env : Env X) : UInt64 := env.timestamp / SECS_PER_DAY

def setRateLimit (env : Env X) (denom : HostString) (dailyCap : I128) : TransferM X Unit := do
  let admin ← unwrapOr (← storage).admin .adminNotSet
  requireAuth env admin
  panicIf (dailyCap.val < 0) .amountMustBePositive
  setStorage fun s => s.setDailyCap denom dailyCap

def dailyCap (denom : HostString) : TransferM X (Option I128) := do
  return (← storage).dailyCap denom

def dailyUsage (env : Env X) (denom : HostString) : TransferM X I128 := do
  return ((← storage).usage denom (currentDay env)).getD I128.zero

def enforceRateLimit (env : Env X) (denom : HostString) (amount : I128) :
    TransferM X Unit := do
  match (← storage).dailyCap denom with
  | none => pure ()
  | some cap =>
      let day := currentDay env
      let used := ((← storage).usage denom day).getD I128.zero
      let total ← orTrap (used.checkedAdd amount)
      panicIf (total.val > cap.val) .dailyLimitExceeded
      setStorage fun s => s.setUsage denom day total

/-! ### Sending -/

variable (codec : Codec)

def initiateTransfer (env : Env X) (sender : Address) (sourceClientId denom : HostString)
    (amount : I128) (receiver : HostString) (timeoutTimestamp : UInt64)
    (memo : HostString) : TransferM X UInt64 := do
  requireAuth env sender
  panicIf (amount.val ≤ 0) .amountMustBePositive
  enforceRateLimit env denom amount
  let escrow := env.self
  debit sender denom amount
  credit escrow denom amount
  let senderText ← orTrap (addressToString codec sender)
  let packet : FungibleTokenPacketData := ⟨⟨denom, amount⟩, senderText, receiver, memo⟩
  let value ← orTrap (encodeIcs20Json packet)
  let payload : Payload := ⟨PORT, PORT, VERSION, ENCODING, value⟩
  let routerAddr ← unwrapOr (← storage).router .routerNotSet
  invokeSendPacket env routerAddr sourceClientId timeoutTimestamp [payload]

/-! ### Callbacks of the router -/

def requireRouter (env : Env X) : TransferM X Unit := do
  let routerAddr ← unwrapOr (← storage).router .routerNotSet
  requireAuth env routerAddr

def decodePacket (value : Bytes) : TransferM X FungibleTokenPacketData :=
  unwrapOr (codec.packetFromXdr value) .invalidPacketData

def refund (env : Env X) (packet : FungibleTokenPacketData) : TransferM X Unit := do
  let escrow := env.self
  let senderAddr ← unwrapOr (stringToAddress codec packet.sender) .invalidPacketData
  debit escrow packet.token.denom packet.token.amount
  credit senderAddr packet.token.denom packet.token.amount

def onRecvPacket (env : Env X) (callback : OnRecvPacketCallback) : TransferM X Bytes := do
  requireRouter env
  panicIf (callback.payload.destPort ≠ PORT) .unknownDestPort
  let packet ← decodePacket codec callback.payload.value
  let receiverAddr ← unwrapOr (stringToAddress codec packet.receiver) .invalidPacketData
  credit receiverAddr packet.token.denom packet.token.amount
  return [SUCCESS_ACK_BYTE]

def onAcknowledgementPacket (env : Env X) (callback : OnAcknowledgementPacketCallback) :
    TransferM X Unit := do
  requireRouter env
  panicIf (callback.payload.sourcePort ≠ PORT) .unknownSourcePort
  if isSuccessAck callback.acknowledgement then
    return ()
  else
    let packet ← decodePacket codec callback.payload.value
    refund codec env packet

def onTimeoutPacket (env : Env X) (callback : OnTimeoutPacketCallback) :
    TransferM X Unit := do
  requireRouter env
  panicIf (callback.payload.sourcePort ≠ PORT) .unknownSourcePort
  let packet ← decodePacket codec callback.payload.value
  refund codec env packet

/-! ### The public methods -/

inductive Call where
  | setRateLimit (denom : HostString) (dailyCap : I128)
  | dailyCap (denom : HostString)
  | dailyUsage (denom : HostString)
  | mint (recipient : Address) (denom : HostString) (amount : I128)
  | balanceOf (who : Address) (denom : HostString)
  | initiateTransfer (sender : Address) (sourceClientId denom : HostString) (amount : I128)
      (receiver : HostString) (timeoutTimestamp : UInt64) (memo : HostString)
  | onRecvPacket (callback : OnRecvPacketCallback)
  | onAcknowledgementPacket (callback : OnAcknowledgementPacketCallback)
  | onTimeoutPacket (callback : OnTimeoutPacketCallback)
deriving DecidableEq

abbrev Call.Result : Call → Type
  | .setRateLimit .. => Unit
  | .dailyCap .. => Option I128
  | .dailyUsage .. => I128
  | .mint .. => Unit
  | .balanceOf .. => I128
  | .initiateTransfer .. => UInt64
  | .onRecvPacket .. => Bytes
  | .onAcknowledgementPacket .. => Unit
  | .onTimeoutPacket .. => Unit

def Call.exec (env : Env X) : (call : Call) → TransferM X call.Result
  | .setRateLimit denom cap => Transfer.setRateLimit env denom cap
  | .dailyCap denom => Transfer.dailyCap denom
  | .dailyUsage denom => Transfer.dailyUsage env denom
  | .mint recipient denom amount => Transfer.mint recipient denom amount
  | .balanceOf who denom => Transfer.balanceOf who denom
  | .initiateTransfer sender sourceClientId denom amount receiver timeoutTimestamp memo =>
      Transfer.initiateTransfer codec env sender sourceClientId denom amount receiver
        timeoutTimestamp memo
  | .onRecvPacket callback => Transfer.onRecvPacket codec env callback
  | .onAcknowledgementPacket callback => Transfer.onAcknowledgementPacket codec env callback
  | .onTimeoutPacket callback => Transfer.onTimeoutPacket codec env callback

/-! ### When they return -/

variable {codec} {env : Env X} {pre post : Ctx X}

theorem returns_debit {who : Address} {denom : HostString} {amount : I128} {result : Unit} :
    Returns (debit who denom amount) pre result post ↔
      ∃ rest : I128, amount.val ≤ (pre.storage.balanceOf who denom).val ∧
        rest.val = (pre.storage.balanceOf who denom).val - amount.val ∧
        post = { pre with storage := pre.storage.setBalance who denom rest } := by
  simp only [debit, returns_bind, returns_storage, returns_panicIf, returns_orTrap,
    returns_setStorage, I128.checkedSub_eq_some_iff, Int.not_lt]
  constructor
  · rintro ⟨_, _, ⟨rfl, rfl⟩, _, _, ⟨hle, rfl⟩, rest, _, ⟨hrest, rfl⟩, rfl⟩
    exact ⟨rest, hle, hrest, rfl⟩
  · rintro ⟨rest, hle, hrest, rfl⟩
    exact ⟨_, _, ⟨rfl, rfl⟩, (), _, ⟨hle, rfl⟩, rest, _, ⟨hrest, rfl⟩, rfl⟩

theorem returns_credit {who : Address} {denom : HostString} {amount : I128} {result : Unit} :
    Returns (credit who denom amount) pre result post ↔
      ∃ sum : I128, sum.val = (pre.storage.balanceOf who denom).val + amount.val ∧
        post = { pre with storage := pre.storage.setBalance who denom sum } := by
  simp only [credit, returns_bind, returns_storage, returns_orTrap, returns_setStorage,
    I128.checkedAdd_eq_some_iff]
  constructor
  · rintro ⟨_, _, ⟨rfl, rfl⟩, sum, _, ⟨hsum, rfl⟩, rfl⟩
    exact ⟨sum, hsum, rfl⟩
  · rintro ⟨sum, hsum, rfl⟩
    exact ⟨_, _, ⟨rfl, rfl⟩, sum, _, ⟨hsum, rfl⟩, rfl⟩

theorem returns_enforceRateLimit {denom : HostString} {amount : I128} {result : Unit} :
    Returns (enforceRateLimit env denom amount) pre result post ↔
      (pre.storage.dailyCap denom = none ∧ post = pre) ∨
        ∃ cap total : I128, pre.storage.dailyCap denom = some cap ∧
          total.val = ((pre.storage.usage denom (currentDay env)).getD I128.zero).val +
            amount.val ∧
          total.val ≤ cap.val ∧
          post = { pre with storage := pre.storage.setUsage denom (currentDay env) total } := by
  simp only [enforceRateLimit, returns_bind, returns_storage]
  constructor
  · rintro ⟨_, middle, ⟨rfl, rfl⟩, h⟩
    cases hcap : middle.storage.dailyCap denom with
    | none =>
        simp only [hcap, returns_pure] at h
        exact .inl ⟨rfl, h.2⟩
    | some cap =>
        simp only [hcap, returns_bind, returns_storage, returns_orTrap, returns_panicIf,
          returns_setStorage, I128.checkedAdd_eq_some_iff, gt_iff_lt, Int.not_lt] at h
        obtain ⟨_, _, ⟨rfl, rfl⟩, total, _, ⟨htotal, rfl⟩, _, _, ⟨hle, rfl⟩, rfl⟩ := h
        exact .inr ⟨cap, total, rfl, htotal, hle, rfl⟩
  · rintro (⟨hcap, rfl⟩ | ⟨cap, total, hcap, htotal, hle, rfl⟩)
    · refine ⟨_, _, ⟨rfl, rfl⟩, ?_⟩
      simp [hcap]
    · refine ⟨_, _, ⟨rfl, rfl⟩, ?_⟩
      simp only [hcap, returns_bind, returns_storage, returns_orTrap, returns_panicIf,
        returns_setStorage, I128.checkedAdd_eq_some_iff, gt_iff_lt, Int.not_lt]
      exact ⟨_, _, ⟨rfl, rfl⟩, total, _, ⟨htotal, rfl⟩, (), _, ⟨hle, rfl⟩, rfl⟩

/-- `amount` of `denom` went from one address to another, and no other balance changed. -/
def Moves (source target : Address) (denom : HostString) (amount : I128)
    (pre post : Storage) : Prop :=
  ∀ who coin, (post.balanceOf who coin).val = (pre.balanceOf who coin).val
    - (if who = source ∧ coin = denom then amount.val else 0)
    + (if who = target ∧ coin = denom then amount.val else 0)

theorem moves_of_debit_credit {source target : Address} {denom : HostString} {amount : I128}
    {middle : Ctx X} {result result' : Unit}
    (hdebit : Returns (debit source denom amount) pre result middle)
    (hcredit : Returns (credit target denom amount) middle result' post) :
    Moves source target denom amount pre.storage post.storage := by
  obtain ⟨rest, -, hrest, rfl⟩ := returns_debit.mp hdebit
  obtain ⟨sum, hsum, rfl⟩ := returns_credit.mp hcredit
  intro who coin
  simp only [Storage.balanceOf_setBalance] at hsum ⊢
  by_cases htarget : who = target ∧ coin = denom
  · obtain ⟨rfl, rfl⟩ := htarget
    by_cases hsource : who = source
    · subst hsource
      simp only [and_self, if_true] at hsum ⊢
      rw [hsum, hrest]
    · simp only [and_self, if_true, hsource, false_and, if_false, sub_zero] at hsum ⊢
      exact hsum
  · rw [if_neg htarget, if_neg htarget]
    by_cases hsource : who = source ∧ coin = denom
    · rw [if_pos hsource, if_pos hsource, hrest, hsource.1, hsource.2, add_zero]
    · rw [if_neg hsource, if_neg hsource, sub_zero, add_zero]

/-- An accepted transfer of `packet`, sent as the JSON `value`. -/
structure TransferSpec (codec : Codec) (env : Env X) (sender : Address) (client : HostString)
    (timeout : UInt64) (packet : FungibleTokenPacketData) (value : Bytes) (sequence : UInt64)
    (pre post : Ctx X) : Prop where
  authorised : env.authorized sender = true
  positive : 0 < packet.token.amount.val
  escrowed : Moves sender env.self packet.token.denom packet.token.amount pre.storage
    post.storage
  senderText : addressToString codec sender = some packet.sender
  encoded : encodeIcs20Json packet = some value
  sent : ∃ router, pre.storage.router = some router ∧
    env.sendPacket router client timeout [⟨PORT, PORT, VERSION, ENCODING, value⟩] pre.ext =
      some (sequence, post.ext)

theorem returns_initiateTransfer {sender : Address} {client denom receiver memo : HostString}
    {amount : I128} {timeout sequence : UInt64}
    (h : Returns (initiateTransfer codec env sender client denom amount receiver timeout memo)
      pre sequence post) :
    ∃ text value, TransferSpec codec env sender client timeout
      ⟨⟨denom, amount⟩, text, receiver, memo⟩ value sequence pre post := by
  simp only [initiateTransfer, returns_bind, returns_requireAuth, returns_panicIf,
    returns_orTrap, returns_storage, returns_unwrapOr, returns_invokeSendPacket,
    Int.not_le] at h
  obtain ⟨_, _, ⟨hauth, rfl⟩, _, _, ⟨hamount, rfl⟩, _, limited, hlimit, _, debited, hdebit, _,
    credited, hcredit, text, _, ⟨htext, rfl⟩, value, _, ⟨hvalue, rfl⟩, _, _, ⟨rfl, rfl⟩,
    router, _, ⟨hrouter, rfl⟩, ext, hsend, rfl⟩ := h
  have hmoves := moves_of_debit_credit hdebit hcredit
  obtain ⟨rest, -, -, rfl⟩ := returns_debit.mp hdebit
  obtain ⟨sum, -, rfl⟩ := returns_credit.mp hcredit
  -- the rate limit writes no balance, no router address and nothing outside the contract
  rcases returns_enforceRateLimit.mp hlimit with ⟨-, rfl⟩ | ⟨cap, total, -, -, -, rfl⟩
  · exact ⟨text, value, hauth, hamount, hmoves, htext, hvalue, router, hrouter, hsend⟩
  · exact ⟨text, value, hauth, hamount, hmoves, htext, hvalue, router, hrouter, hsend⟩

/-- The router authorised the call. -/
def FromRouter (env : Env X) (s : Storage) : Prop :=
  ∃ router, s.router = some router ∧ env.authorized router = true

theorem returns_requireRouter {result : Unit} :
    Returns (requireRouter env) pre result post ↔
      FromRouter env pre.storage ∧ post = pre := by
  simp only [requireRouter, returns_bind, returns_storage, returns_unwrapOr,
    returns_requireAuth]
  constructor
  · rintro ⟨_, _, ⟨rfl, rfl⟩, router, _, ⟨hrouter, rfl⟩, hauth, rfl⟩
    exact ⟨⟨router, hrouter, hauth⟩, rfl⟩
  · rintro ⟨⟨router, hrouter, hauth⟩, rfl⟩
    exact ⟨_, _, ⟨rfl, rfl⟩, router, _, ⟨hrouter, rfl⟩, hauth, rfl⟩

theorem returns_onRecvPacket {callback : OnRecvPacketCallback} {result : Bytes} :
    Returns (onRecvPacket codec env callback) pre result post ↔
      FromRouter env pre.storage ∧ callback.payload.destPort = PORT ∧
        ∃ packet receiver, codec.packetFromXdr callback.payload.value = some packet ∧
          stringToAddress codec packet.receiver = some receiver ∧
          result = [SUCCESS_ACK_BYTE] ∧
          Returns (credit receiver packet.token.denom packet.token.amount) pre () post := by
  simp only [onRecvPacket, decodePacket, returns_bind, returns_requireRouter, returns_panicIf,
    returns_unwrapOr, returns_pure, ne_eq, not_not]
  constructor
  · rintro ⟨_, _, ⟨hrouter, rfl⟩, _, _, ⟨hport, rfl⟩, packet, _, ⟨hpacket, rfl⟩, receiver, _,
      ⟨hreceiver, rfl⟩, _, _, hcredit, rfl, rfl⟩
    exact ⟨hrouter, hport, packet, receiver, hpacket, hreceiver, rfl, hcredit⟩
  · rintro ⟨hrouter, hport, packet, receiver, hpacket, hreceiver, rfl, hcredit⟩
    exact ⟨(), _, ⟨hrouter, rfl⟩, (), _, ⟨hport, rfl⟩, packet, _, ⟨hpacket, rfl⟩, receiver, _,
      ⟨hreceiver, rfl⟩, (), _, hcredit, rfl, rfl⟩

theorem returns_refund {packet : FungibleTokenPacketData} {result : Unit} :
    Returns (refund codec env packet) pre result post ↔
      ∃ sender middle, stringToAddress codec packet.sender = some sender ∧
        Returns (debit env.self packet.token.denom packet.token.amount) pre () middle ∧
        Returns (credit sender packet.token.denom packet.token.amount) middle () post := by
  simp only [refund, returns_bind, returns_unwrapOr]
  constructor
  · rintro ⟨sender, _, ⟨hsender, rfl⟩, _, middle, hdebit, hcredit⟩
    exact ⟨sender, middle, hsender, hdebit, hcredit⟩
  · rintro ⟨sender, middle, hsender, hdebit, hcredit⟩
    exact ⟨sender, _, ⟨hsender, rfl⟩, (), middle, hdebit, hcredit⟩

/-- The packet of a payload is refunded. -/
def Refunds (codec : Codec) (env : Env X) (value : Bytes) (pre post : Ctx X) : Prop :=
  ∃ packet, codec.packetFromXdr value = some packet ∧
    Returns (refund codec env packet) pre () post

theorem returns_onTimeoutPacket {callback : OnTimeoutPacketCallback} {result : Unit} :
    Returns (onTimeoutPacket codec env callback) pre result post ↔
      FromRouter env pre.storage ∧ callback.payload.sourcePort = PORT ∧
        Refunds codec env callback.payload.value pre post := by
  simp only [onTimeoutPacket, decodePacket, returns_bind, returns_requireRouter,
    returns_panicIf, returns_unwrapOr, ne_eq, not_not]
  constructor
  · rintro ⟨_, _, ⟨hrouter, rfl⟩, _, _, ⟨hport, rfl⟩, packet, _, ⟨hpacket, rfl⟩, hrefund⟩
    exact ⟨hrouter, hport, packet, hpacket, hrefund⟩
  · rintro ⟨hrouter, hport, packet, hpacket, hrefund⟩
    exact ⟨(), _, ⟨hrouter, rfl⟩, (), _, ⟨hport, rfl⟩, packet, _, ⟨hpacket, rfl⟩, hrefund⟩

theorem returns_onAcknowledgementPacket {callback : OnAcknowledgementPacketCallback}
    {result : Unit} :
    Returns (onAcknowledgementPacket codec env callback) pre result post ↔
      FromRouter env pre.storage ∧ callback.payload.sourcePort = PORT ∧
        (isSuccessAck callback.acknowledgement = true ∧ post = pre ∨
          ¬ isSuccessAck callback.acknowledgement = true ∧
            Refunds codec env callback.payload.value pre post) := by
  simp only [onAcknowledgementPacket, decodePacket, returns_bind, returns_requireRouter,
    returns_panicIf, returns_unwrapOr, returns_ite, returns_pure, ne_eq, not_not]
  constructor
  · rintro ⟨_, _, ⟨hrouter, rfl⟩, _, _, ⟨hport, rfl⟩, ⟨hack, -, rfl⟩ | ⟨hack, packet, _,
      ⟨hpacket, rfl⟩, hrefund⟩⟩
    · exact ⟨hrouter, hport, .inl ⟨hack, rfl⟩⟩
    · exact ⟨hrouter, hport, .inr ⟨hack, packet, hpacket, hrefund⟩⟩
  · rintro ⟨hrouter, hport, ⟨hack, rfl⟩ | ⟨hack, packet, hpacket, hrefund⟩⟩
    · exact ⟨(), _, ⟨hrouter, rfl⟩, (), _, ⟨hport, rfl⟩, .inl ⟨hack, trivial, rfl⟩⟩
    · exact ⟨(), _, ⟨hrouter, rfl⟩, (), _, ⟨hport, rfl⟩, .inr ⟨hack, packet, _,
        ⟨hpacket, rfl⟩, hrefund⟩⟩

/-! ### What was sent does not decode -/

/-- The JSON of a packet starts with a brace and the XDR of a struct with a zero byte, so
no such JSON decodes. -/
theorem packetFromXdr_encodeIcs20Json (hcodec : codec.RejectsOthers)
    {packet : FungibleTokenPacketData} {value : Bytes}
    (hamount : 0 < packet.token.amount.val) (h : encodeIcs20Json packet = some value) :
    codec.packetFromXdr value = none := by
  have hjson : value.head? = some Json.openBrace := by
    rw [encodeIcs20Json_eq hamount (fits_of_encodeIcs20Json h), Option.some.injEq] at h
    rw [← h]
    rfl
  cases hdecode : codec.packetFromXdr value with
  | none => rfl
  | some other =>
      have hxdr : value.head? = some 0 := by
        rw [hcodec value other hdecode]
        exact ScVal.toXdr_struct_head _
      exact absurd (hjson.symm.trans hxdr) (by decide)

end StellarIbc.Transfer
