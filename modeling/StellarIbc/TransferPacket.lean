import StellarIbc.Json
import StellarIbc.TransferTypes

/-!
# Packet data of the `ibc-transfer` contract

The functions that turn packet data into bytes and back: the ICS-20 JSON that
`initiate_transfer` puts into a payload, the hexadecimal texts of addresses, and the
test for a success acknowledgement.  `none` is a trap of the host.  The JSON is put
together without escaping, so it says what the packet says exactly when the denom, the
sender, the receiver and the memo have nothing to escape.
-/

namespace StellarIbc.Transfer

/-! ### The JSON encoder -/

/-- The text goes through a buffer of 512 bytes. -/
def appendString (buf : Bytes) (s : HostString) : Option Bytes :=
  if s.length ≤ 512 then some (buf ++ s) else none

/-- The loop of `append_decimal`: `i` is the first digit written so far, and stepping
below the buffer traps. -/
def writeDigits : (i n : Nat) → (digits : Bytes) → Option (Nat × Bytes)
  | i, 0, digits => some (i, digits)
  | 0, _ + 1, _ => none
  | i + 1, n + 1, digits =>
      writeDigits i ((n + 1) / 10) (digits.set i (0x30 + UInt8.ofNat ((n + 1) % 10)))

def appendDecimal (buf : Bytes) (n : I128) : Option Bytes :=
  if n.val ≤ 0 then
    some (buf ++ ascii "0")
  else do
    let (i, digits) ← writeDigits 40 n.val.toNat (List.replicate 40 0)
    return buf ++ digits.drop i

def encodeIcs20Json (packet : FungibleTokenPacketData) : Option Bytes := do
  let buf := ascii "\x7b\"denom\":\""
  let buf ← appendString buf packet.token.denom
  let buf := buf ++ ascii "\",\"amount\":\""
  let buf ← appendDecimal buf packet.token.amount
  let buf := buf ++ ascii "\",\"sender\":\""
  let buf ← appendString buf packet.sender
  let buf := buf ++ ascii "\",\"receiver\":\""
  let buf ← appendString buf packet.receiver
  let buf := buf ++ ascii "\",\"memo\":\""
  let buf ← appendString buf packet.memo
  return buf ++ ascii "\"\x7d"

/-! ### Addresses -/

def nibbleToHex (n : UInt8) : UInt8 :=
  if n < 10 then 0x30 + n else 0x61 + (n - 10)

def hexToNibble (c : UInt8) : Option UInt8 :=
  if 0x30 ≤ c ∧ c ≤ 0x39 then some (c - 0x30)
  else if 0x61 ≤ c ∧ c ≤ 0x66 then some (c - 0x61 + 10)
  else if 0x41 ≤ c ∧ c ≤ 0x46 then some (c - 0x41 + 10)
  else none

/-- The XDR goes through a buffer of 256 bytes. -/
def addressToString (codec : Codec) (addr : Address) : Option HostString :=
  let xdr := codec.addressToXdr addr
  if xdr.length ≤ 256 then
    some (xdr.flatMap fun (byte : UInt8) => [nibbleToHex (byte >>> 4), nibbleToHex (byte &&& 0x0f)])
  else
    none

/-- The loop of `string_to_address`, over pairs of digits. -/
def decodeHex : Bytes → Option Bytes
  | [] => some []
  | [_] => none
  | high :: low :: rest => do
      let hi ← hexToNibble high
      let lo ← hexToNibble low
      let bytes ← decodeHex rest
      return ((hi <<< 4) ||| lo) :: bytes

/-- Every failure panics with `InvalidPacketData`. -/
def stringToAddress (codec : Codec) (s : HostString) : Option Address :=
  if s.length % 2 ≠ 0 ∨ s.length > 512 then
    none
  else do
    let bytes ← decodeHex s
    codec.addressFromXdr bytes

/-! ### Acknowledgements -/

/-- The one byte `0x01`, or a text that starts with the result member. -/
def isSuccessAck (ack : Bytes) : Bool :=
  if ack.length = 1 ∧ ack.getD 0 0 = SUCCESS_ACK_BYTE then
    true
  else
    let expected := ascii "\x7b\"result\""
    if ack.length < expected.length then
      false
    else
      expected.zipIdx.all fun item => ack.getD item.2 0 == item.1

/-! ### The decimal writer -/

@[simp] theorem writeDigits_zero (i : Nat) (digits : Bytes) :
    writeDigits i 0 digits = some (i, digits) := by
  cases i <;> rfl

/-- The loop leaves the decimal of `n` in front of the digits it found. -/
theorem writeDigits_spec {i n : Nat} {digits : Bytes} (hn : n < 10 ^ i)
    (hi : i ≤ digits.length) :
    ∃ j written, writeDigits i n digits = some (j, written) ∧
      written.drop j = (if n = 0 then [] else decimal n) ++ digits.drop i := by
  induction i generalizing n digits with
  | zero =>
      obtain rfl : n = 0 := by omega
      exact ⟨0, digits, by simp, by simp⟩
  | succ i ih =>
      cases n with
      | zero => exact ⟨i + 1, digits, by simp, by simp⟩
      | succ n =>
          have hdiv : (n + 1) / 10 < 10 ^ i := by
            rw [Nat.pow_succ] at hn
            omega
          obtain ⟨j, written, hrun, hdrop⟩ :=
            @ih ((n + 1) / 10) (digits.set i (0x30 + UInt8.ofNat ((n + 1) % 10))) hdiv
              (by rw [List.length_set]; omega)
          refine ⟨j, written, hrun, ?_⟩
          have hset : (digits.set i (0x30 + UInt8.ofNat ((n + 1) % 10))).drop i =
              (0x30 + UInt8.ofNat ((n + 1) % 10)) :: digits.drop (i + 1) := by
            rw [List.drop_eq_getElem_cons (by rw [List.length_set]; omega),
              List.getElem_set_self, List.drop_set_of_lt (Nat.lt_succ_self i)]
          rw [hdrop, hset, if_neg (Nat.succ_ne_zero n)]
          by_cases hsmall : n + 1 < 10
          · rw [if_pos (by omega), decimal_of_lt hsmall, Nat.mod_eq_of_lt hsmall]
            rfl
          · have hlarge : 10 ≤ n + 1 := Nat.le_of_not_lt hsmall
            rw [if_neg (by omega), decimal_of_le hlarge]
            simp

/-- Forty digits are enough for every amount. -/
theorem appendDecimal_of_pos {n : I128} (buf : Bytes) (hn : 0 < n.val) :
    appendDecimal buf n = some (buf ++ decimal n.val.toNat) := by
  have hbound : n.val.toNat < 10 ^ 40 := by
    have hlt := n.property.2
    omega
  obtain ⟨j, written, hrun, hdrop⟩ :=
    @writeDigits_spec 40 n.val.toNat (List.replicate 40 0) hbound (by simp)
  have hne : n.val.toNat ≠ 0 := by omega
  have hrest : (List.replicate 40 (0 : UInt8)).drop 40 = [] := by simp
  rw [if_neg hne, hrest, List.append_nil] at hdrop
  rw [appendDecimal, if_neg (by omega), hrun]
  simp [hdrop]

/-! ### What the text says -/

namespace FungibleTokenPacketData

/-- The five members of ICS-20 packet data. -/
def fields (packet : FungibleTokenPacketData) : List (Bytes × Bytes) :=
  [(ascii "denom", packet.token.denom), (ascii "amount", decimal packet.token.amount.val.toNat),
    (ascii "sender", packet.sender), (ascii "receiver", packet.receiver),
    (ascii "memo", packet.memo)]

/-- The four texts the sender of the transfer chooses or stands for. -/
def texts (packet : FungibleTokenPacketData) : List Bytes :=
  [packet.token.denom, packet.sender, packet.receiver, packet.memo]

/-- Every text fits the buffer it is copied through. -/
def Fits (packet : FungibleTokenPacketData) : Prop :=
  ∀ text ∈ packet.texts, text.length ≤ 512

/-- No text has a byte that JSON wants escaped, and all of them are UTF-8. -/
def Verbatim (packet : FungibleTokenPacketData) : Prop :=
  ∀ text ∈ packet.texts, Json.Verbatim text

/-- The packet's JSON is one object with exactly the packet's five members, a reader that
keeps the last member of a name reads the packet's amount, and no other packet has the
same JSON. -/
def FaithfulJson (packet : FungibleTokenPacketData) : Prop :=
  ∃ text members, encodeIcs20Json packet = some text ∧
    Json.parse text = some (.object members) ∧
    members.Perm (Json.membersOf packet.fields) ∧
    Json.readLast (ascii "amount") text = some (decimal packet.token.amount.val.toNat) ∧
    ∀ other : FungibleTokenPacketData, 0 < other.token.amount.val →
      encodeIcs20Json other = some text → other = packet

end FungibleTokenPacketData

/-- The text is the object of the five members, with nothing escaped. -/
theorem encodeIcs20Json_eq {packet : FungibleTokenPacketData}
    (hamount : 0 < packet.token.amount.val) (hfits : packet.Fits) :
    encodeIcs20Json packet =
      some (Json.objectText (ascii "denom", packet.token.denom) packet.fields.tail) := by
  simp only [FungibleTokenPacketData.Fits, FungibleTokenPacketData.texts,
    List.forall_mem_cons] at hfits
  obtain ⟨hdenom, hsender, hreceiver, hmemo, -⟩ := hfits
  simp only [encodeIcs20Json, appendString, if_pos hdenom, if_pos hsender, if_pos hreceiver,
    if_pos hmemo, appendDecimal_of_pos _ hamount, Option.pure_def, Option.bind_eq_bind,
    Option.bind_some]
  have hopen : ascii "\x7b\"denom\":\"" = Json.openBrace :: Json.quote ::
      (ascii "denom" ++ [Json.quote, Json.colon, Json.quote]) := by decide
  have hnext : ∀ name ∈ ["amount", "sender", "receiver", "memo"],
      ascii ("\",\"" ++ name ++ "\":\"") = Json.quote :: Json.comma :: Json.quote ::
        (ascii name ++ [Json.quote, Json.colon, Json.quote]) := by decide
  have hclose : ascii "\"\x7d" = [Json.quote, Json.closeBrace] := by decide
  have hamount := hnext "amount" (by simp)
  have hsender := hnext "sender" (by simp)
  have hreceiver := hnext "receiver" (by simp)
  have hmemo := hnext "memo" (by simp)
  change ascii "\",\"amount\":\"" = _ at hamount
  change ascii "\",\"sender\":\"" = _ at hsender
  change ascii "\",\"receiver\":\"" = _ at hreceiver
  change ascii "\",\"memo\":\"" = _ at hmemo
  rw [hopen, hamount, hsender, hreceiver, hmemo, hclose]
  simp [Json.objectText, Json.memberText, Json.membersTail, FungibleTokenPacketData.fields]

/-- A text that was produced went through the buffers. -/
theorem fits_of_encodeIcs20Json {packet : FungibleTokenPacketData} {text : Bytes}
    (h : encodeIcs20Json packet = some text) : packet.Fits := by
  have happend : ∀ {buf s result : Bytes}, appendString buf s = some result →
      s.length ≤ 512 := by
    intro buf s result happend
    unfold appendString at happend
    split at happend
    · assumption
    · cases happend
  simp only [encodeIcs20Json, Option.bind_eq_bind, Option.bind_eq_some_iff] at h
  obtain ⟨_, hdenom, _, -, _, hsender, _, hreceiver, _, hmemo, -⟩ := h
  simp only [FungibleTokenPacketData.Fits, FungibleTokenPacketData.texts,
    List.forall_mem_cons]
  exact ⟨happend hdenom, happend hsender, happend hreceiver, happend hmemo, by simp⟩

theorem verbatim_names (packet : FungibleTokenPacketData) :
    ∀ field ∈ packet.fields, Json.Verbatim field.1 := by
  have hnames : ∀ name ∈ ["denom", "amount", "sender", "receiver", "memo"],
      Json.Verbatim (ascii name) := by
    decide
  simpa [FungibleTokenPacketData.fields] using hnames

/-- The amount never needs escapes, so the values are verbatim when the texts are. -/
theorem verbatim_iff_values (packet : FungibleTokenPacketData) :
    packet.Verbatim ↔ ∀ field ∈ packet.fields, Json.Verbatim field.2 := by
  have hamount := Json.verbatim_decimal packet.token.amount.val.toNat
  simp only [FungibleTokenPacketData.Verbatim, FungibleTokenPacketData.texts,
    FungibleTokenPacketData.fields, List.forall_mem_cons, hamount, true_and]
  simp

theorem nodup_names (packet : FungibleTokenPacketData) :
    (packet.fields.map Prod.fst).Nodup := by
  have hnames : [ascii "denom", ascii "amount", ascii "sender", ascii "receiver",
      ascii "memo"].Nodup := by decide
  exact hnames

/-- The members determine the packet. -/
theorem fields_injective {packet other : FungibleTokenPacketData}
    (hamount : 0 < packet.token.amount.val) (hother : 0 < other.token.amount.val)
    (h : packet.fields = other.fields) : packet = other := by
  obtain ⟨⟨denom, amount⟩, sender, receiver, memo⟩ := packet
  obtain ⟨⟨denom', amount'⟩, sender', receiver', memo'⟩ := other
  simp only [FungibleTokenPacketData.fields, List.cons.injEq, Prod.mk.injEq, true_and,
    and_true] at h
  obtain ⟨rfl, hdecimal, rfl, rfl, rfl⟩ := h
  have hvalue := decimal_injective hdecimal
  dsimp only at hamount hother
  obtain rfl : amount = amount' := Subtype.ext (by omega)
  rfl

/-- **When the packet JSON is faithful.**  For every packet with a positive amount whose
texts fit their buffers, the JSON says what the packet says exactly when no text needs
escaping. -/
theorem faithfulJson_iff_verbatim {packet : FungibleTokenPacketData}
    (hamount : 0 < packet.token.amount.val) (hfits : packet.Fits) :
    packet.FaithfulJson ↔ packet.Verbatim := by
  have hencode := encodeIcs20Json_eq hamount hfits
  rw [verbatim_iff_values]
  constructor
  · rintro ⟨text, members, htext, hparse, hperm, -, -⟩
    obtain rfl := Option.some.inj (hencode.symm.trans htext)
    refine Json.verbatim_of_parse_objectText ?_ ?_ hparse
    · intro field hfield
      exact (verbatim_names packet field hfield).2
    · intro field hfield item hitem
      exact Json.eq_string_of_mem_membersOf (nodup_names packet) hfield (hperm.subset hitem)
  · intro hverbatim
    have hparse : Json.parse (Json.objectText (ascii "denom", packet.token.denom)
        packet.fields.tail) = some (.object (Json.membersOf packet.fields)) := by
      apply Json.parse_objectText
      intro field hfield
      exact ⟨verbatim_names packet field hfield, hverbatim field hfield⟩
    refine ⟨_, _, hencode, hparse, List.Perm.refl _, Json.readLast_eq_some hparse rfl, ?_⟩
    · intro other hother htext
      rw [encodeIcs20Json_eq hother (fits_of_encodeIcs20Json htext), Option.some.injEq] at htext
      refine (fields_injective hamount hother ?_).symm
      refine Json.objectText_injective rfl ?_ htext.symm
      intro field hfield
      exact (hverbatim field hfield).quote_notMem

/-- The hexadecimal XDR of a contract address. -/
def zeroAddressText : HostString := ascii "0000001200000001" ++ List.replicate 64 0x30

def samplePacket : FungibleTokenPacketData where
  token := ⟨ascii "stroop", ⟨250, by decide⟩⟩
  sender := zeroAddressText
  receiver := ascii "cosmos1receiver"
  memo := ascii "gift"

theorem faithfulJson_samplePacket :
    0 < samplePacket.token.amount.val ∧ samplePacket.Fits ∧ samplePacket.FaithfulJson := by
  have hfits : ∀ text ∈ samplePacket.texts, text.length ≤ 512 := by decide
  have hverbatim : ∀ text ∈ samplePacket.texts, Json.Verbatim text := by decide
  exact ⟨by decide, hfits, (faithfulJson_iff_verbatim (by decide) hfits).mpr hverbatim⟩

/-- A memo that closes its string and adds a second amount. -/
def forgedPacket : FungibleTokenPacketData where
  token := ⟨ascii "stroop", ⟨1, by decide⟩⟩
  sender := zeroAddressText
  receiver := ascii "cosmos1receiver"
  memo := ascii "\",\"amount\":\"1000000"

/-- One unit is escrowed and a million are read. -/
theorem faithfulJson_fails_on_forged_memo :
    0 < forgedPacket.token.amount.val ∧ forgedPacket.Fits ∧
      ((encodeIcs20Json forgedPacket).bind (Json.readLast (ascii "amount"))) =
        some (ascii "1000000") ∧
      ¬ forgedPacket.FaithfulJson := by
  have hfits : ∀ text ∈ forgedPacket.texts, text.length ≤ 512 := by decide
  have hread : ((encodeIcs20Json forgedPacket).bind (Json.readLast (ascii "amount"))) =
      some (ascii "1000000") := by
    decide +kernel
  refine ⟨by decide, hfits, hread, ?_⟩
  rintro ⟨text, members, htext, -, -, hlast, -⟩
  rw [htext, Option.bind_some, hlast] at hread
  exact absurd hread (by decide)

end StellarIbc.Transfer
