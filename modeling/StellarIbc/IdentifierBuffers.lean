import StellarIbc.RegistryHistory
import StellarIbc.RouterDestination
import StellarIbc.RouterSource

/-!
# Identifiers and the buffers they are copied into

An identifier may have 128 bytes.  `mint_client_id` copies a client type into 64 bytes,
with a dash and a counter behind it, and the path builders copy a client id into 128 bytes
with nine more behind it, so some identifiers that validation admits do not fit: a client
of such a type cannot be created, and a packet sent to such a counterparty can neither be
acknowledged nor timed out.
-/

namespace StellarIbc.Router

open Contract

variable {X : Type} {sha256 : Bytes → Hash}

/-! ### Minting -/

/-- The decimal digits of the counter; zero has one. -/
def decimalLength (n : UInt32) : Nat := max 1 (Nat.digits 10 n.toNat).length

theorem tmpDigits_of_lt {slots n : Nat} (h : n < 10 ^ slots) :
    ∃ digits, tmpDigits slots n = some digits := by
  induction slots generalizing n with
  | zero =>
      obtain rfl : n = 0 := by omega
      exact ⟨[], rfl⟩
  | succ slots ih =>
      cases n with
      | zero => exact ⟨[], rfl⟩
      | succ n =>
          have hdiv : (n + 1) / 10 < 10 ^ slots := by
            rw [Nat.div_lt_iff_lt_mul (by decide)]
            rwa [Nat.pow_succ] at h
          obtain ⟨rest, hrest⟩ := ih hdiv
          refine ⟨UInt8.ofNat (48 + (n + 1) % 10) :: rest, ?_⟩
          rw [tmpDigits, hrest]
          rfl

theorem length_writeU32 {room : Nat} {n : UInt32} {digits : Bytes}
    (h : writeU32 room n = some digits) :
    digits.length = decimalLength n ∧ decimalLength n ≤ room := by
  unfold writeU32 at h
  split at h
  · next hzero =>
      split at h
      · next hroom =>
          obtain rfl := Option.some.inj h
          subst hzero
          exact ⟨rfl, hroom⟩
      · cases h
  · next hne =>
      simp only [Option.bind_eq_bind, Option.bind_eq_some_iff] at h
      obtain ⟨tmp, htmp, hwrite⟩ := h
      have hlength : tmp.length = decimalLength n := by
        have hpos : n.toNat ≠ 0 := fun hzero => hne (UInt32.toNat_inj.mp hzero)
        have hdigits : Nat.digits 10 n.toNat ≠ [] := Nat.digits_ne_nil_iff_ne_zero.mpr hpos
        rw [tmpDigits_eq_digits htmp, List.length_map, decimalLength,
          Nat.max_eq_right (List.length_pos_iff.mpr hdigits)]
      split at hwrite
      · next hroom =>
          obtain rfl := Option.some.inj hwrite
          rw [List.length_reverse, hlength]
          exact ⟨rfl, hlength ▸ hroom⟩
      · cases hwrite

theorem writeU32_of_room {room : Nat} {n : UInt32} (h : decimalLength n ≤ room) :
    ∃ digits, writeU32 room n = some digits := by
  unfold writeU32
  by_cases hzero : n = 0
  · have hroom : 0 < room := by
      have hone : 1 ≤ decimalLength n := Nat.le_max_left ..
      omega
    exact ⟨[48], by simp [hzero, hroom]⟩
  · have hlt : n.toNat < 10 ^ 10 := by
      have hsize := n.toNat_lt
      omega
    obtain ⟨tmp, htmp⟩ := tmpDigits_of_lt hlt
    have hroom : tmp.length ≤ room := by
      rw [tmpDigits_eq_digits htmp, List.length_map]
      exact Nat.le_trans (Nat.le_max_right ..) h
    exact ⟨tmp.reverse, by simp [hzero, htmp, hroom]⟩

/-- The counter has a next value, and the type, the dash and the digits fit. -/
theorem mintClientId_returns_iff {clientType : HostString} {ctx : Ctx X} :
    (∃ clientId post, Returns (mintClientId clientType) ctx clientId post) ↔
      ((ctx.storage.nextClientId clientType).getD 0).toNat + 1 < 2 ^ 32 ∧
        clientType.length + 1 +
          decimalLength ((ctx.storage.nextClientId clientType).getD 0) ≤ 64 := by
  simp only [mintClientId, returns_bind, returns_storage, returns_trapUnless,
    returns_setStorage, returns_orTrap, returns_pure]
  constructor
  · rintro ⟨_, _, _, _, ⟨rfl, rfl⟩, _, _, ⟨hnext, rfl⟩, _, _, rfl, _, _, ⟨hdash, rfl⟩, digits,
      _, ⟨hdigits, rfl⟩, rfl, rfl⟩
    have hroom := (length_writeU32 hdigits).2
    exact ⟨hnext, by omega⟩
  · rintro ⟨hnext, hfits⟩
    obtain ⟨digits, hdigits⟩ := writeU32_of_room
      (by omega : decimalLength ((ctx.storage.nextClientId clientType).getD 0) ≤
        64 - (clientType.length + 1))
    have hdash : clientType.length + 1 ≤ 64 := by omega
    exact ⟨_, _, _, _, ⟨rfl, rfl⟩, (), _, ⟨hnext, rfl⟩, (), _, rfl, (), _, ⟨hdash, rfl⟩, digits,
      _, ⟨hdigits, rfl⟩, rfl, rfl⟩

theorem length_mintClientId {clientType clientId : HostString} {pre post : Ctx X}
    (h : Returns (mintClientId clientType) pre clientId post) : clientId.length ≤ 64 := by
  simp only [mintClientId, returns_bind, returns_storage, returns_trapUnless,
    returns_setStorage, returns_orTrap, returns_pure] at h
  obtain ⟨_, _, ⟨rfl, rfl⟩, _, _, ⟨-, rfl⟩, _, _, rfl, _, _, ⟨hdash, rfl⟩, digits, _,
    ⟨hdigits, rfl⟩, rfl, rfl⟩ := h
  obtain ⟨hlength, hroom⟩ := length_writeU32 hdigits
  rw [List.length_append, List.length_cons]
  omega

/-! ### Paths and hashes -/

/-- The path builders and the hash take `id` without leaving their buffers. -/
structure IdFits (sha256 : Bytes → Hash) (id : HostString) (sequence : UInt64) : Prop where
  path : ∀ (X : Type) (ctx : Ctx X) discriminator,
    ∃ path, Returns (v2PathKey id discriminator sequence) ctx path ctx
  counterpartyPath : ∀ (X : Type) (ctx : Ctx X) commitmentPrefix discriminator,
    ∃ path, Returns (counterpartyV2Path commitmentPrefix id discriminator sequence) ctx path ctx
  hash : ∀ (X : Type) (ctx : Ctx X),
    ∃ hash post, Returns (sha256String sha256 id) ctx hash post

theorem idFits_iff {id : HostString} {sequence : UInt64} :
    IdFits sha256 id sequence ↔ id.length ≤ 119 := by
  constructor
  · intro hfits
    obtain ⟨path, hpath⟩ :=
      hfits.path Unit freshState.start PACKET_COMMITMENT_DISCRIMINATOR
    have hbuffer := (returns_v2PathKey.mp hpath).1
    omega
  · intro hlength
    have hbuffer : id.length + 9 ≤ 128 := by omega
    have hscratch : id.length ≤ 256 := by omega
    exact ⟨fun X ctx discriminator => ⟨_, returns_v2PathKey.mpr ⟨hbuffer, rfl, rfl⟩⟩,
      fun X ctx commitmentPrefix discriminator =>
        ⟨_, returns_counterpartyV2Path.mpr ⟨hbuffer, rfl, rfl⟩⟩,
      fun X ctx => ⟨_, _, returns_sha256String.mpr ⟨hscratch, rfl, rfl⟩⟩⟩

/-- Identifiers fit every buffer: a client id minted from `clientType` at counter `n`, the
counterparty id, and the paths that settle a packet sent to it. -/
structure BuffersFit (sha256 : Bytes → Hash) (clientType counterpartyClientId : HostString)
    (n : UInt32) (sequence : UInt64) : Prop where
  minted : ∀ (X : Type) (ctx : Ctx X), (ctx.storage.nextClientId clientType).getD 0 = n →
    n.toNat + 1 < 2 ^ 32 → ∃ clientId post,
      Returns (mintClientId clientType) ctx clientId post ∧ IdFits sha256 clientId sequence
  counterparty : IdFits sha256 counterpartyClientId sequence
  settled : ∀ (X : Type) (history : List (Entry (State X) (Act X))) (state : State X),
    Run sha256 history state → ∀ entry ∈ history, ∀ packet, SentPacket entry packet →
      packet.destClient = counterpartyClientId →
      ∀ cp, state.storage.counterparty packet.sourceClient = some cp → ∀ ctx : Ctx X,
        (∃ path, Returns (counterpartyAckCommitmentPath cp.commitmentPrefix cp.clientId
          packet.sequence) ctx path ctx) ∧
        ∃ path, Returns (counterpartyPacketReceiptPath cp.commitmentPrefix cp.clientId
          packet.sequence) ctx path ctx

/-- The counterparty a packet was sent to is still registered when the packet is settled. -/
theorem destClient_of_sent {history : List (Entry (State X) (Act X))} {state : State X}
    {entry : Entry (State X) (Act X)} {packet : Packet} {cp : Counterparty}
    (hrun : Run sha256 history state) (hmem : entry ∈ history)
    (hsent : SentPacket entry packet)
    (hcp : state.storage.counterparty packet.sourceClient = some cp) :
    cp.clientId = packet.destClient := by
  obtain ⟨-, old, hold, hdest⟩ := hsent
  obtain ⟨before, after, hsplit⟩ := List.append_of_mem hmem
  obtain ⟨hbefore, hstep⟩ := hrun.split hsplit
  have hkept := (hstep.registryKept (minted_of_run hbefore) (paired_of_run hbefore)).trans
    (kept_of_run hrun hmem)
  obtain rfl := Option.some.inj (hcp.symm.trans (hkept.counterparty _ _ hold))
  exact hdest

/-- **Identifiers fit every buffer** exactly when the minted id has at most 64 bytes and the
counterparty id at most 119. -/
theorem buffersFit_iff (sha256 : Bytes → Hash) (clientType counterpartyClientId : HostString)
    (n : UInt32) (sequence : UInt64) :
    BuffersFit sha256 clientType counterpartyClientId n sequence ↔
      (n.toNat + 1 < 2 ^ 32 → clientType.length + 1 + decimalLength n ≤ 64) ∧
        counterpartyClientId.length ≤ 119 := by
  constructor
  · intro hfits
    refine ⟨?_, idFits_iff.mp hfits.counterparty⟩
    intro hnext
    -- a router whose counter stands at `n`
    obtain ⟨clientId, post, hmint, -⟩ := hfits.minted Unit
      ⟨{ freshState.storage with nextClientId := fun _ => some n }, (), []⟩ rfl hnext
    exact (mintClientId_returns_iff.mp ⟨clientId, post, hmint⟩).2
  · rintro ⟨hminted, hcounterparty⟩
    refine ⟨?_, idFits_iff.mpr hcounterparty, ?_⟩
    · rintro X ctx rfl hnext
      obtain ⟨clientId, post, hmint⟩ := mintClientId_returns_iff.mpr ⟨hnext, hminted hnext⟩
      have hlength := length_mintClientId hmint
      exact ⟨clientId, post, hmint, idFits_iff.mpr (by omega)⟩
    · rintro X history state hrun entry hmem packet hsent rfl cp hcp ctx
      rw [← destClient_of_sent hrun hmem hsent hcp] at hcounterparty
      have hfits : IdFits sha256 cp.clientId packet.sequence := idFits_iff.mpr hcounterparty
      exact ⟨hfits.counterpartyPath X ctx _ _, hfits.counterpartyPath X ctx _ _⟩

/-- A client type and a counterparty id that validation admits. -/
def longType : HostString := List.replicate 63 97

def longId : HostString := List.replicate 120 97

/-- Register both, fail to create a client of the type, send a packet to the counterparty,
and try to acknowledge it and to time it out. -/
def strandedPacket : List (Env Unit × Call) :=
  [(acceptingEnv, .registerClientType longType zeroAddress),
    (acceptingEnv, .createClient longType [] [] 1),
    (acceptingEnv, .registerClientType (ascii "stellar") zeroAddress),
    (acceptingEnv, .createClient (ascii "stellar") [] [] 1),
    (acceptingEnv, .registerCounterparty (ascii "stellar-0") longId [ascii "ibc"]),
    (acceptingEnv, .registerPort (ascii "transfer") zeroAddress),
    (acceptingEnv, .sendPacket (ascii "stellar-0") 100 [transferPayload]),
    (acceptingEnv, .acknowledgePacket ⟨1, ascii "stellar-0", longId, 100, [transferPayload]⟩
      [ascii "ok"] [] 5),
    ({ acceptingEnv with invoke := fun _ call _ =>
        match call with
        | .getTimestampAtHeight _ _ => some (101, ())
        | call => some (call.accept, ()) },
      .timeoutPacket ⟨1, ascii "stellar-0", longId, 100, [transferPayload]⟩ [] 5)]

/-- Both identifiers were accepted and the packet was sent, but the client of the long type
does not exist, the packet is not settled and neither of its paths can be built. -/
theorem buffersFit_strandedPacket :
    ((freshState.executeAll Sha256.sha256 [] strandedPacket).2.storage.clientTypeAddr
        longType = some zeroAddress ∧
      (freshState.executeAll Sha256.sha256 [] strandedPacket).2.storage.counterparty
        (ascii "stellar-0") = some ⟨longId, [ascii "ibc"]⟩ ∧
      sequencesOn (ascii "stellar-0")
        (freshState.executeAll Sha256.sha256 [] strandedPacket).1 = [1] ∧
      (freshState.executeAll Sha256.sha256 [] strandedPacket).2.storage.nextClientId
        longType = none ∧
      (freshState.executeAll Sha256.sha256 [] strandedPacket).1.filterMap
        (·.act.settled) = []) ∧
      ¬ BuffersFit Sha256.sha256 longType (ascii "cosmos-7") 0 1 ∧
      ¬ BuffersFit Sha256.sha256 (ascii "stellar") longId 0 1 := by
  refine ⟨?_, ?_, ?_⟩
  · rw [Sha256.sha256_eq_eval]
    decide +kernel
  · rintro hfits
    obtain ⟨clientId, post, hmint, -⟩ :=
      hfits.minted Unit freshState.start rfl (by decide)
    have hroom := (mintClientId_returns_iff.mp ⟨clientId, post, hmint⟩).2
    revert hroom
    decide
  · rintro hfits
    have hbuffer := idFits_iff.mp hfits.counterparty
    revert hbuffer
    decide

end StellarIbc.Router
