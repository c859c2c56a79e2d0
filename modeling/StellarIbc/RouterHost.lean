import StellarIbc.RouterTypes

/-!
# ICS-24 paths and commitments of the router

The functions of `ics24_host.rs`.  They run in the router monad because they copy
strings through fixed scratch buffers, which traps on longer strings, and because
every string they hash is part of the run's record.  Next to each stands the pure
value it computes, with the list of strings hashed on the way; the binding lemmas
say that these values determine what was committed as long as no two of those
strings collide.
-/

namespace StellarIbc.Router

open Contract

variable {X : Type} (sha256 : Bytes → Hash)

def PACKET_COMMITMENT_DISCRIMINATOR : UInt8 := 0x01
def PACKET_RECEIPT_DISCRIMINATOR : UInt8 := 0x02
def ACK_COMMITMENT_DISCRIMINATOR : UInt8 := 0x03

def RECEIPT_SENTINEL : UInt8 := 0x01
def COMMITMENT_VERSION_PREFIX : UInt8 := 0x02

def ERROR_ACK_PREIMAGE : Bytes := ascii "UNIVERSAL_ERROR_ACKNOWLEDGEMENT"

/-! ### Paths -/

/-- The v2 path layout `client_id || discriminator || be64(sequence)`. -/
def pathBytes (clientId : HostString) (discriminator : UInt8) (sequence : UInt64) : Bytes :=
  clientId ++ discriminator :: be64 sequence

/-- The path goes through a 128-byte buffer, so longer ids trap. -/
def v2PathKey (clientId : HostString) (discriminator : UInt8) (sequence : UInt64) :
    RouterM X Bytes := do
  trapUnless (clientId.length + 9 ≤ 128)
  return pathBytes clientId discriminator sequence

def packetCommitmentPath (sourceClientId : HostString) (sequence : UInt64) :
    RouterM X Bytes :=
  v2PathKey sourceClientId PACKET_COMMITMENT_DISCRIMINATOR sequence

def packetReceiptPath (destClientId : HostString) (sequence : UInt64) : RouterM X Bytes :=
  v2PathKey destClientId PACKET_RECEIPT_DISCRIMINATOR sequence

def ackCommitmentPath (destClientId : HostString) (sequence : UInt64) : RouterM X Bytes :=
  v2PathKey destClientId ACK_COMMITMENT_DISCRIMINATOR sequence

/-- The undelimited layout is still injective: the last nine bytes have a fixed
width, so the client id is what is left of them. -/
theorem pathBytes_injective {c c' : HostString} {d d' : UInt8} {n n' : UInt64}
    (h : pathBytes c d n = pathBytes c' d' n') : c = c' ∧ d = d' ∧ n = n' := by
  have hwidth : (d :: be64 n).length = (d' :: be64 n').length := by simp
  obtain ⟨hclient, htail⟩ := List.append_inj' h hwidth
  obtain ⟨hdisc, hseq⟩ := List.cons_eq_cons.mp htail
  exact ⟨hclient, hdisc, be64_injective hseq⟩

theorem pathBytes_eq_iff {c c' : HostString} {d d' : UInt8} {n n' : UInt64} :
    pathBytes c d n = pathBytes c' d' n' ↔ c = c' ∧ d = d' ∧ n = n' := by
  constructor
  · exact pathBytes_injective
  · rintro ⟨rfl, rfl, rfl⟩
    rfl

@[simp] theorem returns_v2PathKey {c : HostString} {d : UInt8} {n : UInt64}
    {pre post : Ctx X} {path : Bytes} :
    Returns (v2PathKey c d n) pre path post ↔
      c.length + 9 ≤ 128 ∧ path = pathBytes c d n ∧ post = pre := by
  simp only [v2PathKey, returns_bind, returns_trapUnless, returns_pure]
  constructor
  · rintro ⟨_, _, ⟨hfits, rfl⟩, rfl, rfl⟩
    exact ⟨hfits, rfl, rfl⟩
  · rintro ⟨hfits, rfl, rfl⟩
    exact ⟨(), _, ⟨hfits, rfl⟩, rfl, rfl⟩

/-! ### Hashing -/

def sha256Bytes (data : Bytes) : RouterM X Hash := do
  emit (.hashed data)
  return sha256 data

/-- Strings are copied through a 256-byte buffer before they are hashed. -/
def sha256String (s : HostString) : RouterM X Hash := do
  trapUnless (s.length ≤ 256)
  sha256Bytes sha256 s

/-- The state after hashing `strings` in order. -/
def Ctx.hashing (ctx : Ctx X) (strings : List Bytes) : Ctx X :=
  { ctx with log := ctx.log ++ strings.map .hashed }

@[simp] theorem Ctx.hashing_storage (ctx : Ctx X) (strings : List Bytes) :
    (ctx.hashing strings).storage = ctx.storage := rfl

@[simp] theorem Ctx.hashing_ext (ctx : Ctx X) (strings : List Bytes) :
    (ctx.hashing strings).ext = ctx.ext := rfl

@[simp] theorem Ctx.hashing_log (ctx : Ctx X) (strings : List Bytes) :
    (ctx.hashing strings).log = ctx.log ++ strings.map .hashed := rfl

@[simp] theorem Ctx.hashing_nil (ctx : Ctx X) : ctx.hashing [] = ctx := by
  simp [Ctx.hashing]

@[simp] theorem Ctx.hashing_hashing (ctx : Ctx X) (first second : List Bytes) :
    (ctx.hashing first).hashing second = ctx.hashing (first ++ second) := by
  simp [Ctx.hashing]

variable {sha256}

@[simp] theorem returns_sha256Bytes {data : Bytes} {pre post : Ctx X} {result : Hash} :
    Returns (sha256Bytes sha256 data) pre result post ↔
      result = sha256 data ∧ post = pre.hashing [data] := by
  simp only [sha256Bytes, returns_bind, returns_emit, returns_pure]
  constructor
  · rintro ⟨_, _, rfl, rfl, rfl⟩
    exact ⟨rfl, rfl⟩
  · rintro ⟨rfl, rfl⟩
    exact ⟨(), _, rfl, rfl, rfl⟩

@[simp] theorem returns_sha256String {s : HostString} {pre post : Ctx X} {result : Hash} :
    Returns (sha256String sha256 s) pre result post ↔
      s.length ≤ 256 ∧ result = sha256 s ∧ post = pre.hashing [s] := by
  simp only [sha256String, returns_bind, returns_trapUnless, returns_sha256Bytes]
  constructor
  · rintro ⟨_, _, ⟨hfits, rfl⟩, rfl, rfl⟩
    exact ⟨hfits, rfl, rfl⟩
  · rintro ⟨hfits, rfl, rfl⟩
    exact ⟨(), _, ⟨hfits, rfl⟩, rfl, rfl⟩

variable (sha256)

def errorAckHash : RouterM X Hash := sha256Bytes sha256 ERROR_ACK_PREIMAGE

/-! ### Payload commitments -/

def commitPayload (payload : Payload) : RouterM X Hash := do
  let sourcePort ← sha256String sha256 payload.sourcePort
  let destPort ← sha256String sha256 payload.destPort
  let version ← sha256String sha256 payload.version
  let encoding ← sha256String sha256 payload.encoding
  let value ← sha256Bytes sha256 payload.value
  sha256Bytes sha256
    (sourcePort.val ++ destPort.val ++ version.val ++ encoding.val ++ value.val)

/-- The string `commitPayload` hashes last. -/
def payloadPreimage (payload : Payload) : Bytes :=
  (sha256 payload.sourcePort).val ++ (sha256 payload.destPort).val ++
    (sha256 payload.version).val ++ (sha256 payload.encoding).val ++
    (sha256 payload.value).val

def v2PayloadCommitment (payload : Payload) : Hash :=
  sha256 (payloadPreimage sha256 payload)

def payloadStrings (payload : Payload) : List Bytes :=
  [payload.sourcePort, payload.destPort, payload.version, payload.encoding,
    payload.value, payloadPreimage sha256 payload]

/-- The strings of a payload that pass through the 256-byte buffer. -/
def Payload.Fits (payload : Payload) : Prop :=
  payload.sourcePort.length ≤ 256 ∧ payload.destPort.length ≤ 256 ∧
    payload.version.length ≤ 256 ∧ payload.encoding.length ≤ 256

variable {sha256}

theorem returns_commitPayload {payload : Payload} {pre post : Ctx X} {result : Hash} :
    Returns (commitPayload sha256 payload) pre result post ↔
      Payload.Fits payload ∧ result = v2PayloadCommitment sha256 payload ∧
        post = pre.hashing (payloadStrings sha256 payload) := by
  simp only [commitPayload, returns_bind, returns_sha256String, returns_sha256Bytes]
  constructor
  · rintro ⟨_, _, ⟨hsource, rfl, rfl⟩, _, _, ⟨hdest, rfl, rfl⟩, _, _, ⟨hversion, rfl, rfl⟩,
      _, _, ⟨hencoding, rfl, rfl⟩, _, _, ⟨rfl, rfl⟩, rfl, rfl⟩
    refine ⟨⟨hsource, hdest, hversion, hencoding⟩, rfl, ?_⟩
    simp [payloadStrings, payloadPreimage]
  · rintro ⟨⟨hsource, hdest, hversion, hencoding⟩, rfl, rfl⟩
    refine ⟨_, _, ⟨hsource, rfl, rfl⟩, _, _, ⟨hdest, rfl, rfl⟩, _, _, ⟨hversion, rfl, rfl⟩,
      _, _, ⟨hencoding, rfl, rfl⟩, _, _, ⟨rfl, rfl⟩, rfl, ?_⟩
    simp [payloadStrings, payloadPreimage]

/-- Equal payload commitments come from equal payloads. -/
theorem v2PayloadCommitment_binding {strings : Set Bytes} (hinj : Set.InjOn sha256 strings)
    {p q : Payload} (hp : ∀ s ∈ payloadStrings sha256 p, s ∈ strings)
    (hq : ∀ s ∈ payloadStrings sha256 q, s ∈ strings)
    (h : v2PayloadCommitment sha256 p = v2PayloadCommitment sha256 q) : p = q := by
  simp only [payloadStrings, List.forall_mem_cons] at hp hq
  obtain ⟨hp1, hp2, hp3, hp4, hp5, hp6, -⟩ := hp
  obtain ⟨hq1, hq2, hq3, hq4, hq5, hq6, -⟩ := hq
  have hpre : payloadPreimage sha256 p = payloadPreimage sha256 q := hinj hp6 hq6 h
  -- the five hashes have one width, so the preimages split position by position
  simp only [payloadPreimage] at hpre
  have hlen : ∀ a b : Bytes, (sha256 a).val.length = (sha256 b).val.length := by
    intro a b
    rw [(sha256 a).property, (sha256 b).property]
  obtain ⟨hpre, hvalue⟩ := List.append_inj' hpre (hlen _ _)
  obtain ⟨hpre, hencoding⟩ := List.append_inj' hpre (hlen _ _)
  obtain ⟨hpre, hversion⟩ := List.append_inj' hpre (hlen _ _)
  obtain ⟨hsource, hdest⟩ := List.append_inj' hpre (hlen _ _)
  cases p with
  | mk psource pdest pversion pencoding pvalue =>
  cases q with
  | mk qsource qdest qversion qencoding qvalue =>
  obtain rfl : psource = qsource := hinj hp1 hq1 (BytesN.ext hsource)
  obtain rfl : pdest = qdest := hinj hp2 hq2 (BytesN.ext hdest)
  obtain rfl : pversion = qversion := hinj hp3 hq3 (BytesN.ext hversion)
  obtain rfl : pencoding = qencoding := hinj hp4 hq4 (BytesN.ext hencoding)
  obtain rfl : pvalue = qvalue := hinj hp5 hq5 (BytesN.ext hvalue)
  rfl

/-! ### Packet commitments -/

variable (sha256)

def commitV2Packet (packet : Packet) : RouterM X Hash := do
  let payloadHashes ← packet.payloads.mapM (commitPayload sha256)
  let payloadsConcat := (payloadHashes.map Subtype.val).flatten
  let destClient ← sha256String sha256 packet.destClient
  let timeout ← sha256Bytes sha256 (be64 packet.timeoutTimestamp)
  let payloads ← sha256Bytes sha256 payloadsConcat
  sha256Bytes sha256
    ([COMMITMENT_VERSION_PREFIX] ++ destClient.val ++ timeout.val ++ payloads.val)

def payloadsConcat (payloads : List Payload) : Bytes :=
  ((payloads.map (v2PayloadCommitment sha256)).map Subtype.val).flatten

/-- The string `commitV2Packet` hashes last. -/
def packetPreimage (packet : Packet) : Bytes :=
  [COMMITMENT_VERSION_PREFIX] ++ (sha256 packet.destClient).val ++
    (sha256 (be64 packet.timeoutTimestamp)).val ++
    (sha256 (payloadsConcat sha256 packet.payloads)).val

def v2PacketCommitment (packet : Packet) : Hash := sha256 (packetPreimage sha256 packet)

def packetStrings (packet : Packet) : List Bytes :=
  packet.payloads.flatMap (payloadStrings sha256) ++
    [packet.destClient, be64 packet.timeoutTimestamp,
      payloadsConcat sha256 packet.payloads, packetPreimage sha256 packet]

variable {sha256}

theorem returns_mapM_commitPayload {payloads : List Payload} {pre post : Ctx X}
    {result : List Hash} :
    Returns (payloads.mapM (commitPayload sha256)) pre result post ↔
      (∀ payload ∈ payloads, Payload.Fits payload) ∧
        result = payloads.map (v2PayloadCommitment sha256) ∧
        post = pre.hashing (payloads.flatMap (payloadStrings sha256)) := by
  induction payloads generalizing pre post result with
  | nil => simp [returns_pure]
  | cons payload payloads ih =>
      simp only [List.mapM_cons, returns_bind, returns_pure, returns_commitPayload, ih,
        List.forall_mem_cons]
      constructor
      · rintro ⟨_, _, ⟨hfits, rfl, rfl⟩, _, _, ⟨hrest, rfl, rfl⟩, rfl, rfl⟩
        exact ⟨⟨hfits, hrest⟩, rfl, by simp⟩
      · rintro ⟨⟨hfits, hrest⟩, rfl, rfl⟩
        exact ⟨_, _, ⟨hfits, rfl, rfl⟩, _, _, ⟨hrest, rfl, rfl⟩, rfl, by simp⟩

theorem returns_commitV2Packet {packet : Packet} {pre post : Ctx X} {result : Hash} :
    Returns (commitV2Packet sha256 packet) pre result post ↔
      ((∀ payload ∈ packet.payloads, Payload.Fits payload) ∧
          packet.destClient.length ≤ 256) ∧
        result = v2PacketCommitment sha256 packet ∧
        post = pre.hashing (packetStrings sha256 packet) := by
  simp only [commitV2Packet, returns_bind, returns_sha256String, returns_sha256Bytes,
    returns_mapM_commitPayload]
  constructor
  · rintro ⟨_, _, ⟨hpayloads, rfl, rfl⟩, _, _, ⟨hdest, rfl, rfl⟩, _, _, ⟨rfl, rfl⟩, _, _,
      ⟨rfl, rfl⟩, rfl, rfl⟩
    exact ⟨⟨hpayloads, hdest⟩, rfl,
      by simp [packetStrings, packetPreimage, payloadsConcat]⟩
  · rintro ⟨⟨hpayloads, hdest⟩, rfl, rfl⟩
    exact ⟨_, _, ⟨hpayloads, rfl, rfl⟩, _, _, ⟨hdest, rfl, rfl⟩, _, _, ⟨rfl, rfl⟩, _, _,
      ⟨rfl, rfl⟩, rfl, by simp [packetStrings, packetPreimage, payloadsConcat]⟩

/-- Equal packet commitments fix the destination client, the timeout and the whole
payload list.  The sequence and the source client are not hashed. -/
theorem v2PacketCommitment_binding {strings : Set Bytes} (hinj : Set.InjOn sha256 strings)
    {p q : Packet} (hp : ∀ s ∈ packetStrings sha256 p, s ∈ strings)
    (hq : ∀ s ∈ packetStrings sha256 q, s ∈ strings)
    (h : v2PacketCommitment sha256 p = v2PacketCommitment sha256 q) :
    p.destClient = q.destClient ∧ p.timeoutTimestamp = q.timeoutTimestamp ∧
      p.payloads = q.payloads := by
  simp only [packetStrings, List.mem_append, or_imp, forall_and, List.forall_mem_cons]
    at hp hq
  obtain ⟨hppayloads, hpdest, hptimeout, hpconcat, hppre, -⟩ := hp
  obtain ⟨hqpayloads, hqdest, hqtimeout, hqconcat, hqpre, -⟩ := hq
  have hpre : packetPreimage sha256 p = packetPreimage sha256 q := hinj hppre hqpre h
  simp only [packetPreimage] at hpre
  have hlen : ∀ a b : Bytes, (sha256 a).val.length = (sha256 b).val.length := by
    intro a b
    rw [(sha256 a).property, (sha256 b).property]
  obtain ⟨hpre, hpayloads⟩ := List.append_inj' hpre (hlen _ _)
  obtain ⟨hpre, htimeout⟩ := List.append_inj' hpre (hlen _ _)
  obtain ⟨-, hdest⟩ := List.append_inj' hpre (hlen _ _)
  refine ⟨hinj hpdest hqdest (BytesN.ext hdest),
    be64_injective (hinj hptimeout hqtimeout (BytesN.ext htimeout)), ?_⟩
  have hconcat := hinj hpconcat hqconcat (BytesN.ext hpayloads)
  have hcommitments : p.payloads.map (v2PayloadCommitment sha256) =
      q.payloads.map (v2PayloadCommitment sha256) :=
    flatten_injective_of_width (by decide) hconcat
  apply eq_of_map_eq_map _ hcommitments
  intro a ha b hb hab
  exact v2PayloadCommitment_binding hinj
    (fun s hs => hppayloads s (List.mem_flatMap.mpr ⟨a, ha, hs⟩))
    (fun s hs => hqpayloads s (List.mem_flatMap.mpr ⟨b, hb, hs⟩)) hab

/-! ### Acknowledgement commitments -/

variable (sha256)

def commitV2Acknowledgement (appAcks : List Bytes) : RouterM X Hash := do
  let hashes ← appAcks.mapM (sha256Bytes sha256)
  let concat := (hashes.map Subtype.val).flatten
  sha256Bytes sha256 ([COMMITMENT_VERSION_PREFIX] ++ concat)

/-- The string `commitV2Acknowledgement` hashes last. -/
def ackPreimage (appAcks : List Bytes) : Bytes :=
  [COMMITMENT_VERSION_PREFIX] ++ ((appAcks.map sha256).map Subtype.val).flatten

def v2AckCommitment (appAcks : List Bytes) : Hash := sha256 (ackPreimage sha256 appAcks)

def ackStrings (appAcks : List Bytes) : List Bytes :=
  appAcks ++ [ackPreimage sha256 appAcks]

variable {sha256}

theorem returns_mapM_sha256Bytes {strings : List Bytes} {pre post : Ctx X}
    {result : List Hash} :
    Returns (strings.mapM (sha256Bytes sha256)) pre result post ↔
      result = strings.map sha256 ∧ post = pre.hashing strings := by
  induction strings generalizing pre post result with
  | nil => simp [returns_pure]
  | cons string strings ih =>
      simp only [List.mapM_cons, returns_bind, returns_sha256Bytes, returns_pure, ih]
      constructor
      · rintro ⟨_, _, ⟨rfl, rfl⟩, _, _, ⟨rfl, rfl⟩, rfl, rfl⟩
        exact ⟨rfl, by simp⟩
      · rintro ⟨rfl, rfl⟩
        exact ⟨_, _, ⟨rfl, rfl⟩, _, _, ⟨rfl, rfl⟩, rfl, by simp⟩

theorem returns_commitV2Acknowledgement {appAcks : List Bytes} {pre post : Ctx X}
    {result : Hash} :
    Returns (commitV2Acknowledgement sha256 appAcks) pre result post ↔
      result = v2AckCommitment sha256 appAcks ∧
        post = pre.hashing (ackStrings sha256 appAcks) := by
  simp only [commitV2Acknowledgement, returns_bind, returns_sha256Bytes,
    returns_mapM_sha256Bytes]
  constructor
  · rintro ⟨_, _, ⟨rfl, rfl⟩, rfl, rfl⟩
    exact ⟨rfl, by simp [ackStrings, ackPreimage]⟩
  · rintro ⟨rfl, rfl⟩
    exact ⟨_, _, ⟨rfl, rfl⟩, rfl, by simp [ackStrings, ackPreimage]⟩

/-- Equal acknowledgement commitments come from equal lists, their length included. -/
theorem v2AckCommitment_binding {strings : Set Bytes} (hinj : Set.InjOn sha256 strings)
    {left right : List Bytes} (hleft : ∀ s ∈ ackStrings sha256 left, s ∈ strings)
    (hright : ∀ s ∈ ackStrings sha256 right, s ∈ strings)
    (h : v2AckCommitment sha256 left = v2AckCommitment sha256 right) : left = right := by
  simp only [ackStrings, List.mem_append, or_imp, forall_and, List.forall_mem_cons]
    at hleft hright
  obtain ⟨hleftAcks, hleftPre, -⟩ := hleft
  obtain ⟨hrightAcks, hrightPre, -⟩ := hright
  have hpre : ackPreimage sha256 left = ackPreimage sha256 right :=
    hinj hleftPre hrightPre h
  have hhashes : left.map sha256 = right.map sha256 :=
    flatten_injective_of_width (by decide) (List.append_cancel_left hpre)
  exact eq_of_map_eq_map
    (fun a ha b hb hab => hinj (hleftAcks a ha) (hrightAcks b hb) hab) hhashes

end StellarIbc.Router
