import StellarIbc.Router
import Mathlib.Data.Nat.Digits.Defs

/-!
# Clients of the router over runs

A minted client id is the type, a dash and a decimal counter, and the digits hold no
dash: the id determines its type and its number.  The counter only grows, so no id is
minted twice, and the light client of a client never changes.  A client that was frozen
by `update_client` stays frozen.
-/

namespace StellarIbc.Router

open Contract

variable {X : Type} {sha256 : Bytes → Hash} {env : Env X}

/-! ### Digits -/

/-- The digits of the loop are the decimal digits, least significant first. -/
theorem tmpDigits_eq_digits {slots n : Nat} {digits : Bytes}
    (h : tmpDigits slots n = some digits) :
    digits = (Nat.digits 10 n).map fun d => UInt8.ofNat (48 + d) := by
  induction slots generalizing n digits with
  | zero =>
      cases n with
      | zero => simpa [tmpDigits] using h.symm
      | succ n => simp [tmpDigits] at h
  | succ slots ih =>
      cases n with
      | zero => simpa [tmpDigits] using h.symm
      | succ n =>
          simp only [tmpDigits, Option.bind_eq_bind, Option.bind_eq_some_iff, Option.pure_def,
            Option.some.injEq] at h
          obtain ⟨rest, hrest, rfl⟩ := h
          rw [Nat.digits_def' (by decide) (Nat.succ_pos n), List.map_cons, ih hrest]

theorem toNat_digit {d : Nat} (hd : d < 10) : (UInt8.ofNat (48 + d)).toNat = 48 + d := by
  rw [UInt8.toNat_ofNat']
  exact Nat.mod_eq_of_lt (by omega)

/-- What `write_u32` writes are digits that read back as the number. -/
theorem writeU32_spec {room : Nat} {n : UInt32} {digits : Bytes}
    (h : writeU32 room n = some digits) :
    Nat.ofDigits 10 (digits.reverse.map fun byte => byte.toNat - 48) = n.toNat ∧
      ∀ byte ∈ digits, 48 ≤ byte.toNat := by
  unfold writeU32 at h
  split at h
  · next hzero =>
      split at h
      · obtain rfl := Option.some.inj h
        rw [hzero]
        exact ⟨rfl, by simp⟩
      · cases h
  · simp only [Option.bind_eq_bind, Option.bind_eq_some_iff] at h
    obtain ⟨tmp, htmp, hwrite⟩ := h
    split at hwrite
    · obtain rfl := Option.some.inj hwrite
      obtain rfl := tmpDigits_eq_digits htmp
      refine ⟨?_, ?_⟩
      · have hread : ∀ d ∈ Nat.digits 10 n.toNat, (UInt8.ofNat (48 + d)).toNat - 48 = d := by
          intro d hd
          rw [toNat_digit (Nat.digits_lt_base (by decide) hd), Nat.add_sub_cancel_left]
        have hmap : ((Nat.digits 10 n.toNat).map fun d => UInt8.ofNat (48 + d)).map
            (fun byte => byte.toNat - 48) = Nat.digits 10 n.toNat := by
          rw [List.map_map]
          exact (List.map_congr_left hread).trans (List.map_id' _)
        rw [List.reverse_reverse, hmap, Nat.ofDigits_digits]
      · intro byte hmem
        obtain ⟨d, hd, rfl⟩ := List.mem_map.mp (List.mem_reverse.mp hmem)
        rw [toNat_digit (Nat.digits_lt_base (by decide) hd)]
        exact Nat.le_add_right _ _
    · cases hwrite

/-! ### Minted ids -/

/-- `id` is the `n`-th id of `clientType`. -/
def MintedId (clientType : HostString) (n : UInt32) (id : HostString) : Prop :=
  ∃ digits, writeU32 (64 - (clientType.length + 1)) n = some digits ∧
    id = clientType ++ 45 :: digits

/-- The last dash of an id is the one before its number. -/
theorem append_dash_injective {left right digits digits' : Bytes}
    (hdigits : (45 : UInt8) ∉ digits) (hdigits' : (45 : UInt8) ∉ digits')
    (h : left ++ 45 :: digits = right ++ 45 :: digits') : left = right ∧ digits = digits' := by
  rcases List.append_eq_append_iff.mp h with ⟨middle, rfl, htail⟩ | ⟨middle, rfl, htail⟩
  · cases middle with
    | nil =>
        rw [List.nil_append, List.cons_eq_cons] at htail
        exact ⟨(List.append_nil _).symm, htail.2⟩
    | cons byte middle =>
        obtain ⟨-, rfl⟩ := List.cons_eq_cons.mp htail
        simp at hdigits
  · cases middle with
    | nil =>
        rw [List.nil_append, List.cons_eq_cons] at htail
        exact ⟨List.append_nil _, htail.2.symm⟩
    | cons byte middle =>
        obtain ⟨-, rfl⟩ := List.cons_eq_cons.mp htail
        simp at hdigits'

theorem MintedId.injective {clientType clientType' : HostString} {n n' : UInt32}
    {id : HostString} (h : MintedId clientType n id) (h' : MintedId clientType' n' id) :
    clientType = clientType' ∧ n = n' := by
  obtain ⟨digits, hwrite, rfl⟩ := h
  obtain ⟨digits', hwrite', hid⟩ := h'
  have hdash : ∀ {digits : Bytes}, (∀ byte ∈ digits, 48 ≤ byte.toNat) →
      (45 : UInt8) ∉ digits := by
    intro digits hbytes hmem
    exact absurd (hbytes _ hmem) (by decide)
  obtain ⟨hvalue, hbytes⟩ := writeU32_spec hwrite
  obtain ⟨hvalue', hbytes'⟩ := writeU32_spec hwrite'
  obtain ⟨rfl, rfl⟩ := append_dash_injective (hdash hbytes) (hdash hbytes') hid
  exact ⟨rfl, UInt32.toNat_inj.mp (hvalue.symm.trans hvalue')⟩

/-! ### The client tables -/

/-- The entries that `create_client` and `update_client` write. -/
structure ClientTables where
  nextClientId : HostString → Option UInt32
  clientType : HostString → Option HostString
  clientLcAddr : HostString → Option Address
  frozen : HostString → Option Bool

def Storage.clients (s : Storage) : ClientTables :=
  ⟨s.nextClientId, s.clientType, s.clientLcAddr, s.frozen⟩

variable {pre post : State X} {log : List Effect}

theorem Lifecycle.clients_eq {call : Call} {value : call.Result}
    (h : Lifecycle sha256 env pre log post call value) :
    post.storage.clients = pre.storage.clients := by
  rw [h.storage_eq]
  rfl

/-- `create_client` mints the next id of the type and points it to the light client
registered for the type. -/
theorem returns_createClient_tables {first last : Ctx X} {clientType clientId : HostString}
    {clientState consensusState : Bytes} {height : UInt64}
    (h : Returns (createClient env clientType clientState consensusState height) first
      clientId last) :
    ∃ n lcAddr, first.storage.clientTypeAddr clientType = some lcAddr ∧
      n = (first.storage.nextClientId clientType).getD 0 ∧ n.toNat + 1 < 2 ^ 32 ∧
      MintedId clientType n clientId ∧
      last.storage.clientTypeAddr = first.storage.clientTypeAddr ∧
      last.storage.clients = ⟨Function.update first.storage.nextClientId clientType (some (n + 1)),
        Function.update first.storage.clientType clientId (some clientType),
        Function.update first.storage.clientLcAddr clientId (some lcAddr),
        first.storage.frozen⟩ := by
  simp only [createClient, mintClientId, returns_bind, returns_storage, returns_unwrapOr,
    returns_trapUnless, returns_setStorage, returns_orTrap, returns_pure] at h
  obtain ⟨_, _, ⟨rfl, rfl⟩, lcAddr, _, ⟨hlc, rfl⟩, _, _, ⟨_, _, ⟨rfl, rfl⟩, _, _, ⟨hfits, rfl⟩,
    _, _, rfl, _, _, ⟨-, rfl⟩, digits, _, ⟨hdigits, rfl⟩, rfl, rfl⟩, _, _, hcall, _, _, rfl, _,
    _, rfl, rfl, rfl⟩ := h
  obtain ⟨ext, -, rfl⟩ := returns_invokeContract.mp hcall
  exact ⟨_, lcAddr, hlc, rfl, hfits, ⟨digits, hdigits, rfl⟩, rfl, rfl⟩

/-- `create_client` calls the light client once, for the id it returns. -/
theorem returns_createClient_calls {first last : Ctx X} {clientType clientId : HostString}
    {clientState consensusState : Bytes} {height : UInt64}
    (h : Returns (createClient env clientType clientState consensusState height) first
      clientId last) :
    ∃ lcAddr, first.storage.clientTypeAddr clientType = some lcAddr ∧
      env.invoke lcAddr (.initialise clientId clientState consensusState height) first.ext =
        some ((), last.ext) := by
  simp only [createClient, mintClientId, returns_bind, returns_storage, returns_unwrapOr,
    returns_trapUnless, returns_setStorage, returns_orTrap, returns_pure] at h
  obtain ⟨_, _, ⟨rfl, rfl⟩, lcAddr, _, ⟨hlc, rfl⟩, _, _, ⟨_, _, ⟨rfl, rfl⟩, _, _, ⟨-, rfl⟩,
    _, _, rfl, _, _, ⟨-, rfl⟩, digits, _, ⟨-, rfl⟩, rfl, rfl⟩, _, _, hcall, _, _, rfl, _,
    _, rfl, rfl, rfl⟩ := h
  obtain ⟨ext, hinvoke, rfl⟩ := returns_invokeContract.mp hcall
  exact ⟨lcAddr, hlc, hinvoke⟩

/-- `update_client` asks for misbehaviour first.  It freezes the client in the light client
and in its own table, or it updates the light client and writes nothing. -/
theorem returns_updateClient_calls {first last : Ctx X} {c : HostString} {message : Bytes}
    {result : UInt64} (h : Returns (updateClient env c message) first result last) :
    (first.storage.frozen c).getD false = false ∧
      ∃ lcAddr ext, first.storage.clientLcAddr c = some lcAddr ∧
        ((env.invoke lcAddr (.checkForMisbehaviour c message) first.ext = some (true, ext) ∧
            env.invoke lcAddr (.updateStateOnMisbehaviour c message) ext =
              some ((), last.ext) ∧
            result = 0 ∧ last.storage = { first.storage with
              frozen := Function.update first.storage.frozen c (some true) }) ∨
          (env.invoke lcAddr (.checkForMisbehaviour c message) first.ext = some (false, ext) ∧
            env.invoke lcAddr (.updateState c message) ext = some (result, last.ext) ∧
            last.storage = first.storage)) := by
  simp only [updateClient, returns_bind, returns_storage, returns_panicIf, returns_unwrapOr,
    returns_ite, returns_setStorage, returns_pure, Bool.not_eq_true] at h
  obtain ⟨_, _, ⟨rfl, rfl⟩, _, _, ⟨hlive, rfl⟩, _, _, ⟨rfl, rfl⟩, lcAddr, _, ⟨hlc, rfl⟩, _, _,
    hcheck, hbranch⟩ := h
  obtain ⟨ext, hasked, rfl⟩ := returns_invokeContract.mp hcheck
  refine ⟨hlive, lcAddr, ext, hlc, ?_⟩
  rcases hbranch with ⟨rfl, _, _, hcall, _, _, rfl, rfl, rfl⟩ | ⟨rfl, hcall⟩
  · obtain ⟨ext', hfroze, rfl⟩ := returns_invokeContract.mp hcall
    exact .inl ⟨hasked, hfroze, rfl, rfl⟩
  · obtain ⟨ext', hupdated, rfl⟩ := returns_invokeContract.mp hcall
    exact .inr ⟨hasked, hupdated, rfl⟩

/-- `update_client` fails for a frozen client; else it freezes it or leaves the tables. -/
theorem returns_updateClient_tables {first last : Ctx X} {c : HostString} {message : Bytes}
    {result : UInt64} (h : Returns (updateClient env c message) first result last) :
    (first.storage.frozen c).getD false = false ∧
      (last.storage.clients =
          ⟨first.storage.nextClientId, first.storage.clientType, first.storage.clientLcAddr,
            Function.update first.storage.frozen c (some true)⟩ ∨
        last.storage.clients = first.storage.clients) := by
  obtain ⟨hlive, lcAddr, ext, -, ⟨-, -, -, hstorage⟩ | ⟨-, -, hstorage⟩⟩ :=
    returns_updateClient_calls h
  · exact ⟨hlive, .inl (congrArg Storage.clients hstorage)⟩
  · exact ⟨hlive, .inr (congrArg Storage.clients hstorage)⟩

/-! ### The other calls -/

def Ctx.clients (ctx : Ctx X) : ClientTables := ctx.storage.clients

theorem keeps_setStorage {update : Storage → Storage}
    (hupdate : ∀ s, (update s).clients = s.clients) :
    Keeps (Ctx.clients (X := X)) (setStorage update) :=
  .modify fun ctx => hupdate ctx.storage

instance {key value : Bytes} :
    Keeps (Ctx.clients (X := X)) (setStorage fun s => s.write key value) :=
  keeps_setStorage fun _ => rfl

instance {key : Bytes} : Keeps (Ctx.clients (X := X)) (setStorage fun s => s.erase key) :=
  keeps_setStorage fun _ => rfl

instance {clientType : HostString} {address : Address} :
    Keeps Ctx.clients (registerClientType env clientType address) := by
  have hset : Keeps (Ctx.clients (X := X)) (setStorage fun s => { s with
      clientTypeAddr := Function.update s.clientTypeAddr clientType (some address) }) :=
    keeps_setStorage fun _ => rfl
  unfold registerClientType validateClientType
  infer_instance

instance {c counterpartyClientId : HostString} {chunks : List Bytes} :
    Keeps (Ctx.clients (X := X)) (registerCounterparty c counterpartyClientId chunks) := by
  have hset : Keeps (Ctx.clients (X := X)) (setStorage fun s => { s with
      counterparty := Function.update s.counterparty c
        (some ⟨counterpartyClientId, chunks⟩) }) :=
    keeps_setStorage fun _ => rfl
  unfold registerCounterparty validateCounterpartyClientId
  infer_instance

instance {portId : HostString} {appAddress : Address} :
    Keeps Ctx.clients (registerPort env portId appAddress) := by
  have hset : Keeps (Ctx.clients (X := X)) (setStorage fun s => { s with
      port := Function.update s.port portId (some appAddress) }) :=
    keeps_setStorage fun _ => rfl
  unfold registerPort validatePortId
  infer_instance

theorem Returned.clients_of_keeps {call : Call} {value : call.Result}
    (h : Returned sha256 env call pre value log post)
    (hkeeps : Keeps Ctx.clients (call.exec sha256 env)) :
    post.storage.clients = pre.storage.clients :=
  hkeeps.keeps h

/-- No call but `create_client` and `update_client` writes the tables. -/
theorem Returned.clients_eq {call : Call} {value : call.Result}
    (h : Returned sha256 env call pre value log post)
    (hcreate : ∀ clientType clientState consensusState height,
      call ≠ .createClient clientType clientState consensusState height)
    (hupdate : ∀ c message, call ≠ .updateClient c message) :
    post.storage.clients = pre.storage.clients := by
  cases call with
  | createClient clientType clientState consensusState height =>
      exact absurd rfl (hcreate _ _ _ _)
  | updateClient c message => exact absurd rfl (hupdate _ _)
  | sendPacket | recvPacket | writeAcknowledgement | acknowledgePacket | timeoutPacket =>
      exact (h.lifecycle rfl).clients_eq
  | registerClientType | registerCounterparty | registerPort | counterparty
  | clientLcAddress | portApp =>
      apply h.clients_of_keeps
      unfold Call.exec
      infer_instance
  | lcAddress clientType | frozen clientId =>
      apply h.clients_of_keeps
      unfold Call.exec lcAddress frozen
      infer_instance
  | setPacketCommitment c n commitment | packetCommitment c n | deletePacketCommitment c n =>
      apply h.clients_of_keeps
      unfold Call.exec setPacketCommitment packetCommitment deletePacketCommitment
        packetCommitmentPath
      infer_instance
  | setPacketReceipt c n | hasPacketReceipt c n =>
      apply h.clients_of_keeps
      unfold Call.exec setPacketReceipt hasPacketReceipt packetReceiptPath
      infer_instance
  | setAckCommitment c n hash | acknowledgement c n =>
      apply h.clients_of_keeps
      unfold Call.exec setAckCommitment acknowledgement ackCommitmentPath
      infer_instance

/-! ### Every run -/

/-- Every client has an id below the counter of its type. -/
def ClientTables.Minted (tables : ClientTables) : Prop :=
  ∀ c, tables.clientLcAddr c ≠ none → ∃ clientType n, MintedId clientType n c ∧
    n.toNat < ((tables.nextClientId clientType).getD 0).toNat

/-- What a step does to the tables. -/
inductive TablesStep (tables : ClientTables) : ClientTables → Prop
  | same : TablesStep tables tables
  | created {clientType clientId : HostString} {n : UInt32} {lcAddr : Address}
      (hn : n = (tables.nextClientId clientType).getD 0) (hfits : n.toNat + 1 < 2 ^ 32)
      (hminted : MintedId clientType n clientId) :
      TablesStep tables ⟨Function.update tables.nextClientId clientType (some (n + 1)),
        Function.update tables.clientType clientId (some clientType),
        Function.update tables.clientLcAddr clientId (some lcAddr), tables.frozen⟩
  | froze {c : HostString} :
      TablesStep tables ⟨tables.nextClientId, tables.clientType, tables.clientLcAddr,
        Function.update tables.frozen c (some true)⟩

theorem Returned.tablesStep {call : Call} {value : call.Result}
    (h : Returned sha256 env call pre value log post) :
    TablesStep pre.storage.clients post.storage.clients := by
  by_cases hcreate : ∃ clientType clientState consensusState height,
      call = .createClient clientType clientState consensusState height
  · obtain ⟨clientType, clientState, consensusState, height, rfl⟩ := hcreate
    obtain ⟨n, lcAddr, -, hn, hfits, hminted, -, htables⟩ := returns_createClient_tables h
    have hpost : post.storage.clients = _ := htables
    rw [hpost]
    exact .created hn hfits hminted
  by_cases hupdate : ∃ c message, call = .updateClient c message
  · obtain ⟨c, message, rfl⟩ := hupdate
    obtain ⟨-, hfroze | hsame⟩ := returns_updateClient_tables h
    · have hpost : post.storage.clients = _ := hfroze
      rw [hpost]
      exact .froze
    · have hpost : post.storage.clients = pre.storage.clients := hsame
      rw [hpost]
      exact .same
  · have hsame : post.storage.clients = pre.storage.clients := by
      refine h.clients_eq ?_ ?_
      · rintro clientType clientState consensusState height rfl
        exact hcreate ⟨_, _, _, _, rfl⟩
      · rintro c message rfl
        exact hupdate ⟨_, _, rfl⟩
    rw [hsame]
    exact .same

theorem Step.tablesStep {act : Act X} (h : Step sha256 pre act post) :
    TablesStep pre.storage.clients post.storage.clients := by
  cases act with
  | elsewhere =>
      have hsame : post.storage = pre.storage := h
      rw [hsame]
      exact .same
  | tx tx =>
      obtain ⟨env, call, outcome⟩ := tx
      cases outcome with
      | aborted =>
          have hsame : post = pre := h.2
          rw [hsame]
          exact .same
      | returned value log => exact h.returned.tablesStep

variable {tables tables' : ClientTables}

/-- A new id is above all the ids of its type. -/
theorem ClientTables.Minted.fresh (hminted : tables.Minted) {clientType clientId : HostString}
    (hnew : MintedId clientType ((tables.nextClientId clientType).getD 0) clientId) :
    tables.clientLcAddr clientId = none := by
  by_contra hpresent
  obtain ⟨clientType', n', hold, hlt⟩ := hminted clientId hpresent
  obtain ⟨rfl, rfl⟩ := hnew.injective hold
  exact Nat.lt_irrefl _ hlt

theorem ClientTables.Minted.step (hminted : tables.Minted) (hstep : TablesStep tables tables') :
    tables'.Minted := by
  cases hstep with
  | same => exact hminted
  | froze => exact hminted
  | @created clientType clientId n lcAddr hn hfits hnew =>
      have hnext : (n + 1).toNat = n.toNat + 1 := by
        rw [UInt32.toNat_add]
        exact Nat.mod_eq_of_lt hfits
      intro c hpresent
      by_cases hc : c = clientId
      · subst hc
        refine ⟨clientType, n, hnew, ?_⟩
        simp only [Function.update_self, Option.getD_some]
        omega
      · simp only [Function.update_of_ne hc] at hpresent
        obtain ⟨clientType', n', hold, hlt⟩ := hminted c hpresent
        refine ⟨clientType', n', hold, ?_⟩
        by_cases htype : clientType' = clientType
        · subst htype
          simp only [Function.update_self, Option.getD_some]
          rw [← hn] at hlt
          omega
        · simpa only [Function.update_of_ne htype] using hlt

/-- The light client of a client stays. -/
theorem TablesStep.clientLcAddr_stays (hstep : TablesStep tables tables')
    (hminted : tables.Minted) {c : HostString} {lcAddr : Address}
    (hlc : tables.clientLcAddr c = some lcAddr) : tables'.clientLcAddr c = some lcAddr := by
  cases hstep with
  | same => exact hlc
  | froze => exact hlc
  | @created clientType clientId n lcAddr' hn hfits hnew =>
      have hne : c ≠ clientId := by
        rintro rfl
        rw [hn] at hnew
        rw [hminted.fresh hnew] at hlc
        cases hlc
      simpa only [Function.update_of_ne hne] using hlc

/-- A frozen client stays frozen. -/
theorem TablesStep.frozen_stays (hstep : TablesStep tables tables') {c : HostString}
    (hfrozen : tables.frozen c = some true) : tables'.frozen c = some true := by
  cases hstep with
  | same => exact hfrozen
  | created hn hfits hnew => exact hfrozen
  | @froze c' =>
      by_cases hc : c = c'
      · simp [hc]
      · simpa only [Function.update_of_ne hc] using hfrozen

theorem minted_of_run {history : List (Entry (State X) (Act X))} {state : State X}
    (hrun : Run sha256 history state) : state.storage.clients.Minted := by
  apply hrun.invariant fun _ state => state.storage.clients.Minted
  · rintro state ⟨admin, hstorage⟩ c hpresent
    rw [hstorage] at hpresent
    exact absurd rfl hpresent
  · intro history entry _ hminted hstep
    exact hminted.step hstep.tablesStep

end StellarIbc.Router
