import Mathlib.Algebra.BigOperators.Finprod
import Mathlib.Data.Finite.Sum
import Mathlib.Data.Set.Finite.List
import StellarIbc.TransferBalances

/-!
# The supply of a denomination

What all addresses hold of a denomination changes only where units come into the contract:
`mint` and a received packet.  A transfer and its refund move units between the sender and
the escrow, in two writes that may go to the same balance; everything else leaves every
balance as it was.  So in every run the supply is what was minted plus what was received.
-/

namespace StellarIbc.Transfer

open Contract

variable {X : Type} {codec : Codec} {env : Env X} {pre post : Ctx X} {s s' : Storage}

/-! ### Sums over all addresses -/

/-- An address is a kind and 32 bytes, so a sum over all of them is a finite one. -/
instance finite_address : Finite Address := by
  have : Finite UInt8 := .of_injective UInt8.toFin fun _ _ => UInt8.toFin_inj.mp
  have : Finite (BytesN 32) := List.finite_length_eq UInt8 32
  refine .of_injective (fun address : Address => match address with
    | .account key => (Sum.inl key : BytesN 32 ⊕ BytesN 32)
    | .contract id => .inr id) ?_
  intro left right h
  cases left <;> cases right <;> simp_all

noncomputable def Storage.supply (s : Storage) (denom : HostString) : ℤ :=
  finsum fun who => (s.balanceOf who denom).val

theorem finsum_at (who : Address) (denom coin : HostString) (amount : ℤ) :
    (finsum fun who' => if who' = who ∧ coin = denom then amount else 0) =
      if coin = denom then amount else 0 := by
  rw [finsum_eq_single _ who]
  · simp
  · intro other hother
    simp [hother]

/-- `amount` of `denom` was added to the balance of `who`, and no other balance changed. -/
def Adds (who : Address) (denom : HostString) (amount : ℤ) (pre post : Storage) : Prop :=
  ∀ who' coin, (post.balanceOf who' coin).val = (pre.balanceOf who' coin).val +
    if who' = who ∧ coin = denom then amount else 0

theorem Adds.supply {who : Address} {denom : HostString} {amount : ℤ}
    (h : Adds who denom amount s s') (coin : HostString) :
    s'.supply coin = s.supply coin + if coin = denom then amount else 0 := by
  unfold Storage.supply
  rw [finsum_congr fun who' => h who' coin,
    finsum_add_distrib (Set.toFinite _) (Set.toFinite _), finsum_at]

/-- What is taken from one address and given to another, or to the same one, changes no
supply. -/
theorem Moves.supply {source target : Address} {denom : HostString} {amount : I128}
    (h : Moves source target denom amount s s') (coin : HostString) :
    s'.supply coin = s.supply coin := by
  unfold Storage.supply
  rw [finsum_congr fun who' => h who' coin,
    finsum_add_distrib (Set.toFinite _) (Set.toFinite _),
    finsum_sub_distrib (Set.toFinite _) (Set.toFinite _), finsum_at, finsum_at, sub_add_cancel]

/-- Only the two addresses, and only their balance of `denom`. -/
theorem Moves.balanceOf_eq {source target : Address} {denom : HostString} {amount : I128}
    (h : Moves source target denom amount s s') {who : Address} {coin : HostString}
    (hother : coin = denom → who ≠ source ∧ who ≠ target) :
    s'.balanceOf who coin = s.balanceOf who coin := by
  have hsource : ¬ (who = source ∧ coin = denom) := fun hwho => (hother hwho.2).1 hwho.1
  have htarget : ¬ (who = target ∧ coin = denom) := fun hwho => (hother hwho.2).2 hwho.1
  have hbalance := h who coin
  rw [if_neg hsource, if_neg htarget, sub_zero, add_zero] at hbalance
  exact Subtype.ext hbalance

/-! ### What a call does to the balances -/

theorem adds_setBalance {who : Address} {denom : HostString} {sum : I128} {amount : ℤ}
    (hsum : sum.val = (s.balanceOf who denom).val + amount) :
    Adds who denom amount s (s.setBalance who denom sum) := by
  intro who' coin
  rw [Storage.balanceOf_setBalance]
  by_cases h : who' = who ∧ coin = denom
  · rw [if_pos h, if_pos h, h.1, h.2, hsum]
  · rw [if_neg h, if_neg h, add_zero]

/-- The sender, the escrow and the denomination of a transfer. -/
structure Parties where
  sender : Address
  escrow : Address
  denom : HostString

/-- Those of a refund of the payload. -/
def refundParties (codec : Codec) (env : Env X) (value : Bytes) : Option Parties := do
  let packet ← codec.packetFromXdr value
  let sender ← stringToAddress codec packet.sender
  return ⟨sender, env.self, packet.token.denom⟩

/-- The transfer that a call which returns starts or refunds. -/
def Call.parties (codec : Codec) (env : Env X) : Call → Option Parties
  | .initiateTransfer sender _ denom _ _ _ _ => some ⟨sender, env.self, denom⟩
  | .onAcknowledgementPacket callback =>
      if isSuccessAck callback.acknowledgement then none
      else refundParties codec env callback.payload.value
  | .onTimeoutPacket callback => refundParties codec env callback.payload.value
  | _ => none

/-- What a `mint` that returns adds to the supply of `denom`. -/
def Call.minted (denom : HostString) : Call → ℤ
  | .mint _ coin amount => if denom = coin then amount.val else 0
  | _ => 0

/-- What a packet received by a callback that returns adds to it. -/
def Call.received (codec : Codec) (denom : HostString) : Call → ℤ
  | .onRecvPacket callback =>
      match codec.packetFromXdr callback.payload.value with
      | some packet => if denom = packet.token.denom then packet.token.amount.val else 0
      | none => 0
  | _ => 0

/-- The call brings units into the contract. -/
def Call.Issues : Call → Prop
  | .mint .. => True
  | .onRecvPacket _ => True
  | _ => False

/-- No balance but those of the parties, in their denomination, changed, and no supply. -/
structure Conserves (parties : Option Parties) (pre post : Storage) : Prop where
  supply : ∀ denom, post.supply denom = pre.supply denom
  others : ∀ who denom,
    (∀ p ∈ parties, denom = p.denom → who ≠ p.sender ∧ who ≠ p.escrow) →
    post.balanceOf who denom = pre.balanceOf who denom

theorem Conserves.of_balance_eq {parties : Option Parties}
    (h : ∀ who denom, s'.balanceOf who denom = s.balanceOf who denom) :
    Conserves parties s s' := by
  refine ⟨?_, fun who denom _ => h who denom⟩
  intro denom
  unfold Storage.supply
  exact finsum_congr fun who => congrArg Subtype.val (h who denom)

theorem Moves.conserves {source target : Address} {denom : HostString} {amount : I128}
    {p : Parties} (h : Moves source target denom amount s s') (hdenom : denom = p.denom)
    (hsource : source = p.sender ∨ source = p.escrow)
    (htarget : target = p.sender ∨ target = p.escrow) : Conserves (some p) s s' := by
  refine ⟨h.supply, ?_⟩
  intro who coin hother
  apply h.balanceOf_eq
  intro hcoin
  obtain ⟨hsender, hescrow⟩ := hother p rfl (hcoin.trans hdenom)
  constructor
  · rcases hsource with rfl | rfl
    · exact hsender
    · exact hescrow
  · rcases htarget with rfl | rfl
    · exact hsender
    · exact hescrow

theorem Refunds.conserves {value : Bytes} (h : Refunds codec env value pre post) :
    Conserves (refundParties codec env value) pre.storage post.storage := by
  obtain ⟨packet, hpacket, hrefund⟩ := h
  obtain ⟨sender, middle, hsender, hdebit, hcredit⟩ := returns_refund.mp hrefund
  have hparties : refundParties codec env value =
      some ⟨sender, env.self, packet.token.denom⟩ := by
    simp [refundParties, hpacket, hsender]
  rw [hparties]
  exact (moves_of_debit_credit hdebit hcredit).conserves rfl (.inr rfl) (.inl rfl)

/-- A call that brings in nothing conserves every supply. -/
theorem conserves_of_returns {call : Call} {value : call.Result}
    (h : Returns (call.exec codec env) pre value post) (hissues : ¬ call.Issues) :
    Conserves (call.parties codec env) pre.storage post.storage := by
  cases call with
  | setRateLimit denom cap =>
      simp only [Call.exec, setRateLimit, returns_bind, returns_storage, returns_unwrapOr,
        returns_requireAuth, returns_panicIf, returns_setStorage] at h
      obtain ⟨_, _, ⟨rfl, rfl⟩, _, _, ⟨-, rfl⟩, _, _, ⟨-, rfl⟩, _, _, ⟨-, rfl⟩, rfl⟩ := h
      exact .of_balance_eq fun _ _ => rfl
  | dailyCap denom =>
      simp only [Call.exec, dailyCap, returns_bind, returns_storage, returns_pure] at h
      obtain ⟨_, _, ⟨-, rfl⟩, -, rfl⟩ := h
      exact .of_balance_eq fun _ _ => rfl
  | dailyUsage denom =>
      simp only [Call.exec, dailyUsage, returns_bind, returns_storage, returns_pure] at h
      obtain ⟨_, _, ⟨-, rfl⟩, -, rfl⟩ := h
      exact .of_balance_eq fun _ _ => rfl
  | mint recipient denom amount => exact absurd trivial hissues
  | balanceOf who denom =>
      simp only [Call.exec, balanceOf, returns_bind, returns_storage, returns_pure] at h
      obtain ⟨_, _, ⟨-, rfl⟩, -, rfl⟩ := h
      exact .of_balance_eq fun _ _ => rfl
  | initiateTransfer sender client denom amount receiver timeout memo =>
      obtain ⟨text, json, hspec⟩ := returns_initiateTransfer h
      exact hspec.escrowed.conserves rfl (.inl rfl) (.inr rfl)
  | onRecvPacket callback => exact absurd trivial hissues
  | onAcknowledgementPacket callback =>
      obtain ⟨-, -, ⟨-, rfl⟩ | ⟨hack, hrefunds⟩⟩ := returns_onAcknowledgementPacket.mp h
      · exact .of_balance_eq fun _ _ => rfl
      · rw [Call.parties, if_neg hack]
        exact hrefunds.conserves
  | onTimeoutPacket callback =>
      obtain ⟨-, -, hrefunds⟩ := returns_onTimeoutPacket.mp h
      exact hrefunds.conserves

theorem supply_of_returns {call : Call} {value : call.Result}
    (h : Returns (call.exec codec env) pre value post) (denom : HostString) :
    post.storage.supply denom =
      pre.storage.supply denom + (call.minted denom + call.received codec denom) := by
  have hconserved : ¬ call.Issues → call.minted denom = 0 → call.received codec denom = 0 →
      post.storage.supply denom =
        pre.storage.supply denom + (call.minted denom + call.received codec denom) := by
    intro hissues hminted hreceived
    rw [hminted, hreceived, (conserves_of_returns h hissues).supply, add_zero, add_zero]
  cases call with
  | mint recipient coin amount =>
      simp only [Call.exec, mint, returns_bind, returns_storage, returns_orTrap,
        returns_panicIf, returns_setStorage, I128.checkedAdd_eq_some_iff] at h
      obtain ⟨_, _, ⟨-, rfl⟩, _, _, ⟨rfl, rfl⟩, sum, _, ⟨hsum, rfl⟩, rfl⟩ := h
      rw [(adds_setBalance hsum).supply]
      simp [Call.minted, Call.received]
  | onRecvPacket callback =>
      obtain ⟨-, -, packet, receiver, hpacket, -, -, hcredit⟩ := returns_onRecvPacket.mp h
      obtain ⟨sum, hsum, rfl⟩ := returns_credit.mp hcredit
      rw [(adds_setBalance hsum).supply]
      simp [Call.minted, Call.received, hpacket]
  | setRateLimit coin cap => exact hconserved id rfl rfl
  | dailyCap coin => exact hconserved id rfl rfl
  | dailyUsage coin => exact hconserved id rfl rfl
  | balanceOf who coin => exact hconserved id rfl rfl
  | initiateTransfer sender client coin amount receiver timeout memo =>
      exact hconserved id rfl rfl
  | onAcknowledgementPacket callback => exact hconserved id rfl rfl
  | onTimeoutPacket callback => exact hconserved id rfl rfl

/-! ### Runs -/

/-- What a step adds by a `mint`; a call that aborts adds nothing. -/
def Act.minted (denom : HostString) : Act X → ℤ
  | .invoke _ call (.returned _) => call.minted denom
  | _ => 0

def Act.received (codec : Codec) (denom : HostString) : Act X → ℤ
  | .invoke _ call (.returned _) => call.received codec denom
  | _ => 0

/-- The step is a call that returned and brought units into the contract. -/
def Act.Issues : Act X → Prop
  | .invoke _ call (.returned _) => call.Issues
  | _ => False

def Act.parties (codec : Codec) : Act X → Option Parties
  | .invoke env call (.returned _) => call.parties codec env
  | _ => none

theorem Step.supply {act : Act X} (hstep : Step codec pre act post) (denom : HostString) :
    post.storage.supply denom =
      pre.storage.supply denom + (act.minted denom + act.received codec denom) := by
  cases act with
  | invoke env call outcome =>
      cases outcome with
      | returned value => exact supply_of_returns hstep denom
      | aborted =>
          have hsame : post = pre := hstep.2
          simp [hsame, Act.minted, Act.received]
  | elsewhere =>
      have hsame : post.storage = pre.storage := hstep
      simp [hsame, Act.minted, Act.received]

theorem Step.conserves {act : Act X} (hstep : Step codec pre act post)
    (hissues : ¬ act.Issues) :
    Conserves (act.parties codec) pre.storage post.storage := by
  cases act with
  | invoke env call outcome =>
      cases outcome with
      | returned value => exact conserves_of_returns hstep hissues
      | aborted =>
          have hsame : post = pre := hstep.2
          exact .of_balance_eq fun _ _ => by rw [hsame]
  | elsewhere =>
      have hsame : post.storage = pre.storage := hstep
      exact .of_balance_eq fun _ _ => by rw [hsame]

theorem supply_initial (router admin : Address) (denom : HostString) :
    (Storage.initial router admin).supply denom = 0 :=
  finsum_zero

theorem supply_of_run {history : List (Entry (Ctx X) (Act X))} {ctx : Ctx X}
    (hrun : Run codec history ctx) (denom : HostString) :
    ctx.storage.supply denom =
      (history.map fun entry => entry.act.minted denom).sum +
        (history.map fun entry => entry.act.received codec denom).sum := by
  refine hrun.invariant (fun history ctx => ctx.storage.supply denom =
    (history.map fun entry => entry.act.minted denom).sum +
      (history.map fun entry => entry.act.received codec denom).sum) ?_ ?_
  · rintro ctx ⟨router, admin, hstorage⟩
    rw [hstorage, supply_initial]
    rfl
  · intro history entry hprev ih hstep
    rw [hstep.supply denom, ih, List.map_append, List.map_append, List.sum_append,
      List.sum_append, List.map_singleton, List.map_singleton, List.sum_singleton,
      List.sum_singleton, add_add_add_comm]

/-- **Supply is conserved.**  In every run the supply of a denomination is what was minted
plus what was received of it, and every step but these two keeps all supplies and all
balances other than those of the sender and the escrow in the denomination moved. -/
theorem supply_conserved {history : List (Entry (Ctx X) (Act X))} {ctx : Ctx X}
    (hrun : Run codec history ctx) :
    (∀ denom, ctx.storage.supply denom =
      (history.map fun entry => entry.act.minted denom).sum +
        (history.map fun entry => entry.act.received codec denom).sum) ∧
    ∀ entry ∈ history, ¬ entry.act.Issues →
      Conserves (entry.act.parties codec) entry.pre.storage entry.post.storage := by
  refine ⟨supply_of_run hrun, ?_⟩
  intro entry hmem hissues
  exact (hrun.step_of_mem hmem).conserves hissues

/-- Minted 100, received 250. -/
theorem supply_conserved_paid :
    (executeIncoming paid).2.storage.supply (ascii "stroop") = 350 := by
  rw [(supply_conserved (run_incoming paid)).1]
  decide +kernel

end StellarIbc.Transfer
