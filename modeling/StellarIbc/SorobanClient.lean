import StellarIbc.RouterTypes
import StellarIbc.ScVal
import StellarIbc.Trace

/-!
# What the Soroban light clients share

The attestation and the tendermint light client have the same twelve entrypoints and keep
the same three kinds of entries for a client: its state, a consensus state for each height
and a frozen flag.  Only the types of the states and the bodies differ.  Anyone can call
every entrypoint; a run is any sequence of calls on a contract that starts empty.
-/

namespace StellarIbc.SorobanClient

open Contract

/-! ### Storage -/

/-- The entries under `DataKey`: `Client`, `Consensus` and `Frozen`. -/
structure Store (κ τ : Type) where
  client : HostString → Option κ
  consensus : HostString → UInt64 → Option τ
  frozen : HostString → Option Bool

variable {ε κ τ α : Type}

def Store.empty : Store κ τ where
  client _ := none
  consensus _ _ := none
  frozen _ := none

@[simps]
def Store.setClient (s : Store κ τ) (clientId : HostString) (state : κ) : Store κ τ :=
  { s with client := Function.update s.client clientId (some state) }

@[simps]
def Store.setConsensus (s : Store κ τ) (clientId : HostString) (height : UInt64)
    (consensus : τ) : Store κ τ :=
  { s with
    consensus := Function.update s.consensus clientId
      (Function.update (s.consensus clientId) height (some consensus)) }

@[simps]
def Store.setFrozen (s : Store κ τ) (clientId : HostString) : Store κ τ :=
  { s with frozen := Function.update s.frozen clientId (some true) }

theorem Store.setConsensus_self (s : Store κ τ) (clientId : HostString) (height : UInt64)
    (consensus : τ) : (s.setConsensus clientId height consensus).consensus clientId =
      Function.update (s.consensus clientId) height (some consensus) :=
  Function.update_self ..

theorem Store.setConsensus_of_ne (s : Store κ τ) {other clientId : HostString}
    (hne : other ≠ clientId) (height : UInt64) (consensus : τ) :
    (s.setConsensus clientId height consensus).consensus other = s.consensus other :=
  Function.update_of_ne hne ..

/-! ### Decoding -/

/-- `T::from_xdr`: the host traps on bytes that are no XDR of a value, and the conversion
of a value to the type can fail. -/
inductive Decoded (α : Type) where
  | trapped
  | mismatch
  | decoded (value : α)
deriving DecidableEq

/-- `T::from_xdr(env, bytes).unwrap_or_else(|_| panic_with_error!(env, code))`. -/
def decodeOr (decoded : Decoded α) (code : ε) : Contract ε (Store κ τ) α :=
  match decoded with
  | .trapped => throw .trap
  | .mismatch => throw (.error code)
  | .decoded value => pure value

@[simp] theorem returns_decodeOr {decoded : Decoded α} {code : ε} {pre post : Store κ τ}
    {result : α} :
    Returns (decodeOr decoded code) pre result post ↔
      decoded = .decoded result ∧ post = pre := by
  cases decoded with
  | trapped => simp [decodeOr]
  | mismatch => simp [decodeOr]
  | decoded value => simp [decodeOr, eq_comm]

instance {υ : Type} {view : Store κ τ → υ} {decoded : Decoded α} {code : ε} :
    Keeps view (decodeOr decoded code) where
  keeps h := by rw [(returns_decodeOr.mp h).2]

/-! ### Entrypoints -/

inductive Call where
  | initialise (clientId : HostString) (clientState consensusState : Bytes)
      (height : UInt64)
  | latestHeight (clientId : HostString)
  | clientState (clientId : HostString)
  | consensusState (clientId : HostString) (height : UInt64)
  | verifyClientMessage (clientId : HostString) (clientMessage : Bytes)
  | checkForMisbehaviour (clientId : HostString) (clientMessage : Bytes)
  | updateState (clientId : HostString) (clientMessage : Bytes)
  | updateStateOnMisbehaviour (clientId : HostString) (clientMessage : Bytes)
  | frozen (clientId : HostString)
  | verifyMembership (clientId : HostString) (height : UInt64) (proof path value : Bytes)
  | verifyNonMembership (clientId : HostString) (height : UInt64) (proof path : Bytes)
  | getTimestampAtHeight (clientId : HostString) (height : UInt64)
deriving DecidableEq

abbrev Call.Result : Call → Type
  | .initialise .. => Unit
  | .latestHeight .. => UInt64
  | .clientState .. => Bytes
  | .consensusState .. => Bytes
  | .verifyClientMessage .. => Bytes × UInt64
  | .checkForMisbehaviour .. => Bool
  | .updateState .. => UInt64
  | .updateStateOnMisbehaviour .. => Unit
  | .frozen .. => Bool
  | .verifyMembership .. => Bool
  | .verifyNonMembership .. => Bool
  | .getTimestampAtHeight .. => UInt64

/-- A light client contract: what each entrypoint does. -/
abbrev Machine (ε κ τ : Type) := (call : Call) → Contract ε (Store κ τ) call.Result

/-! ### Runs -/

inductive Outcome (call : Call) where
  | returned (value : call.Result)
  | aborted

structure Tx where
  call : Call
  outcome : Outcome call

def Step (machine : Machine ε κ τ) (pre : Store κ τ) (tx : Tx) (post : Store κ τ) : Prop :=
  match tx.outcome with
  | .returned value => Returns (machine tx.call) pre value post
  | .aborted => Aborts (machine tx.call) pre ∧ post = pre

/-- Every run of a light client contract: any calls in any order, by anyone. -/
abbrev Run (machine : Machine ε κ τ) : List (Entry (Store κ τ) Tx) → Store κ τ → Prop :=
  Reach (fun s => s = .empty) (Step machine)

/-- Execute one call and record it. -/
def execute (machine : Machine ε κ τ) (s : Store κ τ) (call : Call) : Entry (Store κ τ) Tx :=
  match (machine call).run s with
  | .ok (value, s') => ⟨s, ⟨call, .returned value⟩, s'⟩
  | .error _ => ⟨s, ⟨call, .aborted⟩, s⟩

def executeAll (machine : Machine ε κ τ) (calls : List Call) :
    List (Entry (Store κ τ) Tx) × Store κ τ :=
  feed (execute machine) [] .empty calls

variable {machine : Machine ε κ τ}

@[simp] theorem execute_pre (s : Store κ τ) (call : Call) :
    (execute machine s call).pre = s := by
  unfold execute
  cases (machine call).run s <;> rfl

@[simp] theorem execute_call (s : Store κ τ) (call : Call) :
    (execute machine s call).act.call = call := by
  unfold execute
  cases (machine call).run s <;> rfl

theorem run_executeAll (machine : Machine ε κ τ) (calls : List Call) :
    Run machine (executeAll machine calls).1 (executeAll machine calls).2 := by
  have hstart : Run machine [] .empty := .start rfl
  refine hstart.feed_of_step ?_ calls
  intro s call
  refine ⟨execute_pre s call, ?_⟩
  unfold execute
  cases hcall : (machine call).run s with
  | error panic => exact ⟨⟨panic, hcall⟩, rfl⟩
  | ok outcome => exact hcall

end StellarIbc.SorobanClient
