import StellarIbc.Router
import StellarIbc.Transfer

/-!
# The router together with the transfer contract

One ledger with both contracts on it.  A call of the router runs the callbacks of the
transfer contract on the transfer contract's storage, and `initiate_transfer` runs
`send_packet` on the router's; calls into any other contract are arbitrary.  The host
forbids re-entry, so a callback cannot reach the router that called it.  A contract
authorises what it calls itself.
-/

namespace StellarIbc.TransferSystem

open Contract

variable {Y : Type}

/-- The addresses of the two contracts. -/
structure Deployment where
  router : Address
  transfer : Address

/-- The storage of the two contracts and the state of all others. -/
structure World (Y : Type) where
  router : Router.Storage
  transfer : Transfer.Storage
  others : Y

/-- The host of one transaction.  A contract that the router calls may call the transfer
contract in turn, so it may change that contract's storage too. -/
structure Host (Y : Type) where
  timestamp : UInt64
  authorized : Address → Bool
  invoke : Address → (call : Router.Invocation) → Transfer.Storage × Y →
    Option (call.Result × (Transfer.Storage × Y))

/-! ### Calls between the contracts -/

/-- The transfer contract while the router calls it. -/
def Deployment.callbackEnv (d : Deployment) (host : Host Y) : Transfer.Env Y where
  self := d.transfer
  timestamp := host.timestamp
  authorized address := decide (address = d.router) || host.authorized address
  sendPacket _ _ _ _ _ := none

/-- A callback as the router sees it: an abort is a failed call. -/
def runCallback {α : Type} (program : Transfer.TransferM Y α) (ext : Transfer.Storage × Y) :
    Option (α × (Transfer.Storage × Y)) :=
  match program.run ⟨ext.1, ext.2⟩ with
  | .ok (value, ctx) => some (value, (ctx.storage, ctx.ext))
  | .error _ => none

/-- What the transfer contract does when the router calls it. -/
def Deployment.answer (d : Deployment) (codec : Transfer.Codec) (host : Host Y) :
    (call : Router.Invocation) → Transfer.Storage × Y →
      Option (call.Result × (Transfer.Storage × Y))
  | .onRecvPacket callback, ext =>
      runCallback (Transfer.onRecvPacket codec (d.callbackEnv host) callback) ext
  | .onAcknowledgementPacket callback, ext =>
      runCallback (Transfer.onAcknowledgementPacket codec (d.callbackEnv host) callback) ext
  | .onTimeoutPacket callback, ext =>
      runCallback (Transfer.onTimeoutPacket codec (d.callbackEnv host) callback) ext
  | _, _ => none

/-- The router of this ledger. -/
def Deployment.routerEnv (d : Deployment) (codec : Transfer.Codec) (host : Host Y) :
    Router.Env (Transfer.Storage × Y) where
  timestamp := host.timestamp
  authorized := host.authorized
  invoke callee call ext :=
    if callee = d.transfer then d.answer codec host call ext else host.invoke callee call ext

/-- The router while the transfer contract calls it; `send_packet` calls nobody. -/
def Deployment.sendEnv (d : Deployment) (host : Host Y) : Router.Env Y where
  timestamp := host.timestamp
  authorized address := decide (address = d.transfer) || host.authorized address
  invoke _ _ _ := none

/-- The transfer contract of this ledger. -/
def Deployment.transferEnv (d : Deployment) (sha256 : Bytes → Hash) (host : Host Y) :
    Transfer.Env (Router.Ctx Y) where
  self := d.transfer
  timestamp := host.timestamp
  authorized := host.authorized
  sendPacket address client timeout payloads ctx :=
    if address = d.router then
      match (Router.sendPacket sha256 (d.sendEnv host) client timeout payloads).run ctx with
      | .ok result => some result
      | .error _ => none
    else
      none

/-! ### Runs -/

/-- How a call of the transfer contract ended, with what the router recorded in it. -/
inductive Outcome (call : Transfer.Call) where
  | returned (value : call.Result) (log : List Router.Effect)
  | aborted

/-- A step: a call of either contract by anyone, or a step of the other contracts. -/
inductive Act (Y : Type) where
  | router (host : Host Y) (call : Router.Call) (outcome : Router.Outcome call)
  | transfer (host : Host Y) (call : Transfer.Call) (outcome : Outcome call)
  | elsewhere

/-- The ledger as the router sees it. -/
def World.routerState (world : World Y) : Router.State (Transfer.Storage × Y) :=
  ⟨world.router, (world.transfer, world.others)⟩

/-- The ledger as the transfer contract sees it, with the router's record `log`. -/
def World.transferCtx (world : World Y) (log : List Router.Effect) :
    Transfer.Ctx (Router.Ctx Y) :=
  ⟨world.transfer, ⟨world.router, world.others, log⟩⟩

variable (d : Deployment) (codec : Transfer.Codec) (sha256 : Bytes → Hash)

def Step (pre : World Y) (act : Act Y) (post : World Y) : Prop :=
  match act with
  | .router host call outcome =>
      Router.Tx.Step sha256 pre.routerState ⟨d.routerEnv codec host, call, outcome⟩
        post.routerState
  | .transfer host call (.returned value log) =>
      Returns (call.exec codec (d.transferEnv sha256 host)) (pre.transferCtx []) value
        (post.transferCtx log)
  | .transfer host call .aborted =>
      Aborts (call.exec codec (d.transferEnv sha256 host)) (pre.transferCtx []) ∧ post = pre
  | .elsewhere => post.router = pre.router ∧ post.transfer = pre.transfer

/-- Both contracts were just deployed, and the transfer contract knows its router. -/
def Init (world : World Y) : Prop :=
  ∃ routerAdmin admin, world.router = .initial routerAdmin ∧
    world.transfer = .initial d.router admin

/-- Every run of the two contracts. -/
abbrev Run : List (Entry (World Y) (Act Y)) → World Y → Prop :=
  Reach (Init d) (Step d codec sha256)

/-! ### Executing a run -/

/-- Execute a call of the router and record it. -/
def World.callRouter (world : World Y) (host : Host Y) (call : Router.Call) :
    Entry (World Y) (Act Y) :=
  match (call.exec sha256 (d.routerEnv codec host)).run
      ⟨world.router, (world.transfer, world.others), []⟩ with
  | .ok (value, ctx) =>
      ⟨world, .router host call (.returned value ctx.log), ⟨ctx.storage, ctx.ext.1, ctx.ext.2⟩⟩
  | .error _ => ⟨world, .router host call .aborted, world⟩

/-- Execute a call of the transfer contract and record it. -/
def World.callTransfer (world : World Y) (host : Host Y) (call : Transfer.Call) :
    Entry (World Y) (Act Y) :=
  match (call.exec codec (d.transferEnv sha256 host)).run (world.transferCtx []) with
  | .ok (value, ctx) =>
      ⟨world, .transfer host call (.returned value ctx.ext.log),
        ⟨ctx.ext.storage, ctx.storage, ctx.ext.ext⟩⟩
  | .error _ => ⟨world, .transfer host call .aborted, world⟩

/-- Execute one call of either contract. -/
def World.execute (world : World Y) (host : Host Y) :
    Router.Call ⊕ Transfer.Call → Entry (World Y) (Act Y)
  | .inl call => world.callRouter d codec sha256 host call
  | .inr call => world.callTransfer d codec sha256 host call

/-- Execute calls one after the other from `world`, which `history` led to. -/
def World.executeAll (history : List (Entry (World Y) (Act Y))) (world : World Y)
    (calls : List (Host Y × (Router.Call ⊕ Transfer.Call))) :
    List (Entry (World Y) (Act Y)) × World Y :=
  feed (fun world call => world.execute d codec sha256 call.1 call.2) history world calls

variable {d codec sha256}

theorem World.execute_step (world : World Y) (host : Host Y)
    (call : Router.Call ⊕ Transfer.Call) :
    (world.execute d codec sha256 host call).pre = world ∧
      Step d codec sha256 world (world.execute d codec sha256 host call).act
        (world.execute d codec sha256 host call).post := by
  cases call with
  | inl call =>
      simp only [World.execute, World.callRouter]
      cases hrun : (call.exec sha256 (d.routerEnv codec host)).run
          ⟨world.router, (world.transfer, world.others), []⟩ with
      | error panic => exact ⟨rfl, ⟨panic, hrun⟩, rfl⟩
      | ok outcome => exact ⟨rfl, hrun⟩
  | inr call =>
      simp only [World.execute, World.callTransfer]
      cases hrun : (call.exec codec (d.transferEnv sha256 host)).run
          (world.transferCtx []) with
      | error panic => exact ⟨rfl, ⟨panic, hrun⟩, rfl⟩
      | ok outcome => exact ⟨rfl, hrun⟩

/-- A call of the transfer contract that returned is recorded with what it returned. -/
theorem World.execute_transfer {world : World Y} {host : Host Y} {call : Transfer.Call}
    {value : call.Result} {ctx : Transfer.Ctx (Router.Ctx Y)}
    (h : Returns (call.exec codec (d.transferEnv sha256 host)) (world.transferCtx []) value
      ctx) :
    (world.execute d codec sha256 host (.inr call)).act =
      .transfer host call (.returned value ctx.ext.log) := by
  have hrun : (call.exec codec (d.transferEnv sha256 host)).run (world.transferCtx []) =
      .ok (value, ctx) := h
  simp only [World.execute, World.callTransfer, hrun]

theorem Run.execute {history : List (Entry (World Y) (Act Y))} {world : World Y}
    (hrun : Run d codec sha256 history world) (host : Host Y)
    (call : Router.Call ⊕ Transfer.Call) :
    Run d codec sha256 (history ++ [world.execute d codec sha256 host call])
      (world.execute d codec sha256 host call).post := by
  obtain ⟨hpre, hstep⟩ := world.execute_step host call
  exact hrun.extend hpre hstep

theorem Run.executeAll {history : List (Entry (World Y) (Act Y))} {world : World Y}
    (hrun : Run d codec sha256 history world)
    (calls : List (Host Y × (Router.Call ⊕ Transfer.Call))) :
    Run d codec sha256 (world.executeAll d codec sha256 history calls).1
      (world.executeAll d codec sha256 history calls).2 := by
  refine Reach.feed_of_step ?_ hrun calls
  intro world item
  exact world.execute_step item.1 item.2

end StellarIbc.TransferSystem
